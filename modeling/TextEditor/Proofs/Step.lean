import TextEditor.Fault

/-!
# Steps, evaluated

What a step comes to from a given state: the outcome and the state after it.  These equations take
a step apart into the steps that it is written with, so that no proof opens the monad itself.
-/

namespace TextEditor.Step

variable {σ τ α β : Type}

/-- A step that does not come about stops those behind it and keeps its state. -/
theorem start_bind (step : Step σ α) (next : α → Step σ β) (state : σ) :
    (step >>= next).start state =
      match step.start state with
      | (.ok a, state') => (next a).start state'
      | (.error fault, state') => (.error fault, state') := by
  simp only [start, ExceptT.run_bind, StateT.run_bind]
  change (match step.run.run state with | (outcome, state') => _) = _
  rcases step.run.run state with ⟨outcome, state'⟩
  cases outcome <;> rfl

@[simp]
theorem start_pure (a : α) (state : σ) : (pure a : Step σ α).start state = (.ok a, state) := rfl

@[simp]
theorem start_throw (fault : Fault) (state : σ) :
    (throw fault : Step σ α).start state = (.error fault, state) := rfl

@[simp]
theorem start_get (state : σ) : (get : Step σ σ).start state = (.ok state, state) := rfl

@[simp]
theorem start_set (state' state : σ) :
    (set state' : Step σ PUnit).start state = (.ok ⟨⟩, state') := rfl

@[simp]
theorem start_modify (f : σ → σ) (state : σ) :
    (modify f : Step σ PUnit).start state = (.ok ⟨⟩, f state) := rfl

@[simp]
theorem start_ofRun (run : σ → Except Fault α × σ) (state : σ) :
    (ofRun run).start state = run state := rfl

theorem start_zoom (get : σ → τ) (set : σ → τ → σ) (step : Step τ α) (state : σ) :
    (zoom get set step).start state =
      ((step.start (get state)).1, set state (step.start (get state)).2) := rfl

theorem start_ofExcept_ok {ε : Type} (fault : ε → Fault) (a : α) (state : σ) :
    (ofExcept fault (.ok a) : Step σ α).start state = (.ok a, state) := rfl

/-! ## What a step keeps -/

/-- Whether the step comes about or not, the property holds afterwards if it did before. -/
def Keeps (P : σ → Prop) (step : Step σ α) : Prop :=
  ∀ state, P state → P (step.start state).2

namespace Keeps

variable {P : σ → Prop}

theorem pure (a : α) : Keeps P (Pure.pure a : Step σ α) :=
  fun _ h => h

theorem throw (fault : Fault) : Keeps P (MonadExcept.throw fault : Step σ α) :=
  fun _ h => h

theorem ofExcept {ε : Type} (fault : ε → Fault) (value : Except ε α) :
    Keeps P (ofExcept fault value : Step σ α) := by
  cases value with
  | error e => exact Keeps.throw _
  | ok a => exact Keeps.pure a

theorem modify {f : σ → σ} (h : ∀ state, P state → P (f state)) :
    Keeps P (modify f : Step σ PUnit) :=
  h

/-- A step that leaves the property true from one state, with steps behind it that keep it. -/
theorem after {step : Step σ α} {next : α → Step σ β} {state : σ} (h : P (step.start state).2)
    (hnext : ∀ a, Keeps P (next a)) : P ((step >>= next).start state).2 := by
  rw [start_bind]
  generalize step.start state = result at h ⊢
  obtain ⟨outcome, state'⟩ := result
  cases outcome with
  | error fault => exact h
  | ok a => exact hnext a state' h

theorem bind {step : Step σ α} {next : α → Step σ β} (h : Keeps P step)
    (hnext : ∀ a, Keeps P (next a)) : Keeps P (step >>= next) :=
  fun state hstate => after (h state hstate) hnext

/-- A step that begins with a look at the state. -/
theorem get_bind {next : σ → Step σ α} (h : ∀ state, P state → P ((next state).start state).2) :
    Keeps P (get >>= next) := by
  intro state hstate
  rw [start_bind]
  exact h state hstate

theorem foldlM {f : β → α → Step σ β} {items : List α}
    (h : ∀ b, ∀ a ∈ items, Keeps P (f b a)) (b : β) : Keeps P (items.foldlM f b) := by
  induction items generalizing b with
  | nil => exact Keeps.pure b
  | cons a rest ih =>
    rw [List.foldlM_cons]
    refine bind (h b a List.mem_cons_self) fun b' => ih (fun b a ha => ?_) b'
    exact h b a (List.mem_cons_of_mem _ ha)

theorem forM {f : α → Step σ PUnit} {items : List α} (h : ∀ a, Keeps P (f a)) :
    Keeps P (items.forM f) := by
  induction items with
  | nil => exact Keeps.pure _
  | cons a rest ih => exact bind (h a) fun _ => ih

end Keeps

/-! ## How a step may fail -/

/-- The states that steps may lead to from a state, and the faults that they may fail with.  Where
steps have led changes nothing about the faults that may come. -/
structure Bounds (σ : Type) where
  leads : σ → σ → Prop
  fails : σ → Fault → Prop
  refl : ∀ state, leads state state
  trans : ∀ {state state' state''}, leads state state' → leads state' state'' → leads state state''
  back : ∀ {state state' fault}, leads state state' → fails state' fault → fails state fault

/-- The step leads and fails within bounds, from every state. -/
def Within (bounds : Bounds σ) (step : Step σ α) : Prop :=
  ∀ state, bounds.leads state (step.start state).2 ∧
    ∀ fault, (step.start state).1 = .error fault → bounds.fails state fault

namespace Within

variable {bounds : Bounds σ}

theorem pure (a : α) : Within bounds (Pure.pure a : Step σ α) :=
  fun state => ⟨bounds.refl state, nofun⟩

theorem throw {fault : Fault} (h : ∀ state, bounds.fails state fault) :
    Within bounds (MonadExcept.throw fault : Step σ α) := by
  intro state
  refine ⟨bounds.refl state, fun fault' hfault => ?_⟩
  obtain rfl := Except.error.inj hfault
  exact h state

theorem ofExcept {ε : Type} {fault : ε → Fault} {value : Except ε α}
    (h : ∀ e, value = .error e → ∀ state, bounds.fails state (fault e)) :
    Within bounds (ofExcept fault value : Step σ α) := by
  cases value with
  | error e => exact Within.throw (h e rfl)
  | ok a => exact Within.pure a

theorem modify {f : σ → σ} (h : ∀ state, bounds.leads state (f state)) :
    Within bounds (modify f : Step σ PUnit) :=
  fun state => ⟨h state, nofun⟩

theorem bind {step : Step σ α} {next : α → Step σ β} (h : Within bounds step)
    (hnext : ∀ a, Within bounds (next a)) : Within bounds (step >>= next) := by
  intro state
  rw [start_bind]
  obtain ⟨hleads, hfails⟩ := h state
  generalize step.start state = result at hleads hfails ⊢
  obtain ⟨outcome, state'⟩ := result
  cases outcome with
  | error fault =>
    refine ⟨hleads, fun fault' hfault => ?_⟩
    obtain rfl := Except.error.inj hfault
    exact hfails fault rfl
  | ok a =>
    obtain ⟨hleads', hfails'⟩ := hnext a state'
    refine ⟨bounds.trans hleads hleads', fun fault hfault => ?_⟩
    exact bounds.back hleads (hfails' fault hfault)

/-- A step that begins with a look at the state. -/
theorem get_bind {next : σ → Step σ α} (h : ∀ state, Within bounds (next state)) :
    Within bounds (get >>= next) :=
  fun state => h state state

theorem forM {f : α → Step σ PUnit} {items : List α} (h : ∀ a, Within bounds (f a)) :
    Within bounds (items.forM f) := by
  induction items with
  | nil => exact Within.pure _
  | cons a rest ih => exact bind (h a) fun _ => ih

end Within

end TextEditor.Step

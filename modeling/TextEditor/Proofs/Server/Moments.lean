import TextEditor.Proofs.Server.Origins
import TextEditor.Proofs.Server.Turns

/-!
# Moments

A run is cut into moments: at each of them one event is handled, or a turn is taken that handles
none.  Sessions and documents are tidy after every moment.  What a later state owes to an earlier
one is said by the moment at which it came about.
-/

namespace TextEditor.Server

/-- What is done next: one event of the queue is handled, or a turn is taken that handles none. -/
inductive Moment where
  | handle
  | turn (turn : Turn) (hdrain : turn ≠ .deed .drain)

/-- A beat of a trail is a moment. -/
def Beat.moment : Beat → Moment
  | .handle => .handle
  | .other deed hdrain => .turn (.deed deed) fun h => hdrain (Turn.deed.inj h)

namespace Hub

/-- The hub after a moment, whether something fails at it or not. -/
def pass (h : Hub) : Moment → Hub
  | .handle => (handleNext.start h).2
  | .turn turn _ => h.turn turn

/-- The hub after one moment after the other. -/
def after (h₀ : Hub) (moments : List Moment) : Hub :=
  moments.foldl pass h₀

variable {h₀ h : Hub} {moments past : List Moment} {moment : Moment}

theorem after_append (h₀ : Hub) (past : List Moment) (moment : Moment) :
    h₀.after (past ++ [moment]) = (h₀.after past).pass moment := by
  rw [after, after, List.foldl_append]
  rfl

theorem hub_foldl_step (beats : List Beat) (t : Trail) :
    (beats.foldl Trail.step t).hub = t.hub.after (beats.map Beat.moment) := by
  induction beats generalizing t with
  | nil => rfl
  | cons beat rest ih =>
    rw [List.foldl_cons, ih, List.map_cons]
    cases beat <;> rfl

/-- Every run of turns goes from moment to moment. -/
theorem exists_moments (turns : List Turn) (h : Hub) :
    ∃ moments, h.after moments = turns.foldl turn h := by
  induction turns generalizing h with
  | nil => exact ⟨[], rfl⟩
  | cons t rest ih =>
    have hfirst : ∃ moments, h.after moments = h.turn t := by
      cases t with
      | mendPipe client => exact ⟨[.turn (.mendPipe client) nofun], rfl⟩
      | deed deed =>
        obtain ⟨beats, hbeats⟩ := exists_beats_act deed ⟨h, []⟩
        exact ⟨beats.map Beat.moment, (hub_foldl_step beats ⟨h, []⟩).symm.trans hbeats⟩
    obtain ⟨first, hfirst⟩ := hfirst
    obtain ⟨more, hmore⟩ := ih (h.turn t)
    refine ⟨first ++ more, ?_⟩
    rw [after, List.foldl_append, List.foldl_cons, ← hmore, ← hfirst]
    rfl

theorem tidy_pass (htidy : h.face.Tidy) (moment : Moment) : (h.pass moment).face.Tidy := by
  cases moment with
  | handle =>
    have hreached : Reached h .drain nobody [] (handleNext.start h).2 :=
      lasts_reached.handleNext h (.start htidy)
    exact hreached.tidy
  | turn turn hdrain => exact (round_turn htidy turn).tidy htidy

/-- Sessions and documents are tidy after every moment of a run. -/
theorem tidy_after (htidy : h₀.face.Tidy) (moments : List Moment) :
    (h₀.after moments).face.Tidy := by
  induction moments generalizing h₀ with
  | nil => exact htidy
  | cons moment rest ih => exact ih (tidy_pass htidy moment)

/-! ## What came about -/

/-- At some moment of a run this was so, of the hub that the moment found and of the moment. -/
def Once (h₀ : Hub) (moments : List Moment) (event : Hub → Moment → Prop) : Prop :=
  ∃ past moment rest, moments = past ++ moment :: rest ∧ event (h₀.after past) moment

variable {event event' : Hub → Moment → Prop}

theorem Once.append (honce : h₀.Once moments event) (more : List Moment) :
    h₀.Once (moments ++ more) event := by
  obtain ⟨past, moment, rest, rfl, hevent⟩ := honce
  exact ⟨past, moment, rest ++ more, List.append_assoc .., hevent⟩

theorem Once.mono (honce : h₀.Once moments event) (hmono : ∀ h m, event h m → event' h m) :
    h₀.Once moments event' := by
  obtain ⟨past, moment, rest, hmoments, hevent⟩ := honce
  exact ⟨past, moment, rest, hmoments, hmono _ _ hevent⟩

theorem once_last (hevent : event (h₀.after past) moment) :
    h₀.Once (past ++ [moment]) event :=
  ⟨past, moment, [], rfl, hevent⟩

theorem Once.of_append (honce : h₀.Once (past ++ [moment]) event) :
    h₀.Once past event ∨ event (h₀.after past) moment := by
  obtain ⟨before, moment', rest, hmoments, hevent⟩ := honce
  rcases List.eq_nil_or_concat rest with rfl | ⟨rest, last, rfl⟩
  · obtain ⟨rfl, hlast⟩ := List.append_inj' hmoments rfl
    obtain rfl := (List.cons.inj hlast).1
    exact .inr hevent
  · rw [List.concat_eq_append, ← List.cons_append, ← List.append_assoc] at hmoments
    obtain ⟨rfl, -⟩ := List.append_inj' hmoments rfl
    exact .inl ⟨before, moment', rest, rfl, hevent⟩

end Hub

end TextEditor.Server

import TextEditor.Proofs.Workspace.Run

/-!
# The active buffer

As long as a buffer is open one of the open buffers is active, and it stays the active one when
another one is closed, although its place among them may be a new one.  Nothing else that happens to
a workspace moves the focus, except to add a buffer, to focus one, and to close the active one.
-/

namespace TextEditor.Workspace

open Server (Hub)

variable {w w' : Workspace} {id place : Nat} {index : Int}

/-! ## Closing and focusing a place -/

theorem activeAfterClose_lt {active count : Nat} (hactive : active < count + 1)
    (hcount : 0 < count) : activeAfterClose active place count < count := by
  unfold activeAfterClose
  split
  · omega
  · split <;> omega

theorem getElem?_toNat_eq_none (h : ¬ index < 0) (hout : (w.opened.length : Int) ≤ index) :
    w.opened[index.toNat]? = none :=
  List.getElem?_eq_none (by omega)

/-- A place where no buffer is open can be neither closed nor focused. -/
theorem closeFile_focus_of_out (hout : index < 0 ∨ (w.opened.length : Int) ≤ index) :
    w.closeFile (some index) = (none, w) ∧ w.focus index = w := by
  simp only [closeFile, focus, Option.getD_some]
  by_cases hnegative : index < 0
  · rw [if_pos hnegative, if_pos hnegative]
    exact ⟨rfl, rfl⟩
  · rw [if_neg hnegative, if_neg hnegative,
      getElem?_toNat_eq_none hnegative (hout.resolve_left hnegative)]
    exact ⟨rfl, rfl⟩

theorem closeFile_of_getElem? (hid : w.opened[place]? = some id) :
    w.closeFile (some (place : Int)) =
      (some id, { w with
        hub := w.hub.closeDocument id
        opened := w.opened.eraseIdx place
        active := activeAfterClose w.active place (w.opened.eraseIdx place).length }) := by
  simp only [closeFile, Option.getD_some, Int.toNat_natCast, hid]
  rw [if_neg (Int.not_lt.2 (Int.natCast_nonneg place))]

theorem focus_of_getElem? (hid : w.opened[place]? = some id) :
    w.focus (place : Int) =
      { w with
        active := place
        hub := w.hub.alterBuffer id fun b => { b with dirty := true } } := by
  simp only [focus, Int.toNat_natCast, hid]
  rw [if_neg (Int.not_lt.2 (Int.natCast_nonneg place))]

/-- A place is out of range, or a buffer is open there. -/
theorem out_or_getElem? (w : Workspace) (index : Int) :
    (index < 0 ∨ (w.opened.length : Int) ≤ index) ∨
      ∃ (place id : Nat), index = place ∧ w.opened[place]? = some id := by
  by_cases hout : index < 0 ∨ (w.opened.length : Int) ≤ index
  · exact .inl hout
  · have hplace : index.toNat < w.opened.length := by omega
    exact .inr ⟨index.toNat, _, by omega, List.getElem?_eq_getElem hplace⟩

/-- One of the open buffers is active, unless none is open, and all of them are in the hub. -/
structure Focused (w : Workspace) : Prop where
  kept : w.Kept
  active : w.opened ≠ [] → w.active < w.opened.length
  known : ∀ id ∈ w.opened, id < w.hub.buffers.length

namespace Focused

theorem stays (h : w.Focused) (hstays : w.Stays w') : w'.Focused := by
  refine ⟨hstays.kept, ?_, fun id hid => ?_⟩
  · rw [hstays.opened, hstays.active]
    exact h.active
  · rw [hstays.opened] at hid
    exact Nat.lt_of_lt_of_le (h.known id hid) hstays.hub.buffers

theorem enlist (h : w.Focused) (hid : id < w.hub.buffers.length) : (w.enlist id).Focused := by
  have hretains := retains_enlist h.kept id
  refine ⟨hretains.kept, fun _ => ?_, fun other hother => ?_⟩
  · simp only [Workspace.enlist, List.length_append, List.length_singleton]
    exact Nat.lt_succ_self _
  · refine Nat.lt_of_lt_of_le ?_ hretains.buffers
    rcases List.mem_append.1 hother with hold | hnew
    · exact h.known other hold
    · exact List.mem_singleton.1 hnew ▸ hid

theorem addAgain (h : w.Focused) (hid : id < w.hub.buffers.length) :
    ((addAgain id).start w).2.Focused :=
  (h.enlist hid).stays (stays_addAgain h.kept id)

theorem addBuffer (h : w.Focused) {b : Buffer} (hb : b.Kept) :
    ((addBuffer b).start w).2.Focused := by
  rw [start_addBuffer]
  refine (h.stays (stays_house h.kept hb)).addAgain ?_
  simp only [house, List.length_append, List.length_singleton]
  exact Nat.lt_succ_self _

theorem closeFile (h : w.Focused) (index : Int) : (w.closeFile (some index)).2.Focused := by
  rcases out_or_getElem? w index with hout | ⟨place, id, rfl, hid⟩
  · rw [(closeFile_focus_of_out hout).1]
    exact h
  have hplace := (List.getElem?_eq_some_iff.1 hid).1
  have hactive := h.active (List.ne_nil_of_length_pos (Nat.zero_lt_of_lt hplace))
  have hretains := retains_closeFile h.kept (some (place : Int))
  rw [closeFile_of_getElem? hid] at hretains ⊢
  refine ⟨hretains.kept, fun hne => ?_, fun other hother => ?_⟩
  · have hlength := List.length_eraseIdx_of_lt hplace
    exact activeAfterClose_lt (by omega) (List.length_pos_of_ne_nil hne)
  · exact Nat.lt_of_lt_of_le (h.known other (List.mem_of_mem_eraseIdx hother)) hretains.buffers

theorem focus (h : w.Focused) (index : Int) : (w.focus index).Focused := by
  rcases out_or_getElem? w index with hout | ⟨place, id, rfl, hid⟩
  · rw [(closeFile_focus_of_out hout).2]
    exact h
  have hretains := retains_focus h.kept place
  rw [focus_of_getElem? hid] at hretains ⊢
  exact ⟨hretains.kept, fun _ => (List.getElem?_eq_some_iff.1 hid).1, fun other hother =>
    Nat.lt_of_lt_of_le (h.known other hother) hretains.buffers⟩

theorem act (h : w.Focused) (a : Act) : (w.act a).Focused := by
  by_cases ha : a.Switches
  · cases a with
    | add path text rows columns settings host calls =>
      exact h.addBuffer (kept_added path text rows columns settings host calls)
    | openFile path =>
      exact keeps_openFile (fun _ _ h => h.stays (h.kept.stays.collect _ _))
        (fun _ hb _ h => h.addBuffer hb) path w h
    | closeFile index =>
      cases index with
      | none => exact h.closeFile w.active
      | some index => exact h.closeFile index
    | focus index => exact h.focus index
    | _ => exact ha.elim
  · exact h.stays (stays_act h.kept ha)

/-- If a buffer is open, the active one is there. -/
theorem activeBuffer? (h : w.Focused) (hopened : w.opened ≠ []) :
    ∃ id b, w.opened[w.active]? = some id ∧ w.hub.buffers[id]? = some b ∧
      w.activeBuffer? = some b := by
  have hid := List.getElem?_eq_getElem (h.active hopened)
  have hb := List.getElem?_eq_getElem (h.known _ (List.getElem_mem (h.active hopened)))
  refine ⟨_, _, hid, hb, ?_⟩
  rw [Workspace.activeBuffer?, activeNumber?, hid, Option.bind_some, hb]

end Focused

/-! ## Runs -/

/-- What happens to a workspace, where buffers may be opened again. -/
inductive Event where
  | act (a : Act)
  /-- A buffer of the hub is added, whether it is open or not. -/
  | again (id : Nat)

def event (w : Workspace) : Event → Workspace
  | .act a => w.act a
  | .again id => if id < w.hub.buffers.length then ((addAgain id).start w).2 else w

theorem Focused.event (h : w.Focused) (e : Event) : (w.event e).Focused := by
  cases e with
  | act a => exact h.act a
  | again id =>
    simp only [Workspace.event]
    split
    · next hid => exact h.addAgain hid
    · exact h

end TextEditor.Workspace

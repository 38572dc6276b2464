import TextEditor.Proofs.Buffer.Calls
import TextEditor.Proofs.Buffer.Recall
import TextEditor.Proofs.Buffer.Vertical

/-!
# How long the sticky column lasts

Motion up and down returns to a column that every other command that moves the caret forgets for
itself: it leaves zero, which is never greater than the column of the caret.  Three do not.  A drag
puts the caret elsewhere and leaves the column, and undo and redo lead back to a place of their own
with a column that belongs to another one; the next motion up or down takes it up again.
-/

namespace TextEditor

namespace Motion

def isVertical : Motion → Bool
  | .up | .down => true
  | .left | .right | .leftWord | .rightWord => false

end Motion

namespace Command

def isVertical : Command → Bool
  | .move motion _ _ | .page motion _ => motion.isVertical
  | _ => false

/-- Whether the command leaves the sticky column as it is, wherever it puts the caret. -/
def keepsColumn : Command → Bool
  | .drag _ _ | .undo | .redo => true
  | _ => false

end Command

namespace Buffer

/-- The sticky column is forgotten, or the caret is where it was. -/
def Forgets (b c : Buffer) : Prop :=
  c.caret.desiredColumn = 0 ∨ c.caret.absolute = b.caret.absolute

variable {b c : Buffer}

theorem Forgets.refl (b : Buffer) : b.Forgets b :=
  .inr rfl

theorem Forgets.of_caret (h : c.caret = b.caret) : b.Forgets c :=
  .inr (congrArg Caret.absolute h)

/-- What ends with the column forgotten does so wherever it put the caret. -/
theorem forgets_forgetColumn (b c : Buffer) : b.Forgets c.forgetColumn.reconcile :=
  .inl rfl

theorem forgets_grouped (b : Buffer) (label : String) {operation : Buffer → Buffer}
    (h : ∀ c : Buffer, c.Forgets (operation c)) : b.Forgets (b.grouped label operation) := by
  refine grouped_induction b label (fun c _ hcaret => ?_) fun c hc => ?_
  · have hforgets := h c
    rwa [Forgets, hcaret] at hforgets
  · rwa [Forgets, caret_endGroup]

/-! ## Motion and mouse -/

theorem forgets_move (b : Buffer) {motion : Motion} (hmotion : motion.isVertical = false)
    (count : Int) (extending : Bool) : b.Forgets (b.move motion count extending) := by
  cases motion with
  | up | down => cases hmotion
  | left | right | leftWord | rightWord => exact forgets_forgetColumn b _

theorem forgets_click (b : Buffer) (hit : Hit) (extending : Bool) :
    b.Forgets (b.click hit extending) := by
  unfold click
  dsimp only
  left
  split <;> rfl

theorem forgets_selectRun (b : Buffer) (hit : Hit) : b.Forgets (b.selectRun hit) :=
  .inl rfl

/-! ## Typing -/

theorem forgets_insertText (b : Buffer) (t : Text) : b.Forgets (b.insertText t) := by
  unfold insertText
  split
  · exact Forgets.refl b
  · exact forgets_forgetColumn b _

/-- Typing something forgets the column also where the caret was moved before. -/
theorem desiredColumn_insertText (b : Buffer) {t : Text} (ht : t.isEmpty = false) :
    (b.insertText t).caret.desiredColumn = 0 := by
  rw [insertText, if_neg (by simp [ht])]
  rfl

theorem desiredColumn_grouped (b : Buffer) (label : String) {operation : Buffer → Buffer}
    (h : ∀ c : Buffer, (operation c).caret.desiredColumn = 0) :
    (b.grouped label operation).caret.desiredColumn = 0 := by
  refine grouped_induction (motive := fun c => c.caret.desiredColumn = 0) b label
    (fun c _ _ => h c) fun c hc => ?_
  rwa [caret_endGroup]

theorem forgets_insertTyped (b : Buffer) (t : Text) : b.Forgets (b.insertTyped t) := by
  unfold insertTyped
  split
  · exact Forgets.refl b
  next ht =>
  have ht : t.isEmpty = false := by simpa using ht
  split
  · exact forgets_insertText b _
  split
  · exact forgets_forgetColumn b _
  split
  · split
    · exact forgets_move b rfl _ _
    · exact .inl (desiredColumn_grouped b _ fun c => desiredColumn_insertText _ ht)
  · left
    refine desiredColumn_grouped b _ fun c => ?_
    split
    · exact desiredColumn_insertText c ht
    · next pair hpair =>
      -- The pair begins with what was typed.
      have hopening : t = pair.opening := by simpa using List.find?_some hpair
      have hne : pair.opening ++ pair.closing ≠ [] :=
        List.append_ne_nil_of_left_ne_nil (hopening ▸ List.isEmpty_eq_false_iff.1 ht) _
      exact desiredColumn_insertText c (List.isEmpty_eq_false_iff.2 hne)

/-! ## Deletion, cutting and pasting -/

theorem forgets_deleteLeft (b : Buffer) : b.Forgets b.deleteLeft := by
  unfold deleteLeft
  split <;> exact forgets_forgetColumn b _

theorem forgets_deleteRight (b : Buffer) : b.Forgets b.deleteRight := by
  unfold deleteRight
  split <;> exact forgets_forgetColumn b _

theorem forgets_deleteWord (b : Buffer) (motion : Motion) (label : String) :
    b.Forgets (b.deleteWord motion label) :=
  .inl (desiredColumn_grouped b label fun _ => rfl)

theorem forgets_insertPasted (b : Buffer) (t : Text) : b.Forgets (b.insertPasted t) :=
  forgets_grouped b _ fun c => forgets_insertText c t

/-! ## What leaves the column -/

theorem desiredColumn_drag (b : Buffer) (hit : Hit) :
    (b.drag hit).caret.desiredColumn = b.caret.desiredColumn := by
  unfold drag
  split <;> rfl

/-- Taking edits back or doing them again leaves the caret to whoever asked for it. -/
theorem caret_reverted (b : Buffer) (entry : UndoEntry) (timeline : Timeline) :
    (b.reverted entry timeline).caret = b.caret :=
  field_foldl Buffer.caret revertEdit (fun _ _ => rfl) _ _

theorem caret_repeated (b : Buffer) (entry : UndoEntry) (timeline : Timeline) :
    (b.repeated entry timeline).caret = b.caret :=
  field_foldl Buffer.caret repeatEdit (fun _ _ => rfl) _ _

theorem desiredColumn_undo (b : Buffer) :
    b.undo.1.caret.desiredColumn = b.caret.desiredColumn := by
  cases hentry : b.timeline.undo? with
  | none => rw [undo, hentry]
  | some next =>
    obtain ⟨entry, timeline⟩ := next
    have hcaret := caret_reverted b entry timeline
    rw [undo_eq hentry, ← hcaret]
    rfl

theorem desiredColumn_redo (b : Buffer) :
    b.redo.1.caret.desiredColumn = b.caret.desiredColumn := by
  cases hentry : b.timeline.redo? with
  | none => rw [redo, hentry]
  | some next =>
    obtain ⟨entry, timeline⟩ := next
    have hcaret := caret_repeated b entry timeline
    rw [redo_eq hentry, ← hcaret]
    rfl

end Buffer

namespace Desk

variable {d : Desk}

theorem forgets_withHit (d : Desk) (x y : Float) {f : Hit → Buffer → Buffer}
    (h : ∀ hit, d.buffer.Forgets (f hit d.buffer)) :
    d.buffer.Forgets (d.withHit x y f).2.buffer := by
  unfold withHit
  dsimp only
  split
  · exact Buffer.Forgets.refl _
  · exact h _

theorem forgets_paste (d : Desk) : d.buffer.Forgets d.paste.buffer := by
  unfold paste
  split
  · exact Buffer.Forgets.refl _
  · exact Buffer.Forgets.refl _
  · dsimp only [onBuffer]
    split
    · exact Buffer.Forgets.of_caret rfl
    · exact Buffer.forgets_insertPasted _ _

/-- Every command that moves the caret forgets the sticky column, unless it moves up or down or
leaves the column alone. -/
theorem forgets_perform (hinside : d.buffer.Inside) {command : Command}
    (hvertical : command.isVertical = false) (hkeeps : command.keepsColumn = false) :
    d.buffer.Forgets (d.perform command).2.buffer := by
  cases command with
  | drag | undo | redo => cases hkeeps
  | move motion count extending => exact Buffer.forgets_move _ hvertical _ _
  | page motion extending => exact Buffer.forgets_move _ hvertical _ _
  | insertText t => exact Buffer.forgets_insertText _ t
  | insertTyped t => exact Buffer.forgets_insertTyped _ t
  | insertNewline => exact Buffer.forgets_forgetColumn _ _
  | deleteLeft => exact Buffer.forgets_deleteLeft _
  | deleteRight => exact Buffer.forgets_deleteRight _
  | deleteWordLeft | deleteWordRight => exact Buffer.forgets_deleteWord _ _ _
  | deleteSelection => exact Buffer.forgets_forgetColumn _ _
  | copy => exact Buffer.Forgets.of_caret (caret_putOnClipboard d _)
  | cut => exact Buffer.forgets_forgetColumn _ _
  | paste => exact forgets_paste d
  | click x y extending =>
    exact forgets_withHit d x y (f := fun hit b => b.click hit extending) fun hit =>
      Buffer.forgets_click _ hit extending
  | doubleClick x y =>
    exact forgets_withHit d x y (f := fun hit b => b.selectRun hit) fun hit =>
      Buffer.forgets_selectRun _ hit
  | release | scrollUp | scrollDown | scrollLeft | scrollRight =>
    exact Buffer.Forgets.of_caret rfl
  | resize rows columns =>
    exact Buffer.Forgets.of_caret (Buffer.caret_reconcile (hinside.of_eq rfl rfl))
  | reconcile => exact Buffer.Forgets.of_caret (Buffer.caret_reconcile hinside)

theorem desiredColumn_perform {command : Command} (hkeeps : command.keepsColumn = true) :
    (d.perform command).2.buffer.caret.desiredColumn = d.buffer.caret.desiredColumn := by
  cases command with
  | undo => exact Buffer.desiredColumn_undo d.buffer
  | redo => exact Buffer.desiredColumn_redo d.buffer
  | drag x y =>
    unfold perform
    dsimp only
    split
    · unfold withHit
      dsimp only
      split
      · rfl
      · exact Buffer.desiredColumn_drag _ _
    · rfl
  | _ => cases hkeeps

/-- Whatever was called before, a motion up or down that changes the line right after a command that
moved the caret in another way ends at the column of the caret, or at the end of the line.  After a
drag, undo and redo it ends at the column to which an earlier motion would have returned, if that is
the greater one. -/
theorem caretColumn_climb_of_calls (path : String) (t : Text) (rows columns : Int)
    (settings : Settings) (host : Host) (calls : List Call) (command : Command) (m : Climb) :
    let d := calls.foldl call ⟨Buffer.create path t rows columns settings, host⟩
    let b := (d.perform command).2.buffer
    command.isVertical = false → b.caret.absolute ≠ d.buffer.caret.absolute →
      (b.climb m).caretLine ≠ b.caretLine →
        (b.climb m).caretColumn =
          min (if command.keepsColumn then max d.buffer.caret.desiredColumn b.caretColumn
            else b.caretColumn) (b.document.contentLength (b.climb m).caretLine) := by
  intro d b hvertical hmoved hline
  have hkept : d.buffer.Kept := kept_foldl_call (d := ⟨_, host⟩)
    (Buffer.settled_create path t rows columns settings).toKept calls
  have hkept' : b.Kept := kept_perform hkept command
  have hcolumn : 0 ≤ b.caretColumn :=
    Buffer.caretColumn_nonneg hkept'.indexed hkept'.inside.absolute
  rw [Buffer.caretColumn_climb hkept'.indexed hkept'.inside hline, Buffer.aimedColumn]
  cases hkeeps : command.keepsColumn with
  | true =>
    rw [if_pos rfl, desiredColumn_perform hkeeps]
  | false =>
    have hforgotten : b.caret.desiredColumn = 0 :=
      (forgets_perform hkept.inside hvertical hkeeps).resolve_right hmoved
    rw [if_neg Bool.false_ne_true, hforgotten, Int.max_eq_right hcolumn]

/-- An empty line before a longer one. -/
def emptyLine : Desk :=
  ⟨Buffer.create "" "\nabcd".toList 24 80 .usual, {}⟩

/-- A character is typed into the empty line, and the caret follows it down. -/
def typedAndDown : List Call :=
  [.perform (.insertText ['x']), .perform (.move .down 1 false)]

/-- A step to the left forgets the column that `typedAndDown` leaves, and undo does not. -/
theorem caretColumn_climb_typedAndDown :
    let d := typedAndDown.foldl call emptyLine
    let left := (d.perform (.move .left 1 false)).2.buffer
    let undone := (d.perform .undo).2.buffer
    ((left.caret.absolute ≠ d.buffer.caret.absolute ∧
        (left.climb ⟨false, 1, false⟩).caretLine ≠ left.caretLine) ∧
      (undone.caret.absolute ≠ d.buffer.caret.absolute ∧
        (undone.climb ⟨true, 1, false⟩).caretLine ≠ undone.caretLine)) ∧
      (left.climb ⟨false, 1, false⟩).caretColumn = 0 ∧
        (undone.climb ⟨true, 1, false⟩).caretColumn = 1 := by
  intro d left undone
  have hleft : left.caret.absolute ≠ d.buffer.caret.absolute ∧
      (left.climb ⟨false, 1, false⟩).caretLine ≠ left.caretLine := by decide +kernel
  have hundone : undone.caret.absolute ≠ d.buffer.caret.absolute ∧
      (undone.climb ⟨true, 1, false⟩).caretLine ≠ undone.caretLine := by decide +kernel
  refine ⟨⟨hleft, hundone⟩, ?_, ?_⟩
  · exact (caretColumn_climb_of_calls "" "\nabcd".toList 24 80 .usual {} typedAndDown
      (.move .left 1 false) ⟨false, 1, false⟩ rfl hleft.1 hleft.2).trans (by decide +kernel)
  · exact (caretColumn_climb_of_calls "" "\nabcd".toList 24 80 .usual {} typedAndDown
      .undo ⟨true, 1, false⟩ rfl hundone.1 hundone.2).trans (by decide +kernel)

/-- Undo leads back to the first column of the first line, and the next step down leads to the
second column of the other one. -/
theorem undo_keeps_column :
    let d := typedAndDown.foldl call emptyLine
    let b := (d.perform .undo).2.buffer
    let c := b.climb ⟨true, 1, false⟩
    b.caret.absolute ≠ d.buffer.caret.absolute ∧ c.caretLine ≠ b.caretLine ∧
      c.caretColumn ≠ min b.caretColumn (c.document.contentLength c.caretLine) := by
  decide +kernel

end Desk

end TextEditor

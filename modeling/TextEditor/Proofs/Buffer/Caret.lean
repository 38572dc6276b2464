import TextEditor.Proofs.Buffer.Operation

/-!
# The caret stays within the document

Between two operations anchor and caret are offsets of the document, also the place behind the
trailing edge on which a click put the caret.  An edit moves them into the text that it leaves,
and `reconcile` clamps whatever is left over; what it cannot mend is a caret on a trailing edge in
a text that changed underneath, and no operation leaves one.
-/

namespace TextEditor

/-- The offset is one of the document. -/
def Document.Within (d : Document) (offset : Int) : Prop :=
  0 ≤ offset ∧ offset ≤ d.length

theorem Document.within_clamp (d : Document) (offset : Int) : d.Within (d.clamp offset) :=
  ⟨Int.natCast_nonneg _, Int.ofNat_le.2 (d.clamp_le_length offset)⟩

theorem Document.Within.clamp {d : Document} {offset : Int} (h : d.Within offset) :
    (d.clamp offset : Int) = offset := by
  obtain ⟨hlow, hhigh⟩ := h
  simp only [Document.clamp]
  omega

namespace Buffer

/-- Anchor and caret are offsets of the document. -/
structure Inside (b : Buffer) : Prop where
  anchor : b.document.Within b.caret.anchor
  position : b.document.Within b.caret.position
  absolute : b.document.Within b.caret.absolute

/-- The caret is on no trailing edge, or within the document; then clamping mends it. -/
def Landed (b : Buffer) : Prop :=
  b.caret.trailing = 0 ∨ b.Inside

variable {b c : Buffer}

/-! ## Clamping -/

theorem Inside.of_eq (h : b.Inside) (hdocument : c.document = b.document)
    (hcaret : c.caret = b.caret) : c.Inside := by
  constructor <;> rw [hdocument, hcaret]
  · exact h.anchor
  · exact h.position
  · exact h.absolute

theorem Inside.landed (h : b.Inside) : b.Landed :=
  .inr h

theorem landed_collapse (b : Buffer) (offset : Int) : (b.collapse offset).Landed :=
  .inl rfl

theorem landed_place (b : Buffer) (offset : Int) (extending : Bool) :
    (b.place offset 0 extending).Landed :=
  .inl rfl

theorem Landed.forgetColumn (h : b.Landed) : b.forgetColumn.Landed :=
  h.imp id fun h => ⟨h.anchor, h.position, h.absolute⟩

/-- A caret within the document stays where it is. -/
theorem caret_reconcile (h : b.Inside) : b.reconcile.caret = b.caret := by
  have hreaches : b.caret.position + b.caret.trailing ≤ b.document.length := h.absolute.2
  change b.clampCaret.caret = b.caret
  simp only [clampCaret]
  rw [h.anchor.clamp, h.position.clamp, if_pos hreaches]

/-- On no trailing edge the caret is where its position is clamped to. -/
theorem absolute_reconcile (h : b.caret.trailing = 0) :
    b.reconcile.caret.absolute = b.document.clamp b.caret.position := by
  change b.clampCaret.caret.absolute = _
  simp only [clampCaret, Caret.absolute, h, ite_self, Int.add_zero]

theorem inside_reconcile (h : b.Landed) : b.reconcile.Inside := by
  have hdocument := (quiet_reconcile b).document
  rcases h with h | h
  · constructor <;> rw [hdocument]
    · exact b.document.within_clamp _
    · exact b.document.within_clamp _
    · rw [absolute_reconcile h]
      exact b.document.within_clamp _
  · exact h.of_eq hdocument (caret_reconcile h)

theorem inside_create (path : String) (t : Text) (rows columns : Int) (settings : Settings) :
    (create path t rows columns settings).Inside :=
  inside_reconcile (.inl rfl)

/-! ## Groups -/

theorem Inside.endGroup (h : b.Inside) : b.endGroup.Inside := by
  unfold Buffer.endGroup
  split
  · exact h
  · exact h.of_eq rfl rfl

theorem Inside.abandonGroup (h : b.Inside) (reason : String) :
    (b.abandonGroup reason).Inside := by
  unfold Buffer.abandonGroup
  split
  · exact h
  · exact h.of_eq rfl rfl

theorem Landed.endGroup (h : b.Landed) : b.endGroup.Landed := by
  unfold Buffer.endGroup
  split
  · exact h
  · exact h.imp id fun h => h.of_eq rfl rfl

/-- What the end of a group leaves alone holds after a grouped operation if it holds after the
operation itself, which begins where the buffer rests. -/
theorem grouped_induction_rests {motive : Buffer → Prop} {operation : Buffer → Buffer} (b : Buffer)
    (label : String) (hoperation : ∀ c, b.Rests c → c.caret = b.caret → motive (operation c))
    (hend : ∀ c, motive c → motive c.endGroup) : motive (b.grouped label operation) := by
  unfold grouped
  split
  · exact hoperation b (Quiet.refl b).toRests rfl
  · exact hend _ (hoperation _ (rests_beginGroup b label) rfl)

theorem grouped_induction {motive : Buffer → Prop} {operation : Buffer → Buffer} (b : Buffer)
    (label : String)
    (hoperation : ∀ c, c.document = b.document → c.caret = b.caret → motive (operation c))
    (hend : ∀ c, motive c → motive c.endGroup) : motive (b.grouped label operation) :=
  grouped_induction_rests b label (fun c hc => hoperation c hc.document) hend

/-! ## Motion and mouse -/

theorem landed_moveLines (h : b.Inside) (delta : Int) (extending : Bool) :
    (b.moveLines delta extending).Landed := by
  simp only [moveLines]
  split
  · exact h.landed
  · exact .inl rfl

theorem inside_move (h : b.Inside) (motion : Motion) (count : Int) (extending : Bool) :
    (b.move motion count extending).Inside := by
  apply inside_reconcile
  cases motion with
  | up | down => exact landed_moveLines h _ _
  | left | right | leftWord | rightWord => exact (landed_place b _ _).forgetColumn

theorem within_settle (d : Document) (offset : Int) : d.Within (d.settle offset) := by
  have hclamp := d.within_clamp offset
  simp only [Document.settle]
  split
  · next hpair =>
    have hlength := congrArg List.length hpair
    have hpos : d.clamp offset ≠ 0 := by
      intro hzero
      simp only [Document.slice, Text.slice, Document.clamp, List.length_take, List.length_drop,
        List.length_cons, List.length_nil] at hlength hzero
      omega
    unfold Document.Within at *
    omega
  · exact hclamp

/-- The place for a hit is one of the document, and so is the other side of its character, whatever
the layout of the screen answers. -/
theorem within_placeOfHit (b : Buffer) (hit : Hit) :
    b.document.Within (b.placeOfHit hit).1 ∧
      b.document.Within ((b.placeOfHit hit).1 + (b.placeOfHit hit).2) := by
  have hoffset := b.document.within_clamp (b.viewport.start + hit.offset)
  simp only [placeOfHit]
  generalize (if (_ : Int) < _ then hit.trailing else 0) = trailing
  split
  · simp only [Int.add_zero]
    exact ⟨within_settle b.document _, within_settle b.document _⟩
  · next hsettled =>
    refine ⟨hoffset, ?_⟩
    rw [← Decidable.not_not.1 hsettled]
    exact within_settle b.document _

theorem inside_place (h : b.Inside) {offset trailing : Int} (extending : Bool)
    (hoffset : b.document.Within offset) (htrailing : b.document.Within (offset + trailing)) :
    (b.place offset trailing extending).Inside := by
  refine ⟨?_, hoffset, htrailing⟩
  cases extending with
  | false => exact htrailing
  | true => exact h.anchor

theorem inside_scrollToLine (h : b.Inside) (line : Int) : (b.scrollToLine line).Inside :=
  h.of_eq rfl rfl

theorem inside_scrollToColumn (h : b.Inside) (column : Int) : (b.scrollToColumn column).Inside :=
  h.of_eq rfl rfl

theorem inside_click (h : b.Inside) (hit : Hit) (extending : Bool) :
    (b.click hit extending).Inside := by
  have hwithin := within_placeOfHit b hit
  unfold click
  generalize b.placeOfHit hit = place at hwithin ⊢
  obtain ⟨offset, trailing⟩ := place
  have hplace := inside_place h extending hwithin.1 hwithin.2
  have hdown : Inside { (b.place offset trailing extending).forgetColumn with selecting := true } :=
    ⟨hplace.anchor, hplace.position, hplace.absolute⟩
  refine inside_reconcile (Inside.landed ?_)
  split
  · exact inside_scrollToLine hdown _
  · exact hdown

theorem inside_drag (h : b.Inside) (hit : Hit) : (b.drag hit).Inside := by
  have hwithin := within_placeOfHit b hit
  unfold drag
  generalize b.placeOfHit hit = place at hwithin ⊢
  obtain ⟨offset, trailing⟩ := place
  split
  · have hplace := inside_place h true hwithin.1 hwithin.2
    exact inside_reconcile hplace.landed
  · exact h

theorem inside_selectRun (b : Buffer) (hit : Hit) : (b.selectRun hit).Inside := by
  unfold selectRun
  obtain ⟨offset, trailing⟩ := b.placeOfHit hit
  refine inside_reconcile (.inl ?_)
  split <;> rfl

/-! ## Edits -/

theorem landed_removeSelection (h : b.Inside) : b.removeSelection.Landed := by
  unfold removeSelection
  split
  · exact h.landed
  · exact landed_collapse _ _

theorem inside_insertText (h : b.Inside) (t : Text) : (b.insertText t).Inside := by
  simp only [insertText]
  split
  · exact h
  · refine inside_reconcile (Landed.forgetColumn ?_)
    exact grouped_induction b _ (fun _ _ _ => landed_collapse _ _) fun _ hc => hc.endGroup

/-- Inserting something lands the caret, wherever it was. -/
theorem inside_insertText_of_ne (b : Buffer) {t : Text} (ht : t.isEmpty = false) :
    (b.insertText t).Inside := by
  simp only [insertText, ht, Bool.false_eq_true, if_false]
  refine inside_reconcile (Landed.forgetColumn ?_)
  exact grouped_induction b _ (fun _ _ _ => landed_collapse _ _) fun _ hc => hc.endGroup

theorem landed_breakLine (b : Buffer) : b.breakLine.Landed := by
  simp only [breakLine]
  split
  · exact landed_collapse _ _
  · split <;> exact landed_collapse _ _

theorem inside_insertNewline (b : Buffer) : b.insertNewline.Inside := by
  refine inside_reconcile (Landed.forgetColumn ?_)
  exact grouped_induction b _ (fun c _ _ => landed_breakLine c) fun _ hc => hc.endGroup

theorem inside_insertCloser (b : Buffer) {t : Text} (ht : t.isEmpty = false) :
    (b.insertCloser t).Inside := by
  unfold insertCloser
  refine grouped_induction b _ (fun c _ _ => ?_) fun _ hc => hc.endGroup
  exact inside_insertText_of_ne _ ht

theorem inside_insertOpener (b : Buffer) {t : Text} (ht : t.isEmpty = false) :
    (b.insertOpener t).Inside := by
  refine inside_reconcile (grouped_induction b _ (fun c _ _ => ?_) fun _ hc => hc.endGroup)
  split
  · exact (inside_insertText_of_ne c ht).landed
  · exact landed_collapse _ _

theorem inside_insertTyped (h : b.Inside) (t : Text) : (b.insertTyped t).Inside := by
  unfold insertTyped
  split
  · exact h
  next ht =>
  have ht : t.isEmpty = false := by simpa using ht
  split
  · exact inside_insertText h _
  split
  · exact inside_insertNewline b
  split
  · split
    · exact inside_move h _ _ _
    · exact inside_insertCloser b ht
  · exact inside_insertOpener b ht

theorem inside_deleteSelection (h : b.Inside) : b.deleteSelection.Inside :=
  inside_reconcile (landed_removeSelection h).forgetColumn

theorem inside_deleteLeft (h : b.Inside) : b.deleteLeft.Inside := by
  simp only [deleteLeft]
  split
  · exact inside_deleteSelection h
  · refine inside_reconcile (Landed.forgetColumn ?_)
    split
    · exact landed_collapse _ _
    · exact h.landed

theorem inside_deleteRight (h : b.Inside) : b.deleteRight.Inside := by
  simp only [deleteRight]
  split
  · exact inside_deleteSelection h
  · refine inside_reconcile (Landed.forgetColumn ?_)
    split
    · exact landed_collapse _ _
    · exact h.landed

theorem inside_deleteWord (h : b.Inside) (motion : Motion) (label : String) :
    (b.deleteWord motion label).Inside := by
  unfold deleteWord
  refine grouped_induction b _ (fun c hdocument hcaret => ?_) fun _ hc => hc.endGroup
  have hmove := inside_move (h.of_eq hdocument hcaret) motion 1 true
  exact inside_deleteSelection hmove

theorem inside_removeCopied (h : b.Inside) : b.removeCopied.Inside := by
  refine inside_reconcile (Landed.forgetColumn ?_)
  refine grouped_induction b _ (fun c hdocument hcaret => ?_) fun _ hc => hc.endGroup
  split
  · exact landed_removeSelection (h.of_eq hdocument hcaret)
  · exact landed_collapse _ _

theorem inside_insertPasted (h : b.Inside) (t : Text) : (b.insertPasted t).Inside :=
  grouped_induction b _
    (fun _ hdocument hcaret => inside_insertText (h.of_eq hdocument hcaret) t)
    fun _ hc => hc.endGroup

theorem inside_undo (h : b.Inside) : b.undo.1.Inside := by
  unfold undo
  split
  · exact h
  · exact inside_reconcile (.inl rfl)

theorem inside_redo (h : b.Inside) : b.redo.1.Inside := by
  unfold redo
  split
  · exact h
  · exact inside_reconcile (.inl rfl)

end Buffer

/-! ## Commands and operations -/

namespace Desk

theorem inside_withHit {d : Desk} (h : d.buffer.Inside) (x y : Float) {f : Hit → Buffer → Buffer}
    (hf : ∀ hit, (f hit d.buffer).Inside) : (d.withHit x y f).2.buffer.Inside := by
  simp only [withHit]
  split
  · exact h
  · exact hf _

theorem inside_putOnClipboard {d : Desk} (h : d.buffer.Inside) (t : Text) :
    (d.putOnClipboard t).buffer.Inside :=
  h.of_eq (quiet_putOnClipboard d t).document (caret_putOnClipboard d t)

theorem inside_paste {d : Desk} (h : d.buffer.Inside) : d.paste.buffer.Inside := by
  unfold paste
  split
  · exact h
  · exact h
  · simp only [onBuffer]
    split
    · exact h.of_eq rfl rfl
    · exact Buffer.inside_insertPasted h _

/-- Every command leaves anchor and caret within the document. -/
theorem inside_perform {d : Desk} (h : d.buffer.Inside) (command : Command) :
    (d.perform command).2.buffer.Inside := by
  cases command with
  | move motion count extending => exact Buffer.inside_move h motion count extending
  | page motion extending => exact Buffer.inside_move h motion _ extending
  | insertText text => exact Buffer.inside_insertText h text
  | insertTyped text => exact Buffer.inside_insertTyped h text
  | insertNewline => exact Buffer.inside_insertNewline _
  | deleteLeft => exact Buffer.inside_deleteLeft h
  | deleteRight => exact Buffer.inside_deleteRight h
  | deleteWordLeft | deleteWordRight => exact Buffer.inside_deleteWord h _ _
  | deleteSelection => exact Buffer.inside_deleteSelection h
  | copy => exact inside_putOnClipboard h _
  | cut => exact Buffer.inside_removeCopied (inside_putOnClipboard h _)
  | paste => exact inside_paste h
  | undo => exact Buffer.inside_undo h
  | redo => exact Buffer.inside_redo h
  | click x y extending =>
    exact inside_withHit h x y (f := fun hit b => b.click hit extending) fun hit =>
      Buffer.inside_click h hit extending
  | doubleClick x y =>
    exact inside_withHit h x y (f := fun hit b => b.selectRun hit) fun hit =>
      Buffer.inside_selectRun _ hit
  | drag x y =>
    simp only [perform]
    split
    · exact inside_withHit h x y (f := fun hit b => b.drag hit) fun hit =>
        Buffer.inside_drag h hit
    · exact h
  | release => exact h.of_eq rfl rfl
  | scrollUp lines | scrollDown lines => exact Buffer.inside_scrollToLine h _
  | scrollLeft columns | scrollRight columns => exact Buffer.inside_scrollToColumn h _
  | resize rows columns => exact Buffer.inside_reconcile (.inr (h.of_eq rfl rfl))
  | reconcile => exact Buffer.inside_reconcile h.landed

theorem inside_transaction {label : String} {body : Step Desk Unit}
    (hbody : ∀ d : Desk, d.buffer.Inside → (body.start d).2.buffer.Inside) {d : Desk}
    (h : d.buffer.Inside) : ((transaction label body).start d).2.buffer.Inside := by
  rw [start_transaction]
  split
  · exact hbody d h
  · have hbegin := hbody (d.onBuffer (·.beginGroup label)) (h.of_eq rfl rfl)
    generalize body.start (d.onBuffer (·.beginGroup label)) = result at hbegin ⊢
    obtain ⟨outcome, d'⟩ := result
    cases outcome with
    | ok => exact hbegin.endGroup
    | error fault => exact hbegin.abandonGroup _

theorem inside_routine (routine : Routine) {d : Desk} (h : d.buffer.Inside) :
    (routine.step.start d).2.buffer.Inside := by
  induction routine generalizing d with
  | done | raise => exact h
  | rehost host next ih => exact ih (d := { d with host }) h
  | perform command next ih =>
    rw [start_perform]
    exact ih (inside_perform h command)
  | transaction label body next ihbody ihnext =>
    rw [start_nested]
    exact ihnext (inside_transaction (fun _ => ihbody) h)

theorem inside_operate {d : Desk} (h : d.buffer.Inside) (operation : Operation) :
    (d.operate operation).buffer.Inside := by
  cases operation with
  | rehost host => exact h
  | perform command =>
    rw [operate_perform]
    exact inside_perform h command
  | transaction label body => exact inside_transaction (fun _ => inside_routine body) h

end Desk

end TextEditor

import TextEditor.Proofs.Buffer.View

/-!
# A caret between two texts

What is typed goes between the text before the caret and the text behind it.  Every edit at the
caret replaces what stands there and leaves the caret behind some of what is new.
-/

namespace TextEditor

namespace Buffer

/-- The text is what stands before the caret and what stands behind it, and nothing is selected. -/
structure Between (b : Buffer) (front back : Text) : Prop where
  text : b.text = front ++ back
  absolute : b.caret.absolute = front.length
  unselected : b.caret.hasSelection = false
  inside : b.Inside

variable {b c : Buffer} {front back old new : Text}

theorem length_document (b : Buffer) : b.document.length = b.text.length := rfl

/-- Every caret without a selection is between two texts. -/
theorem between_take_drop (hinside : b.Inside) (hselection : b.caret.hasSelection = false) :
    b.Between (b.text.take b.caret.absolute.toNat) (b.text.drop b.caret.absolute.toNat) := by
  obtain ⟨hlow, hhigh⟩ := hinside.absolute
  rw [length_document] at hhigh
  refine ⟨(List.take_append_drop _ _).symm, ?_, hselection, hinside⟩
  rw [List.length_take_of_le (Int.toNat_le.2 hhigh), Int.toNat_of_nonneg hlow]

theorem between_collapse (htext : b.text = front ++ back) :
    (b.collapse front.length).Between front back := by
  have hwithin : b.document.Within front.length := by
    refine ⟨Int.natCast_nonneg _, ?_⟩
    rw [length_document, htext, List.length_append]
    omega
  have habsolute : (b.collapse front.length).caret.absolute = front.length :=
    Caret.absolute_collapse _ _
  refine ⟨htext, habsolute, Caret.hasSelection_collapse _ _, hwithin, hwithin, ?_⟩
  rw [habsolute]
  exact hwithin

namespace Between

theorem of_eq (h : b.Between front back) (hdocument : c.document = b.document)
    (hcaret : c.caret = b.caret) : c.Between front back := by
  refine ⟨?_, ?_, ?_, h.inside.of_eq hdocument hcaret⟩
  · rw [Buffer.text, hdocument]
    exact h.text
  · rw [hcaret]
    exact h.absolute
  · rw [hcaret]
    exact h.unselected

theorem endGroup (h : b.Between front back) : b.endGroup.Between front back :=
  h.of_eq (rests_endGroup b).document (caret_endGroup b)

theorem forgetColumn (h : b.Between front back) : b.forgetColumn.Between front back :=
  ⟨h.text, h.absolute, h.unselected, h.inside.anchor, h.inside.position, h.inside.absolute⟩

theorem reconcile (h : b.Between front back) : b.reconcile.Between front back :=
  h.of_eq (quiet_reconcile b).document (caret_reconcile h.inside)

theorem removeSelection (h : b.Between front back) : b.removeSelection = b := by
  rw [Buffer.removeSelection, Caret.selection?, if_neg (by simp [h.unselected])]

theorem clamp (h : b.Between front back) : b.document.clamp b.caret.absolute = front.length :=
  Int.ofNat_inj.1 (h.inside.absolute.clamp.trans h.absolute)

/-- The characters from the caret on. -/
theorem charsFrom (h : b.Between front back) :
    b.document.charsFrom b.caret.absolute = back := by
  rw [Document.charsFrom, h.clamp]
  change b.text.drop _ = _
  rw [h.text, List.drop_left]

/-- The characters before the caret, nearest first. -/
theorem charsBefore (h : b.Between front back) :
    b.document.charsBefore b.caret.absolute = front.reverse := by
  rw [Document.charsBefore, h.clamp]
  change (b.text.take _).reverse = _
  rw [h.text, List.take_left]

theorem charAt? (h : b.Between front back) :
    b.document.charAt? b.caret.absolute = back.head? := by
  rw [Document.charAt?, h.absolute, if_neg (by omega), Int.toNat_natCast]
  change b.text[_]? = _
  rw [h.text, List.getElem?_append_right (Nat.le_refl _), Nat.sub_self, List.head?_eq_getElem?]

end Between

/-! ## Edits at the caret -/

/-- What stands between two parts of the text is replaced as an undo step. -/
theorem text_replaceRange {start stop : Int} (hstart : start = front.length)
    (hstop : stop = start + old.length) (label : String) (hbefore : b.text = front ++ old ++ back) :
    (b.replaceRange start stop new label).text = front ++ new ++ back := by
  obtain ⟨hfirst, hlast⟩ := clamp_turns hstart hstop hbefore
  have hle : front.length ≤ (front ++ old).length := by
    rw [List.length_append]
    exact Nat.le_add_right _ _
  simp only [replaceRange, hfirst, hlast, Nat.min_eq_left hle, Nat.max_eq_right hle]
  split
  · next hnothing =>
    -- Nothing is replaced by nothing.
    simp only [Bool.and_eq_true, decide_eq_true_eq, List.isEmpty_iff] at hnothing
    obtain ⟨hsame, hnew⟩ := hnothing
    rw [List.length_append] at hsame
    obtain rfl : old = [] := List.eq_nil_of_length_eq_zero (by omega)
    rw [hbefore, hnew]
  · refine grouped_induction (motive := fun c => c.text = front ++ new ++ back) b label
      (fun c hdocument _ => ?_) fun c hc => ?_
    · have hc : c.text = front ++ old ++ back := by
        rw [Buffer.text, hdocument]
        exact hbefore
      have hstop : ((front ++ old).length : Int) = front.length + old.length := by
        rw [List.length_append, Int.natCast_add]
      exact text_splice_turns (b := c) rfl hstop label hc
    · rw [Buffer.text, (rests_endGroup c).document]
      exact hc

/-- A range is replaced, and the caret is put behind the first part of what is new. -/
theorem between_replaceRange {start stop : Int} (hstart : start = front.length)
    (hstop : stop = start + old.length) (label : String) (hbefore : b.text = front ++ old ++ back)
    (first second : Text) :
    ((b.replaceRange start stop (first ++ second) label).collapse (start + first.length)).Between
      (front ++ first) (second ++ back) := by
  have htext : (b.replaceRange start stop (first ++ second) label).text =
      front ++ first ++ (second ++ back) := by
    rw [text_replaceRange hstart hstop label hbefore]
    simp only [List.append_assoc]
  have hcaret : start + first.length = (front ++ first).length := by
    rw [List.length_append, hstart]
    rfl
  rw [hcaret]
  exact between_collapse htext

/-- What is inserted at the caret stands before it. -/
theorem Between.insertText (h : b.Between front back) (t : Text) :
    (b.insertText t).Between (front ++ t) back := by
  unfold Buffer.insertText
  split
  · next ht =>
    rwa [List.isEmpty_iff.1 ht, List.append_nil]
  refine (Between.forgetColumn ?_).reconcile
  refine grouped_induction (motive := fun c => c.Between (front ++ t) back) b _
    (fun c hdocument hcaret => ?_) fun c hc => hc.endGroup
  have hc : c.Between front back := h.of_eq hdocument hcaret
  have hbefore : c.text = front ++ [] ++ back := by rw [List.append_nil, hc.text]
  have hstop : c.caret.absolute = c.caret.absolute + ([] : Text).length := (Int.add_zero _).symm
  have hafter := between_replaceRange hc.absolute hstop "insert_chars" hbefore t []
  rw [List.append_nil, List.nil_append] at hafter
  dsimp only
  rwa [hc.removeSelection]

end Buffer

end TextEditor

import TextEditor.Proofs.Buffer.Stops
import TextEditor.Proofs.Buffer.View
import TextEditor.Proofs.Document.Lines

/-!
# Clicks on what is shown

The text on screen is a part of the document, and a click on one of its characters that is no line
break puts the caret before it.  The view may be scrolled by that; the caret stays where it was put.
-/

namespace TextEditor.Buffer

variable {b : Buffer}

/-- The text on screen reaches from the beginning of its first line to the beginning of the line
after its last one. -/
theorem viewText_eq (h : b.Framed) :
    b.viewText = Text.slice b.text (b.document.lineStart b.viewport.lineOffset)
      (b.document.lineStart (b.lastNumber b.viewport.lineOffset)) := by
  have hlines : b.viewport.lineOffset ≤ b.lastNumber b.viewport.lineOffset := by
    have hrows := h.rows
    have hinside := h.lineOffset_lt
    simp only [lastNumber]
    omega
  have hle := Document.lineStart_mono h.indexed hlines
  have hstart := Document.clamp_of_le
    (Document.lineStart_le_length h.indexed b.viewport.lineOffset)
  have hstop := Document.clamp_of_le
    (Document.lineStart_le_length h.indexed (b.lastNumber b.viewport.lineOffset))
  rw [viewText, Document.slice, h.start, h.stop, hstart, hstop, Nat.min_eq_left hle,
    Nat.max_eq_right hle]
  rfl

/-- A character on screen is the one of the document at the offset where the screen begins, and its
own offset behind that. -/
theorem getElem?_viewText (h : b.Framed) {k : Nat} {c : Char} (hc : b.viewText[k]? = some c) :
    b.text[b.document.lineStart b.viewport.lineOffset + k]? = some c := by
  rw [viewText_eq h, Text.slice, List.getElem?_take] at hc
  split at hc
  · rwa [List.getElem?_drop] at hc
  · cases hc

/-- The caret may stand before every character that is no break. -/
theorem mem_stops_of_not_break {t : Text} {p : Nat} {c : Char} (hc : t[p]? = some c)
    (hbreak : Text.isLineBreak c = false) : p ∈ t.stops := by
  refine Text.mem_stops.2 ⟨Nat.le_of_lt (List.getElem?_eq_some_iff.1 hc).1, ?_⟩
  rintro k rfl hpair
  obtain rfl : c = '\n' := Option.some.inj (hc.symm.trans hpair.2)
  exact absurd hbreak (by decide)

/-- Where a character that is no break is hit, the place is before it. -/
theorem placeOfHit_eq {hit : Hit} {p : Nat} {c : Char} (hoffset : b.viewport.start + hit.offset = p)
    (htrailing : hit.trailing = 0) (hc : b.text[p]? = some c)
    (hbreak : Text.isLineBreak c = false) : b.placeOfHit hit = ((p : Int), 0) := by
  have hinside : p ≤ b.document.length := Nat.le_of_lt (List.getElem?_eq_some_iff.1 hc).1
  have hsettled : b.document.settle p = p :=
    Document.settle_stop (mem_stops_of_not_break hc hbreak)
  simp only [placeOfHit, hoffset, Document.clamp_of_le hinside, htrailing, ite_self, Int.add_zero,
    hsettled, ne_eq, not_true_eq_false]

/-- A click leaves the caret where the hit puts it, however the view is scrolled then. -/
theorem caret_click (h : b.Inside) (hit : Hit) :
    (b.click hit).caret =
      { b.caret.place (b.placeOfHit hit).1 (b.placeOfHit hit).2 with desiredColumn := 0 } := by
  have hwithin := within_placeOfHit b hit
  unfold click
  generalize b.placeOfHit hit = place at hwithin ⊢
  obtain ⟨offset, trailing⟩ := place
  have hplace := inside_place h false hwithin.1 hwithin.2
  have hdown : Inside { (b.place offset trailing).forgetColumn with selecting := true } :=
    ⟨hplace.anchor, hplace.position, hplace.absolute⟩
  dsimp only
  split
  · exact caret_reconcile (inside_scrollToLine hdown _)
  · exact caret_reconcile hdown

/-- A click on a character that is no break puts the caret before it, with nothing selected. -/
theorem absolute_click (h : b.Inside) {hit : Hit} {p : Nat} {c : Char}
    (hoffset : b.viewport.start + hit.offset = p) (htrailing : hit.trailing = 0)
    (hc : b.text[p]? = some c) (hbreak : Text.isLineBreak c = false) :
    (b.click hit).caret.absolute = p ∧ (b.click hit).caret.selection? = none := by
  rw [caret_click h hit, placeOfHit_eq hoffset htrailing hc hbreak]
  simp [Caret.place, Caret.absolute, Caret.selection?, Caret.hasSelection]

end TextEditor.Buffer

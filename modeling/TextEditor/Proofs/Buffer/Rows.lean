import TextEditor.Proofs.Buffer.Calls
import TextEditor.Proofs.Buffer.Pointing
import TextEditor.Proofs.Document.Excerpt

/-!
# The rows of a view

The text on screen is an excerpt of the document, and its rows are told from this text alone.  They
are the lines of the document from the first one that shows: a row that has a number is the line of
that number.
-/

namespace TextEditor.Buffer

variable {b : Buffer}

/-- The text on screen, split into lines, is an excerpt of the document. -/
theorem ofText_viewText (h : b.Framed) :
    ∃ first last : Nat, (first : Int) = b.viewport.lineOffset ∧
      (last : Int) = b.lastNumber b.viewport.lineOffset ∧ first < last ∧
        last ≤ b.document.lineCount ∧
          Document.ofText b.viewText = b.document.excerpt first last := by
  have hrows := h.rows
  have hlow := h.lineOffset
  have hinside := h.lineOffset_lt
  have hlast : b.viewport.lineOffset < b.lastNumber b.viewport.lineOffset ∧
      b.lastNumber b.viewport.lineOffset ≤ b.document.lineCount := by
    simp only [lastNumber]
    omega
  have hfirst' := Int.toNat_of_nonneg hlow
  have hlast' := Int.toNat_of_nonneg (Int.le_of_lt (Int.lt_of_le_of_lt hlow hlast.1))
  refine ⟨_, _, hfirst', hlast', by omega, by omega, ?_⟩
  rw [Document.excerpt, viewText, h.start, h.stop, hfirst', hlast']

/-- A row that has a number is the line of that number. -/
theorem repeats_viewText (h : b.Framed) {row : Nat} {number : Int}
    (hnumber : b.snapshot.lineNumbers[row]? = some number) :
    ∃ line start : Nat, (line : Int) = b.viewport.lineOffset + row ∧ number = line + 1 ∧
      (start : Int) = b.viewport.start ∧ row < (Document.ofText b.viewText).lineCount ∧
        Document.Repeats (Document.ofText b.viewText) b.document start row line := by
  obtain ⟨first, last, hfirst, hlast, hless, hle, heq⟩ := ofText_viewText h
  simp only [snapshot, List.getElem?_map, Option.map_eq_some_iff] at hnumber
  obtain ⟨k, hk, rfl⟩ := hnumber
  obtain ⟨hinside, rfl⟩ := List.getElem?_eq_some_iff.1 hk
  rw [List.length_range] at hinside
  rw [List.getElem_range]
  have hrow : first + row < last := by
    simp only [lastNumber] at hlast
    omega
  have hcount := Document.lineCount_excerpt h.indexed (Nat.le_of_lt hless) (by omega)
  refine ⟨first + row, b.document.lineStart first, by omega, by omega, ?_, ?_, ?_⟩
  · rw [hfirst, h.start]
  · rw [heq, hcount]
    omega
  · rw [heq]
    exact Document.repeats_excerpt h.indexed hle hrow

/-- Whatever was edited, the text from the beginning of a line to the beginning of a later one,
split into lines anew, has the lines of the document between them, each as far behind the beginning
as in the document.  Behind them there is an empty line if the document goes on, and then the text
ends in a break; to the end of the document there is none.  Between a line and itself there is one
empty line.  And however a buffer was used, a row of the text on screen that has a number is the
line of the document of that number. -/
theorem repeats_of_calls (t : Text) (changes : List Document.Change) (path : String) (text : Text)
    (rows columns : Int) (settings : Settings) (host : Host) (calls : List Call) :
    let d := changes.foldl Document.change (Document.ofText t)
    let b := (calls.foldl Desk.call ⟨create path text rows columns settings, host⟩).buffer
    (∀ first last : Nat, first ≤ last → last ≤ d.lineCount →
      (first = last → (d.excerpt first last).text = [] ∧ (d.excerpt first last).starts = [0]) ∧
      (first < last → (d.excerpt first last).starts = d.startsBetween first last ++
        if last < d.lineCount then [(d.excerpt first last).length] else []) ∧
      (first < last → last < d.lineCount →
        (d.excerpt first last).line (last - first : Nat) = [] ∧
          (d.excerpt first last).text.EndsInBreak) ∧
      ∀ row : Nat, first + row < last →
        Document.Repeats (d.excerpt first last) d (d.lineStart first) row (first + row)) ∧
    ∀ (row : Nat) (number : Int), b.snapshot.lineNumbers[row]? = some number →
      ∃ line start : Nat, (line : Int) = b.viewport.lineOffset + row ∧ number = line + 1 ∧
        (start : Int) = b.viewport.start ∧ row < (Document.ofText b.viewText).lineCount ∧
          Document.Repeats (Document.ofText b.viewText) b.document start row line := by
  intro d b
  have hindexed : d.Indexed :=
    Document.indexed_foldl_change (Document.indexed_ofText t) changes
  have hkept : b.Kept := Desk.kept_foldl_call (d := ⟨_, host⟩)
    (settled_create path text rows columns settings).toKept calls
  refine ⟨fun first last hle hlast => ⟨?_, ?_, ?_, fun row hrow => ?_⟩,
    fun row number hnumber => ?_⟩
  · rintro rfl
    exact Document.excerpt_self hindexed first
  · exact fun hless => Document.starts_excerpt_eq_append hindexed hless hlast
  · exact fun hless hinside => Document.line_excerpt_last hindexed hless hinside
  · exact Document.repeats_excerpt hindexed hlast hrow
  · exact repeats_viewText hkept.toFramed hnumber

/-- Three lines of a document, the middle two rows of which show. -/
example : let b := (create "" "a\r\nb\n\nc".toList 2 8 .usual).scrollDown
    (b.snapshot.lineNumbers, (Document.ofText b.viewText).starts) = ([2, 3], [0, 2, 3]) := by
  decide +kernel

end TextEditor.Buffer

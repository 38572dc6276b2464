import TextEditor.Proofs.Document.Breaks
import TextEditor.Proofs.Document.Position

/-!
# A document is its lines

The lines of a document follow one another without gaps.  Each of them is its content with one break
behind it, except the last one, which has none; and no pair is cut between two of them.  An offset
lies on the line that begins last before it.
-/

namespace TextEditor

namespace Text

/-- A text that begins with a break is this break and what follows, where a pair is one break. -/
theorem exists_isBreak_append {c : Char} (hc : isLineBreak c = true) (rest : Text) :
    ∃ ending back, c :: rest = ending ++ back ∧ IsBreak ending ∧ ¬ CutsPair ending back := by
  by_cases hpair : CutsPair [c] rest
  · obtain ⟨tail, rfl⟩ : ∃ tail, rest = '\n' :: tail := List.head?_eq_some_iff.1 hpair.2
    obtain rfl : c = '\r' := by simpa using hpair.1
    exact ⟨['\r', '\n'], tail, rfl, .inl rfl, by simp [CutsPair]⟩
  · exact ⟨[c], rest, rfl, .inr ⟨c, hc, rfl⟩, hpair⟩

/-- A scan finds the end of the break that a text begins with, and goes on behind it. -/
theorem IsBreak.breakEnds_append {ending back : Text} (h : IsBreak ending)
    (hcut : ¬ CutsPair ending back) (offset : Nat) :
    Text.breakEnds offset (ending ++ back) =
      (offset + ending.length) :: Text.breakEnds (offset + ending.length) back := by
  rw [Text.breakEnds_append _ _ hcut, h.breakEnds, List.singleton_append]

/-- The content of a line that ends with a break is what stands before it. -/
theorem beforeBreak_append {content ending : Text} (hcontent : ∀ c ∈ content, isLineBreak c = false)
    (hending : ∀ c ∈ ending.head?, isLineBreak c = true) :
    beforeBreak (content ++ ending) = content := by
  rw [beforeBreak, List.takeWhile_append_of_pos fun c hc => by simp [hcontent c hc]]
  rcases ending with _ | ⟨c, rest⟩
  · exact List.append_nil _
  · rw [List.takeWhile_cons_of_neg (by simp [hending c rfl]), List.append_nil]

theorem IsBreak.isLineBreak_of_head? {ending : Text} (h : IsBreak ending) :
    ∀ c ∈ ending.head?, isLineBreak c = true := by
  rcases h with rfl | ⟨c, hc, rfl⟩
  · simp
    decide
  · simpa using hc

end Text

namespace Document

variable {d : Document} {row : Nat}

theorem isLineBreak_eq_false_of_mem_content (h : d.Indexed) (hrow : row < d.lineCount) {c : Char}
    (hc : c ∈ d.content row) : Text.isLineBreak c = false := by
  rw [content_eq h hrow] at hc
  exact Text.isLineBreak_eq_false_of_mem_beforeBreak hc

/-- The line begins with its content, and takes up as many characters more as its break has. -/
theorem line_eq_append_take (h : d.Indexed) (hrow : row < d.lineCount) {rest : Text}
    (hrest : d.text.drop (d.lineStart row) = d.content row ++ rest) :
    d.line row = d.content row ++ rest.take (d.breakWidth row) := by
  have hnext := lineStart_succ_eq_add h hrow
  rw [← content_eq h hrow] at hnext
  rw [line, Text.slice, hrest, hnext, Nat.add_assoc, Nat.add_sub_cancel_left]
  exact List.take_length_add_append _

/-- A line that another one follows is its content and one break, which is no half of a pair. -/
theorem exists_line_eq_append (h : d.Indexed) (hrow : row + 1 < d.lineCount) :
    ∃ ending, d.line row = d.content row ++ ending ∧ Text.IsBreak ending ∧
      ending.length = d.breakWidth row ∧
        ¬ Text.CutsPair ending (d.text.drop (d.lineStart (row + 1))) := by
  have hrow' : row < d.lineCount := Nat.lt_of_succ_lt hrow
  obtain ⟨rest, hrest, hbreak⟩ := Text.exists_eq_beforeBreak_append (d.text.drop (d.lineStart row))
  have hnext := getElem?_starts_succ h hrow' hrest
  rw [← content_eq h hrow'] at hrest hnext
  rw [List.getElem?_eq_getElem hrow] at hnext
  rcases rest with _ | ⟨c, tail⟩
  · cases hnext
  obtain ⟨ending, back, heq, hending, hcut⟩ := Text.exists_isBreak_append (hbreak c rfl) tail
  rw [heq] at hrest hnext
  rw [hending.breakEnds_append hcut, List.head?_cons] at hnext
  have hstart : d.lineStart ((row : Int) + 1) =
      d.lineStart row + (d.content row).length + ending.length := by
    rw [lineStart_succ, List.getElem?_eq_getElem hrow, Option.getD_some]
    exact Option.some.inj hnext
  have hwidth : ending.length = d.breakWidth row := by
    have hsum := lineStart_succ_eq_add h hrow'
    rw [← content_eq h hrow'] at hsum
    omega
  refine ⟨ending, ?_, hending, hwidth, ?_⟩
  · rw [line_eq_append_take h hrow' hrest, ← hwidth, List.take_left]
  · have hbehind : d.text.drop (d.lineStart ((row : Int) + 1)) = back := by
      rw [hstart, Nat.add_assoc, ← List.drop_drop, hrest, ← List.append_assoc]
      exact List.drop_left' List.length_append
    rwa [hbehind]

/-- The last line has no break. -/
theorem line_last (h : d.Indexed) (hrow : row + 1 = d.lineCount) :
    d.line row = d.content row ∧ d.breakWidth row = 0 := by
  have hrow' : row < d.lineCount := by omega
  have hnone : d.starts[row + 1]? = none := List.getElem?_eq_none (Nat.le_of_eq hrow.symm)
  have hwidth : d.breakWidth row = 0 := by
    rw [breakWidth, if_neg (by omega), Int.toNat_natCast, hnone]
  obtain ⟨rest, hrest, -⟩ := Text.exists_eq_beforeBreak_append (d.text.drop (d.lineStart row))
  rw [← content_eq h hrow'] at hrest
  rw [line_eq_append_take h hrow' hrest, hwidth, List.take_zero, List.append_nil]
  exact ⟨rfl, rfl⟩

/-- What a line holds before its first break is its content, so that content and break of a line
can be told from the line alone. -/
theorem beforeBreak_line (h : d.Indexed) (hrow : row < d.lineCount) :
    Text.beforeBreak (d.line row) = d.content row := by
  have hcontent : ∀ c ∈ d.content row, Text.isLineBreak c = false :=
    fun c hc => isLineBreak_eq_false_of_mem_content h hrow hc
  rcases Nat.lt_or_eq_of_le hrow with hmore | hlast
  · obtain ⟨ending, hline, hending, -, -⟩ := exists_line_eq_append h hmore
    rw [hline, Text.beforeBreak_append hcontent hending.isLineBreak_of_head?]
  · have hall : Text.beforeBreak (d.content row ++ []) = d.content row :=
      Text.beforeBreak_append hcontent nofun
    rw [(line_last h hlast).1]
    rwa [List.append_nil] at hall

theorem length_line (h : d.Indexed) (hrow : row < d.lineCount) :
    (d.line row).length = d.contentLength row + d.breakWidth row := by
  have hnext := lineStart_succ_eq_add h hrow
  have hlength := contentLength_eq h hrow
  rw [line, length_slice (lineStart_le_length h _)]
  omega

/-- Behind the last line the text ends. -/
theorem lineStart_lineCount (h : d.Indexed) : d.lineStart d.lineCount = d.length := by
  have hpos : 0 < d.lineCount := by
    rw [lineCount_eq_breakCount h]
    exact Nat.succ_pos _
  have hnone : d.starts[d.lineCount]? = none := List.getElem?_eq_none (Nat.le_refl _)
  rw [lineStart, if_neg (by omega), Int.toNat_natCast, hnone, Option.getD_none]

/-- The lines before one of them are the text up to its beginning. -/
theorem flatten_lines (h : d.Indexed) (count : Nat) :
    ((List.range count).map fun row : Nat => d.line row).flatten =
      d.text.take (d.lineStart count) := by
  induction count with
  | zero => rfl
  | succ count ih =>
    have hmono : d.lineStart count ≤ d.lineStart ((count : Int) + 1) :=
      lineStart_mono h (by omega)
    have hjoined := Text.slice_append_slice d.text (Nat.zero_le _) hmono
    simp only [Text.slice, Nat.sub_zero, List.drop_zero] at hjoined
    rw [List.range_succ, List.map_append, List.flatten_append, ih, List.map_singleton,
      List.flatten_singleton]
    exact hjoined

/-- No pair is cut between a line and the next one. -/
theorem not_cutsPair_line (h : d.Indexed) (hrow : row + 1 < d.lineCount) :
    ¬ Text.CutsPair (d.line row) (d.line ((row : Int) + 1)) := by
  obtain ⟨ending, hline, hending, -, hcut⟩ := exists_line_eq_append h hrow
  rw [hline, Text.cutsPair_append_iff hending.ne_nil]
  rintro ⟨hlast, hhead⟩
  refine hcut ⟨hlast, ?_⟩
  rw [line, Text.slice, List.head?_take] at hhead
  split at hhead
  · cases hhead
  · exact hhead

theorem indexed_foldl_change (h : d.Indexed) (changes : List Change) :
    (changes.foldl change d).Indexed := by
  induction changes generalizing d with
  | nil => exact h
  | cons c rest ih => exact ih (indexed_change h c)

/-- Whatever was edited, the lines of a document make up its text.  Each line but the last is its
content, which has no break, with one break behind it, where a pair is one break and is never cut;
the last line has no break.  An offset lies on the line that begins last before it, and a line
begins on itself. -/
theorem lines_of_changes (t : Text) (changes : List Change) :
    let d := changes.foldl change (ofText t)
    ((List.range d.lineCount).map fun row : Nat => d.line row).flatten = d.text ∧
    (∀ row : Nat, row + 1 < d.lineCount → ∃ content ending, d.line row = content ++ ending ∧
      content.length = d.contentLength row ∧ (∀ c ∈ content, Text.isLineBreak c = false) ∧
      Text.IsBreak ending ∧ ending.length = d.breakWidth row ∧
      ¬ Text.CutsPair ending (d.line ((row : Int) + 1))) ∧
    (∃ last : Nat, last + 1 = d.lineCount ∧ (∀ c ∈ d.line last, Text.isLineBreak c = false) ∧
      (d.line last).length = d.contentLength last ∧ d.breakWidth last = 0) ∧
    (∀ offset : Nat, offset ≤ d.length → d.lineOf offset < d.lineCount ∧
      d.lineStart (d.lineOf offset) ≤ offset ∧
      (d.lineOf offset + 1 = d.lineCount ∨ offset < d.lineStart ((d.lineOf offset : Int) + 1))) ∧
    ∀ row : Nat, row < d.lineCount → d.lineOf (d.lineStart row) = row := by
  intro d
  have h : d.Indexed := indexed_foldl_change (indexed_ofText t) changes
  refine ⟨?_, fun row hrow => ?_, ?_, fun offset hoffset => ?_, fun row hrow => ?_⟩
  · rw [flatten_lines h, lineStart_lineCount h, length, List.take_length]
  · obtain ⟨ending, hline, hending, hwidth, -⟩ := exists_line_eq_append h hrow
    have hcut := not_cutsPair_line h hrow
    rw [hline, Text.cutsPair_append_iff hending.ne_nil] at hcut
    have hrow' : row < d.lineCount := Nat.lt_of_succ_lt hrow
    exact ⟨d.content row, ending, hline, length_content h hrow',
      fun c hc => isLineBreak_eq_false_of_mem_content h hrow' hc, hending, hwidth, hcut⟩
  · obtain ⟨last, hlast⟩ : ∃ last : Nat, last + 1 = d.lineCount :=
      ⟨_, (lineCount_eq_breakCount h).symm⟩
    obtain ⟨hline, hwidth⟩ := line_last h hlast
    have hlast' : last < d.lineCount := Nat.lt_of_succ_le (Nat.le_of_eq hlast)
    have hlength := length_line h hlast'
    refine ⟨last, hlast, fun c hc => ?_, by rw [hlength, hwidth, Nat.add_zero], hwidth⟩
    exact isLineBreak_eq_false_of_mem_content h hlast' (hline ▸ hc)
  · have hplace : d.clamp offset = offset := clamp_of_le hoffset
    have hline := lineOf_lt_lineCount h offset
    have hstart := lineStart_lineOf h offset
    rw [hplace] at hstart
    refine ⟨hline, hstart, (Nat.lt_or_eq_of_le hline).symm.imp_right fun hmore => ?_⟩
    have hnext : d.starts[d.lineOf offset + 1]? = some d.starts[d.lineOf offset + 1] :=
      List.getElem?_eq_getElem hmore
    have hbehind := clamp_lt_starts h hnext
    rw [lineStart_succ, hnext, Option.getD_some]
    omega
  · simpa using lineOf_lineStart_add h hrow (Nat.zero_le _)

/-- A return, a pair and an empty last line. -/
example : let d := ofText "a\r\r\nb\n".toList
    (d.starts, d.breakWidth 0, d.breakWidth 1, d.line 3) = ([0, 2, 4, 6], 1, 2, []) := by decide

end Document

end TextEditor

import TextEditor.Proofs.Document.LineIndex

/-!
# The content of a line

The content of a line is what the text has before its first break from the beginning of the line on.
The length that the index gives for it is that one, since no line begins inside a CR LF pair: a
line feed whose carriage return belongs to the line before is never taken for half of a break.
-/

namespace TextEditor

namespace Text

/-- The characters of a text before its first line break. -/
def beforeBreak (t : Text) : Text :=
  t.takeWhile fun c => !isLineBreak c

theorem isLineBreak_eq_false_of_mem_beforeBreak {t : Text} {c : Char} (hc : c ∈ beforeBreak t) :
    isLineBreak c = false := by
  have hall := List.all_eq_true.1 (List.all_takeWhile (l := t) (p := fun c => !isLineBreak c)) c hc
  simpa using hall

/-- What follows the content of a text begins with a break. -/
theorem exists_eq_beforeBreak_append (t : Text) :
    ∃ rest, t = beforeBreak t ++ rest ∧ ∀ c ∈ rest.head?, isLineBreak c = true := by
  refine ⟨t.dropWhile fun c => !isLineBreak c, List.takeWhile_append_dropWhile.symm, ?_⟩
  intro c hc
  have hhead := List.head?_dropWhile_not (fun c => !isLineBreak c) t
  rw [Option.mem_def.1 hc] at hhead
  simpa using hhead

theorem breakEnds_of_no_break {t : Text} (h : ∀ c ∈ t, isLineBreak c = false) (offset : Nat) :
    breakEnds offset t = [] := by
  induction t generalizing offset with
  | nil => rfl
  | cons c rest ih =>
    have hc : isLineBreak c = false := h c List.mem_cons_self
    have hpair : ¬ CutsPair [c] rest := by
      rintro ⟨hreturn, -⟩
      obtain rfl : c = '\r' := by simpa using hreturn
      exact absurd hc (by decide)
    rw [breakEnds_cons hpair, ih fun d hd => h d (List.mem_cons_of_mem c hd), hc]
    rfl

/-- A cut behind characters that are no breaks goes through no pair. -/
theorem not_cutsPair_append (front : Text) {middle back : Text}
    (hmiddle : ∀ c ∈ middle, isLineBreak c = false) (hfront : middle = [] → ¬ CutsPair front back) :
    ¬ CutsPair (front ++ middle) back := by
  by_cases hnil : middle = []
  · rw [hnil, List.append_nil]
    exact hfront hnil
  · rintro ⟨hlast, -⟩
    rw [List.getLast?_append_of_ne_nil front hnil] at hlast
    exact absurd (hmiddle _ (List.mem_of_getLast? hlast)) (by decide)

/-- A scan goes on behind the content. -/
theorem breakEnds_beforeBreak (t rest : Text) (ht : t = beforeBreak t ++ rest) (offset : Nat) :
    breakEnds offset t = breakEnds (offset + (beforeBreak t).length) rest := by
  have hcontent : ∀ c ∈ beforeBreak t, isLineBreak c = false :=
    fun c hc => isLineBreak_eq_false_of_mem_beforeBreak hc
  have hcut : ¬ CutsPair (beforeBreak t) rest :=
    not_cutsPair_append [] hcontent fun _ => not_cutsPair_nil rest
  conv_lhs => rw [ht]
  rw [breakEnds_append _ _ hcut, breakEnds_of_no_break hcontent, List.nil_append]

theorem slice_append (front middle back : Text) {start stop : Nat}
    (hstart : front.length = start) (hstop : start + middle.length = stop) :
    slice (front ++ middle ++ back) start stop = middle := by
  have hwidth : stop - start = middle.length := by omega
  rw [slice, List.append_assoc, List.drop_left' hstart, hwidth, List.take_left]

/-- The two characters behind which a text is cut, where the second one is a break of its own. -/
theorem slice_ne_pair {front rest : Text} {c : Char} (hcut : ¬ CutsPair front (c :: rest))
    (hfront : front ≠ []) :
    slice (front ++ c :: rest) (front.length - 1) (front.length + 1) ≠ ['\r', '\n'] := by
  rcases List.eq_nil_or_concat' front with hnil | ⟨before, e, rfl⟩
  · exact absurd hnil hfront
  have hslice := slice_append before [e, c] rest rfl rfl
  have hsame : before ++ [e, c] ++ rest = before ++ [e] ++ c :: rest := by simp
  rw [List.length_append, List.length_singleton, Nat.add_sub_cancel, ← hsame]
  intro heq
  rw [Nat.add_assoc, show before.length + (1 + 1) = before.length + [e, c].length from rfl,
    hslice] at heq
  obtain ⟨rfl, rfl⟩ : e = '\r' ∧ c = '\n' := by simpa using heq
  exact hcut ⟨by simp, rfl⟩

/-- A text that begins with a break has an end of a break. -/
theorem breakEnds_ne_nil {c : Char} {rest : Text} (hc : isLineBreak c = true) (offset : Nat) :
    breakEnds offset (c :: rest) ≠ [] := by
  rw [breakEnds.eq_def]
  split <;> simp_all

/-- The width of the first break of a text can be read off the two characters before its end. -/
theorem width_of_breakEnds {front rest : Text} (hbreak : ∀ c ∈ rest.head?, isLineBreak c = true)
    (hcut : ¬ CutsPair front rest) {stop : Nat}
    (hstop : (breakEnds front.length rest).head? = some stop) :
    stop = front.length +
      if 2 ≤ stop && slice (front ++ rest) (stop - 2) stop = ['\r', '\n'] then 2 else 1 := by
  rcases rest with _ | ⟨c, back⟩
  · cases hstop
  by_cases hpair : CutsPair [c] back
  · obtain ⟨tail, rfl⟩ : ∃ tail, back = '\n' :: tail := List.head?_eq_some_iff.1 hpair.2
    obtain rfl : c = '\r' := by simpa using hpair.1
    obtain rfl : front.length + 2 = stop := by simpa [breakEnds] using hstop
    have hslice : slice (front ++ '\r' :: '\n' :: tail) front.length (front.length + 2) =
        ['\r', '\n'] := by
      simpa using slice_append front ['\r', '\n'] tail rfl rfl
    simp [hslice]
  · rw [breakEnds_cons hpair, if_pos (hbreak c rfl)] at hstop
    obtain rfl : front.length + 1 = stop := by simpa using hstop
    rw [if_neg]
    rw [Bool.and_eq_true, decide_eq_true_iff, decide_eq_true_iff]
    rintro ⟨htwo, hslice⟩
    exact slice_ne_pair hcut (List.ne_nil_of_length_pos (by omega)) hslice

/-- The line starts behind one of them are the breaks of the text from there on. -/
theorem drop_lineStarts {t : Text} {line s : Nat} (hline : (lineStarts t)[line]? = some s) :
    (lineStarts t).drop (line + 1) = breakEnds s (t.drop s) := by
  have hmem : s ∈ lineStarts t := List.mem_of_getElem? hline
  have hsplit := lineStarts_eq_append (le_length_of_mem_lineStarts hmem)
    (not_cutsPair_of_mem_lineStarts hmem)
  have hlength : (lineStarts (t.take s)).length = line + 1 := by
    rw [← take_lineStarts hline, List.length_take_of_le]
    exact (List.getElem?_eq_some_iff.1 hline).1
  rw [hsplit, List.drop_left' hlength]

end Text

namespace Document

variable {d : Document} {row : Nat}

theorem getElem?_lineStarts (h : d.Indexed) (hrow : row < d.lineCount) :
    (Text.lineStarts d.text)[row]? = some (d.lineStart row) := by
  have hinside : d.starts[row]? = some d.starts[row] := List.getElem?_eq_getElem hrow
  rcases Nat.eq_zero_or_pos row with rfl | hpos
  · rfl
  · rw [lineStart, if_neg (by omega), Int.toNat_natCast, ← h, hinside, Option.getD_some]

theorem lineStart_le_length (h : d.Indexed) (line : Int) : d.lineStart line ≤ d.length := by
  unfold lineStart
  split
  · exact Nat.zero_le _
  · cases hs : d.starts[line.toNat]? with
    | none => exact Nat.le_refl _
    | some s => exact Text.le_length_of_mem_lineStarts (h ▸ List.mem_of_getElem? hs)

/-- Lines begin in their order. -/
theorem lineStart_mono (h : d.Indexed) {line line' : Int} (hle : line ≤ line') :
    d.lineStart line ≤ d.lineStart line' := by
  by_cases hfirst : line ≤ 0
  · rw [lineStart, if_pos hfirst]
    exact Nat.zero_le _
  rw [lineStart, lineStart, if_neg hfirst, if_neg (by omega)]
  cases hs' : d.starts[line'.toNat]? with
  | none =>
    have hlength := lineStart_le_length h line
    rwa [lineStart, if_neg hfirst] at hlength
  | some s' =>
    obtain ⟨hinside', rfl⟩ := List.getElem?_eq_some_iff.1 hs'
    rw [List.getElem?_eq_getElem (by omega : line.toNat < d.starts.length), Option.getD_some,
      Option.getD_some]
    rcases Nat.eq_or_lt_of_le (Int.toNat_le_toNat hle) with heq | hless
    · simp only [heq, Nat.le_refl]
    · have hsorted : d.starts.Pairwise (· < ·) := h ▸ Text.pairwise_lineStarts d.text
      exact Nat.le_of_lt (List.pairwise_iff_getElem.1 hsorted _ _ (by omega) hinside' hless)

/-- Every line before this one takes a character at least. -/
theorem le_lineStart (h : d.Indexed) (hrow : row < d.lineCount) : row ≤ d.lineStart row := by
  induction row with
  | zero => exact Nat.zero_le _
  | succ row ih =>
    have hrow' : row < d.lineCount := Nat.lt_of_succ_lt hrow
    have hbefore := ih hrow'
    obtain ⟨hfirst, hfirst'⟩ := List.getElem?_eq_some_iff.1 (getElem?_lineStarts h hrow')
    obtain ⟨hsecond, hsecond'⟩ := List.getElem?_eq_some_iff.1 (getElem?_lineStarts h hrow)
    have hless := List.pairwise_iff_getElem.1 (Text.pairwise_lineStarts d.text) row (row + 1) hfirst
      hsecond (Nat.lt_succ_self row)
    rw [hfirst', hsecond'] at hless
    omega

/-- No line begins inside a pair, and none is cut off at the end of its content. -/
theorem not_cutsPair_beforeBreak (h : d.Indexed) (hrow : row < d.lineCount) {rest : Text}
    (hrest : d.text.drop (d.lineStart row) =
      Text.beforeBreak (d.text.drop (d.lineStart row)) ++ rest) :
    ¬ Text.CutsPair
      (d.text.take (d.lineStart row) ++ Text.beforeBreak (d.text.drop (d.lineStart row))) rest := by
  refine Text.not_cutsPair_append _ (fun c hc => Text.isLineBreak_eq_false_of_mem_beforeBreak hc) ?_
  intro hnil
  rw [hnil, List.nil_append] at hrest
  rw [← hrest]
  exact Text.not_cutsPair_of_mem_lineStarts (List.mem_of_getElem? (getElem?_lineStarts h hrow))

/-- The line after a line of the document begins where the index says, or the text ends there. -/
theorem lineStart_succ (d : Document) (row : Nat) :
    d.lineStart ((row : Int) + 1) = d.starts[row + 1]?.getD d.length := by
  rw [lineStart, if_neg (by omega)]
  rfl

/-- The next line begins where the break behind the content of this one ends. -/
theorem getElem?_starts_succ (h : d.Indexed) (hrow : row < d.lineCount) {rest : Text}
    (hrest : d.text.drop (d.lineStart row) =
      Text.beforeBreak (d.text.drop (d.lineStart row)) ++ rest) :
    d.starts[row + 1]? = (Text.breakEnds
      (d.lineStart row + (Text.beforeBreak (d.text.drop (d.lineStart row))).length) rest).head? := by
  rw [← Text.breakEnds_beforeBreak _ rest hrest, ← Text.drop_lineStarts (getElem?_lineStarts h hrow),
    List.head?_drop, h]

/-- A line is as long as its content and its break. -/
theorem lineStart_succ_eq_add (h : d.Indexed) (hrow : row < d.lineCount) :
    d.lineStart ((row : Int) + 1) =
      d.lineStart row + (Text.beforeBreak (d.text.drop (d.lineStart row))).length +
        d.breakWidth row := by
  have hstart := getElem?_lineStarts h hrow
  obtain ⟨rest, hrest, hbreak⟩ := Text.exists_eq_beforeBreak_append (d.text.drop (d.lineStart row))
  have hcut := not_cutsPair_beforeBreak h hrow hrest
  have hnext := getElem?_starts_succ h hrow hrest
  have htext : d.text = d.text.take (d.lineStart row) ++
      Text.beforeBreak (d.text.drop (d.lineStart row)) ++ rest := by
    rw [List.append_assoc, ← hrest, List.take_append_drop]
  have hfront : (d.text.take (d.lineStart row) ++
      Text.beforeBreak (d.text.drop (d.lineStart row))).length =
      d.lineStart row + (Text.beforeBreak (d.text.drop (d.lineStart row))).length := by
    rw [List.length_append, List.length_take_of_le
      (Text.le_length_of_mem_lineStarts (List.mem_of_getElem? hstart))]
  rw [← hfront] at hnext ⊢
  generalize d.text.take (d.lineStart row) ++ Text.beforeBreak (d.text.drop (d.lineStart row)) =
    front at *
  rw [lineStart_succ, breakWidth, if_neg (by omega), Int.toNat_natCast]
  cases hhead : (Text.breakEnds front.length rest).head? with
  | none =>
    have hnil : rest = [] := by
      rcases rest with _ | ⟨c, back⟩
      · rfl
      · exact absurd (List.head?_eq_none_iff.1 hhead) (Text.breakEnds_ne_nil (hbreak c rfl) _)
    simp only [hnext, hhead, Option.getD_none]
    rw [length, htext, hnil, List.append_nil, Nat.add_zero]
  | some stop =>
    have hwidth := Text.width_of_breakEnds hbreak hcut hhead
    rw [← htext] at hwidth
    simp only [hnext, hhead, Option.getD_some]
    exact hwidth

/-- The index gives each line the length of its content. -/
theorem contentLength_eq (h : d.Indexed) (hrow : row < d.lineCount) :
    d.contentLength row = (Text.beforeBreak (d.text.drop (d.lineStart row))).length := by
  have hline := lineStart_succ_eq_add h hrow
  rw [contentLength, if_neg (by simp; omega)]
  omega

theorem lineStart_add_contentLength_le (h : d.Indexed) (hrow : row < d.lineCount) :
    d.lineStart row + d.contentLength row ≤ d.length := by
  have hmem := List.mem_of_getElem? (getElem?_lineStarts h hrow)
  have hstart := Text.le_length_of_mem_lineStarts hmem
  obtain ⟨rest, hrest, -⟩ := Text.exists_eq_beforeBreak_append (d.text.drop (d.lineStart row))
  have hlength := congrArg List.length hrest
  rw [List.length_append, List.length_drop] at hlength
  rw [contentLength_eq h hrow, length]
  omega

/-- The content of a line: its characters without the break. -/
def content (d : Document) (line : Int) : Text :=
  d.slice (d.lineStart line) (d.lineStart line + d.contentLength line)

theorem content_eq (h : d.Indexed) (hrow : row < d.lineCount) :
    d.content row = Text.beforeBreak (d.text.drop (d.lineStart row)) := by
  have hend := lineStart_add_contentLength_le h hrow
  obtain ⟨rest, hrest, -⟩ := Text.exists_eq_beforeBreak_append (d.text.drop (d.lineStart row))
  rw [content, slice, clamp_of_le (lineStart_le_length h row), ← Int.natCast_add, clamp_of_le hend,
    Text.slice, Nat.min_eq_left (Nat.le_add_right _ _), Nat.max_eq_right (Nat.le_add_right _ _),
    Nat.add_sub_cancel_left, contentLength_eq h hrow]
  generalize Text.beforeBreak (d.text.drop (d.lineStart row)) = front at hrest ⊢
  rw [hrest, List.take_left]

theorem length_content (h : d.Indexed) (hrow : row < d.lineCount) :
    (d.content row).length = d.contentLength row := by
  rw [content_eq h hrow, contentLength_eq h hrow]

/-- None of the characters of the content of a line is a break. -/
theorem isLineBreak_eq_false_of_lt_contentLength (h : d.Indexed) (hrow : row < d.lineCount)
    {column : Nat} (hcolumn : column < d.contentLength row) {c : Char}
    (hc : d.text[d.lineStart row + column]? = some c) : Text.isLineBreak c = false := by
  rw [contentLength_eq h hrow] at hcolumn
  obtain ⟨rest, hrest, -⟩ := Text.exists_eq_beforeBreak_append (d.text.drop (d.lineStart row))
  rw [← List.getElem?_drop, hrest, List.getElem?_append_left hcolumn] at hc
  exact Text.isLineBreak_eq_false_of_mem_beforeBreak (List.mem_of_getElem? hc)

/-! ## The line of an offset -/

theorem starts_lt_starts (h : d.Indexed) {i j x y : Nat} (hi : d.starts[i]? = some x)
    (hj : d.starts[j]? = some y) (hless : i < j) : x < y := by
  obtain ⟨hi', rfl⟩ := List.getElem?_eq_some_iff.1 hi
  obtain ⟨hj', rfl⟩ := List.getElem?_eq_some_iff.1 hj
  have hsorted : d.starts.Pairwise (· < ·) := h ▸ Text.pairwise_lineStarts d.text
  exact List.pairwise_iff_getElem.1 hsorted i j hi' hj' hless

theorem starts_le_starts (h : d.Indexed) {i j x y : Nat} (hi : d.starts[i]? = some x)
    (hj : d.starts[j]? = some y) (hle : i ≤ j) : x ≤ y := by
  rcases Nat.lt_or_eq_of_le hle with hless | rfl
  · exact Nat.le_of_lt (starts_lt_starts h hi hj hless)
  · exact Nat.le_of_eq (Option.some.inj (hi.symm.trans hj))

/-- An offset is on the line that begins at or before it, if the next one begins behind it. -/
theorem lineOf_eq_of_starts (h : d.Indexed) {offset : Int} {s : Nat}
    (hs : d.starts[row]? = some s) (hle : s ≤ d.clamp offset)
    (hnext : ∀ s', d.starts[row + 1]? = some s' → d.clamp offset < s') :
    d.lineOf offset = row := by
  obtain ⟨s', hs', hle'⟩ := starts_le_clamp h (Nat.le_refl (d.lineOf offset))
  have hrow : row < d.starts.length := (List.getElem?_eq_some_iff.1 hs).1
  have hline : d.lineOf offset < d.starts.length := (List.getElem?_eq_some_iff.1 hs').1
  rcases Nat.lt_trichotomy (d.lineOf offset) row with hless | heq | hmore
  · -- The line behind that of the offset begins behind the offset, and so at or before this one.
    have hx : d.starts[d.lineOf offset + 1]? = some d.starts[d.lineOf offset + 1] :=
      List.getElem?_eq_getElem (by omega)
    have hbehind := clamp_lt_starts h hx
    have hbefore := starts_le_starts h hx hs hless
    omega
  · exact heq
  · have hx : d.starts[row + 1]? = some d.starts[row + 1] := List.getElem?_eq_getElem (by omega)
    have hbehind := hnext _ hx
    have hbefore := starts_le_starts h hx hs' hmore
    omega

/-- Every line but the last ends with a break, of one character at least. -/
theorem lineStart_add_contentLength_lt (h : d.Indexed) {s' : Nat}
    (hs' : d.starts[row + 1]? = some s') : d.lineStart row + d.contentLength row < s' := by
  have hrow : row + 1 < d.lineCount := (List.getElem?_eq_some_iff.1 hs').1
  have hstart := getElem?_lineStarts h (Nat.lt_of_succ_lt hrow)
  rw [← h] at hstart
  have hless := starts_lt_starts h hstart hs' (Nat.lt_succ_self row)
  have hnext : d.lineStart ((row : Int) + 1) = s' := by
    rw [lineStart_succ, hs', Option.getD_some]
  have hwidth : 1 ≤ d.breakWidth row := by
    rw [breakWidth, if_neg (by omega), Int.toNat_natCast, hs']
    dsimp only
    split <;> omega
  rw [contentLength, if_neg (by simp; omega), hnext]
  omega

/-- The offsets of the content of a line, and the one behind it, are on that line. -/
theorem lineOf_lineStart_add (h : d.Indexed) (hrow : row < d.lineCount) {column : Nat}
    (hcolumn : column ≤ d.contentLength row) :
    d.lineOf (d.lineStart row + column : Nat) = row := by
  have hstart := getElem?_lineStarts h hrow
  rw [← h] at hstart
  have hinside := lineStart_add_contentLength_le h hrow
  have hclamp : d.clamp (d.lineStart row + column : Nat) = d.lineStart row + column :=
    clamp_of_le (by omega)
  refine lineOf_eq_of_starts h hstart (by omega) fun s' hs' => ?_
  have := lineStart_add_contentLength_lt h hs'
  omega

end Document

end TextEditor

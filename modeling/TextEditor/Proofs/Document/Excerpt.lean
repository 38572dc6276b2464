import TextEditor.Proofs.Document.Partition

/-!
# Lines of an excerpt

An excerpt of a document begins where one of its lines begins and ends where another one does.  Who
splits it into lines anew finds the lines of the document again, since no cut at the beginning of a
line goes through a pair.  Behind the last of them an excerpt that ends with a break has an empty
line, in the place of the line of the document that it ends before.
-/

namespace TextEditor

namespace Text

/-- The last character is a line break. -/
def EndsInBreak (t : Text) : Prop :=
  ∃ c ∈ t.getLast?, isLineBreak c = true

instance (t : Text) : Decidable t.EndsInBreak :=
  decidable_of_iff (t.getLast?.any isLineBreak = true) (by simp [EndsInBreak, Option.any_eq_true])

theorem IsBreak.endsInBreak_append {ending : Text} (h : IsBreak ending) (front : Text) :
    (front ++ ending).EndsInBreak := by
  rcases h with rfl | ⟨c, hc, rfl⟩
  · exact ⟨'\n', by simp, by decide⟩
  · exact ⟨c, by simp, hc⟩

/-- A scan that begins elsewhere finds the same breaks. -/
theorem breakEnds_shift (t : Text) (offset shift : Nat) :
    breakEnds (offset + shift) t = (breakEnds offset t).map (· + shift) := by
  fun_induction breakEnds offset t with
  | case1 => rfl
  | case2 offset rest ih =>
    rw [breakEnds, List.map_cons, ← ih, Nat.add_right_comm]
  | case3 offset c rest hpair hc ih =>
    rw [breakEnds.eq_3 _ c rest hpair, if_pos hc, List.map_cons, ← ih, Nat.add_right_comm]
  | case4 offset c rest hpair hc ih =>
    rw [breakEnds.eq_3 _ c rest hpair, if_neg hc, ← ih, Nat.add_right_comm]

/-- The lines of a text are those that a scan finds in it wherever it begins. -/
theorem lineStarts_eq_map (t : Text) (start : Nat) :
    lineStarts t = (start :: breakEnds start t).map (· - start) := by
  have hshift := breakEnds_shift t 0 start
  rw [Nat.zero_add] at hshift
  rw [List.map_cons, Nat.sub_self, hshift, List.map_map, lineStarts]
  congr 1
  exact (List.map_id' _).symm.trans
    (List.map_congr_left fun s _ => (Nat.add_sub_cancel s start).symm)

theorem slice_slice (t : Text) {start stop first last : Nat} (hlast : start + last ≤ stop) :
    slice (slice t start stop) first last = slice t (start + first) (start + last) := by
  rw [slice, slice, slice, List.drop_take, List.take_take, List.drop_drop]
  congr 1
  omega

end Text

namespace Document

variable {d : Document} {a b row : Nat}

/-- The text from the beginning of line `a` to the beginning of line `b`, or to the end of the
document, with lines of its own. -/
def excerpt (d : Document) (a b : Nat) : Document :=
  ofText (d.slice (d.lineStart a) (d.lineStart b))

theorem indexed_excerpt (d : Document) (a b : Nat) : (d.excerpt a b).Indexed :=
  indexed_ofText _

theorem text_excerpt (h : d.Indexed) (hab : a ≤ b) :
    (d.excerpt a b).text = Text.slice d.text (d.lineStart a) (d.lineStart b) := by
  have hle : d.lineStart a ≤ d.lineStart b := lineStart_mono h (Int.ofNat_le.2 hab)
  simp only [excerpt, ofText, slice, clamp_of_le (lineStart_le_length h _), Nat.min_eq_left hle,
    Nat.max_eq_right hle]

theorem length_excerpt (h : d.Indexed) (hab : a ≤ b) :
    (d.excerpt a b).length = d.lineStart b - d.lineStart a := by
  rw [length, text_excerpt h hab, length_slice (lineStart_le_length h _)]

/-- Line starts behind the last one are the end of the text. -/
theorem lineStart_of_lineCount_le (h : d.Indexed) (hrow : d.lineCount ≤ row) :
    d.lineStart row = d.length :=
  Nat.le_antisymm (lineStart_le_length h _)
    (lineStart_lineCount h ▸ lineStart_mono h (Int.ofNat_le.2 hrow))

/-- From the beginning of a line on there are as many breaks as lines behind it. -/
theorem length_breakEnds_lineStart (h : d.Indexed) (row : Nat) :
    (Text.breakEnds (d.lineStart row) (d.text.drop (d.lineStart row))).length =
      d.lineCount - (row + 1) := by
  rcases Nat.lt_or_ge row d.lineCount with hinside | hbehind
  · rw [← Text.drop_lineStarts (getElem?_lineStarts h hinside), List.length_drop, ← h]
    rfl
  · have hend : d.lineStart row = d.text.length := lineStart_of_lineCount_le h hbehind
    rw [hend, List.drop_length, Nat.sub_eq_zero_of_le (Nat.le_succ_of_le hbehind)]
    rfl

/-- No pair is cut at the beginning of a line. -/
theorem not_cutsPair_lineStart (h : d.Indexed) (row : Nat) :
    ¬ Text.CutsPair (d.text.take (d.lineStart row)) (d.text.drop (d.lineStart row)) := by
  rcases Nat.lt_or_ge row d.lineCount with hinside | hbehind
  · exact Text.not_cutsPair_of_mem_lineStarts (List.mem_of_getElem? (getElem?_lineStarts h hinside))
  · have hend : d.lineStart row = d.text.length := lineStart_of_lineCount_le h hbehind
    rw [hend, List.drop_length]
    exact fun hcut => by cases hcut.2

/-- A scan from the beginning of a line finds the breaks of the excerpt, then those behind it. -/
theorem breakEnds_lineStart (h : d.Indexed) (hab : a ≤ b) :
    Text.breakEnds (d.lineStart a) (d.text.drop (d.lineStart a)) =
      Text.breakEnds (d.lineStart a) (d.excerpt a b).text ++
        Text.breakEnds (d.lineStart b) (d.text.drop (d.lineStart b)) := by
  have hle : d.lineStart a ≤ d.lineStart b := lineStart_mono h (Int.ofNat_le.2 hab)
  have hlength := length_excerpt h hab
  have hbehind : d.lineStart a + (d.excerpt a b).text.length = d.lineStart b := by
    rw [length] at hlength
    omega
  have hdrop : (d.excerpt a b).text ++ d.text.drop (d.lineStart b) =
      d.text.drop (d.lineStart a) := by
    rw [text_excerpt h hab, Text.slice_append_drop _ hle]
  have hcut : ¬ Text.CutsPair (d.excerpt a b).text (d.text.drop (d.lineStart b)) := by
    by_cases hnil : (d.excerpt a b).text = []
    · rw [hnil]
      exact Text.not_cutsPair_nil _
    · have hfront := Text.slice_append_slice d.text (Nat.zero_le _) hle
      rw [← text_excerpt h hab] at hfront
      simp only [Text.slice, Nat.sub_zero, List.drop_zero] at hfront
      rw [← Text.cutsPair_append_iff hnil, hfront]
      exact not_cutsPair_lineStart h b
  rw [← hdrop, Text.breakEnds_append _ _ hcut, hbehind]

/-- The lines of an excerpt begin where those of the document do, from its first line to the one
that it ends before. -/
theorem starts_excerpt (h : d.Indexed) (hab : a ≤ b) (ha : a < d.lineCount) :
    (d.excerpt a b).starts = ((d.starts.drop a).take (b - a + 1)).map (· - d.lineStart a) := by
  have hscan := breakEnds_lineStart h hab
  have hfront := length_breakEnds_lineStart h a
  have hback := length_breakEnds_lineStart h b
  rw [hscan, List.length_append] at hfront
  have hdrop : d.starts.drop a = d.lineStart a ::
      (Text.breakEnds (d.lineStart a) (d.excerpt a b).text ++
        Text.breakEnds (d.lineStart b) (d.text.drop (d.lineStart b))) := by
    have hstart := getElem?_lineStarts h ha
    rw [← hscan, ← Text.drop_lineStarts hstart, h]
    exact List.drop_eq_getElem?_toList_append.trans (by rw [hstart]; rfl)
  have htake : (Text.breakEnds (d.lineStart a) (d.excerpt a b).text ++
      Text.breakEnds (d.lineStart b) (d.text.drop (d.lineStart b))).take (b - a) =
      Text.breakEnds (d.lineStart a) (d.excerpt a b).text := by
    rcases Nat.lt_or_ge b d.lineCount with hinside | hbehind
    · exact List.take_left' (by omega)
    · have hnone := List.eq_nil_of_length_eq_zero (hback.trans (by omega))
      rw [hnone, List.append_nil, List.take_of_length_le (by omega)]
  rw [hdrop, List.take_succ_cons, htake, indexed_excerpt d a b]
  exact Text.lineStarts_eq_map _ _

/-- An excerpt has the lines of the document that it is made of, and one more where it ends before a
line. -/
theorem lineCount_excerpt (h : d.Indexed) (hab : a ≤ b) (ha : a < d.lineCount) :
    (d.excerpt a b).lineCount = min (b - a + 1) (d.lineCount - a) := by
  rw [lineCount, starts_excerpt h hab ha, List.length_map, List.length_take, List.length_drop]
  rfl

theorem lineStart_excerpt (h : d.Indexed) (hab : a ≤ b) (ha : a < d.lineCount)
    (hrow : row ≤ b - a) :
    d.lineStart a + (d.excerpt a b).lineStart row = d.lineStart (a + row : Nat) := by
  have hle : d.lineStart a ≤ d.lineStart (a + row : Nat) := lineStart_mono h (by omega)
  have hcount := lineCount_excerpt h hab ha
  rcases Nat.lt_or_ge (a + row) d.lineCount with hinside | hbehind
  · have hstart := getElem?_lineStarts (indexed_excerpt d a b) (by omega : row < _)
    have hstart' := getElem?_lineStarts h hinside
    rw [← indexed_excerpt d a b, starts_excerpt h hab ha, List.getElem?_map,
      List.getElem?_take_of_lt (by omega), List.getElem?_drop, h, hstart',
      Option.map_some] at hstart
    have := Option.some.inj hstart
    omega
  · -- Only an excerpt to the end of the document comes to a line that is not there.
    have hend := lineStart_of_lineCount_le h hbehind
    have hstop := lineStart_of_lineCount_le h (Nat.le_trans hbehind (by omega : a + row ≤ b))
    have hlast := lineStart_of_lineCount_le (indexed_excerpt d a b) (by omega : _ ≤ row)
    rw [length_excerpt h hab] at hlast
    omega

/-- Line `row` of `part` is line `line` of `d`: it has the same characters, as many of them in its
content and in its break, and begins where the other one does if `part` begins at `start`. -/
structure Repeats (part d : Document) (start row line : Nat) : Prop where
  line_eq : part.line row = d.line line
  contentLength_eq : part.contentLength row = d.contentLength line
  breakWidth_eq : part.breakWidth row = d.breakWidth line
  lineStart_eq : start + part.lineStart row = d.lineStart line

/-- Lines with the same characters have the same content and the same break. -/
theorem repeats_of_line {part : Document} {start line : Nat} (hpart : part.Indexed) (h : d.Indexed)
    (hrow : row < part.lineCount) (hrow' : line < d.lineCount) (hline : part.line row = d.line line)
    (hstart : start + part.lineStart row = d.lineStart line) : Repeats part d start row line := by
  have hcontent : part.contentLength row = d.contentLength line := by
    rw [← length_content hpart hrow, ← length_content h hrow', ← beforeBreak_line hpart hrow,
      ← beforeBreak_line h hrow', hline]
  have hlength := length_line hpart hrow
  have hlength' := length_line h hrow'
  rw [hline] at hlength
  exact ⟨hline, hcontent, by omega, hstart⟩

/-- The lines of an excerpt are those of the document. -/
theorem repeats_excerpt (h : d.Indexed) (hb : b ≤ d.lineCount) (hrow : a + row < b) :
    Repeats (d.excerpt a b) d (d.lineStart a) row (a + row) := by
  have hab : a ≤ b := by omega
  have ha : a < d.lineCount := by omega
  have hcount := lineCount_excerpt h hab ha
  have hstart := lineStart_excerpt h hab ha (by omega : row ≤ b - a)
  have hnext := lineStart_excerpt h hab ha (by omega : row + 1 ≤ b - a)
  have hstop : d.lineStart (a + (row + 1) : Nat) ≤ d.lineStart b := lineStart_mono h (by omega)
  refine repeats_of_line (indexed_excerpt d a b) h (by omega) (by omega) ?_ hstart
  have hrow' : ((a + row : Nat) : Int) + 1 = (a + (row + 1) : Nat) := by omega
  rw [line, line, hrow', text_excerpt h hab, show (row : Int) + 1 = (row + 1 : Nat) by omega,
    Text.slice_slice _ (by omega), hstart, hnext]

/-- A document with an empty last line ends in a break. -/
theorem endsInBreak_of_line_last (h : d.Indexed) (hrow : row + 2 = d.lineCount)
    (hlast : d.lineStart (row + 1 : Nat) = d.length) : d.text.EndsInBreak := by
  have hrow' : row + 1 < d.lineCount := by omega
  obtain ⟨ending, hline, hending, -, -⟩ := exists_line_eq_append h hrow'
  have htext : d.text.take (d.lineStart row) ++ d.line row = d.text := by
    have hjoined := flatten_lines h (row + 1)
    rw [List.range_succ, List.map_append, List.flatten_append, flatten_lines h row,
      List.map_singleton, List.flatten_singleton, hlast, length, List.take_length] at hjoined
    exact hjoined
  rw [← htext, hline, ← List.append_assoc]
  exact hending.endsInBreak_append _

/-- Where an excerpt ends before a line of the document, it ends with the break of the line before,
and an empty line stands behind that. -/
theorem line_excerpt_last (h : d.Indexed) (hab : a < b) (hb : b < d.lineCount) :
    (d.excerpt a b).line (b - a : Nat) = [] ∧ (d.excerpt a b).text.EndsInBreak := by
  have hcount := lineCount_excerpt h (Nat.le_of_lt hab) (Nat.lt_trans hab hb)
  have hstart := lineStart_excerpt h (Nat.le_of_lt hab) (Nat.lt_trans hab hb) (Nat.le_refl (b - a))
  rw [Nat.add_sub_cancel' (Nat.le_of_lt hab)] at hstart
  have hend : (d.excerpt a b).lineStart (b - a : Nat) = (d.excerpt a b).length := by
    rw [length_excerpt h (Nat.le_of_lt hab)]
    omega
  constructor
  · rw [line, Text.slice, hend, length, List.drop_length, List.take_nil]
  · obtain ⟨row, hrow⟩ : ∃ row, row + 1 = b - a := ⟨b - a - 1, by omega⟩
    rw [← hrow] at hend
    exact endsInBreak_of_line_last (indexed_excerpt d a b) (by omega) hend

/-- Where lines `a` to `b - 1` begin, counted from the beginning of line `a`. -/
def startsBetween (d : Document) (a b : Nat) : List Nat :=
  ((d.starts.drop a).take (b - a)).map (· - d.lineStart a)

/-- An excerpt has the lines that it is made of, and ends where a further one begins if the document
goes on. -/
theorem starts_excerpt_eq_append (h : d.Indexed) (hab : a < b) (hb : b ≤ d.lineCount) :
    (d.excerpt a b).starts =
      d.startsBetween a b ++ if b < d.lineCount then [(d.excerpt a b).length] else [] := by
  rw [starts_excerpt h (Nat.le_of_lt hab) (by omega), List.take_add_one, List.map_append,
    ← startsBetween, List.getElem?_drop, Nat.add_sub_cancel' (Nat.le_of_lt hab)]
  congr 1
  split
  · next hinside =>
    have hstart := getElem?_lineStarts h hinside
    rw [← h] at hstart
    rw [hstart, length_excerpt h (Nat.le_of_lt hab)]
    rfl
  · next hbehind =>
    have hnone : d.starts[b]? = none := List.getElem?_eq_none (Nat.le_of_not_lt hbehind)
    rw [hnone]
    rfl

/-- An excerpt of no lines has one nevertheless. -/
theorem excerpt_self (h : d.Indexed) (a : Nat) :
    (d.excerpt a a).text = [] ∧ (d.excerpt a a).starts = [0] := by
  have hnil : (d.excerpt a a).text = [] := by
    rw [text_excerpt h (Nat.le_refl a), Text.slice, Nat.sub_self, List.take_zero]
  refine ⟨hnil, ?_⟩
  rw [indexed_excerpt d a a, hnil]
  rfl

/-- Whether a further line begins at the end of an excerpt is not told by the break before it: that
line may be the last of those that the excerpt is made of.  And no lines are one line. -/
theorem starts_excerpt_ne :
    let d := ofText ['x', '\n']
    ((d.excerpt 0 2).text.EndsInBreak ∧
      (d.excerpt 0 2).starts ≠ d.startsBetween 0 2 ++ [(d.excerpt 0 2).length]) ∧
    (¬ (d.excerpt 1 1).text.EndsInBreak ∧ (d.excerpt 1 1).starts ≠ d.startsBetween 1 1) := by
  decide

end Document

end TextEditor

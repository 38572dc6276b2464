import TextEditor.Proofs.Document.Lines

/-!
# Counting breaks

The breaks of two texts side by side are the breaks of both, less one where a return at the end of
the first meets a line feed at the beginning of the second, since the two are one break then.  The
line of an offset is the number of breaks before it.
-/

namespace TextEditor

namespace Text

/-- The number of line breaks. -/
def breakCount (t : Text) : Nat :=
  (breakEnds 0 t).length

/-- The text is one line break. -/
def IsBreak (t : Text) : Prop :=
  t = ['\r', '\n'] ∨ ∃ c, isLineBreak c = true ∧ t = [c]

/-- The text is made of spaces and tabs. -/
def Blank (t : Text) : Prop :=
  ∀ c ∈ t, isBlank c = true

theorem isLineBreak_eq_false_of_isBlank {c : Char} (h : isBlank c = true) :
    isLineBreak c = false := by
  simp only [isBlank, Bool.or_eq_true, decide_eq_true_eq] at h
  rcases h with rfl | rfl <;> decide

theorem Blank.isLineBreak_eq_false {t : Text} (h : Blank t) : ∀ c ∈ t, isLineBreak c = false :=
  fun c hc => isLineBreak_eq_false_of_isBlank (h c hc)

theorem blank_nil : Blank [] :=
  fun _ h => absurd h List.not_mem_nil

theorem blank_replicate (n : Nat) : Blank (List.replicate n ' ') := by
  intro c hc
  rw [List.eq_of_mem_replicate hc]
  decide

theorem Blank.append {t u : Text} (ht : Blank t) (hu : Blank u) : Blank (t ++ u) := by
  intro c hc
  exact (List.mem_append.1 hc).elim (ht c) (hu c)

/-- Blanks behind a cut, or before it, keep a pair apart. -/
theorem Blank.not_cutsPair_right {front blanks : Text} (h : Blank blanks) :
    ¬ CutsPair front blanks := by
  rintro ⟨-, hhead⟩
  exact absurd (h _ (List.mem_of_head? hhead)) (by decide)

theorem Blank.not_cutsPair_left {blanks back : Text} (h : Blank blanks) :
    ¬ CutsPair blanks back := by
  rintro ⟨hlast, -⟩
  exact absurd (h _ (List.mem_of_getLast? hlast)) (by decide)

/-- What counts for a cut is the character on either side. -/
theorem cutsPair_append_iff {front middle back : Text} (h : middle ≠ []) :
    CutsPair (front ++ middle) back ↔ CutsPair middle back := by
  rw [CutsPair, CutsPair, List.getLast?_append_of_ne_nil front h]

theorem cutsPair_iff_append {front middle : Text} (h : middle ≠ []) (back : Text) :
    CutsPair front (middle ++ back) ↔ CutsPair front middle := by
  rw [CutsPair, CutsPair, List.head?_append_of_ne_nil _ h]

/-- Where a text begins does not matter for how many breaks it has. -/
theorem length_breakEnds_congr (t : Text) (offset other : Nat) :
    (breakEnds offset t).length = (breakEnds other t).length := by
  fun_induction breakEnds offset t generalizing other with
  | case1 => rfl
  | case2 offset rest ih =>
    rw [breakEnds, List.length_cons, List.length_cons, ih]
  | case3 offset c rest hpair hc ih =>
    rw [breakEnds.eq_3 other c rest hpair, if_pos hc, List.length_cons, List.length_cons, ih]
  | case4 offset c rest hpair hc ih =>
    rw [breakEnds.eq_3 other c rest hpair, if_neg hc, ih]

theorem length_breakEnds (offset : Nat) (t : Text) :
    (breakEnds offset t).length = breakCount t :=
  length_breakEnds_congr t offset 0

theorem breakCount_of_not_cutsPair {front back : Text} (h : ¬ CutsPair front back) :
    breakCount (front ++ back) = breakCount front + breakCount back := by
  rw [breakCount, breakEnds_append _ _ h, List.length_append, length_breakEnds, length_breakEnds]

/-- Two breaks become one where a pair is put together. -/
theorem breakCount_append (front back : Text) :
    breakCount (front ++ back) + (if CutsPair front back then 1 else 0) =
      breakCount front + breakCount back := by
  split
  · next hcut =>
    obtain ⟨before, rfl⟩ := List.getLast?_eq_some_iff.1 hcut.1
    obtain ⟨rest, rfl⟩ := List.head?_eq_some_iff.1 hcut.2
    have hbefore : ∀ more : Text, ¬ CutsPair before ('\r' :: more) := fun _ h =>
      absurd (Option.some.inj h.2) (by decide)
    have hjoined : breakCount ('\r' :: '\n' :: rest) = 1 + breakCount rest := by
      rw [breakCount, breakEnds.eq_2, List.length_cons, length_breakEnds, Nat.add_comm]
    have hreturn : breakCount ['\r'] = 1 := rfl
    have hfeed : breakCount ('\n' :: rest) = 1 + breakCount rest := by
      rw [← List.singleton_append, breakCount_of_not_cutsPair (by simp [CutsPair])]
      rfl
    rw [List.append_assoc, List.singleton_append, breakCount_of_not_cutsPair (hbefore _),
      breakCount_of_not_cutsPair (hbefore _), hjoined, hreturn, hfeed]
    omega
  · next hcut => rw [breakCount_of_not_cutsPair hcut, Nat.add_zero]

theorem Blank.breakCount {t : Text} (h : Blank t) : breakCount t = 0 := by
  rw [Text.breakCount, breakEnds_of_no_break h.isLineBreak_eq_false, List.length_nil]

theorem IsBreak.ne_nil {t : Text} (h : IsBreak t) : t ≠ [] := by
  rcases h with rfl | ⟨c, -, rfl⟩ <;> exact List.cons_ne_nil _ _

theorem IsBreak.breakEnds {t : Text} (h : IsBreak t) (offset : Nat) :
    breakEnds offset t = [offset + t.length] := by
  rcases h with rfl | ⟨c, hc, rfl⟩
  · rfl
  · rw [breakEnds_cons (by simp [CutsPair]), if_pos hc]
    rfl

theorem IsBreak.breakCount_append_blank {ending blanks : Text} (h : IsBreak ending)
    (hblanks : Blank blanks) : breakCount (ending ++ blanks) = 1 := by
  rw [breakCount_of_not_cutsPair hblanks.not_cutsPair_right, hblanks.breakCount, breakCount,
    h.breakEnds]
  rfl

theorem isBreak_of_firstBreak? {t e : Text} (h : firstBreak? t = some e) : IsBreak e := by
  fun_induction firstBreak? t with
  | case1 => cases h
  | case2 => exact .inl (Option.some.inj h).symm
  | case3 c rest _ hc => exact .inr ⟨c, hc, (Option.some.inj h).symm⟩
  | case4 _ _ _ _ ih => exact ih h

end Text

namespace Document

variable {d : Document}

theorem lineCount_eq_breakCount (h : d.Indexed) : d.lineCount = Text.breakCount d.text + 1 := by
  rw [lineCount, h]
  rfl

/-- The line of an offset that is not inside a pair has a number, that of the breaks before it. -/
theorem lineOf_eq_breakCount (h : d.Indexed) {front back : Text} (htext : d.text = front ++ back)
    (hcut : ¬ Text.CutsPair front back) : d.lineOf front.length = Text.breakCount front := by
  have htake : d.text.take front.length = front := by rw [htext, List.take_left]
  have hdrop : d.text.drop front.length = back := by rw [htext, List.drop_left]
  have hplace : front.length ≤ d.text.length := by
    rw [htext, List.length_append]
    exact Nat.le_add_right _ _
  have hlines := Text.takeWhile_lineStarts hplace (by rwa [htake, hdrop])
  rw [htake] at hlines
  rw [lineOf, clamp_length_left htext, h, hlines]
  rfl

/-- A line begins behind each break. -/
theorem lineStart_of_isBreak (h : d.Indexed) {front ending back : Text}
    (htext : d.text = front ++ ending ++ back) (hending : Text.IsBreak ending)
    (hfront : ¬ Text.CutsPair front ending) (hback : ¬ Text.CutsPair (front ++ ending) back) :
    d.lineStart (Text.breakCount (front ++ ending)) = (front ++ ending).length := by
  have hends := Text.breakEnds_append front ending hfront 0
  rw [hending.breakEnds, Nat.zero_add, ← List.length_append] at hends
  have hcount : Text.breakCount (front ++ ending) = (Text.breakEnds 0 front).length + 1 := by
    rw [Text.breakCount, hends, List.length_append]
    rfl
  have hstart : d.starts[Text.breakCount (front ++ ending)]? = some (front ++ ending).length := by
    rw [h, Text.lineStarts, htext, Text.breakEnds_append _ _ hback, hends, hcount,
      List.getElem?_cons_succ, List.append_assoc, List.getElem?_append_right (Nat.le_refl _),
      Nat.sub_self]
    rfl
  rw [lineStart, if_neg (by omega), Int.toNat_natCast, hstart, Option.getD_some]

end Document

end TextEditor

import TextEditor.Proofs.Highlight.Scanning

/-!
# Highlighting line by line

A text that ends with a line break, and in which no block comment stays open, is classified without
regard to what follows: strings and line comments end with their line, a line break ends an
identifier, and each block comment finds its closer.  The scan then goes on behind it as if the
text began there, which is why it is enough to scan the lines on screen.
-/

namespace TextEditor

/-- The span as seen from a place so many characters before. -/
def Span.shift (offset : Int) (s : Span) : Span :=
  { s with start := s.start + offset }

namespace Highlight

open Text

variable {p : Profile} {a b : Text} {inside : Bool} {s : Scan}

/-- Every block comment that is open where the text begins, or that the scan sees opened in it, is
also closed in it. -/
structure Closes (p : Profile) (inside : Bool) (a : Text) : Prop where
  begun : inside = true → ∃ opener closer, p.blockComment = some (opener, closer) ∧ closer <:+: a
  opened : ∀ rounds opener closer, p.blockComment = some (opener, closer) →
    (Scan.after p a inside rounds).inside = false →
    opener <+: a.drop (Scan.after p a inside rounds).offset →
    closer <:+: a.drop ((Scan.after p a inside rounds).offset + opener.length)

/-- It is enough to look at as many rounds as the text has characters. -/
theorem closes_of_lt (hp : p.Delimits)
    (hbegun : inside = true → ∃ opener closer, p.blockComment = some (opener, closer) ∧
      closer <:+: a)
    (hopened : ∀ opener closer, p.blockComment = some (opener, closer) → ∀ rounds < a.length,
      (Scan.after p a inside rounds).inside = false →
      opener <+: a.drop (Scan.after p a inside rounds).offset →
      closer <:+: a.drop ((Scan.after p a inside rounds).offset + opener.length)) :
    Closes p inside a where
  begun := hbegun
  opened rounds opener closer hblock hinside hprefix := by
    rcases Nat.lt_or_ge rounds a.length with hbefore | hend
    · exact hopened opener closer hblock rounds hbefore hinside hprefix
    · rw [Scan.offset_after hp a inside hend, List.drop_length, List.prefix_nil] at hprefix
      exact absurd hprefix (hp.block opener closer hblock).1

theorem wordSpans_shift (p : Profile) (word : Text) (offset shift : Nat) :
    wordSpans p word (offset + shift) = (wordSpans p word offset).map (Span.shift shift) := by
  unfold wordSpans
  split
  · rfl
  · split
    · simp only [List.map_cons, List.map_nil, Span.shift, Int.natCast_add]
      congr 2
      omega
    · rfl

theorem spanOf_shift (offset length shift : Nat) (category : Category) :
    spanOf (offset + shift) length category =
      (spanOf offset length category).map (Span.shift shift) := by
  unfold spanOf
  split
  · rfl
  · simp only [List.map_cons, List.map_nil, Span.shift, Int.natCast_add]

/-- The scan does not care where its text begins. -/
theorem scanFrom_shift (p : Profile) (skip offset shift : Nat) (word t : Text) :
    scanFrom p skip (offset + shift) word t =
      (scanFrom p skip offset word t).map (Span.shift shift) := by
  induction t generalizing skip offset word with
  | nil => cases skip <;> simp only [scanFrom, wordSpans_shift]
  | cons c rest ih =>
    have hnext : offset + shift + 1 = offset + 1 + shift := by omega
    cases skip with
    | succ skip => rw [scanFrom, scanFrom, hnext, ih]
    | zero =>
      rw [scanFrom, scanFrom, hnext]
      split
      · simp only [List.map_append, wordSpans_shift, spanOf_shift, ih]
      · split
        · exact ih _ _ _
        · simp only [List.map_append, wordSpans_shift, ih]

theorem isIdentifier_of_isLineBreak {c : Char} (h : isLineBreak c = true) :
    isIdentifier c = false := by
  have hnone : (lineBreaks.all fun d => !isIdentifier d) = true := by decide +kernel
  have hmem : c ∈ lineBreaks := by simpa [isLineBreak] using h
  simpa using List.all_eq_true.1 hnone c hmem

namespace Scan

/-! ## No word goes over a line break -/

/-- An identifier that goes on has come to where the loop stands. -/
def Wordy (t : Text) (s : Scan) : Prop :=
  s.word ≠ none → ∃ c, (t.take s.offset).getLast? = some c ∧ isIdentifier c = true

theorem wordy_step (h : s.Placed a) (hword : s.Wordy a) : (s.step p a).Wordy a := by
  obtain ⟨-, hstep⟩ | ⟨c, rest, hrest, hcase⟩ := step_cases p a s
  · rwa [hstep]
  obtain ⟨hinside, length, -, hstep⟩ | ⟨hinside, -, hstep⟩ |
    ⟨-, length, category, -, hstep⟩ | ⟨-, -, hc, hstep⟩ | ⟨-, -, -, hstep⟩ := hcase <;> rw [hstep]
  · exact fun hnone => absurd (h.inside hinside).1 hnone
  · exact fun hnone => absurd (h.inside hinside).1 hnone
  · exact fun hnone => absurd rfl hnone
  · intro _
    refine ⟨c, ?_, hc⟩
    have hlast : a.take (s.offset + 1) = a.take s.offset ++ [c] := by
      rw [List.take_add, hrest, List.take_succ_cons, List.take_zero]
    rw [hlast, List.getLast?_append_of_ne_nil _ (List.cons_ne_nil c [])]
    rfl
  · exact fun hnone => absurd rfl hnone

theorem wordy_after (hp : p.Delimits) (t : Text) (inside : Bool) (rounds : Nat) :
    (after p t inside rounds).Wordy t := by
  induction rounds with
  | zero => exact fun hnone => absurd rfl hnone
  | succ rounds ih =>
    rw [after_succ]
    exact wordy_step (placed_after hp t inside rounds) ih

theorem word_eq_none (ha : a.EndsLine) (h : s.Wordy a) (hend : s.offset = a.length) :
    s.word = none := by
  obtain ⟨c, hlast, hbreak⟩ := ha
  by_contra hword
  obtain ⟨d, hd, hidentifier⟩ := h hword
  rw [hend, List.take_length, hlast] at hd
  obtain rfl := Option.some.inj hd
  rw [isIdentifier_of_isLineBreak hbreak] at hidentifier
  cases hidentifier

/-! ## The same rounds with more text behind -/

theorem flushed_append (h : s.offset ≤ a.length) : s.flushed p (a ++ b) = s.flushed p a := by
  unfold flushed wordText
  cases s.word with
  | none => rfl
  | some start =>
    simp only [slice]
    rcases Nat.le_total start a.length with hstart | hstart
    · rw [List.drop_append_of_le_length hstart, List.take_append_of_le_length]
      rw [List.length_drop]
      omega
    · have hnothing : s.offset - start = 0 := by omega
      simp only [hnothing, List.take_zero]

theorem closerLength?_append (hp : p.Inline) {u : Text} (hu : u.EndsLine) (more : Text) :
    closerLength? p (u ++ more) = closerLength? p u := by
  unfold closerLength?
  split
  · rfl
  · next opener closer hblock => rw [isPrefixOf_append (hp.block opener closer hblock).2.2 hu]

theorem step_append (hp : p.Inline) (ha : a.EndsLine) (h : s.offset < a.length)
    (hclosed : s.inside = false → ∀ opener closer, p.blockComment = some (opener, closer) →
      opener <+: a.drop s.offset → closer <:+: a.drop (s.offset + opener.length)) :
    s.step p (a ++ b) = s.step p a := by
  have hdrop : (a ++ b).drop s.offset = a.drop s.offset ++ b :=
    List.drop_append_of_le_length h.le
  have hu : EndsLine (a.drop s.offset) := by
    refine endsLine_of_append (a.take s.offset) ?_ ?_
    · rwa [List.take_append_drop]
    · simpa using h
  obtain ⟨c, rest, hrest⟩ := List.exists_cons_of_ne_nil (l := a.drop s.offset) (by simpa using h)
  rw [hrest, List.cons_append] at hdrop
  rw [hrest] at hu
  unfold step
  rw [hdrop, hrest, flushed_append h.le]
  cases hinside : s.inside with
  | true =>
    have hcloser := closerLength?_append hp hu b
    rw [List.cons_append] at hcloser
    simp only [if_true, hcloser]
  | false =>
    have hopen := delimited?_append hp hu (fun opener closer hblock hprefix => by
      rw [← hrest] at hprefix ⊢
      rw [List.drop_drop]
      exact hclosed hinside opener closer hblock hprefix) b
    rw [List.cons_append] at hopen
    simp only [Bool.false_eq_true, if_false, hopen]

/-- The loop goes the same way with more text behind, until it comes upon a block comment that is
not closed in the first text. -/
theorem exists_after_append_of_lt (hp : p.Inline) (ha : a.EndsLine) (b : Text) (rounds : Nat)
    (hclosed : ∀ k < rounds, ∀ opener closer, p.blockComment = some (opener, closer) →
      (after p a inside k).inside = false → opener <+: a.drop (after p a inside k).offset →
      closer <:+: a.drop ((after p a inside k).offset + opener.length)) :
    ∃ others, after p (a ++ b) inside others = after p a inside rounds := by
  induction rounds with
  | zero => exact ⟨0, rfl⟩
  | succ rounds ih =>
    obtain ⟨others, hothers⟩ := ih fun k hk => hclosed k (Nat.lt_succ_of_lt hk)
    rcases Nat.lt_or_ge (after p a inside rounds).offset a.length with hbefore | hend
    · refine ⟨others + 1, ?_⟩
      rw [after_succ, after_succ, hothers]
      exact step_append hp ha hbefore fun hinside opener closer hblock =>
        hclosed rounds (Nat.lt_succ_self rounds) opener closer hblock hinside
    · refine ⟨others, ?_⟩
      rw [hothers, after_succ, step_of_length_le hend]

/-- As long as it stands in the first text, the loop goes the same way with more text behind. -/
theorem exists_after_append (hp : p.Inline) (ha : a.EndsLine) (hclosed : Closes p inside a)
    (b : Text) (rounds : Nat) :
    ∃ others, after p (a ++ b) inside others = after p a inside rounds :=
  exists_after_append_of_lt hp ha b rounds fun k _ => hclosed.opened k

end Scan

theorem scanned_closed (hclosed : Closes p inside a) : (scanned p inside a).2 = false := by
  cases inside with
  | false => rfl
  | true =>
    obtain ⟨opener, closer, hblock, hcloser⟩ := hclosed.begun rfl
    obtain ⟨found, hfound⟩ := exists_findFrom hcloser 0
    simp [scanned, scanInside, hblock, hfound]

/-- The spans of a text that ends its line and leaves no block comment open, with more text behind
it: its own spans, and those of the text behind, as far on as the first text is long. -/
theorem scanned_append (hp : p.Inline) (ha : a.EndsLine) (hclosed : Closes p inside a)
    (b : Text) :
    scanned p inside (a ++ b) =
      ((scanned p inside a).1 ++ (scanned p false b).1.map (Span.shift a.length), false) := by
  have hblock : inside = true → p.blockComment ≠ none := fun hinside hnone => by
    obtain ⟨opener, closer, hsome, -⟩ := hclosed.begun hinside
    rw [hsome] at hnone
    cases hnone
  obtain ⟨others, hothers⟩ := Scan.exists_after_append hp ha hclosed b a.length
  have hend := Scan.offset_after hp.delimits a inside (Nat.le_refl a.length)
  have hword := Scan.word_eq_none ha (Scan.wordy_after hp.delimits a inside a.length) hend
  have houtcome := Scan.outcome_after hp.delimits a hblock (Nat.le_refl a.length)
  have hinside : (Scan.after p a inside a.length).inside = false := by
    rw [← scanned_closed hclosed, ← houtcome, Scan.outcome]
  have hspans : (Scan.after p a inside a.length).spans = (scanned p inside a).1 := by
    rw [← houtcome, Scan.outcome, Scan.flushed, Scan.wordText, hword]
    simp [wordSpans]
  have hrest : scanFrom p 0 a.length [] b = (scanned p false b).1.map (Span.shift a.length) := by
    have hshift := scanFrom_shift p 0 0 a.length [] b
    rwa [Nat.zero_add] at hshift
  -- where the loop stands at the end of the first text says all of the whole
  rw [← Scan.outlook_start p (a ++ b) hblock, ← Scan.outlook_after hp.delimits _ _ others, hothers,
    Scan.outlook, hinside, hspans, hend, Scan.wordText, hword, List.drop_left]
  simp only [Bool.false_eq_true, if_false, List.reverse_nil, hrest]

/-- A line that opens inside a comment, opens another one and leaves a string open. -/
theorem scanned_append_cpp :
    (Profile.cpp.Inline ∧ EndsLine "x*/ /* y */ \"if\n".toList ∧
      Closes .cpp true "x*/ /* y */ \"if\n".toList) ∧
    scanned .cpp true ("x*/ /* y */ \"if\n".toList ++ "if\" int".toList) =
      ([⟨0, 3, .comment⟩, ⟨4, 7, .comment⟩, ⟨12, 3, .literal⟩] ++
        [⟨0, 2, .keyword⟩, ⟨2, 5, .literal⟩].map (Span.shift 16), false) := by
  have hcpp : Profile.cpp.Inline := Profile.inline_ofLanguage .cpp
  have hline : EndsLine "x*/ /* y */ \"if\n".toList := ⟨'\n', by decide, by decide⟩
  have hclosed : Closes .cpp true "x*/ /* y */ \"if\n".toList :=
    closes_of_lt hcpp.delimits (fun _ => ⟨_, _, rfl, by decide⟩)
      (by rintro _ _ ⟨⟩; decide +kernel)
  refine ⟨⟨hcpp, hline, hclosed⟩, ?_⟩
  rw [scanned_append hcpp hline hclosed]
  decide +kernel

end Highlight

end TextEditor

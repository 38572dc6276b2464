import Mathlib.Order.Bounds.Basic
import TextEditor.Proofs.Highlight.Nesting

/-!
# The brackets around the caret

The first opening bracket ahead of the caret that nothing answers is the nearest one with balanced
brackets of its kind up to the caret.  Its partner is searched from the opening bracket on, without
regard to the caret; but what is balanced up to the caret cannot close the bracket before it, so
that the caret lies between the two.
-/

namespace TextEditor.Highlight

variable {pairs : List BracketPair} {pair other : BracketPair} {c : Char}

/-! ## Places in the text -/

variable {t : Text} {spans : List Span} {caret i j : Nat}

/-- A comment or a string covers the offset. -/
def Masked (spans : List Span) (i : Nat) : Prop :=
  ∃ s ∈ spans, (s.category = .comment ∨ s.category = .literal) ∧
    s.start ≤ i ∧ (i : Int) < s.start + s.length

instance (spans : List Span) (i : Nat) : Decidable (Masked spans i) :=
  inferInstanceAs (Decidable (∃ s ∈ spans, _))

/-- At an offset stands that bracket, and it is not masked. -/
structure StandsAt (t : Text) (spans : List Span) (bracket : Text) (i : Nat) : Prop where
  bracket : t[i]?.map (fun c => [c]) = some bracket
  unmasked : ¬ Masked spans i

/-- The brackets of one kind from one offset to before another, less the masked ones. -/
def bracketsBetween (pair : BracketPair) (t : Text) (spans : List Span) (start stop : Nat) :
    List DyckStep :=
  t.zipIdx.filterMap fun (c, i) =>
    if start ≤ i ∧ i < stop ∧ ¬ Masked spans i then pair.step? c else none

theorem hidesBrackets_iff {s : Span} :
    s.hidesBrackets = true ↔ s.category = .comment ∨ s.category = .literal := by
  rw [Span.hidesBrackets, Bool.or_eq_true, decide_eq_true_eq, decide_eq_true_eq]

theorem any_covers (spans : List Span) (i : Nat) :
    ((spans.filter Span.hidesBrackets).any fun span => span.covers i) =
      decide (Masked spans i) := by
  rw [Bool.eq_iff_iff, List.any_filter, List.any_eq_true, decide_eq_true_eq]
  simp only [Bool.and_eq_true, hidesBrackets_iff, Span.covers_iff, Masked]

theorem mem_visibleChars : (i, c) ∈ visibleChars t spans ↔ t[i]? = some c ∧ ¬ Masked spans i := by
  simp only [visibleChars, List.mem_filter, List.mem_map, any_covers, Bool.not_eq_true',
    decide_eq_false_iff_not]
  refine and_congr_left fun _ => ⟨?_, fun h => ⟨(c, i), List.mem_zipIdx_iff_getElem?.2 h, rfl⟩⟩
  rintro ⟨⟨c', i'⟩, hmem, ⟨⟩⟩
  exact List.mem_zipIdx_iff_getElem?.1 hmem

/-- The characters stand in the order of their offsets. -/
theorem pairwise_visibleChars (t : Text) (spans : List Span) :
    (visibleChars t spans).Pairwise fun a b => a.1 < b.1 := by
  refine List.Pairwise.filter _ ?_
  have hoffsets : (t.zipIdx.map Prod.snd).Pairwise (· < ·) := by
    rw [List.zipIdx_map_snd]
    exact List.pairwise_lt_range'
  rw [List.pairwise_map] at hoffsets ⊢
  exact hoffsets

variable {nearer farther chars : List (Nat × Char)} {x : Nat × Char}

/-- In the order of their offsets, the characters behind one are those with greater offsets. -/
theorem filter_behind (h : (nearer ++ x :: farther).Pairwise fun a b => a.1 < b.1) :
    (nearer ++ x :: farther).filter (fun y => decide (x.1 < y.1)) = farther := by
  obtain ⟨-, hfarther, hnearer⟩ := List.pairwise_append.1 h
  have hahead : ∀ y ∈ nearer, ¬ x.1 < y.1 := fun y hy =>
    Nat.lt_asymm (hnearer y hy x List.mem_cons_self)
  have hbehind : ∀ y ∈ farther, x.1 < y.1 := (List.pairwise_cons.1 hfarther).1
  rw [List.filter_append, List.filter_cons_of_neg (by simp),
    List.filter_eq_nil_iff.2 (by simpa using hahead),
    List.filter_eq_self.2 (by simpa using hbehind), List.nil_append]

theorem filter_ahead (h : (nearer ++ x :: farther).Pairwise fun a b => a.1 < b.1) :
    (nearer ++ x :: farther).filter (fun y => decide (y.1 < x.1)) = nearer := by
  obtain ⟨-, hfarther, hnearer⟩ := List.pairwise_append.1 h
  have hahead : ∀ y ∈ nearer, y.1 < x.1 := fun y hy => hnearer y hy x List.mem_cons_self
  have hbehind : ∀ y ∈ farther, ¬ y.1 < x.1 := fun y hy =>
    Nat.lt_asymm ((List.pairwise_cons.1 hfarther).1 y hy)
  rw [List.filter_append, List.filter_cons_of_neg (by simp),
    List.filter_eq_self.2 (by simpa using hahead),
    List.filter_eq_nil_iff.2 (by simpa using hbehind), List.append_nil]

/-- The characters between two offsets that are not masked. -/
def charsBetween (t : Text) (spans : List Span) (start stop : Nat) : List (Nat × Char) :=
  (visibleChars t spans).filter fun x => decide (start ≤ x.1) && decide (x.1 < stop)

theorem word_charsBetween (pair : BracketPair) (t : Text) (spans : List Span)
    (start stop : Nat) :
    word pair (charsBetween t spans start stop) = bracketsBetween pair t spans start stop := by
  rw [word, charsBetween, visibleChars, bracketsBetween, List.filterMap_filter,
    List.filterMap_filter, List.filterMap_map]
  congr 1
  funext x
  obtain ⟨c, i⟩ := x
  simp only [any_covers, Function.comp_apply]
  by_cases h : Masked spans i
  · simp [h]
  · simp [h]

theorem mem_charsBetween {start stop : Nat} : (i, c) ∈ charsBetween t spans start stop ↔
    t[i]? = some c ∧ ¬ Masked spans i ∧ start ≤ i ∧ i < stop := by
  rw [charsBetween, List.mem_filter, mem_visibleChars, Bool.and_eq_true, decide_eq_true_eq,
    decide_eq_true_eq, and_assoc]

theorem pairwise_charsBetween (t : Text) (spans : List Span) (start stop : Nat) :
    (charsBetween t spans start stop).Pairwise fun a b => a.1 < b.1 :=
  (pairwise_visibleChars t spans).filter _

/-- A character with its offset parts the characters around it. -/
theorem charsBetween_of_split {start stop : Nat}
    (h : charsBetween t spans start stop = nearer ++ (i, c) :: farther) :
    nearer = charsBetween t spans start i ∧ farther = charsBetween t spans (i + 1) stop := by
  have hordered := pairwise_charsBetween t spans start stop
  have hmem : (i, c) ∈ charsBetween t spans start stop :=
    h ▸ List.mem_append_right _ List.mem_cons_self
  obtain ⟨-, -, hstart, hstop⟩ := mem_charsBetween.1 hmem
  rw [h] at hordered
  have hnearer := filter_ahead hordered
  have hfarther := filter_behind hordered
  rw [← h, charsBetween, List.filter_filter] at hnearer hfarther
  rw [← hnearer, ← hfarther, charsBetween, charsBetween]
  constructor <;> refine List.filter_congr fun x _ => ?_ <;>
    rw [Bool.eq_iff_iff] <;> simp only [Bool.and_eq_true, decide_eq_true_eq] <;> omega

theorem exists_split {start stop : Nat} (h : (i, c) ∈ charsBetween t spans start stop) :
    charsBetween t spans start stop =
      charsBetween t spans start i ++ (i, c) :: charsBetween t spans (i + 1) stop := by
  obtain ⟨nearer, farther, hsplit⟩ := List.append_of_mem h
  obtain ⟨rfl, rfl⟩ := charsBetween_of_split hsplit
  exact hsplit

/-! ## The innermost pair -/

/-- Ahead of the caret a bracket of the kind opens, and those of its kind between it and the caret
are balanced. -/
structure Unclosed (pairs : List BracketPair) (t : Text) (spans : List Span) (caret : Nat)
    (pair : BracketPair) (i : Nat) : Prop where
  kind : pair ∈ pairs
  ahead : i < caret
  stands : StandsAt t spans pair.opening i
  balanced : Balanced (bracketsBetween pair t spans (i + 1) caret)

/-- No bracket nearer to the caret opens like that. -/
structure Innermost (pairs : List BracketPair) (t : Text) (spans : List Span) (caret : Nat)
    (pair : BracketPair) (i : Nat) : Prop extends Unclosed pairs t spans caret pair i where
  nearest : ∀ other i', Unclosed pairs t spans caret other i' → i' ≤ i

/-- At the caret or behind it a bracket of the kind closes, and those of its kind between the
opening one and it are balanced. -/
structure ClosedAt (t : Text) (spans : List Span) (caret : Nat) (pair : BracketPair)
    (i j : Nat) : Prop where
  behind : caret ≤ j
  stands : StandsAt t spans pair.closing j
  balanced : Balanced (bracketsBetween pair t spans (i + 1) j)

theorem StandsAt.exists_char {bracket : Text} (h : StandsAt t spans bracket i) :
    ∃ c, t[i]? = some c ∧ [c] = bracket :=
  Option.map_eq_some_iff.1 h.bracket

theorem standsAt_of_mem {start stop : Nat} {bracket : Text}
    (h : (i, c) ∈ charsBetween t spans start stop) (hc : [c] = bracket) :
    StandsAt t spans bracket i := by
  obtain ⟨hchar, hmask, -⟩ := mem_charsBetween.1 h
  exact ⟨by rw [hchar, Option.map_some, hc], hmask⟩

/-- What is answered going backward holds no opening bracket that is left over. -/
theorem not_unclosed (hsplit : (charsBetween t spans 0 caret).reverse = nearer ++ farther)
    (hanswered : Answered pairs [] nearer) (hc : (i, c) ∈ nearer) :
    ¬ Unclosed pairs t spans caret pair i := by
  intro h
  obtain ⟨front, behind, rfl⟩ := List.append_of_mem hc
  have hbefore : charsBetween t spans 0 caret =
      (behind ++ farther).reverse ++ (i, c) :: front.reverse := by
    rw [← List.reverse_reverse (charsBetween t spans 0 caret), hsplit]
    simp
  have hmem : (i, c) ∈ charsBetween t spans 0 caret :=
    hbefore ▸ List.mem_append_right _ List.mem_cons_self
  obtain ⟨c', hc', hopens⟩ := h.stands.exists_char
  obtain rfl : c' = c := Option.some.inj (hc'.symm.trans (mem_charsBetween.1 hmem).1)
  -- with the bracket itself, one more of its kind is opened than closed
  have hdepth := hanswered pair h.kind (front ++ [(i, c')]) ⟨behind, by simp⟩
  have hbalanced := (balanced_iff.1 h.balanced).1
  rw [← word_charsBetween, ← (charsBetween_of_split hbefore).2, word_reverse,
    depth_reverse] at hbalanced
  rw [word_append, word_opening i hopens, depth_append, hbalanced] at hdepth
  exact absurd hdepth (by simp [Waiting.count])

theorem innermost_of_unclosedOpener? (hpairs : BracketPair.Distinct pairs)
    (h : unclosedOpener? pairs [] (charsBetween t spans 0 caret).reverse = some (i, pair)) :
    Innermost pairs t spans caret pair i := by
  obtain ⟨nearer, c, farther, hsplit, hpair, hc, hdepth, hanswered⟩ :=
    split_of_unclosedOpener? hpairs h
  have hbefore : charsBetween t spans 0 caret = farther.reverse ++ (i, c) :: nearer.reverse := by
    rw [← List.reverse_reverse (charsBetween t spans 0 caret), hsplit]
    simp
  have hmem : (i, c) ∈ charsBetween t spans 0 caret :=
    hbefore ▸ List.mem_append_right _ List.mem_cons_self
  have hbetween := (charsBetween_of_split hbefore).2
  have hunclosed : Unclosed pairs t spans caret pair i := by
    refine ⟨hpair, (mem_charsBetween.1 hmem).2.2.2, standsAt_of_mem hmem hc, ?_⟩
    rw [← word_charsBetween, ← hbetween]
    exact balanced_word_reverse hdepth (hanswered pair hpair)
  refine ⟨hunclosed, fun other i' h' => ?_⟩
  by_contra hlt
  obtain ⟨c', hc', -⟩ := h'.stands.exists_char
  have hmem' : (i', c') ∈ charsBetween t spans (i + 1) caret :=
    mem_charsBetween.2 ⟨hc', h'.stands.unmasked, by omega, h'.ahead⟩
  rw [← hbetween, List.mem_reverse] at hmem'
  exact not_unclosed hsplit hanswered hmem' h'

theorem not_unclosed_of_unclosedOpener?_eq_none (hpairs : BracketPair.Distinct pairs)
    (h : unclosedOpener? pairs [] (charsBetween t spans 0 caret).reverse = none) :
    ¬ Unclosed pairs t spans caret pair i := by
  intro hunclosed
  obtain ⟨c, hc, -⟩ := hunclosed.stands.exists_char
  have hmem : (i, c) ∈ charsBetween t spans 0 caret :=
    mem_charsBetween.2 ⟨hc, hunclosed.stands.unmasked, Nat.zero_le i, hunclosed.ahead⟩
  exact not_unclosed (List.append_nil _).symm (answered_of_unclosedOpener?_eq_none hpairs h)
    (List.mem_reverse.2 hmem) hunclosed

/-- Where more stays open than is closed, nothing closes the bracket. -/
theorem not_closedAt (hpair : pair.opening ≠ pair.closing)
    (hsplit : charsBetween t spans (i + 1) t.length = nearer ++ farther)
    (hopen : StaysOpen pair 0 nearer) (hc : (j, c) ∈ nearer) :
    ¬ ClosedAt t spans caret pair i j := by
  intro h
  obtain ⟨front, behind, rfl⟩ := List.append_of_mem hc
  have hparted : charsBetween t spans (i + 1) t.length =
      front ++ (j, c) :: (behind ++ farther) := by
    rw [hsplit]
    simp
  have hmem : (j, c) ∈ charsBetween t spans (i + 1) t.length :=
    hparted ▸ List.mem_append_right _ List.mem_cons_self
  obtain ⟨c', hc', hcloses⟩ := h.stands.exists_char
  obtain rfl : c' = c := Option.some.inj (hc'.symm.trans (mem_charsBetween.1 hmem).1)
  have hdepth := hopen (front ++ [(j, c')]) ⟨behind, by simp⟩
  have hbalanced := (balanced_iff.1 h.balanced).1
  rw [← word_charsBetween, ← (charsBetween_of_split hparted).1] at hbalanced
  rw [word_append, word_closing hpair j hcloses, depth_append, hbalanced] at hdepth
  exact absurd hdepth (by decide)

/-- What is balanced up to the caret does not close the bracket before it. -/
theorem caret_le (hpair : pair.opening ≠ pair.closing)
    (hunclosed : Balanced (bracketsBetween pair t spans (i + 1) caret))
    (hclosed : Balanced (bracketsBetween pair t spans (i + 1) j))
    (hmem : (j, c) ∈ charsBetween t spans (i + 1) t.length) (hc : [c] = pair.closing) :
    caret ≤ j := by
  by_contra hlt
  obtain ⟨hchar, hmask, hstart, -⟩ := mem_charsBetween.1 hmem
  have hsplit := exists_split (mem_charsBetween.2 ⟨hchar, hmask, hstart, Nat.lt_of_not_le hlt⟩)
  rw [← word_charsBetween] at hunclosed hclosed
  rw [hsplit, word_append, word_cons, word_closing hpair j hc] at hunclosed
  have hdepth := (balanced_iff.1 hunclosed).2 (word pair (charsBetween t spans (i + 1) j) ++ [.D])
    ⟨_, by rw [List.append_assoc]⟩
  rw [depth_append, (balanced_iff.1 hclosed).1] at hdepth
  exact absurd hdepth (by decide)

theorem closedAt_of_closerOf? (hpair : pair.opening ≠ pair.closing)
    (hunclosed : Unclosed pairs t spans caret pair i)
    (h : closerOf? pair 0 (charsBetween t spans (i + 1) t.length) = some j) :
    IsLeast {j | ClosedAt t spans caret pair i j} j := by
  obtain ⟨nearer, c, farther, hsplit, hc, hdepth, hopen⟩ := split_of_closerOf? hpair h
  have hmem : (j, c) ∈ charsBetween t spans (i + 1) t.length :=
    hsplit ▸ List.mem_append_right _ List.mem_cons_self
  have hbetween := (charsBetween_of_split hsplit).1
  have hbalanced : Balanced (bracketsBetween pair t spans (i + 1) j) := by
    rw [← word_charsBetween, ← hbetween]
    exact balanced_word (by simpa using hdepth) fun front hfront => by
      simpa using hopen front hfront
  have hcaret := caret_le hpair hunclosed.balanced hbalanced hmem hc
  refine ⟨⟨hcaret, standsAt_of_mem hmem hc, hbalanced⟩, fun j' h' => ?_⟩
  by_contra hlt
  obtain ⟨c', hc', -⟩ := h'.stands.exists_char
  have hahead := hunclosed.ahead
  have hbehind := h'.behind
  have hmem' : (j', c') ∈ charsBetween t spans (i + 1) j :=
    mem_charsBetween.2 ⟨hc', h'.stands.unmasked, by omega, Nat.lt_of_not_le hlt⟩
  exact not_closedAt hpair hsplit hopen (hbetween ▸ hmem') h'

theorem not_closedAt_of_closerOf?_eq_none (hpair : pair.opening ≠ pair.closing)
    (hunclosed : Unclosed pairs t spans caret pair i)
    (h : closerOf? pair 0 (charsBetween t spans (i + 1) t.length) = none) :
    ¬ ClosedAt t spans caret pair i j := by
  intro hclosed
  obtain ⟨c, hc, -⟩ := hclosed.stands.exists_char
  have hahead := hunclosed.ahead
  have hbehind := hclosed.behind
  have hmem : (j, c) ∈ charsBetween t spans (i + 1) t.length :=
    mem_charsBetween.2 ⟨hc, hclosed.stands.unmasked, by omega, (List.getElem?_eq_some_iff.1 hc).1⟩
  exact not_closedAt hpair (List.append_nil _).symm (staysOpen_of_closerOf?_eq_none hpair h) hmem
    hclosed

/-- The search taken apart: backward over what is ahead of the caret, then forward from there. -/
theorem enclosingBrackets?_eq (hcaret : caret ≤ t.length) :
    enclosingBrackets? t caret spans pairs =
      (unclosedOpener? pairs [] (charsBetween t spans 0 caret).reverse).bind fun found =>
        (closerOf? found.2 0 (charsBetween t spans (found.1 + 1) t.length)).map fun j =>
          (found.1, j) := by
  have hinside : (decide ((caret : Int) < 0) || decide ((t.length : Int) < caret)) = false := by
    simp only [Bool.or_eq_false_iff, decide_eq_false_iff_not]
    omega
  have hbefore : (visibleChars t spans).filter (fun x => decide (x.1 < (caret : Int).toNat)) =
      charsBetween t spans 0 caret := by
    simp [charsBetween]
  have hbehind : ∀ i, (visibleChars t spans).filter (fun x => decide (i < x.1)) =
      charsBetween t spans (i + 1) t.length := by
    intro i
    refine List.filter_congr fun x hmem => ?_
    have hlt := (List.getElem?_eq_some_iff.1 (mem_visibleChars.1 hmem).1).1
    simp only [hlt, decide_true, Bool.and_true]
    exact decide_eq_decide.2 Iff.rfl
  unfold enclosingBrackets?
  rw [hinside, if_neg Bool.false_ne_true, ← hbefore]
  dsimp only
  split
  · next hnone => exact (congrArg (Option.bind · _) hnone).symm
  · next i pair hsome =>
    have hopener : unclosedOpener? pairs [] ((visibleChars t spans).filter fun x =>
        decide (x.1 < (caret : Int).toNat)).reverse = some (i, pair) := hsome
    rw [hopener, Option.bind_some, ← hbehind]

/-- In one place only one kind of brackets opens, so that there is one innermost bracket at most. -/
theorem Innermost.unique (hpairs : BracketPair.Distinct pairs)
    (h : Innermost pairs t spans caret pair i) (h' : Innermost pairs t spans caret other j) :
    i = j ∧ pair = other := by
  obtain rfl : i = j := Nat.le_antisymm (h'.nearest pair i h.toUnclosed)
    (h.nearest other j h'.toUnclosed)
  have hopens : pair.opening = other.opening :=
    Option.some.inj (h.stands.bracket.symm.trans h'.stands.bracket)
  exact ⟨rfl, eq_of_mem hpairs h.kind h'.kind (t := pair.opening) (by simp) (by simp [hopens])⟩

/-- The three ways in which the search can end. -/
theorem enclosingBrackets?_cases (hpairs : BracketPair.Distinct pairs) (spans : List Span)
    (hcaret : caret ≤ t.length) :
    (enclosingBrackets? t caret spans pairs = none ∧
      ∀ pair i, ¬ Unclosed pairs t spans caret pair i) ∨
    ∃ pair i, Innermost pairs t spans caret pair i ∧
      ((enclosingBrackets? t caret spans pairs = none ∧
          ∀ j, ¬ ClosedAt t spans caret pair i j) ∨
        ∃ j, enclosingBrackets? t caret spans pairs = some (i, j) ∧
          IsLeast {j | ClosedAt t spans caret pair i j} j) := by
  rw [enclosingBrackets?_eq hcaret]
  cases hopener : unclosedOpener? pairs [] (charsBetween t spans 0 caret).reverse with
  | none =>
    exact .inl ⟨rfl, fun pair i => not_unclosed_of_unclosedOpener?_eq_none hpairs hopener⟩
  | some found =>
    obtain ⟨i, pair⟩ := found
    have hinnermost := innermost_of_unclosedOpener? hpairs hopener
    have hpair := opening_ne_closing hpairs hinnermost.kind
    refine .inr ⟨pair, i, hinnermost, ?_⟩
    cases hcloser : closerOf? pair 0 (charsBetween t spans (i + 1) t.length) with
    | none =>
      exact .inl ⟨by simp [hcloser], fun j =>
        not_closedAt_of_closerOf?_eq_none hpair hinnermost.toUnclosed hcloser⟩
    | some j =>
      exact .inr ⟨j, by simp [hcloser],
        closedAt_of_closerOf? hpair hinnermost.toUnclosed hcloser⟩

/-- The brackets around the caret, in a table in which no bracket means two things: the nearest
opening bracket ahead of the caret whose kind is balanced from there to the caret, and the nearest
closing one from the caret on whose kind is balanced between the two; none if there is not the one
or the other.  Brackets in comments and strings do not count. -/
theorem enclosingBrackets?_iff (hpairs : BracketPair.Distinct pairs) (hcaret : caret ≤ t.length) :
    (∀ i j, enclosingBrackets? t caret spans pairs = some (i, j) ↔
      ∃ pair, Innermost pairs t spans caret pair i ∧
        IsLeast {j | ClosedAt t spans caret pair i j} j) ∧
    (enclosingBrackets? t caret spans pairs = none ↔
      (∀ pair i, ¬ Unclosed pairs t spans caret pair i) ∨
      ∃ pair i, Innermost pairs t spans caret pair i ∧
        ∀ j, ¬ ClosedAt t spans caret pair i j) := by
  obtain ⟨hnone, hunclosed⟩ | ⟨pair, i, hinnermost, ⟨hnone, hopen⟩ | ⟨j, hsome, hleast⟩⟩ :=
    enclosingBrackets?_cases hpairs spans hcaret
  · refine ⟨fun i j => ?_, iff_of_true hnone (.inl hunclosed)⟩
    rw [hnone]
    refine iff_of_false nofun ?_
    rintro ⟨pair, hinnermost, -⟩
    exact hunclosed pair i hinnermost.toUnclosed
  · refine ⟨fun i' j => ?_, iff_of_true hnone (.inr ⟨pair, i, hinnermost, hopen⟩)⟩
    rw [hnone]
    refine iff_of_false nofun ?_
    rintro ⟨pair', hinnermost', hleast⟩
    obtain ⟨rfl, rfl⟩ := hinnermost.unique hpairs hinnermost'
    exact hopen j hleast.1
  · rw [hsome]
    refine ⟨fun i' j' => ⟨?_, ?_⟩, iff_of_false nofun ?_⟩
    · rintro ⟨⟩
      exact ⟨pair, hinnermost, hleast⟩
    · rintro ⟨pair', hinnermost', hleast'⟩
      obtain ⟨rfl, rfl⟩ := hinnermost.unique hpairs hinnermost'
      rw [hleast.unique hleast']
    · rintro (hunclosed | ⟨pair', i', hinnermost', hopen⟩)
      · exact hunclosed pair i hinnermost.toUnclosed
      · obtain ⟨rfl, rfl⟩ := hinnermost.unique hpairs hinnermost'
        exact hopen j hleast.1

/-- Misnested brackets: the round one that is still open encloses the caret, since the square one
that closes in it is of another kind, and the round ones in the string do not count. -/
theorem enclosingBrackets?_misnested :
    (BracketPair.Distinct BracketPair.standard ∧ 7 ≤ "[(a]\")\"b)".toList.length) ∧
    ∃ pair, Innermost BracketPair.standard "[(a]\")\"b)".toList [⟨4, 3, .literal⟩] 7 pair 1 ∧
      IsLeast {j | ClosedAt "[(a]\")\"b)".toList [⟨4, 3, .literal⟩] 7 pair 1 j} 8 := by
  have hpairs : BracketPair.Distinct BracketPair.standard := by decide
  have hcaret : 7 ≤ "[(a]\")\"b)".toList.length := by decide
  exact ⟨⟨hpairs, hcaret⟩, ((enclosingBrackets?_iff hpairs hcaret).1 1 8).1 (by decide +kernel)⟩

end TextEditor.Highlight

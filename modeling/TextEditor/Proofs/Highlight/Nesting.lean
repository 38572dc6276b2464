import Mathlib.Combinatorics.Enumerative.DyckWord
import TextEditor.Highlight.Brackets

/-!
# Brackets that wait

Each kind of brackets is followed by its depth, the opening ones less the closing ones.  Going
backward, what waits of a kind is what its depth lacks: the pass goes on as long as every opening
bracket is answered, and stops at the first one of whose kind nothing waits.  Going forward, what is
open of the one kind is its depth, and the pass stops where nothing is open and a bracket closes.
-/

namespace TextEditor

/-- All that opens or closes a pair is different. -/
def BracketPair.Distinct (pairs : List BracketPair) : Prop :=
  (pairs.flatMap fun pair => [pair.opening, pair.closing]).Nodup

instance (pairs : List BracketPair) : Decidable (BracketPair.Distinct pairs) :=
  inferInstanceAs (Decidable (List.Nodup _))

/-- What a character is to the brackets of one kind. -/
def BracketPair.step? (pair : BracketPair) (c : Char) : Option DyckStep :=
  if [c] = pair.opening then some .U else if [c] = pair.closing then some .D else none

namespace Highlight

/-! ## Balanced brackets -/

/-- Every bracket is closed by one behind it, and closes one ahead of it. -/
def Balanced (w : List DyckStep) : Prop :=
  ∃ word : DyckWord, word.toList = w

/-- How many more brackets are opened than are closed. -/
def depth (w : List DyckStep) : Int :=
  w.count .U - w.count .D

@[simp] theorem depth_nil : depth [] = 0 := rfl

@[simp] theorem depth_opening : depth [.U] = 1 := rfl

@[simp] theorem depth_closing : depth [.D] = -1 := rfl

@[simp]
theorem depth_append (v w : List DyckStep) : depth (v ++ w) = depth v + depth w := by
  simp only [depth, List.count_append]
  omega

@[simp]
theorem depth_reverse (w : List DyckStep) : depth w.reverse = depth w := by
  simp only [depth, List.count_reverse]

theorem balanced_iff {w : List DyckStep} :
    Balanced w ↔ depth w = 0 ∧ ∀ front, front <+: w → 0 ≤ depth front := by
  constructor
  · rintro ⟨word, rfl⟩
    refine ⟨by have := word.count_U_eq_count_D; rw [depth]; omega, fun front hfront => ?_⟩
    rw [List.prefix_iff_eq_take.1 hfront]
    have := word.count_D_le_count_U front.length
    rw [depth]
    omega
  · rintro ⟨hdepth, hfront⟩
    refine ⟨⟨w, by rw [depth] at hdepth; omega, fun n => ?_⟩, rfl⟩
    have := hfront (w.take n) (List.take_prefix n w)
    rw [depth] at this
    omega

/-- Backward, balanced brackets never open more than they close. -/
theorem balanced_reverse_iff {w : List DyckStep} :
    Balanced w.reverse ↔ depth w = 0 ∧ ∀ front, front <+: w → depth front ≤ 0 := by
  rw [balanced_iff, depth_reverse]
  refine and_congr_right fun hdepth => ⟨fun h front hfront => ?_, fun h front hfront => ?_⟩
  · obtain ⟨behind, rfl⟩ := hfront
    have := h behind.reverse ⟨front.reverse, by rw [List.reverse_append]⟩
    rw [depth_reverse] at this
    rw [depth_append] at hdepth
    omega
  · obtain ⟨behind, hbehind⟩ := hfront
    obtain rfl : behind.reverse ++ front.reverse = w := by
      rw [← List.reverse_append, hbehind, List.reverse_reverse]
    have := h behind.reverse (List.prefix_append _ _)
    rw [depth_append, depth_reverse front] at hdepth
    omega

/-! ## One kind among others -/

variable {pairs : List BracketPair} {pair other : BracketPair} {c : Char}

/-- A text that opens or closes a pair belongs to no other pair. -/
theorem eq_of_mem (hpairs : BracketPair.Distinct pairs) (hpair : pair ∈ pairs)
    (hother : other ∈ pairs) {t : Text} (ht : t ∈ [pair.opening, pair.closing])
    (ht' : t ∈ [other.opening, other.closing]) : pair = other := by
  by_contra hne
  have hapart := (List.nodup_flatMap.1 hpairs).2
  have : Std.Symm
      (Function.onFun List.Disjoint fun pair : BracketPair => [pair.opening, pair.closing]) :=
    ⟨fun _ _ h => h.symm⟩
  exact hapart.forall hpair hother hne ht ht'

theorem closing_inj (hpairs : BracketPair.Distinct pairs) (hpair : pair ∈ pairs)
    (hother : other ∈ pairs) : other.closing = pair.closing ↔ other = pair :=
  ⟨fun h => eq_of_mem hpairs hother hpair (t := pair.closing) (by simp [h]) (by simp),
    fun h => by rw [h]⟩

theorem opening_ne_closing (hpairs : BracketPair.Distinct pairs) (hpair : pair ∈ pairs) :
    pair.opening ≠ pair.closing := by
  simpa using (List.nodup_flatMap.1 hpairs).1 pair hpair

/-- A bracket means nothing to the other kinds. -/
theorem step?_eq_none (hpairs : BracketPair.Distinct pairs) (hpair : pair ∈ pairs)
    (hother : other ∈ pairs) (hne : other ≠ pair) (hc : [c] ∈ [pair.opening, pair.closing]) :
    other.step? c = none := by
  have hopens : [c] ≠ other.opening := fun h =>
    hne (eq_of_mem hpairs hother hpair (t := [c]) (by simp [h]) hc)
  have hcloses : [c] ≠ other.closing := fun h =>
    hne (eq_of_mem hpairs hother hpair (t := [c]) (by simp [h]) hc)
  rw [BracketPair.step?, if_neg hopens, if_neg hcloses]

theorem step?_opening (hc : [c] = pair.opening) : pair.step? c = some .U :=
  if_pos hc

theorem step?_closing (hpair : pair.opening ≠ pair.closing) (hc : [c] = pair.closing) :
    pair.step? c = some .D := by
  rw [BracketPair.step?, if_neg fun h => hpair (h.symm.trans hc), if_pos hc]

/-- The brackets of one kind among characters with their offsets. -/
def word (pair : BracketPair) (chars : List (Nat × Char)) : List DyckStep :=
  chars.filterMap fun (_, c) => pair.step? c

theorem word_cons (pair : BracketPair) (x : Nat × Char) (chars : List (Nat × Char)) :
    word pair (x :: chars) = word pair [x] ++ word pair chars := by
  rw [word, word, word, ← List.filterMap_append, List.singleton_append]

theorem word_append (pair : BracketPair) (chars more : List (Nat × Char)) :
    word pair (chars ++ more) = word pair chars ++ word pair more :=
  List.filterMap_append

theorem word_reverse (pair : BracketPair) (chars : List (Nat × Char)) :
    word pair chars.reverse = (word pair chars).reverse :=
  List.filterMap_reverse

theorem word_opening (i : Nat) (hc : [c] = pair.opening) : word pair [(i, c)] = [.U] := by
  simp [word, step?_opening hc]

theorem word_closing (hpair : pair.opening ≠ pair.closing) (i : Nat) (hc : [c] = pair.closing) :
    word pair [(i, c)] = [.D] := by
  simp [word, step?_closing hpair hc]

theorem balanced_word {chars : List (Nat × Char)} (hdepth : depth (word pair chars) = 0)
    (h : ∀ front, front <+: chars → 0 ≤ depth (word pair front)) : Balanced (word pair chars) := by
  refine balanced_iff.2 ⟨hdepth, fun steps hsteps => ?_⟩
  obtain ⟨front, hfront, rfl⟩ := List.prefix_filterMap_iff.1 hsteps
  exact h front hfront

theorem balanced_word_reverse {chars : List (Nat × Char)} (hdepth : depth (word pair chars) = 0)
    (h : ∀ front, front <+: chars → depth (word pair front) ≤ 0) :
    Balanced (word pair chars.reverse) := by
  rw [word_reverse]
  refine balanced_reverse_iff.2 ⟨hdepth, fun steps hsteps => ?_⟩
  obtain ⟨front, hfront, rfl⟩ := List.prefix_filterMap_iff.1 hsteps
  exact h front hfront

/-! ## Backward from the caret -/

theorem count_set (waiting : Waiting) (closing other : Text) (n : Nat) :
    (waiting.set closing n).count other = if other = closing then n else waiting.count other := by
  unfold Waiting.set Waiting.count
  rw [List.lookup_cons]
  split
  · next h => rw [if_pos (by simpa using h), Option.getD_some]
  · next h =>
    have hne : other ≠ closing := by simpa using h
    rw [if_neg hne]
    congr 1
    induction waiting with
    | nil => rfl
    | cons entry rest ih =>
      rw [List.filter_cons]
      split
      · rw [List.lookup_cons, List.lookup_cons, ih]
      · next hentry =>
        have hother : (other == entry.1) = false := by
          have : entry.1 = closing := by simpa using hentry
          simpa [this] using hne
        rw [ih, List.lookup_cons, hother]

/-- All that one character means for the backward pass: it is an opening bracket that nothing
answers, or what waits of each kind is set off against it. -/
theorem unclosedOpener?_cons (hpairs : BracketPair.Distinct pairs) (waiting : Waiting)
    (x : Nat × Char) (chars : List (Nat × Char)) :
    (∃ pair ∈ pairs, [x.2] = pair.opening ∧ waiting.count pair.closing = 0 ∧
      unclosedOpener? pairs waiting (x :: chars) = some (x.1, pair)) ∨
    ∃ waiting' : Waiting,
      unclosedOpener? pairs waiting (x :: chars) = unclosedOpener? pairs waiting' chars ∧
      ∀ pair ∈ pairs, (waiting'.count pair.closing : Int) =
        waiting.count pair.closing - depth (word pair [x]) := by
  obtain ⟨offset, c⟩ := x
  rw [unclosedOpener?]
  cases hopened : BracketPair.opened? pairs [c] with
  | some pair =>
    have hpair := List.mem_of_find?_eq_some hopened
    have hc : [c] = pair.opening := by simpa using List.find?_some hopened
    cases hcount : waiting.count pair.closing with
    | zero => exact .inl ⟨pair, hpair, hc, hcount, by simp [hcount]⟩
    | succ n =>
      refine .inr ⟨waiting.set pair.closing n, by simp [hcount], fun other hother => ?_⟩
      rw [count_set]
      by_cases heq : other = pair
      · subst heq
        simp [word, step?_opening hc, hcount]
      · have hnone := step?_eq_none hpairs hpair hother heq (c := c) (by simp [hc])
        simp [word, hnone, heq, closing_inj hpairs hpair hother]
  | none =>
    cases hclosed : BracketPair.closed? pairs [c] with
    | some pair =>
      have hpair := List.mem_of_find?_eq_some hclosed
      have hc : [c] = pair.closing := by simpa using List.find?_some hclosed
      refine .inr ⟨waiting.set pair.closing (waiting.count pair.closing + 1), rfl,
        fun other hother => ?_⟩
      rw [count_set]
      by_cases heq : other = pair
      · subst heq
        simp [word, step?_closing (opening_ne_closing hpairs hother) hc]
      · have hnone := step?_eq_none hpairs hpair hother heq (c := c) (by simp [hc])
        simp [word, hnone, heq, closing_inj hpairs hpair hother]
    | none =>
      refine .inr ⟨waiting, rfl, fun other hother => ?_⟩
      have hopens : [c] ≠ other.opening := by
        simpa using List.find?_eq_none.1 hopened other hother
      have hcloses : [c] ≠ other.closing := by
        simpa using List.find?_eq_none.1 hclosed other hother
      simp [word, BracketPair.step?, hopens, hcloses]

/-- Of each kind no more brackets are opened than are answered by those that wait and those among
the characters, however far one goes. -/
def Answered (pairs : List BracketPair) (waiting : Waiting) (chars : List (Nat × Char)) : Prop :=
  ∀ pair ∈ pairs, ∀ front, front <+: chars →
    depth (word pair front) ≤ waiting.count pair.closing

theorem answered_nil (pairs : List BracketPair) (waiting : Waiting) :
    Answered pairs waiting [] := by
  intro pair _ front hfront
  rw [List.prefix_nil.1 hfront]
  exact Int.natCast_nonneg _

theorem answered_cons {waiting waiting' : Waiting} {x : Nat × Char} {chars : List (Nat × Char)}
    (hcount : ∀ pair ∈ pairs, (waiting'.count pair.closing : Int) =
      waiting.count pair.closing - depth (word pair [x]))
    (h : Answered pairs waiting' chars) : Answered pairs waiting (x :: chars) := by
  intro pair hpair front hfront
  rcases List.prefix_cons_iff.1 hfront with rfl | ⟨front, rfl, hfront⟩
  · exact Int.natCast_nonneg _
  · have hrest := h pair hpair front (List.cons_prefix_cons.1 hfront).2
    have hx := hcount pair hpair
    rw [word_cons, depth_append]
    omega

theorem answered_of_unclosedOpener?_eq_none (hpairs : BracketPair.Distinct pairs)
    {waiting : Waiting} {chars : List (Nat × Char)}
    (h : unclosedOpener? pairs waiting chars = none) : Answered pairs waiting chars := by
  induction chars generalizing waiting with
  | nil => exact answered_nil pairs waiting
  | cons x chars ih =>
    obtain ⟨pair, -, -, -, hfound⟩ | ⟨waiting', hstep, hcount⟩ :=
      unclosedOpener?_cons hpairs waiting x chars
    · rw [hfound] at h
      cases h
    · rw [hstep] at h
      exact answered_cons hcount (ih h)

/-- What the backward pass finds: everything nearer is answered, and of the kind that is found
nothing waits any more. -/
theorem split_of_unclosedOpener? (hpairs : BracketPair.Distinct pairs) {waiting : Waiting}
    {chars : List (Nat × Char)} {offset : Nat}
    (h : unclosedOpener? pairs waiting chars = some (offset, pair)) :
    ∃ nearer c farther, chars = nearer ++ (offset, c) :: farther ∧ pair ∈ pairs ∧
      [c] = pair.opening ∧ depth (word pair nearer) = waiting.count pair.closing ∧
      Answered pairs waiting nearer := by
  induction chars generalizing waiting with
  | nil => cases h
  | cons x chars ih =>
    obtain ⟨found, hpair, hc, hzero, hfound⟩ | ⟨waiting', hstep, hcount⟩ :=
      unclosedOpener?_cons hpairs waiting x chars
    · rw [hfound] at h
      obtain ⟨rfl, rfl⟩ := Prod.mk.inj (Option.some.inj h)
      exact ⟨[], x.2, chars, rfl, hpair, hc, by rw [hzero]; rfl, answered_nil pairs waiting⟩
    · rw [hstep] at h
      obtain ⟨nearer, c, farther, rfl, hpair, hc, hdepth, hanswered⟩ := ih h
      refine ⟨x :: nearer, c, farther, rfl, hpair, hc, ?_, answered_cons hcount hanswered⟩
      have hx := hcount pair hpair
      rw [word_cons, depth_append]
      omega

/-! ## Forward from the opening bracket -/

/-- All that one character means for the forward pass. -/
theorem closerOf?_cons (hpair : pair.opening ≠ pair.closing) (n : Nat) (x : Nat × Char)
    (chars : List (Nat × Char)) :
    ([x.2] = pair.closing ∧ n = 0 ∧ closerOf? pair n (x :: chars) = some x.1) ∨
    ∃ n' : Nat, closerOf? pair n (x :: chars) = closerOf? pair n' chars ∧
      (n' : Int) = n + depth (word pair [x]) := by
  obtain ⟨offset, c⟩ := x
  by_cases hcloses : [c] = pair.closing
  · cases n with
    | zero => exact .inl ⟨hcloses, rfl, by simp [closerOf?, hcloses]⟩
    | succ n =>
      exact .inr ⟨n, by simp [closerOf?, hcloses], by simp [word, step?_closing hpair hcloses]⟩
  · by_cases hopens : [c] = pair.opening
    · refine .inr ⟨n + 1, ?_, by simp [word, step?_opening hopens]⟩
      rw [closerOf?.eq_def]
      exact (if_neg hcloses).trans (if_pos hopens)
    · refine .inr ⟨n, ?_, by simp [word, BracketPair.step?, hopens, hcloses]⟩
      rw [closerOf?.eq_def]
      exact (if_neg hcloses).trans (if_neg hopens)

/-- Of the kind no more brackets are closed than are open, however far one goes. -/
def StaysOpen (pair : BracketPair) (n : Nat) (chars : List (Nat × Char)) : Prop :=
  ∀ front, front <+: chars → 0 ≤ n + depth (word pair front)

theorem staysOpen_nil (pair : BracketPair) (n : Nat) : StaysOpen pair n [] := by
  intro front hfront
  rw [List.prefix_nil.1 hfront]
  exact Int.natCast_nonneg _

theorem staysOpen_cons {n n' : Nat} {x : Nat × Char} {chars : List (Nat × Char)}
    (hn : (n' : Int) = n + depth (word pair [x])) (h : StaysOpen pair n' chars) :
    StaysOpen pair n (x :: chars) := by
  intro front hfront
  rcases List.prefix_cons_iff.1 hfront with rfl | ⟨front, rfl, hfront⟩
  · exact Int.natCast_nonneg _
  · have hrest := h front (List.cons_prefix_cons.1 hfront).2
    rw [word_cons, depth_append]
    omega

theorem staysOpen_of_closerOf?_eq_none (hpair : pair.opening ≠ pair.closing) {n : Nat}
    {chars : List (Nat × Char)} (h : closerOf? pair n chars = none) : StaysOpen pair n chars := by
  induction chars generalizing n with
  | nil => exact staysOpen_nil pair n
  | cons x chars ih =>
    obtain ⟨-, -, hfound⟩ | ⟨n', hstep, hn⟩ := closerOf?_cons hpair n x chars
    · rw [hfound] at h
      cases h
    · rw [hstep] at h
      exact staysOpen_cons hn (ih h)

/-- What the forward pass finds: nothing nearer closes the bracket, and all that was opened behind
it is closed. -/
theorem split_of_closerOf? (hpair : pair.opening ≠ pair.closing) {n : Nat}
    {chars : List (Nat × Char)} {offset : Nat} (h : closerOf? pair n chars = some offset) :
    ∃ nearer c farther, chars = nearer ++ (offset, c) :: farther ∧ [c] = pair.closing ∧
      n + depth (word pair nearer) = 0 ∧ StaysOpen pair n nearer := by
  induction chars generalizing n with
  | nil => cases h
  | cons x chars ih =>
    obtain ⟨hc, rfl, hfound⟩ | ⟨n', hstep, hn⟩ := closerOf?_cons hpair n x chars
    · rw [hfound] at h
      obtain rfl := Option.some.inj h
      exact ⟨[], x.2, chars, rfl, hc, rfl, staysOpen_nil pair 0⟩
    · rw [hstep] at h
      obtain ⟨nearer, c, farther, rfl, hc, hdepth, hopen⟩ := ih h
      refine ⟨x :: nearer, c, farther, rfl, hc, ?_, staysOpen_cons hn hopen⟩
      rw [word_cons, depth_append]
      omega

end Highlight

end TextEditor

import TextEditor.Proofs.Buffer.Caret
import TextEditor.Proofs.Document.LineIndex

/-!
# Where the caret stops

The caret stops at every offset of a text but the one inside a CR LF pair.  A step to the right
leads from a stop to the next one and a step to the left to the one before: what the first looks at
in front of the caret is what the second looks at behind it.  So the number of the stop counts the
steps, and settling on a stop changes nothing.
-/

namespace TextEditor

namespace Text

/-! ## Stops -/

/-- The offsets between which the caret moves, in their order. -/
def stops (t : Text) : List Nat :=
  (List.range (t.length + 1)).filter fun o => ¬ CutsPair (t.take o) (t.drop o)

/-- A CR LF pair begins at the offset. -/
def PairAt (t : Text) (k : Nat) : Prop :=
  t[k]? = some '\r' ∧ t[k + 1]? = some '\n'

variable {t : Text} {i j k o p : Nat}

theorem cutsPair_iff (t : Text) (o : Nat) :
    CutsPair (t.take o) (t.drop o) ↔ ∃ k, o = k + 1 ∧ t.PairAt k := by
  rw [CutsPair, List.head?_drop]
  cases o with
  | zero => simp
  | succ k =>
    have hlast : t[k + 1]? = some '\n' → (t.take (k + 1)).getLast? = t[k]? := by
      intro hfeed
      have hinside : k + 1 < t.length := (List.getElem?_eq_some_iff.1 hfeed).1
      rw [List.getLast?_take, if_neg (Nat.succ_ne_zero k), Nat.add_sub_cancel,
        List.getElem?_eq_getElem (by omega), Option.some_or]
    constructor
    · rintro ⟨hreturn, hfeed⟩
      exact ⟨k, rfl, hlast hfeed ▸ hreturn, hfeed⟩
    · rintro ⟨k', hk, hreturn, hfeed⟩
      obtain rfl : k = k' := by omega
      exact ⟨(hlast hfeed).trans hreturn, hfeed⟩

theorem PairAt.lt_length (h : t.PairAt k) : k + 1 < t.length :=
  (List.getElem?_eq_some_iff.1 h.2).1

/-- Two pairs do not overlap. -/
theorem PairAt.not_succ (h : t.PairAt k) : ¬ t.PairAt (k + 1) := by
  intro hnext
  have hsame := h.2.symm.trans hnext.1
  exact absurd hsame (by decide)

theorem mem_stops : o ∈ t.stops ↔ o ≤ t.length ∧ ∀ k, o = k + 1 → ¬ t.PairAt k := by
  simp only [stops, List.mem_filter, List.mem_range, decide_eq_true_eq, cutsPair_iff,
    not_exists, not_and, Nat.lt_succ_iff]

theorem pairwise_stops (t : Text) : t.stops.Pairwise (· < ·) :=
  List.pairwise_lt_range.filter _

theorem stops_zero (t : Text) : t.stops[0]? = some 0 := by
  rw [stops, List.range_succ_eq_map, List.filter_cons_of_pos]
  · rfl
  · simp [CutsPair]

theorem stops_last (t : Text) : t.stops[t.stops.length - 1]? = some t.length := by
  have hsplit : t.stops =
      (List.range t.length).filter (fun o => ¬ CutsPair (t.take o) (t.drop o)) ++ [t.length] := by
    rw [stops, List.range_succ, List.filter_append, List.filter_singleton]
    simp [CutsPair]
  rw [← List.getLast?_eq_getElem?, hsplit, List.getLast?_concat]

/-- Stops are in the order of their numbers. -/
theorem stops_lt_iff (hi : t.stops[i]? = some o) (hj : t.stops[j]? = some p) :
    o < p ↔ i < j := by
  obtain ⟨hi', rfl⟩ := List.getElem?_eq_some_iff.1 hi
  obtain ⟨hj', rfl⟩ := List.getElem?_eq_some_iff.1 hj
  have hmono := List.pairwise_iff_getElem.1 (pairwise_stops t)
  refine ⟨fun hless => ?_, hmono i j hi' hj'⟩
  by_contra hle
  rcases Nat.lt_or_eq_of_le (Nat.le_of_not_lt hle) with hlt | rfl
  · exact absurd (hmono j i hj' hi' hlt) (by omega)
  · exact absurd hless (Nat.lt_irrefl _)

/-- A stop behind another with none in between has the next number. -/
theorem stops_succ (hi : t.stops[i]? = some o) (hp : p ∈ t.stops) (hless : o < p)
    (hnone : ∀ q ∈ t.stops, o < q → p ≤ q) : t.stops[i + 1]? = some p := by
  obtain ⟨j, hj⟩ := List.getElem?_of_mem hp
  have hij : i < j := (stops_lt_iff hi hj).1 hless
  have hinside : i + 1 < t.stops.length :=
    Nat.lt_of_le_of_lt hij (List.getElem?_eq_some_iff.1 hj).1
  have hnext : t.stops[i + 1]? = some t.stops[i + 1] := List.getElem?_eq_getElem hinside
  have hle : p ≤ t.stops[i + 1] :=
    hnone _ (List.getElem_mem hinside) ((stops_lt_iff hi hnext).2 (Nat.lt_succ_self i))
  have hge : ¬ p < t.stops[i + 1] := by
    rw [stops_lt_iff hj hnext]
    omega
  rw [hnext, Nat.le_antisymm hle (Nat.le_of_not_lt hge)]

/-- The stop behind one that is not the last. -/
theorem stops_succ_of_lt (hi : t.stops[i]? = some o) (hless : o < t.length)
    [Decidable (t.PairAt o)] :
    t.stops[i + 1]? = some (if t.PairAt o then o + 2 else o + 1) := by
  split
  · next hpair =>
    have hmem : o + 2 ∈ t.stops := by
      refine mem_stops.2 ⟨hpair.lt_length, fun k hk => ?_⟩
      obtain rfl : k = o + 1 := by omega
      exact hpair.not_succ
    refine stops_succ hi hmem (by omega) fun q hq hbehind => ?_
    -- The offset in between is inside the pair.
    have hinside : q ≠ o + 1 := by
      rintro rfl
      exact (mem_stops.1 hq).2 o rfl hpair
    omega
  · next hpair =>
    have hmem : o + 1 ∈ t.stops := by
      refine mem_stops.2 ⟨hless, fun k hk => ?_⟩
      obtain rfl : k = o := by omega
      exact hpair
    exact stops_succ hi hmem (by omega) fun q _ hbehind => hbehind

/-- There are stops on the two sides of a pair, one after the other. -/
theorem PairAt.stops (h : t.PairAt k) :
    ∃ j, t.stops[j]? = some k ∧ t.stops[j + 1]? = some (k + 2) := by
  classical
  have hmem : k ∈ t.stops := by
    refine mem_stops.2 ⟨Nat.le_of_lt (Nat.lt_of_succ_lt h.lt_length), fun k' hk hbefore => ?_⟩
    exact hbefore.not_succ (hk ▸ h)
  obtain ⟨j, hj⟩ := List.getElem?_of_mem hmem
  have hnext := stops_succ_of_lt hj (Nat.lt_of_succ_lt h.lt_length)
  rw [if_pos h] at hnext
  exact ⟨j, hj, hnext⟩

end Text

namespace Document

variable {d : Document} {i o : Nat}

/-! ## Steps -/

theorem slice_eq_pair_iff (d : Document) (a : Int) :
    d.slice a (a + 2) = ['\r', '\n'] ↔ ∃ k : Nat, a = k ∧ d.text.PairAt k := by
  by_cases hneg : a < 0
  · constructor
    · intro hslice
      have hlength := congrArg List.length hslice
      simp only [slice, Text.slice, clamp, List.length_take, List.length_drop, List.length_cons,
        List.length_nil] at hlength
      omega
    · rintro ⟨k, rfl, -⟩
      omega
  obtain ⟨k, rfl⟩ := Int.eq_ofNat_of_zero_le (Int.not_lt.1 hneg)
  have hslice : d.slice k (k + 2) = (d.text.drop k).take 2 := by
    have hlow : d.clamp k = min k d.text.length := rfl
    have hhigh : d.clamp (k + 2) = min (k + 2) d.text.length := by
      simp only [clamp, length]
      omega
    simp only [slice, Text.slice, hlow, hhigh]
    rcases Nat.le_total d.text.length k with hpast | hinside
    · rw [List.drop_eq_nil_of_le (by omega), List.drop_eq_nil_of_le hpast]
      simp
    · have hdrop : min (min k d.text.length) (min (k + 2) d.text.length) = k := by omega
      rw [hdrop, List.take_eq_take_iff, List.length_drop]
      omega
  have hpair : d.text.PairAt k ↔ (d.text.drop k).take 2 = ['\r', '\n'] := by
    rw [Text.PairAt, ← Nat.add_zero k, ← List.getElem?_drop, Nat.add_zero, ← List.getElem?_drop]
    rcases d.text.drop k with _ | ⟨c, _ | ⟨e, rest⟩⟩ <;> simp
  rw [hslice, ← hpair]
  constructor
  · exact fun h => ⟨k, rfl, h⟩
  · rintro ⟨k', hk, h⟩
    obtain rfl : k = k' := Int.ofNat_inj.1 hk
    exact h

theorem settle_stop (ho : o ∈ d.text.stops) : d.settle o = o := by
  obtain ⟨hle, hcut⟩ := Text.mem_stops.1 ho
  have hclamp : d.clamp o = o := clamp_of_le hle
  have hslice : d.slice ((o : Int) - 1) (o + 1) ≠ ['\r', '\n'] := by
    have hwidth : (o : Int) + 1 = o - 1 + 2 := by omega
    rw [hwidth, Ne, slice_eq_pair_iff]
    rintro ⟨k, hk, hpair⟩
    exact hcut k (by omega) hpair
  simp only [settle, hclamp, if_neg hslice]

/-- A step to the right leads to the next stop, if there is one. -/
theorem stepRight_stop (hi : d.text.stops[i]? = some o) :
    ∃ p : Nat, d.text.stops[min (i + 1) (d.text.stops.length - 1)]? = some p ∧
      d.stepRight o = p := by
  classical
  have hmem : o ∈ d.text.stops := List.mem_of_getElem? hi
  have hinside : i < d.text.stops.length := (List.getElem?_eq_some_iff.1 hi).1
  by_cases hlast : o < d.text.length
  · have hnext := Text.stops_succ_of_lt hi hlast
    have hnumber : i + 1 < d.text.stops.length := (List.getElem?_eq_some_iff.1 hnext).1
    rw [Nat.min_eq_left (by omega)]
    refine ⟨_, hnext, ?_⟩
    have hslice := slice_eq_pair_iff d o
    by_cases hpair : d.text.PairAt o
    · have hfound : d.slice o (o + 2) = ['\r', '\n'] := hslice.2 ⟨o, rfl, hpair⟩
      rw [stepRight, if_neg (by simp only [length]; omega), if_pos hfound, if_pos hpair]
      rfl
    · have hfound : d.slice o (o + 2) ≠ ['\r', '\n'] := by
        rw [Ne, hslice]
        rintro ⟨k, hk, h⟩
        exact hpair (Int.ofNat_inj.1 hk ▸ h)
      rw [stepRight, if_neg (by simp only [length]; omega), if_neg hfound, if_neg hpair]
      rfl
  · obtain rfl : o = d.text.length := by
      have := (Text.mem_stops.1 hmem).1
      omega
    have hnumber := Text.stops_lt_iff hi (Text.stops_last d.text)
    rw [Nat.min_eq_right (by omega)]
    exact ⟨_, Text.stops_last d.text, if_pos (Int.le_refl _)⟩

/-- A step to the left leads to the stop before, if there is one. -/
theorem stepLeft_stop (hi : d.text.stops[i]? = some o) :
    ∃ p : Nat, d.text.stops[i - 1]? = some p ∧ d.stepLeft o = p := by
  classical
  have hmem : o ∈ d.text.stops := List.mem_of_getElem? hi
  obtain ⟨hle, hcut⟩ := Text.mem_stops.1 hmem
  rcases i with _ | i
  · obtain rfl : o = 0 := Option.some.inj (hi.symm.trans (Text.stops_zero d.text))
    exact ⟨0, Text.stops_zero d.text, if_pos (Int.le_refl _)⟩
  have hinside : i < d.text.stops.length := by
    have := (List.getElem?_eq_some_iff.1 hi).1
    omega
  have hbefore : d.text.stops[i]? = some d.text.stops[i] := List.getElem?_eq_getElem hinside
  generalize d.text.stops[i] = p at hbefore
  have hless : p < o := (Text.stops_lt_iff hbefore hi).2 (Nat.lt_succ_self i)
  refine ⟨p, hbefore, ?_⟩
  -- The stop before is the one from which a step to the right leads here.
  have hnext := Text.stops_succ_of_lt hbefore (by omega)
  rw [hi] at hnext
  have hslice := slice_eq_pair_iff d ((o : Int) - 2)
  rw [Int.sub_add_cancel] at hslice
  rw [stepLeft, if_neg (by omega)]
  by_cases hpair : d.text.PairAt p
  · rw [if_pos hpair] at hnext
    obtain rfl := Option.some.inj hnext
    rw [if_pos (hslice.2 ⟨p, by omega, hpair⟩)]
    omega
  · rw [if_neg hpair] at hnext
    obtain rfl := Option.some.inj hnext
    have hfound : d.slice ((p + 1 : Nat) - 2) (p + 1 : Nat) ≠ ['\r', '\n'] := by
      rw [Ne, hslice]
      rintro ⟨k, hk, h⟩
      -- A pair that ends here would have the stop before inside it.
      have hstop := (Text.mem_stops.1 (List.mem_of_getElem? hbefore)).2 k (by omega)
      exact hstop h
    rw [if_neg hfound]
    omega

end Document

namespace Document

variable {d : Document} {i o : Nat}

/-! ## Walks -/

theorem walk_right_stop (hi : d.text.stops[i]? = some o) (n : Nat) :
    ∃ p : Nat, d.text.stops[min (i + n) (d.text.stops.length - 1)]? = some p ∧
      walk d.stepRight n o = p := by
  simp only [walk_eq_iterate]
  induction n with
  | zero =>
    have hinside : i < d.text.stops.length := (List.getElem?_eq_some_iff.1 hi).1
    rw [Nat.add_zero, Nat.min_eq_left (by omega)]
    exact ⟨o, hi, rfl⟩
  | succ n ih =>
    obtain ⟨p, hp, hwalk⟩ := ih
    obtain ⟨q, hq, hstep⟩ := stepRight_stop hp
    have hnumber : min (min (i + n) (d.text.stops.length - 1) + 1) (d.text.stops.length - 1) =
        min (i + (n + 1)) (d.text.stops.length - 1) := by omega
    rw [hnumber] at hq
    exact ⟨q, hq, by rw [Nat.repeat, hwalk, hstep]⟩

theorem walk_left_stop (hi : d.text.stops[i]? = some o) (n : Nat) :
    ∃ p : Nat, d.text.stops[i - n]? = some p ∧ walk d.stepLeft n o = p := by
  simp only [walk_eq_iterate]
  induction n with
  | zero => exact ⟨o, hi, rfl⟩
  | succ n ih =>
    obtain ⟨p, hp, hwalk⟩ := ih
    obtain ⟨q, hq, hstep⟩ := stepLeft_stop hp
    rw [Nat.sub_sub] at hq
    exact ⟨q, hq, by rw [Nat.repeat, hwalk, hstep]⟩

end Document

namespace Buffer

variable {b : Buffer} {i o : Nat}

/-- Wherever the anchor is, steps put the caret where their walk settles. -/
theorem absolute_moveSteps (b : Buffer) (step : Int → Int) (count : Nat) (extending : Bool) :
    (b.moveSteps step count extending).reconcile.caret.absolute =
      b.document.settle (Document.walk step count b.caret.absolute) :=
  calc (b.moveSteps step count extending).reconcile.caret.absolute
      = b.document.clamp (b.document.settle (Document.walk step count b.caret.absolute)) :=
        absolute_reconcile rfl
    _ = b.document.settle (Document.walk step count b.caret.absolute) :=
        (within_settle b.document _).clamp

/-- Steps that lead to a stop leave the caret there. -/
theorem absolute_moveSteps_stop {step : Int → Int} {count p : Nat} (hcaret : b.caret.absolute = o)
    (hwalk : Document.walk step count o = p) (hp : p ∈ b.text.stops) (extending : Bool) :
    (b.moveSteps step count extending).reconcile.caret.absolute = p := by
  calc (b.moveSteps step count extending).reconcile.caret.absolute
      = b.document.settle (Document.walk step count b.caret.absolute) :=
        absolute_moveSteps b step count extending
    _ = b.document.settle p := by rw [hcaret, hwalk]
    _ = p := Document.settle_stop hp

theorem absolute_move_right (hi : b.text.stops[i]? = some o) (hcaret : b.caret.absolute = o)
    (n : Nat) (extending : Bool) :
    ∃ p : Nat, b.text.stops[min (i + n) (b.text.stops.length - 1)]? = some p ∧
      (b.move .right n extending).caret.absolute = p := by
  obtain ⟨p, hp, hwalk⟩ := Document.walk_right_stop hi n
  exact ⟨p, hp, absolute_moveSteps_stop hcaret hwalk (List.mem_of_getElem? hp) extending⟩

theorem absolute_move_left (hi : b.text.stops[i]? = some o) (hcaret : b.caret.absolute = o)
    (n : Nat) (extending : Bool) :
    ∃ p : Nat, b.text.stops[i - n]? = some p ∧
      (b.move .left n extending).caret.absolute = p := by
  obtain ⟨p, hp, hwalk⟩ := Document.walk_left_stop hi n
  exact ⟨p, hp, absolute_moveSteps_stop hcaret hwalk (List.mem_of_getElem? hp) extending⟩

/-- Numbering the stops of the text, moving `n` times to the right adds `n` to the number of the
caret's stop, moving to the left takes `n` from it, and both end at the last and the first stop.  So
a way to the right within the text is undone by as many moves to the left, and one move crosses
a pair. -/
theorem absolute_move_stops (hi : b.text.stops[i]? = some o) (hcaret : b.caret.absolute = o)
    (n : Nat) (extending back : Bool) :
    let last := b.text.stops.length - 1
    let right := b.move .right n extending
    let left := b.move .left n extending
    (∃ p : Nat, b.text.stops[min (i + n) last]? = some p ∧ right.caret.absolute = p) ∧
    (∃ p : Nat, b.text.stops[i - n]? = some p ∧ left.caret.absolute = p) ∧
    (i + n ≤ last → (right.move .left n back).caret.absolute = o) ∧
    ∀ k, b.text.PairAt k →
      (o = k → (b.move .right 1 extending).caret.absolute = (k + 2 : Nat)) ∧
      (o = k + 2 → (b.move .left 1 extending).caret.absolute = k) := by
  intro last right left
  have hright := absolute_move_right hi hcaret n extending
  refine ⟨hright, absolute_move_left hi hcaret n extending, fun hinside => ?_,
    fun k hpair => ⟨?_, ?_⟩⟩
  · obtain ⟨p, hp, hmoved⟩ := hright
    rw [Nat.min_eq_left hinside] at hp
    have htext : right.text = b.text :=
      congrArg Document.text (quiet_move b .right n extending).document
    rw [← htext] at hp
    obtain ⟨q, hq, hback⟩ := absolute_move_left hp hmoved n back
    rw [htext, Nat.add_sub_cancel, hi] at hq
    obtain rfl := Option.some.inj hq
    exact hback
  · rintro rfl
    obtain ⟨j, hj, hnext⟩ := hpair.stops
    have hnumber : j + 1 < b.text.stops.length := (List.getElem?_eq_some_iff.1 hnext).1
    obtain ⟨p, hp, hmoved⟩ := absolute_move_right hj hcaret 1 extending
    rw [Nat.min_eq_left (by omega), hnext] at hp
    obtain rfl := Option.some.inj hp
    exact hmoved
  · rintro rfl
    obtain ⟨j, hj, hnext⟩ := hpair.stops
    obtain ⟨p, hp, hmoved⟩ := absolute_move_left hnext hcaret 1 extending
    rw [Nat.add_sub_cancel, hj] at hp
    obtain rfl := Option.some.inj hp
    exact hmoved

/-- From between two returns, of which the second begins a pair, to the end of the text and back. -/
theorem absolute_move_stops_pair :
    let b := (create "a.txt" ['a', '\r', '\r', '\n', '\n'] 24 80 {}).collapse 2
    (b.text.stops[2]? = some 2 ∧ b.caret.absolute = (2 : Nat)) ∧
      (b.move .right 2 true).caret.absolute = 5 ∧
        ((b.move .right 2 true).move .left 2 false).caret.absolute = 2 ∧
          (b.move .right 1 true).caret.absolute = 4 := by
  intro b
  have hi : b.text.stops[2]? = some 2 := by decide
  have hcaret : b.caret.absolute = (2 : Nat) := rfl
  have hlast : b.text.stops[min (2 + 2) (b.text.stops.length - 1)]? = some 5 := by decide
  have hmoves := absolute_move_stops hi hcaret 2 true false
  obtain ⟨p, hp, hmoved⟩ := hmoves.1
  have hend : p = 5 := Option.some.inj (hp.symm.trans hlast)
  rw [hend] at hmoved
  exact ⟨⟨hi, hcaret⟩, hmoved, hmoves.2.2.1 (by decide), (hmoves.2.2.2 2 ⟨rfl, rfl⟩).1 rfl⟩

end Buffer

end TextEditor

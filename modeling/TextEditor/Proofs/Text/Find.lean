import Mathlib.Data.List.Infix
import TextEditor.Text.Basic

/-!
# Where a pattern stands

A search finds the first place of a text at which a pattern stands, and fails only if it stands
nowhere.  What was found is found too when more text follows.
-/

namespace TextEditor.Text

variable {pattern t : Text} {offset found : Nat}

theorem findFrom_eq_some_iff :
    findFrom pattern t offset = some found ↔
      ∃ n ≤ t.length, found = offset + n ∧ pattern <+: t.drop n ∧
        ∀ k < n, ¬ pattern <+: t.drop k := by
  induction t generalizing offset with
  | nil =>
    simp only [findFrom, List.isEmpty_iff]
    constructor
    · intro h
      split at h
      · next hempty => exact ⟨0, Nat.le_refl _, (Option.some.inj h).symm, by simp [hempty], by simp⟩
      · cases h
    · rintro ⟨n, hn, rfl, hprefix, -⟩
      obtain rfl : n = 0 := Nat.le_zero.1 hn
      rw [if_pos (by simpa using hprefix)]
      rfl
  | cons c rest ih =>
    rw [findFrom]
    by_cases hprefix : pattern <+: c :: rest
    · rw [if_pos (List.isPrefixOf_iff_prefix.2 hprefix)]
      constructor
      · intro h
        exact ⟨0, Nat.zero_le _, (Option.some.inj h).symm, hprefix, by simp⟩
      · rintro ⟨n, -, rfl, -, hfirst⟩
        rcases Nat.eq_zero_or_pos n with rfl | hpos
        · rfl
        · exact absurd hprefix (hfirst 0 hpos)
    · rw [if_neg fun h => hprefix (List.isPrefixOf_iff_prefix.1 h), ih]
      constructor
      · rintro ⟨n, hn, rfl, hfound, hfirst⟩
        refine ⟨n + 1, Nat.succ_le_succ hn, by omega, hfound, fun k hk => ?_⟩
        cases k with
        | zero => exact hprefix
        | succ k => exact hfirst k (by omega)
      · rintro ⟨n, hn, rfl, hfound, hfirst⟩
        cases n with
        | zero => exact absurd hfound hprefix
        | succ n =>
          refine ⟨n, Nat.le_of_succ_le_succ hn, by omega, hfound, fun k hk => ?_⟩
          exact hfirst (k + 1) (Nat.succ_lt_succ hk)

theorem exists_findFrom (h : pattern <:+: t) (offset : Nat) :
    ∃ found, findFrom pattern t offset = some found := by
  induction t generalizing offset with
  | nil =>
    obtain rfl : pattern = [] := List.infix_nil.1 h
    exact ⟨offset, rfl⟩
  | cons c rest ih =>
    rw [findFrom]
    split
    · exact ⟨offset, rfl⟩
    · next hprefix =>
      rcases List.infix_cons_iff.1 h with hfront | hrest
      · exact absurd (List.isPrefixOf_iff_prefix.2 hfront) hprefix
      · exact ih hrest (offset + 1)

theorem findFrom_eq_none_iff : findFrom pattern t offset = none ↔ ¬ pattern <:+: t := by
  constructor
  · intro hnone hinfix
    obtain ⟨found, hfound⟩ := exists_findFrom hinfix offset
    rw [hnone] at hfound
    cases hfound
  · intro hinfix
    cases hfound : findFrom pattern t offset with
    | none => rfl
    | some found =>
      obtain ⟨n, -, -, ⟨behind, hbehind⟩, -⟩ := findFrom_eq_some_iff.1 hfound
      refine absurd ⟨t.take n, behind, ?_⟩ hinfix
      rw [List.append_assoc, hbehind, List.take_append_drop]

/-- The first place stays the first one when more text follows. -/
theorem findFrom_append (h : findFrom pattern t offset = some found) (more : Text) :
    findFrom pattern (t ++ more) offset = some found := by
  obtain ⟨n, hn, rfl, hfound, hfirst⟩ := findFrom_eq_some_iff.1 h
  have hdrop : ∀ k ≤ n, (t ++ more).drop k = t.drop k ++ more := fun k hk =>
    List.drop_append_of_le_length (Nat.le_trans hk hn)
  have hlength : n + pattern.length ≤ t.length := by
    have := hfound.length_le
    rw [List.length_drop] at this
    omega
  refine findFrom_eq_some_iff.2 ⟨n, by simp only [List.length_append]; omega, rfl, ?_,
    fun k hk hprefix => hfirst k hk ?_⟩
  · rw [hdrop n (Nat.le_refl n)]
    exact hfound.trans (List.prefix_append _ more)
  · rw [hdrop k (Nat.le_of_lt hk)] at hprefix
    refine List.prefix_of_prefix_length_le hprefix (List.prefix_append _ more) ?_
    rw [List.length_drop]
    omega

end TextEditor.Text

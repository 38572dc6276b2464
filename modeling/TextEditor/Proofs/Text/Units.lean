import Mathlib.Data.Set.Basic
import Mathlib.Order.Bounds.Defs
import TextEditor.Text.Units

/-!
# Counting off UTF-16 units

The search for an offset goes past a character just when the units before it fall short of the
target.  What the search finds is therefore the least offset with that many units before it, or the
end of the text.  The units before an offset lead back to it, and each column of a line, which has
its place in UTF-16 units even behind the end of the line, is found again.
-/

namespace TextEditor.Text

variable {t : Text} {target : Int} {i j : Nat}

theorem units_take_lt_units_take (hij : i < j) (hj : j ≤ t.length) :
    units (t.take i) < units (t.take j) := by
  have hsplit : t.take j = t.take i ++ (t.drop i).take (j - i) := by
    rw [← List.take_add, Nat.add_sub_cancel' (Nat.le_of_lt hij)]
  have hbetween := length_le_units ((t.drop i).take (j - i))
  rw [List.length_take, List.length_drop] at hbetween
  rw [hsplit, units_append]
  omega

/-! ## Where the search stops -/

/-- The search goes past an offset just when a character is there and the units before it fall short
of the target. -/
theorem lt_indexOfUnits_iff :
    i < indexOfUnits t target ↔ i < t.length ∧ (units (t.take i) : Int) < target := by
  induction t generalizing target i with
  | nil => simp [indexOfUnits]
  | cons c rest ih =>
    rw [indexOfUnits]
    split
    · next hreached => exact iff_of_false (Nat.not_lt_zero i) (by omega)
    · next hshort =>
      cases i with
      | zero => exact iff_of_true (Nat.succ_pos _) ⟨Nat.succ_pos _, Int.not_le.1 hshort⟩
      | succ i =>
        -- the target left for the rest is less by the units of the first character
        rw [Nat.add_lt_add_iff_right, ih, List.length_cons, List.take_succ_cons, units_cons]
        omega

theorem indexOfUnits_le_iff :
    indexOfUnits t target ≤ i ↔ t.length ≤ i ∨ target ≤ units (t.take i) := by
  rw [← Nat.not_lt, lt_indexOfUnits_iff]
  omega

theorem indexOfUnits_le_length (t : Text) (target : Int) : indexOfUnits t target ≤ t.length :=
  indexOfUnits_le_iff.2 (.inl (Nat.le_refl _))

/-- Who can count off all the units before an offset gets there at least. -/
theorem le_indexOfUnits (hi : i ≤ t.length) (hunits : (units (t.take i) : Int) ≤ target) :
    i ≤ indexOfUnits t target := by
  by_contra hshort
  have hless := Nat.lt_of_not_le hshort
  rcases indexOfUnits_le_iff.1 (Nat.le_refl (indexOfUnits t target)) with hend | hstop
  · exact Nat.not_lt.2 hend (Nat.lt_of_lt_of_le hless hi)
  · have hunits' := units_take_lt_units_take hless hi
    omega

/-- Counting off all units of a text or more leads to its end. -/
theorem indexOfUnits_of_units_le (h : (units t : Int) ≤ target) :
    indexOfUnits t target = t.length :=
  Nat.le_antisymm (indexOfUnits_le_length t target)
    (le_indexOfUnits (Nat.le_refl _) (by rwa [List.take_length]))

/-- A target behind the first units of a character, and not behind its last, leads behind it. -/
theorem indexOfUnits_of_between (hbefore : (units (t.take i) : Int) < target)
    (hbehind : target ≤ units (t.take (i + 1))) : indexOfUnits t target = i + 1 := by
  have hinside : i < t.length := by
    by_contra hpast
    rw [List.take_of_length_le (by omega)] at hbefore hbehind
    omega
  exact Nat.le_antisymm (indexOfUnits_le_iff.2 (.inr hbehind))
    (lt_indexOfUnits_iff.2 ⟨hinside, hbefore⟩)

/-- The units before an offset lead back to it. -/
theorem indexOfUnits_units_take (t : Text) (i : Nat) :
    indexOfUnits t (units (t.take i)) = min i t.length := by
  rcases Nat.le_total i t.length with hinside | hpast
  · rw [Nat.min_eq_left hinside]
    exact Nat.le_antisymm (indexOfUnits_le_iff.2 (.inr (Int.le_refl _)))
      (le_indexOfUnits hinside (Int.le_refl _))
  · rw [Nat.min_eq_right hpast, List.take_of_length_le hpast]
    exact indexOfUnits_of_units_le (Int.le_refl _)

/-- Counting off the units of the first part of a text leads to its end. -/
theorem indexOfUnits_units_append (front back : Text) :
    indexOfUnits (front ++ back) (units front) = front.length := by
  have hback := indexOfUnits_units_take (front ++ back) front.length
  rwa [List.take_left, List.length_append, Nat.min_eq_left (Nat.le_add_right _ _)] at hback

/-- A greater target leads no less far. -/
theorem indexOfUnits_mono (t : Text) {target target' : Int} (hle : target ≤ target') :
    indexOfUnits t target ≤ indexOfUnits t target' := by
  refine indexOfUnits_le_iff.2 ?_
  rcases indexOfUnits_le_iff.1 (Nat.le_refl (indexOfUnits t target')) with hend | hstop
  · exact .inl hend
  · exact .inr (Int.le_trans hle hstop)

/-! ## The least offset -/

/-- The offsets of a text with at least `target` UTF-16 units before them. -/
def reaching (t : Text) (target : Int) : Set Nat :=
  {i | i ≤ t.length ∧ target ≤ units (t.take i)}

theorem isLeast_indexOfUnits (h : (reaching t target).Nonempty) :
    IsLeast (reaching t target) (indexOfUnits t target) := by
  have hlower : indexOfUnits t target ∈ lowerBounds (reaching t target) :=
    fun i hi => indexOfUnits_le_iff.2 (.inr hi.2)
  refine ⟨⟨indexOfUnits_le_length t target, ?_⟩, hlower⟩
  rcases indexOfUnits_le_iff.1 (Nat.le_refl (indexOfUnits t target)) with hend | hstop
  · -- only the end itself can be that far on
    obtain ⟨i, hi⟩ := h
    have hfound : i = indexOfUnits t target :=
      Nat.le_antisymm (Nat.le_trans hi.1 hend) (hlower hi)
    exact hfound ▸ hi.2
  · exact hstop

theorem indexOfUnits_of_reaching_eq_empty (h : reaching t target = ∅) :
    indexOfUnits t target = t.length := by
  have hshort : ¬ target ≤ units t := by
    intro hle
    have hend : t.length ∈ reaching t target := ⟨Nat.le_refl _, by rwa [List.take_length]⟩
    rw [h] at hend
    exact Set.notMem_empty _ hend
  exact indexOfUnits_of_units_le (by omega)

/-! ## Columns -/

/-- A column of a line in UTF-16 units, where a column past the end is one unit wide. -/
def unitColumn (t : Text) (column : Nat) : Nat :=
  units (t.take column) + (column - t.length)

theorem indexOfUnits_unitColumn (t : Text) (column : Nat) :
    indexOfUnits t (unitColumn t column) = min column t.length := by
  rcases Nat.le_total column t.length with hinside | hpast
  · rw [unitColumn, Nat.sub_eq_zero_of_le hinside, Nat.add_zero, indexOfUnits_units_take]
  · rw [unitColumn, List.take_of_length_le hpast, Nat.min_eq_right hpast]
    exact indexOfUnits_of_units_le (by omega)

end TextEditor.Text

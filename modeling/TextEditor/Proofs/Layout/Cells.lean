import TextEditor.Layout.CellGrid
import TextEditor.Proofs.Layout.WholeFloat

/-!
# Points in cells of size one

Whoever points into a cell of a grid whose cells have size one hits the character that the cell
shows, and no trailing edge.  This needs of coordinates only that they reckon exactly with whole
numbers, as whole numbers themselves do without a bound, and floats below `2 ^ 53`.
-/

namespace TextEditor

open Coordinate

/-- What the whole numbers below a bound have to satisfy as coordinates. -/
structure Coordinate.Exact {α : Type} [Coordinate α] (of : Nat → α) (bound : Nat) : Prop where
  ofInt {n : Nat} : n < bound → ofInt (n : Int) = .ok (of n)
  truncate {n : Nat} : n < bound → truncate (of n) = .ok (n : Int)
  add {m n : Nat} : m + n < bound → add (of m) (of n) = of (m + n)
  sub {m n : Nat} : m < bound → n ≤ m → sub (of m) (of n) = of (m - n)
  ratio_one {n : Nat} : n < bound → ratio (of n) (of 1) = of n
  floorRatio_one {n : Nat} : n < bound → floorRatio (of n) (of 1) = of n
  nonnegative {n : Nat} : n < bound → nonnegative (of n) = of n
  atLeastHalf_zero : atLeastHalf (of 0) = false

/-- Whole numbers are exact without a bound. -/
theorem exact_int (bound : Nat) : Exact (fun n => (n : Int)) bound where
  ofInt _ := rfl
  truncate _ := rfl
  add _ := rfl
  sub _ hle := (Int.ofNat_sub hle).symm
  ratio_one _ := Int.fdiv_one _
  floorRatio_one _ := Int.fdiv_one _
  nonnegative _ := Int.max_eq_left (Int.natCast_nonneg _)
  atLeastHalf_zero := rfl

theorem exact_float : Exact WholeFloat.float (2 ^ 53) where
  ofInt := WholeFloat.floatOfInt_natCast
  truncate := WholeFloat.floatTruncate_float
  add := WholeFloat.float_add
  sub := WholeFloat.float_sub
  ratio_one := WholeFloat.float_div_one
  floorRatio_one := WholeFloat.floatFloorRatio_one
  nonnegative hn := if_neg (WholeFloat.not_lt_zero hn)
  atLeastHalf_zero := by rfl

namespace CellGrid

variable {α : Type} [Coordinate α] {of : Nat → α} {bound : Nat}

/-- In cells of size one, the point of a cell hits the character that the cell shows, or the end of
the line behind which it lies. -/
theorem hit_cell (h : Exact of bound) {text : Text} {row column shift : Nat}
    (hrow : row < (Document.ofText text).lineCount) (hrow' : row < bound)
    (hcolumn : column + shift < bound) :
    (⟨of 1, of 1⟩ : CellGrid α).hit text (of column) (of row) shift =
      .ok ⟨((Document.ofText text).lineStart row +
        min (column + shift) ((Document.ofText text).contentLength row) : Nat), 0⟩ := by
  have hrows : max (row : Int) 0 = row := Int.max_eq_left (Int.natCast_nonneg _)
  have hlast : min (row : Int) ((Document.ofText text).lineCount - 1) = row := by omega
  have hhalf : sub (of (column + shift)) (of (column + shift)) = of 0 := by
    rw [h.sub hcolumn (Nat.le_refl _), Nat.sub_self]
  rw [hit, h.floorRatio_one hrow', h.truncate hrow', h.ratio_one (by omega),
    h.nonnegative (by omega), h.ofInt (by omega)]
  simp only [bind, Except.bind, hrows, hlast, h.add hcolumn, h.truncate hcolumn,
    h.ofInt hcolumn, hhalf, h.atLeastHalf_zero, Bool.false_eq_true, if_false]
  split
  · next hpast =>
    rw [Nat.min_eq_right (by omega)]
    rfl
  · next hinside =>
    rw [Nat.min_eq_left (by omega)]
    rfl

end CellGrid

end TextEditor

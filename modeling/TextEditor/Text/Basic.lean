/-!
# Text

A text is the list of its characters (Unicode code points), and every offset and length counts
characters.  This module holds the slices and searches that the other modules share.
-/

namespace TextEditor

/-- A text as the list of its characters. -/
abbrev Text := List Char

namespace Text

/-- The characters at offsets `start` to `stop - 1`. -/
def slice (t : Text) (start stop : Nat) : Text :=
  (t.drop start).take (stop - start)

/-- The offset of the first occurrence of `pattern` in `t`, where `t` itself begins at `offset`. -/
def findFrom (pattern : Text) : Text → Nat → Option Nat
  | [], offset => if pattern.isEmpty then some offset else none
  | c :: rest, offset =>
    if pattern.isPrefixOf (c :: rest) then some offset else findFrom pattern rest (offset + 1)

/-- The pieces of `t` between occurrences of `separator`. -/
def splitOn (separator : Char) : Text → List Text
  | [] => [[]]
  | c :: rest =>
    if c = separator then [] :: splitOn separator rest
    else
      match splitOn separator rest with
      | [] => [[c]]
      | piece :: pieces => (c :: piece) :: pieces

/-- Spaces in front until the text has the given width. -/
def padLeft (width : Nat) (t : Text) : Text :=
  List.replicate (width - t.length) ' ' ++ t

theorem slice_append_slice (t : Text) {start middle stop : Nat}
    (hfirst : start ≤ middle) (hsecond : middle ≤ stop) :
    slice t start middle ++ slice t middle stop = slice t start stop := by
  have hdrop : t.drop middle = (t.drop start).drop (middle - start) := by
    rw [List.drop_drop]
    congr 1
    omega
  have hwidth : stop - start = (middle - start) + (stop - middle) := by omega
  rw [slice, slice, slice, hdrop, hwidth, List.take_add]

theorem slice_append_drop (t : Text) {start stop : Nat} (h : start ≤ stop) :
    slice t start stop ++ t.drop stop = t.drop start := by
  have hdrop : (t.drop start).drop (stop - start) = t.drop stop := by
    rw [List.drop_drop, Nat.add_sub_cancel' h]
  rw [slice, ← hdrop, List.take_append_drop]

theorem length_padLeft (width : Nat) (t : Text) :
    (padLeft width t).length = max width t.length := by
  simp [padLeft]
  omega

end Text

end TextEditor

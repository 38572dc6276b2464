import TextEditor.Proofs.Bytes.Utf8
import TextEditor.Proofs.Text.Units

/-!
# Surrogate pairs

In UTF-16 a character above `U+FFFF` is a high surrogate and a low one, and every other character is
a unit of its own, which is no surrogate.  So an offset between two surrogates has the units of one
character on either side, and it is resolved to the offset behind that character.
-/

namespace TextEditor.Text

variable {t : Text} {c : Char} {target : Int} {i n unit : Nat}

/-- The UTF-16 code units of a character. -/
def charUtf16 (c : Char) : List Nat :=
  if c.toNat > 0xFFFF then
    [0xD800 + (c.toNat - 0x10000) / 0x400, 0xDC00 + (c.toNat - 0x10000) % 0x400]
  else [c.toNat]

/-- The UTF-16 code units of a text. -/
def utf16 (t : Text) : List Nat :=
  t.flatMap charUtf16

/-- A high surrogate with a low one behind it. -/
structure IsPair (high low : Nat) : Prop where
  high : 0xD800 ≤ high ∧ high ≤ 0xDBFF
  low : 0xDC00 ≤ low ∧ low ≤ 0xDFFF

/-- The UTF-16 offset `target` lies between the two surrogates of a pair. -/
def InsidePair (t : Text) (target : Int) : Prop :=
  ∃ front high low back, utf16 t = front ++ high :: low :: back ∧ IsPair high low ∧
    target = front.length + 1

theorem length_charUtf16 (c : Char) : (charUtf16 c).length = charUnits c := by
  rw [charUtf16, charUnits]
  split <;> rfl

/-- A text measures as many units as encode it. -/
theorem length_utf16 (t : Text) : (utf16 t).length = units t := by
  induction t with
  | nil => rfl
  | cons c rest ih =>
    rw [utf16, List.flatMap_cons, List.length_append, length_charUtf16, units_cons, ← ih, utf16]

theorem units_take_succ (hc : t[i]? = some c) :
    units (t.take (i + 1)) = units (t.take i) + charUnits c := by
  rw [List.take_add_one, hc, units_append]
  rfl

theorem charUtf16_of_wide (hwide : 0xFFFF < c.toNat) :
    ∃ high low, charUtf16 c = [high, low] ∧ IsPair high low := by
  have hbounds := Utf8.toNat_bounds c
  exact ⟨_, _, if_pos hwide, ⟨by omega, by omega⟩, ⟨by omega, by omega⟩⟩

example : charUtf16 '😀' = [0xD83D, 0xDE00] := by decide

/-- Among the units of a character only the second one of a pair is a low surrogate. -/
theorem wide_of_low (hunit : (charUtf16 c)[n]? = some unit)
    (hlow : 0xDC00 ≤ unit ∧ unit ≤ 0xDFFF) : 0xFFFF < c.toNat ∧ n = 1 := by
  have hbounds := Utf8.toNat_bounds c
  rw [charUtf16] at hunit
  split at hunit
  · next hwide =>
    rcases n with - | - | n
    · have hhigh := Option.some.inj hunit
      omega
    · exact ⟨hwide, rfl⟩
    · simp at hunit
  · rcases n with - | n
    · have hcode := Option.some.inj hunit
      omega
    · simp at hunit

/-- Each unit of a text is one of a character, whose other units lie around it. -/
theorem exists_char_of_unit (hunit : (utf16 t)[n]? = some unit) :
    ∃ i c place, t[i]? = some c ∧ n = units (t.take i) + place ∧
      (charUtf16 c)[place]? = some unit := by
  induction t generalizing n with
  | nil => cases hunit
  | cons c rest ih =>
    rw [utf16, List.flatMap_cons, List.getElem?_append, length_charUtf16] at hunit
    split at hunit
    · exact ⟨0, c, n, rfl, (Nat.zero_add n).symm, hunit⟩
    · next hbehind =>
      obtain ⟨i, c', place, hc', hplace, hunit'⟩ := ih hunit
      refine ⟨i + 1, c', place, hc', ?_, hunit'⟩
      rw [List.take_succ_cons, units_cons]
      omega

/-- The offsets inside a pair are those behind the first unit of a character above `U+FFFF`. -/
theorem insidePair_iff :
    InsidePair t target ↔
      ∃ i c, t[i]? = some c ∧ 0xFFFF < c.toNat ∧ target = units (t.take i) + 1 := by
  constructor
  · rintro ⟨front, high, low, back, hunits, hpair, rfl⟩
    have hlow : (utf16 t)[front.length + 1]? = some low := by simp [hunits]
    obtain ⟨i, c, place, hc, hplace, hunit⟩ := exists_char_of_unit hlow
    obtain ⟨hwide, rfl⟩ := wide_of_low hunit hpair.low
    exact ⟨i, c, hc, hwide, by omega⟩
  · rintro ⟨i, c, hc, hwide, rfl⟩
    obtain ⟨high, low, hunits, hpair⟩ := charUtf16_of_wide hwide
    obtain ⟨hi, rfl⟩ := List.getElem?_eq_some_iff.1 hc
    refine ⟨utf16 (t.take i), high, low, utf16 (t.drop (i + 1)), ?_, hpair, by rw [length_utf16]⟩
    conv_lhs => rw [← List.take_append_drop i t, List.drop_eq_getElem_cons hi]
    rw [utf16, List.flatMap_append, List.flatMap_cons, hunits]
    rfl

/-- An offset in UTF-16 units is resolved to the least offset with at least that many units before
it, and to the end of the text if there is none.  So the units before an offset lead back to it,
more units never lead further back, and an offset inside the surrogate pair of a character leads
behind that character. -/
theorem least_of_units (t : Text) :
    (∀ target : Int, IsLeast (reaching t target) (indexOfUnits t target) ∨
      reaching t target = ∅ ∧ indexOfUnits t target = t.length) ∧
    (∀ i, indexOfUnits t (units (t.take i)) = min i t.length) ∧
    (∀ target target', target ≤ target' → indexOfUnits t target ≤ indexOfUnits t target') ∧
    ∀ target, InsidePair t target →
      ∃ i c, t[i]? = some c ∧ 0xFFFF < c.toNat ∧ target = units (t.take i) + 1 ∧
        indexOfUnits t target = i + 1 := by
  refine ⟨fun target => ?_, indexOfUnits_units_take t, fun _ _ => indexOfUnits_mono t, ?_⟩
  · rcases (reaching t target).eq_empty_or_nonempty with hnone | hsome
    · exact .inr ⟨hnone, indexOfUnits_of_reaching_eq_empty hnone⟩
    · exact .inl (isLeast_indexOfUnits hsome)
  · intro target hinside
    obtain ⟨i, c, hc, hwide, rfl⟩ := insidePair_iff.1 hinside
    have hbehind := units_take_succ hc
    rw [charUnits, if_pos hwide] at hbehind
    exact ⟨i, c, hc, hwide, rfl, indexOfUnits_of_between (by omega) (by omega)⟩

/-- The offset between the surrogates of an emoji, and the one behind them. -/
theorem least_of_units_emoji :
    ((2 : Int) ≤ 3 ∧ indexOfUnits ['a', '😀', 'b'] 2 ≤ indexOfUnits ['a', '😀', 'b'] 3) ∧
      InsidePair ['a', '😀', 'b'] 2 ∧
      ∃ i c, ['a', '😀', 'b'][i]? = some c ∧ 0xFFFF < c.toNat ∧
        (2 : Int) = units (['a', '😀', 'b'].take i) + 1 ∧
        indexOfUnits ['a', '😀', 'b'] 2 = i + 1 := by
  have hle : (2 : Int) ≤ 3 := by decide
  have hpair : InsidePair ['a', '😀', 'b'] 2 :=
    insidePair_iff.2 ⟨1, '😀', rfl, by decide, by decide⟩
  obtain ⟨-, -, hmono, hbehind⟩ := least_of_units ['a', '😀', 'b']
  exact ⟨⟨hle, hmono 2 3 hle⟩, hpair, hbehind 2 hpair⟩

end TextEditor.Text

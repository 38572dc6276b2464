import Mathlib.Algebra.Order.Group.Nat
import Mathlib.Data.List.TakeWhile
import TextEditor.Proofs.Server.Readers

/-!
# Frames one behind the other

Both readers take a frame off whatever stands behind it, and give the body that went in: the length
is read as it was written, the header ends where the body begins, and what the body holds is not
looked at.  So a row of frames is taken apart into its bodies, in whatever portions it arrives.
-/

namespace TextEditor.Server.Frame

variable {bytes body rest : Bytes} {limit : Option Int} {n : Nat}

/-! ## The length as it is written -/

/-- The bytes of a number, the most significant digit first. -/
def digits (n : Nat) : Bytes :=
  Bytes.ofString (toString n)

/-- What stands on the first line of a frame whose body has so many bytes. -/
def field (n : Nat) : Bytes :=
  lengthField ++ digits n

theorem toNat_of_isDigit {c : Char} (h : c.isDigit = true) : 48 ≤ c.toNat ∧ c.toNat ≤ 57 := by
  simp only [Char.isDigit, Bool.and_eq_true, decide_eq_true_eq, ge_iff_le,
    UInt32.le_iff_toNat_le] at h
  exact h

theorem toNat_of_mem_toDigits {c : Char} (h : c ∈ Nat.toDigits 10 n) :
    48 ≤ c.toNat ∧ c.toNat ≤ 57 :=
  toNat_of_isDigit (Nat.isDigit_of_mem_toDigits (by decide) (by decide) h)

theorem digits_eq_map (n : Nat) :
    digits n = (Nat.toDigits 10 n).map fun c => c.toNat.toUInt8 := by
  have hascii : ∀ c ∈ Nat.toDigits 10 n, Utf8.encodeChar c = [c.toNat.toUInt8] := by
    intro c hc
    have hdigit := toNat_of_mem_toDigits hc
    rw [Utf8.encodeChar, if_pos (by omega)]
  have htext : (toString n).toList = Nat.toDigits 10 n := Nat.toList_repr
  rw [digits, Bytes.ofString, htext, Utf8.encode, List.flatMap_congr hascii]
  exact List.flatMap_pure_eq_map _ _

theorem toNat_toUInt8_of_mem {c : Char} (h : c ∈ Nat.toDigits 10 n) :
    c.toNat.toUInt8.toNat = c.toNat := by
  have hdigit := toNat_of_mem_toDigits h
  rw [Nat.toUInt8, UInt8.toNat_ofNat']
  omega

theorem toNat_of_mem_digits {b : UInt8} (h : b ∈ digits n) : 48 ≤ b.toNat ∧ b.toNat ≤ 57 := by
  rw [digits_eq_map] at h
  obtain ⟨c, hc, rfl⟩ := List.mem_map.1 h
  rw [toNat_toUInt8_of_mem hc]
  exact toNat_of_mem_toDigits hc

theorem foldl_digits (n : Nat) :
    (digits n).foldl (fun total b => total * 10 + (b.toNat - 48)) 0 = n := by
  have hvalue := Nat.ofDigitChars_toDigits (b := 10) (n := n) (by decide) (by decide)
  rw [Nat.ofDigitChars_eq_foldl] at hvalue
  rw [digits_eq_map, List.foldl_map]
  refine Eq.trans (List.foldl_ext _ _ 0 fun total c hc => ?_) hvalue
  rw [toNat_toUInt8_of_mem hc, Nat.mul_comm]
  rfl

/-- White space at either end does not count. -/
theorem trim_append_append {front middle back : Bytes} (hfront : ∀ b ∈ front, isHeaderSpace b = true)
    (hmiddle : ∀ b ∈ middle, isHeaderSpace b = false) (hback : ∀ b ∈ back, isHeaderSpace b = true) :
    trim (front ++ middle ++ back) = middle := by
  have hkeeps : ∀ bytes : Bytes, (∀ b ∈ bytes, isHeaderSpace b = false) →
      bytes.dropWhile isHeaderSpace = bytes := fun bytes hbytes =>
    List.dropWhile_eq_self_iff.2 fun hpos => by simp [hbytes _ (List.getElem_mem hpos)]
  have hends : (middle ++ back).dropWhile isHeaderSpace = middle ++ back ∨ middle = [] := by
    cases middle with
    | nil => exact .inr rfl
    | cons b middle =>
      exact .inl (List.dropWhile_cons_of_neg (by simp [hmiddle b List.mem_cons_self]))
  rw [trim, List.append_assoc, List.dropWhile_append_of_pos hfront]
  rcases hends with hends | rfl
  · rw [hends, List.reverse_append, List.dropWhile_append_of_pos fun b hb =>
      hback b (List.mem_reverse.1 hb), hkeeps _ fun b hb => hmiddle b (List.mem_reverse.1 hb),
      List.reverse_reverse]
  · rw [List.nil_append, List.dropWhile_eq_nil_iff.2 hback]
    rfl

theorem trim_of_not_isHeaderSpace (h : ∀ b ∈ bytes, isHeaderSpace b = false) :
    trim bytes = bytes := by
  have hnone : ∀ b ∈ ([] : Bytes), isHeaderSpace b = true := nofun
  have htrim := trim_append_append hnone h hnone
  rwa [List.nil_append, List.append_nil] at htrim

theorem isHeaderSpace_of_isDigit {b : UInt8} (h : isDigit b = true) : isHeaderSpace b = false := by
  simp only [isDigit, Bool.and_eq_true, decide_eq_true_eq] at h
  have hspace : b ≠ 32 := fun hb => by rw [hb] at h; exact absurd h.1 (by decide)
  simp [isHeaderSpace, hspace]
  omega

/-- A length is read as it was written. -/
theorem readLength_digits (h : n < 10 ^ Text.integerDigitLimit) (header : Bytes) :
    readLength (digits n) header = .ok n := by
  have hdigits : ∀ b ∈ digits n, isDigit b = true := fun b hb => by
    simp [isDigit, toNat_of_mem_digits hb]
  have htrim : trim (digits n) = digits n :=
    trim_of_not_isHeaderSpace fun b hb => isHeaderSpace_of_isDigit (hdigits b hb)
  have hsome : (digits n).isEmpty = false := by
    rw [digits_eq_map, List.isEmpty_map, List.isEmpty_eq_false_iff]
    exact Nat.toDigits_ne_nil
  have hlength : (digits n).length ≤ Text.integerDigitLimit := by
    rw [digits_eq_map, List.length_map]
    exact (Nat.length_toDigits_le_iff (by decide) (by decide)).2 h
  rw [readLength, htrim, hsome, List.all_eq_true.2 hdigits, foldl_digits]
  exact if_neg (Nat.not_lt.2 hlength)

/-- No line ends within the field. -/
theorem toNat_of_mem_field {b : UInt8} (h : b ∈ field n) : 32 ≤ b.toNat := by
  rcases List.mem_append.1 h with hb | hb
  · exact le_toNat_of_mem_lengthField b hb
  · have hdigit := toNat_of_mem_digits hb
    omega

theorem not_mem_field {b : UInt8} (h : b.toNat < 32) : b ∉ field n := fun hb =>
  Nat.not_lt.2 (toNat_of_mem_field hb) h

theorem encode_append (body rest : Bytes) :
    encode body ++ rest = field body.length ++ lineEnd ++ (lineEnd ++ (body ++ rest)) := by
  simp [encode, field, digits]

/-! ## One frame -/

theorem header_encode (h : body.length < 10 ^ Text.integerDigitLimit) (rest : Bytes) :
    Header (encode body ++ rest) (field body.length) (lineEnd ++ (body ++ rest)) body.length where
  split := encode_append body rest
  name := List.prefix_append _ _
  length := by
    rw [field, List.drop_left]
    exact readLength_digits h

/-- A frame is split off whatever stands behind it. -/
theorem decode_encode (h : body.length < 10 ^ Text.integerDigitLimit) (rest : Bytes) :
    decode (encode body ++ rest) = .ok (some (body, rest)) := by
  have hline : before? lineEnd (encode body ++ rest) = some (field body.length) := by
    rw [encode_append]
    exact before?_of_not_mem (not_mem_field (by decide)) _ _
  have hfields : before? (lineEnd ++ lineEnd) ([] ++ (lineEnd ++ lineEnd) ++ (body ++ rest)) =
      some [] := before?_of_not_mem List.not_mem_nil _ _
  rw [List.nil_append, List.append_assoc] at hfields
  exact decode_eq_some_iff.2 ⟨_, _, header_encode h rest, hline, [], hfields, by simp⟩

theorem readLine_encode (body rest : Bytes) (ending : Ending) :
    readLine ending (encode body ++ rest) =
      .gives (field body.length ++ lineEnd) (lineEnd ++ (body ++ rest)) := by
  have hnewline : (10 : UInt8) ∉ field body.length ++ [13] := by
    rw [List.mem_append, not_or]
    exact ⟨not_mem_field (by decide), by decide⟩
  have hline := readLine_of_not_mem hnewline ending (lineEnd ++ (body ++ rest))
  rw [List.append_assoc, List.append_assoc] at hline
  rw [encode_append, List.append_assoc]
  exact hline

theorem lengthOfLine_field (h : n < 10 ^ Text.integerDigitLimit)
    (hlimit : ∀ most, limit = some most → n ≤ most) :
    lengthOfLine limit (field n ++ lineEnd) = .ok n := by
  rw [field, lengthOfLine_append, readLength_digits h]
  cases limit with
  | none => rfl
  | some most => simp [hlimit most rfl]

/-- A frame is read off whatever stands behind it, in whatever portions. -/
theorem readIn_encode (h : body.length < 10 ^ Text.integerDigitLimit)
    (hlimit : ∀ most, limit = some most → body.length ≤ most) (portions : Portions)
    (ending : Ending) (rest : Bytes) :
    readIn portions limit ending (encode body ++ rest) = .gives (some body) rest := by
  have hfields : skipFields ending (field body.length ++ lineEnd)
      ((lineEnd ++ (body ++ rest)).length + 1) (lineEnd ++ (body ++ rest)) =
        .gives () (body ++ rest) := by
    simp [skipFields, readLine, lineEnd, before?, List.isPrefixOf]
  have hbody : readExact ending body.length (body ++ rest) = .gives body rest := by
    unfold readExact
    rw [if_pos (by simp), List.take_left, List.drop_left]
  rw [readIn_eq_read, read_of_line (readLine_encode body rest ending) (by simp [lineEnd]),
    lengthOfLine_field h hlimit]
  simp only [hfields, hbody, Nat.lt_irrefl, if_false]

/-! ## All frames -/

/-- Bodies, one frame behind the other. -/
def encodeAll (bodies : List Bytes) : Bytes :=
  bodies.flatMap encode

theorem encodeAll_cons (body : Bytes) (bodies : List Bytes) :
    encodeAll (body :: bodies) = encode body ++ encodeAll bodies := rfl

theorem decodeAll_of_some (h : decode bytes = .ok (some (body, rest))) :
    decodeAll bytes = { decodeAll rest with bodies := body :: (decodeAll rest).bodies } := by
  rw [decodeAll]
  split
  · next fault hfault => rw [h] at hfault; cases hfault
  · next hnone => rw [h] at hnone; cases hnone
  · next hsome =>
    rw [h] at hsome
    cases hsome
    rfl

theorem decodeAll_encodeAll {bodies : List Bytes}
    (h : ∀ body ∈ bodies, body.length < 10 ^ Text.integerDigitLimit) :
    decodeAll (encodeAll bodies) = { bodies } := by
  induction bodies with
  | nil => rw [encodeAll, List.flatMap_nil, decodeAll]; rfl
  | cons body bodies ih =>
    have hfirst := decode_encode (h body List.mem_cons_self) (encodeAll bodies)
    rw [← encodeAll_cons] at hfirst
    rw [decodeAll_of_some hfirst, ih fun body hbody => h body (List.mem_cons_of_mem _ hbody)]

theorem readIn_nil (portions : Portions) (limit : Option Int) :
    readIn portions limit .closed [] = .gives none [] := by
  rw [readIn_eq_read]
  rfl

theorem readMany_encodeAll {bodies : List Bytes} {fuel : Nat}
    (h : ∀ body ∈ bodies, body.length < 10 ^ Text.integerDigitLimit)
    (hlimit : ∀ most, limit = some most → ∀ body ∈ bodies, body.length ≤ most)
    (portions : Portions) (hfuel : bodies.length < fuel) :
    readMany (readIn portions limit .closed) fuel (encodeAll bodies) =
      { bodies, rest := [], fault := none } := by
  induction bodies generalizing fuel with
  | nil =>
    obtain ⟨fuel, rfl⟩ := Nat.exists_eq_add_of_lt hfuel
    rw [readMany, encodeAll, List.flatMap_nil, readIn_nil]
  | cons body bodies ih =>
    obtain ⟨fuel, rfl⟩ := Nat.exists_eq_add_of_lt hfuel
    have hfirst := readIn_encode (h body List.mem_cons_self)
      (fun most hmost => hlimit most hmost body List.mem_cons_self) portions .closed
      (encodeAll bodies)
    rw [readMany, encodeAll_cons, hfirst]
    dsimp only
    rw [ih (fun body hbody => h body (List.mem_cons_of_mem _ hbody))
      (fun most hmost body hbody => hlimit most hmost body (List.mem_cons_of_mem _ hbody))
      (by rw [List.length_cons]; omega)]

theorem length_le_encodeAll (bodies : List Bytes) : bodies.length ≤ (encodeAll bodies).length := by
  induction bodies with
  | nil => exact Nat.le_refl _
  | cons body bodies ih =>
    have hframe : 0 < (encode body).length := List.length_pos_iff.2 (by simp [encode, lineEnd])
    rw [encodeAll_cons, List.length_append, List.length_cons]
    omega

/-- A row of frames is taken apart into the bodies that went in.  The reader of bytes that are all
there leaves none of them; the reader of a stream takes one frame at a time, whatever portions the
stream gives, and finds nothing behind the last one.  Lengths have no more digits than are read,
which no bytes that fit a memory exceed. -/
theorem bodies_of_encodeAll {bodies : List Bytes}
    (h : ∀ body ∈ bodies, body.length < 10 ^ Text.integerDigitLimit) :
    (decodeAll (encodeAll bodies) = { bodies, rest := [], fault := none } ∧
      decode [] = .ok none) ∧
    ∀ portions (limit : Option Int),
      (∀ most, limit = some most → ∀ body ∈ bodies, body.length ≤ most) →
      readAllIn portions limit (encodeAll bodies) = { bodies, rest := [], fault := none } ∧
      (∀ i (hi : i < bodies.length) ending,
        readIn portions limit ending (encodeAll (bodies.drop i)) =
          .gives (some bodies[i]) (encodeAll (bodies.drop (i + 1)))) ∧
      readIn portions limit .closed [] = .gives none [] := by
  refine ⟨⟨decodeAll_encodeAll h, rfl⟩, fun portions limit hlimit => ⟨?_, ?_, ?_⟩⟩
  · exact readMany_encodeAll h hlimit portions (Nat.lt_succ_of_le (length_le_encodeAll bodies))
  · intro i hi ending
    have hbody := List.getElem_mem hi
    rw [List.drop_eq_getElem_cons hi, encodeAll_cons]
    exact readIn_encode (h _ hbody) (fun most hmost => hlimit most hmost _ hbody) portions ending _
  · exact readIn_nil portions limit

/-- A body that is a frame itself, and an empty one, read byte by byte. -/
theorem bodies_of_encodeAll_nested :
    (∀ body ∈ [encode [120], []], body.length < 10 ^ Text.integerDigitLimit) ∧
    decodeAll (encodeAll [encode [120], []]) =
      { bodies := [encode [120], []], rest := [], fault := none } ∧
    readAllIn (fun _ _ => 1) (some 22) (encodeAll [encode [120], []]) =
      { bodies := [encode [120], []], rest := [], fault := none } := by
  have hlength : ∀ body ∈ [encode [120], []], body.length ≤ 22 := by decide +kernel
  have hdigits : ∀ body ∈ [encode [120], []], body.length < 10 ^ Text.integerDigitLimit :=
    fun body hbody => Nat.lt_of_le_of_lt (Nat.le_trans (hlength body hbody) (by decide))
      (Nat.lt_pow_self (n := Text.integerDigitLimit) (by decide))
  have hlimit : ∀ most, some (22 : Int) = some most →
      ∀ body ∈ [encode [120], []], (body.length : Int) ≤ most := by
    rintro _ ⟨⟩ body hbody
    exact Int.ofNat_le.2 (hlength body hbody)
  obtain ⟨⟨hdecoded, -⟩, hread⟩ := bodies_of_encodeAll hdigits
  exact ⟨hdigits, hdecoded, (hread (fun _ _ => 1) (some 22) hlimit).1⟩

end TextEditor.Server.Frame

import TextEditor.Bytes.Utf8

/-!
# Decoding what was encoded

The bytes of a text decode to that text again.  A character has one form only, which its first byte
announces, so decoding takes off the front just what encoding has put there.
-/

namespace TextEditor.Utf8

/-- A character is a surrogate nowhere, and not above `U+10FFFF`. -/
theorem toNat_bounds (c : Char) : c.toNat < 0xD800 ∨ 0xDFFF < c.toNat ∧ c.toNat < 0x110000 :=
  c.valid

theorem toNat_toUInt8 {n : Nat} (h : n < 0x100) : n.toUInt8.toNat = n :=
  UInt8.toNat_ofNat_of_lt h

/-- A continuation byte carries the six bits that were put into it. -/
theorem payload_toUInt8 (n : Nat) : payload (0x80 + n % 0x40).toUInt8 = n % 0x40 := by
  rw [payload, toNat_toUInt8 (by omega)]
  omega

theorem isContinuation_toUInt8 (n : Nat) : isContinuation (0x80 + n % 0x40).toUInt8 = true := by
  rw [isContinuation, toNat_toUInt8 (by omega)]
  simp only [Bool.and_eq_true, decide_eq_true_eq]
  omega

/-- The second byte is one that the first allows. -/
theorem isSecond_toUInt8 {lead n : Nat} (hlead : lead < 0x100)
    (hbounds : (lead = 0xE0 → 0x20 ≤ n % 0x40) ∧ (lead = 0xED → n % 0x40 < 0x20) ∧
      (lead = 0xF0 → 0x10 ≤ n % 0x40) ∧ (lead = 0xF4 → n % 0x40 < 0x10)) :
    isSecond lead.toUInt8 (0x80 + n % 0x40).toUInt8 = true := by
  rw [isSecond, isContinuation_toUInt8, toNat_toUInt8 hlead, toNat_toUInt8 (by omega)]
  simp only [Bool.true_and, Bool.and_eq_true, Bool.or_eq_true, bne_iff_ne, decide_eq_true_eq]
  omega

/-! ## What stands at the front -/

section Front

variable {lead second third fourth : UInt8} {rest : Bytes}

/-- No character of several bytes begins with a byte that none begins with. -/
theorem not_refused (hlow : 0xC2 ≤ lead.toNat) (hhigh : lead.toNat ≤ 0xF4) :
    ¬ (decide (lead.toNat < 0xC2) || decide (0xF4 < lead.toNat)) = true := by
  simp only [Bool.or_eq_true, decide_eq_true_eq]
  omega

theorem front_one (h : lead.toNat < 0x80) : front lead rest = .char (Char.ofNat lead.toNat) 1 := by
  rw [front.eq_def]
  exact if_pos h

theorem front_two (hlow : 0xC2 ≤ lead.toNat) (hhigh : lead.toNat < 0xE0)
    (hsecond : isSecond lead second = true) :
    front lead (second :: rest) =
      .char (Char.ofNat (lead.toNat % 0x20 * 0x40 + payload second)) 2 := by
  simp only [front, not_refused hlow (by omega), hsecond, Bool.not_true, Bool.false_eq_true,
    if_false]
  rw [if_neg (by omega), if_pos hhigh]

theorem front_three (hlow : 0xE0 ≤ lead.toNat) (hhigh : lead.toNat < 0xF0)
    (hsecond : isSecond lead second = true) (hthird : isContinuation third = true) :
    front lead (second :: third :: rest) =
      .char (Char.ofNat (lead.toNat % 0x10 * 0x1000 + payload second * 0x40 +
        payload third)) 3 := by
  simp only [front, not_refused (Nat.le_trans (by decide) hlow) (by omega), hsecond, hthird,
    Bool.not_true, Bool.false_eq_true, if_false]
  rw [if_neg (by omega), if_neg (by omega), if_pos hhigh]

theorem front_four (hlow : 0xF0 ≤ lead.toNat) (hhigh : lead.toNat ≤ 0xF4)
    (hsecond : isSecond lead second = true) (hthird : isContinuation third = true)
    (hfourth : isContinuation fourth = true) :
    front lead (second :: third :: fourth :: rest) =
      .char (Char.ofNat (lead.toNat % 8 * 0x40000 + payload second * 0x1000 +
        payload third * 0x40 + payload fourth)) 4 := by
  simp only [front, not_refused (Nat.le_trans (by decide) hlow) hhigh, hsecond, hthird, hfourth,
    Bool.not_true, Bool.false_eq_true, if_false]
  rw [if_neg (by omega), if_neg (by omega), if_neg (by omega)]

end Front

/-- What encoding puts at the front is one character. -/
theorem front_encodeChar (c : Char) (rest : Bytes) :
    ∃ lead more, encodeChar c = lead :: more ∧
      front lead (more ++ rest) = .char c (more.length + 1) := by
  have hbounds := toNat_bounds c
  have hchar := Char.ofNat_toNat c
  unfold encodeChar
  generalize c.toNat = n at hbounds hchar
  dsimp only
  split
  · next hone =>
    have hlead : n.toUInt8.toNat = n := toNat_toUInt8 (by omega)
    refine ⟨_, _, rfl, (front_one (by omega)).trans ?_⟩
    rw [hlead, hchar]
    rfl
  split
  · next htwo =>
    have hlead : (0xC0 + n / 0x40).toUInt8.toNat = 0xC0 + n / 0x40 := toNat_toUInt8 (by omega)
    have hsecond : isSecond (0xC0 + n / 0x40).toUInt8 (0x80 + n % 0x40).toUInt8 = true := by
      refine isSecond_toUInt8 (by omega) ⟨?_, ?_, ?_, ?_⟩ <;> omega
    have hvalue : (0xC0 + n / 0x40) % 0x20 * 0x40 + n % 0x40 = n := by omega
    refine ⟨_, _, rfl, (front_two (by omega) (by omega) hsecond).trans ?_⟩
    rw [hlead, payload_toUInt8, hvalue, hchar]
    rfl
  split
  · next hthree =>
    have hlead : (0xE0 + n / 0x1000).toUInt8.toNat = 0xE0 + n / 0x1000 := toNat_toUInt8 (by omega)
    have hsecond :
        isSecond (0xE0 + n / 0x1000).toUInt8 (0x80 + n / 0x40 % 0x40).toUInt8 = true := by
      refine isSecond_toUInt8 (by omega) ⟨?_, ?_, ?_, ?_⟩ <;> omega
    have hvalue :
        (0xE0 + n / 0x1000) % 0x10 * 0x1000 + n / 0x40 % 0x40 * 0x40 + n % 0x40 = n := by
      omega
    refine ⟨_, _, rfl, (front_three (by omega) (by omega) hsecond
      (isContinuation_toUInt8 n)).trans ?_⟩
    rw [hlead, payload_toUInt8, payload_toUInt8, hvalue, hchar]
    rfl
  · next hfour =>
    have hlead : (0xF0 + n / 0x40000).toUInt8.toNat = 0xF0 + n / 0x40000 :=
      toNat_toUInt8 (by omega)
    have hsecond :
        isSecond (0xF0 + n / 0x40000).toUInt8 (0x80 + n / 0x1000 % 0x40).toUInt8 = true := by
      refine isSecond_toUInt8 (by omega) ⟨?_, ?_, ?_, ?_⟩ <;> omega
    have hvalue : (0xF0 + n / 0x40000) % 8 * 0x40000 + n / 0x1000 % 0x40 * 0x1000 +
        n / 0x40 % 0x40 * 0x40 + n % 0x40 = n := by
      omega
    refine ⟨_, _, rfl, (front_four (by omega) (by omega) hsecond (isContinuation_toUInt8 _)
      (isContinuation_toUInt8 n)).trans ?_⟩
    rw [hlead, payload_toUInt8, payload_toUInt8, payload_toUInt8, hvalue, hchar]
    rfl

/-! ## Decoding -/

/-- Bytes that are skipped count for the position only. -/
theorem decodeOpen_append (more rest : Bytes) (position : Nat) :
    decodeOpen more.length position (more ++ rest) =
      decodeOpen 0 (position + more.length) rest := by
  induction more generalizing position with
  | nil => rfl
  | cons b more ih =>
    rw [List.length_cons, List.cons_append, decodeOpen, ih, Nat.add_right_comm, Nat.add_assoc]

theorem decodeOpen_encode (t : Text) (position : Nat) :
    decodeOpen 0 position (encode t) = .ok (t, []) := by
  induction t generalizing position with
  | nil => rfl
  | cons c t ih =>
    obtain ⟨lead, more, hbytes, hfront⟩ := front_encodeChar c (encode t)
    have hcons : encode (c :: t) = lead :: (more ++ encode t) := by
      rw [encode, List.flatMap_cons, hbytes]
      rfl
    rw [hcons, decodeOpen, hfront]
    simp only [Nat.add_sub_cancel, decodeOpen_append, ih]

/-- A text is what its bytes decode to. -/
theorem decode_encode (t : Text) : decode (encode t) = .ok t := by
  rw [decode, decodeOpen_encode]

theorem encode_ne_nil {t : Text} (h : t ≠ []) : encode t ≠ [] := by
  intro hnil
  have hdecode := decode_encode t
  rw [hnil] at hdecode
  exact h (Except.ok.inj hdecode).symm

end TextEditor.Utf8

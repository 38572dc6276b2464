import Mathlib
import TextEditor.Layout.Coordinate

/-!
# Whole numbers as floats

A whole number below `2 ^ 53` has all its binary digits in a float.  Sums, differences and quotients
by one that stay below that bound come out exactly, so a grid whose cells have size one measures
in floats as it does in whole numbers.
-/

namespace TextEditor.WholeFloat

open Float.Model Float.Model.UnpackedFloat

variable {n : Nat}

/-! ## The form of a whole number -/

/-- The digits of a whole number, the first one in the place that a float has for it. -/
def mantissa (n : Nat) : Nat :=
  n * 2 ^ (52 - n.log2)

theorem log2_mul_two_pow (hpos : 0 < n) (k : Nat) : (n * 2 ^ k).log2 = n.log2 + k := by
  induction k with
  | zero => simp
  | succ k ih =>
    have hne : n * 2 ^ k ≠ 0 := Nat.ne_of_gt (Nat.mul_pos hpos (Nat.two_pow_pos k))
    rw [Nat.pow_succ', Nat.mul_left_comm, Nat.log2_two_mul hne, ih, Nat.add_assoc]

theorem log2_le (hpos : 0 < n) (hn : n < 2 ^ 53) : n.log2 ≤ 52 :=
  Nat.lt_succ_iff.1 ((Nat.log2_lt (Nat.ne_of_gt hpos)).2 hn)

theorem mantissa_pos (hpos : 0 < n) : 0 < mantissa n :=
  Nat.mul_pos hpos (Nat.two_pow_pos _)

theorem log2_mantissa (hpos : 0 < n) (hn : n < 2 ^ 53) : (mantissa n).log2 = 52 := by
  have hle := log2_le hpos hn
  rw [mantissa, log2_mul_two_pow hpos]
  omega

theorem mantissa_bounds (hpos : 0 < n) (hn : n < 2 ^ 53) :
    2 ^ 52 ≤ mantissa n ∧ mantissa n < 2 ^ 53 :=
  (Nat.log2_eq_iff (Nat.ne_of_gt (mantissa_pos hpos))).1 (log2_mantissa hpos hn)

/-- A whole number as floats of the format have it. -/
def unpacked (n : Nat) : UnpackedFloat :=
  if h : n = 0 then .zero .positive
  else .finite .positive (mantissa n) ((n.log2 : Int) - 52) (mantissa_pos (Nat.pos_of_ne_zero h))

theorem unpacked_zero : unpacked 0 = .zero .positive := rfl

theorem unpacked_of_pos (hpos : 0 < n) :
    unpacked n = .finite .positive (mantissa n) ((n.log2 : Int) - 52) (mantissa_pos hpos) :=
  dif_neg (Nat.ne_of_gt hpos)

/-! ## Rounding what is exact -/

theorem shiftToExponent_exact (m k : Nat) (e target : Int) (htarget : target = e + k) :
    shiftToExponent (m * 2 ^ k) e .exact target = (⟨m, false, false⟩, target) := by
  have hshift : ∀ (k m : Nat), Nat.repeat ExtendedMantissa.shiftRightOne k
      ⟨m * 2 ^ k, false, false⟩ = ⟨m, false, false⟩ := by
    intro k
    induction k with
    | zero => intro m; simp [Nat.repeat]
    | succ k ih =>
      intro m
      have hsplit : m * 2 ^ (k + 1) = 2 * m * 2 ^ k := by
        rw [Nat.pow_succ', ← Nat.mul_assoc, Nat.mul_comm m 2]
      rw [Nat.repeat, hsplit, ih (2 * m)]
      simp [ExtendedMantissa.shiftRightOne]
  have hamount : (target - e).toNat = k := by omega
  simp only [shiftToExponent, hamount, ExtendedMantissa.ofMantissaAndAccuracy]
  exact Prod.ext (hshift k m) htarget.symm

/-- Digits that the format has room for come out of rounding as they are. -/
theorem roundWithAccuracy_exact {m : Nat} (hlog : m.log2 = 52) (hpos : 0 < m) (s : Sign) (k : Nat)
    {e : Int} (he : -1074 ≤ e) :
    roundWithAccuracy Format.binary64 s (m * 2 ^ k) (e - k) .exact = .finite s m e hpos := by
  have htarget : ∀ (k : Nat), Format.binary64.targetExponent
      (totalExponent (m * 2 ^ k) (e - k)) = e := by
    intro k
    have hleast : Format.binary64.minExponent = -1074 := by decide
    have hbits : Format.binary64.mantissaBits = 53 := rfl
    rw [Format.targetExponent, totalExponent, log2_mul_two_pow hpos, hlog, hleast, hbits]
    omega
  have hfirst := shiftToExponent_exact m k (e - k) e (by omega)
  have hsecond := shiftToExponent_exact m 0 e e (by omega)
  have hsame := htarget 0
  simp only [Nat.pow_zero, Nat.mul_one, Int.natCast_zero, Int.sub_zero] at hsecond hsame
  simp only [roundWithAccuracy, shiftToTargetExponent, htarget k, hfirst,
    ExtendedMantissa.roundedMantissa, ExtendedMantissa.accuracy, Accuracy.roundToNearestEven,
    hsame, hsecond]
  exact dif_neg (Nat.ne_of_gt hpos)

/-- A whole number is the same whatever power of two is taken out of it. -/
theorem normalize_scaled (hn : n < 2 ^ 53) (k : Nat) :
    UnpackedFloat.normalize Format.binary64 ((n * 2 ^ k : Nat) : Int) (-k) .positive =
      unpacked n := by
  rcases Nat.eq_zero_or_pos n with rfl | hpos
  · simp [UnpackedFloat.normalize, compare, compareOfLessAndEq, unpacked_zero]
  have hle := log2_le hpos hn
  have hscaled : 0 < n * 2 ^ k := Nat.mul_pos hpos (Nat.two_pow_pos k)
  have hcompare : compare ((n * 2 ^ k : Nat) : Int) 0 = .gt := by
    rw [Int.compare_eq_gt]
    exact Int.natCast_pos.2 hscaled
  have htarget : Format.binary64.targetExponent (totalExponent (n * 2 ^ k) (-k)) =
      (n.log2 : Int) - 52 := by
    have hleast : Format.binary64.minExponent = -1074 := by decide
    have hbits : Format.binary64.mantissaBits = 53 := rfl
    rw [Format.targetExponent, totalExponent, log2_mul_two_pow hpos, hleast, hbits]
    omega
  have hround := roundWithAccuracy_exact (log2_mantissa hpos hn) (mantissa_pos hpos) .positive
    (k - (52 - n.log2)) (e := (n.log2 : Int) - 52) (by omega)
  simp only [UnpackedFloat.normalize, hcompare, Int.toNat_natCast, UnpackedFloat.round, htarget,
    decreaseExponent, Nat.shiftLeft_eq]
  rw [unpacked_of_pos hpos, ← hround]
  congr 1
  · rw [mantissa, Nat.mul_assoc, Nat.mul_assoc, ← Nat.pow_add, ← Nat.pow_add]
    congr 2
    omega
  · omega

/-! ## Bits -/

/-- The digits of a whole number follow its exponent, which is counted from 1023. -/
theorem pack_unpacked (hpos : 0 < n) (hn : n < 2 ^ 53) :
    UnpackedFloat.pack Format.binary64 (unpacked n) =
      packComponents Format.binary64 .positive (BitVec.ofNat 11 (n.log2 + 1023))
        (BitVec.ofNat 52 (mantissa n)) := by
  have hle := log2_le hpos hn
  have hbiased : ((n.log2 : Int) - 52 + Format.binary64.exponentBias + (52 : Nat)).toNat =
      n.log2 + 1023 := by
    have hbias : Format.binary64.exponentBias = 1023 := rfl
    rw [hbias]
    omega
  rw [unpacked_of_pos hpos]
  simp only [UnpackedFloat.pack, log2_mantissa hpos hn, hbiased]
  rw [if_neg (by omega)]
  exact if_pos rfl

theorem unpack_pack_unpacked (hn : n < 2 ^ 53) :
    UnpackedFloat.unpack Format.binary64 (UnpackedFloat.pack Format.binary64 (unpacked n)) =
      unpacked n := by
  rcases Nat.eq_zero_or_pos n with rfl | hpos
  · rfl
  have hle := log2_le hpos hn
  obtain ⟨hlow, hhigh⟩ := mantissa_bounds hpos hn
  have hexponent : (BitVec.ofNat 11 (n.log2 + 1023)).toNat = n.log2 + 1023 := by
    rw [BitVec.toNat_ofNat, Nat.mod_eq_of_lt (by omega)]
  have hfinite : BitVec.ofNat 11 (n.log2 + 1023) ≠ -1#11 := by
    intro h
    have := congrArg BitVec.toNat h
    rw [hexponent] at this
    simp at this
    omega
  have hnormal : BitVec.ofNat 11 (n.log2 + 1023) ≠ 0#11 := by
    intro h
    have := congrArg BitVec.toNat h
    rw [hexponent] at this
    simp at this
  have hdigits : (1#1 ++ BitVec.ofNat 52 (mantissa n)).toNat = mantissa n := by
    have hrest : mantissa n % 2 ^ 52 < 2 ^ 52 := Nat.mod_lt _ (Nat.two_pow_pos 52)
    have hor := Nat.two_pow_add_eq_or_of_lt hrest 1
    rw [BitVec.toNat_append, BitVec.toNat_ofNat, BitVec.toNat_ofNat, Nat.shiftLeft_eq,
      Nat.mul_comm, ← hor]
    omega
  have hbias : Format.binary64.exponentBias = 1023 := rfl
  rw [pack_unpacked hpos hn, unpacked_of_pos hpos]
  simp only [UnpackedFloat.unpack, unpackExponent_packComponents, unpackMantissa_packComponents,
    unpackSign_packComponents, Sign.ofBitVec_toBitVec, hexponent, hbias]
  rw [if_neg hfinite, if_neg hnormal]
  have hexponent' : ((n.log2 + 1023 : Nat) : Int) - ((1023 : Nat) + (52 : Nat)) = n.log2 - 52 := by
    omega
  simp only [hdigits, hexponent']

/-! ## Arithmetic -/

theorem decreaseExponent_mantissa (hpos : 0 < n) (hn : n < 2 ^ 53) {k : Nat}
    (hk : 52 - n.log2 ≤ k) :
    decreaseExponent (mantissa n) ((n.log2 : Int) - 52) (-k) = (n * 2 ^ k, -(k : Int)) := by
  have hle := log2_le hpos hn
  have hamount : ((n.log2 : Int) - 52 - -k).toNat = k - (52 - n.log2) := by omega
  have hdigits : mantissa n * 2 ^ (k - (52 - n.log2)) = n * 2 ^ k := by
    rw [mantissa, Nat.mul_assoc, ← Nat.pow_add]
    congr 2
    omega
  simp only [decreaseExponent, hamount, Nat.shiftLeft_eq, hdigits]
  congr 1
  omega

/-- Two whole numbers have digits down to a common place. -/
theorem exists_common_place {a b : Nat} (ha : 0 < a) (ha' : a < 2 ^ 53) (hb : 0 < b)
    (hb' : b < 2 ^ 53) :
    ∃ k : Nat, min ((a.log2 : Int) - 52) ((b.log2 : Int) - 52) = -k ∧
      decreaseExponent (mantissa a) ((a.log2 : Int) - 52) (-k) = (a * 2 ^ k, -(k : Int)) ∧
      decreaseExponent (mantissa b) ((b.log2 : Int) - 52) (-k) = (b * 2 ^ k, -(k : Int)) := by
  have hfirst := log2_le ha ha'
  have hsecond := log2_le hb hb'
  refine ⟨max (52 - a.log2) (52 - b.log2), by omega, ?_, ?_⟩
  · exact decreaseExponent_mantissa ha ha' (Nat.le_max_left _ _)
  · exact decreaseExponent_mantissa hb hb' (Nat.le_max_right _ _)

theorem sub_unpacked {a b : Nat} (ha : a < 2 ^ 53) (hle : b ≤ a) :
    UnpackedFloat.sub Format.binary64 (unpacked a) (unpacked b) = unpacked (a - b) := by
  rcases Nat.eq_zero_or_pos b with rfl | hb
  · rcases Nat.eq_zero_or_pos a with rfl | hpos
    · rfl
    · rw [unpacked_of_pos hpos, unpacked_zero]
      exact (unpacked_of_pos hpos).symm
  have hpos : 0 < a := Nat.lt_of_lt_of_le hb hle
  obtain ⟨k, hk, hfirst, hsecond⟩ :=
    exists_common_place hpos ha hb (Nat.lt_of_le_of_lt hle ha)
  have hdiff : Sign.positive.apply (a * 2 ^ k : Nat) - Sign.positive.apply (b * 2 ^ k : Nat) =
      (((a - b) * 2 ^ k : Nat) : Int) := by
    have := Nat.mul_le_mul_right (2 ^ k) hle
    simp only [Sign.apply]
    rw [Nat.sub_mul]
    omega
  rw [unpacked_of_pos hpos, unpacked_of_pos hb]
  simp only [UnpackedFloat.sub, hk, hfirst, hsecond, hdiff]
  exact normalize_scaled (Nat.lt_of_le_of_lt (Nat.sub_le a b) ha) k

theorem add_unpacked {a b : Nat} (hsum : a + b < 2 ^ 53) :
    UnpackedFloat.add Format.binary64 (unpacked a) (unpacked b) = unpacked (a + b) := by
  rcases Nat.eq_zero_or_pos a with rfl | hpos
  · rcases Nat.eq_zero_or_pos b with rfl | hb
    · rfl
    · rw [Nat.zero_add, unpacked_of_pos hb, unpacked_zero]
      rfl
  rcases Nat.eq_zero_or_pos b with rfl | hb
  · rw [Nat.add_zero, unpacked_of_pos hpos, unpacked_zero]
    rfl
  obtain ⟨k, hk, hfirst, hsecond⟩ :=
    exists_common_place hpos (by omega : a < 2 ^ 53) hb (by omega : b < 2 ^ 53)
  have hadd : Sign.positive.apply (a * 2 ^ k : Nat) + Sign.positive.apply (b * 2 ^ k : Nat) =
      (((a + b) * 2 ^ k : Nat) : Int) := by
    simp only [Sign.apply]
    rw [Nat.add_mul]
    omega
  rw [unpacked_of_pos hpos, unpacked_of_pos hb]
  simp only [UnpackedFloat.add, hk, hfirst, hsecond, hadd]
  exact normalize_scaled hsum k

theorem mul_unpacked_one (hn : n < 2 ^ 53) :
    UnpackedFloat.mul Format.binary64 (unpacked n) (unpacked 1) = unpacked n := by
  rcases Nat.eq_zero_or_pos n with rfl | hpos
  · rfl
  have hround := roundWithAccuracy_exact (log2_mantissa hpos hn) (mantissa_pos hpos) .positive 52
    (e := (n.log2 : Int) - 52) (by omega)
  rw [unpacked_of_pos hpos]
  exact hround

theorem div_unpacked_one (hn : n < 2 ^ 53) :
    UnpackedFloat.div Format.binary64 (unpacked n) (unpacked 1) = unpacked n := by
  rcases Nat.eq_zero_or_pos n with rfl | hpos
  · rfl
  have hle := log2_le hpos hn
  have hone : unpacked 1 = .finite .positive (2 ^ 52) (-52) (by decide) := by rfl
  have htarget : min ((n.log2 : Int) - 52 - -52) (Format.binary64.targetExponent
      (totalExponent (mantissa n) ((n.log2 : Int) - 52) - totalExponent (2 ^ 52) (-52))) =
      (n.log2 : Int) - 52 - 1 := by
    have hleast : Format.binary64.minExponent = -1074 := by decide
    have hbits : Format.binary64.mantissaBits = 53 := rfl
    rw [Format.targetExponent, totalExponent, totalExponent, log2_mantissa hpos hn,
      Nat.log2_two_pow, hleast, hbits]
    omega
  have hamount : ((n.log2 : Int) - 52 - -52 - ((n.log2 : Int) - 52 - 1)).toNat = 53 := by omega
  have hquotient : mantissa n * 2 ^ 53 / 2 ^ 52 = mantissa n * 2 ^ 1 := by omega
  have hexact : mantissa n * 2 ^ 53 % 2 ^ 52 = 0 := by omega
  have hround := roundWithAccuracy_exact (log2_mantissa hpos hn) (mantissa_pos hpos) .positive 1
    (e := (n.log2 : Int) - 52) (by omega)
  rw [unpacked_of_pos hpos, hone]
  simp only [UnpackedFloat.div, divCore, htarget, hamount, Nat.shiftLeft_eq, hquotient, hexact,
    accuracyOfFraction, if_true]
  exact hround


/-! ## Floats -/

/-- The float of a whole number, from its digits. -/
def float (n : Nat) : Float :=
  .ofModel (.pack (unpacked n))

theorem unpack_float (hn : n < 2 ^ 53) : (float n).toModel.unpack = unpacked n :=
  unpack_pack_unpacked hn

theorem float_one : float 1 = 1.0 := by rfl

theorem float_sub {a b : Nat} (ha : a < 2 ^ 53) (hle : b ≤ a) :
    float a - float b = float (a - b) := by
  have hmodel := sub_unpacked ha hle
  rw [← unpack_float ha, ← unpack_float (Nat.lt_of_le_of_lt hle ha)] at hmodel
  exact congrArg (fun x => Float.ofModel (.pack x)) hmodel

theorem float_add {a b : Nat} (hsum : a + b < 2 ^ 53) : float a + float b = float (a + b) := by
  have hmodel := add_unpacked hsum
  rw [← unpack_float (n := a) (by omega), ← unpack_float (n := b) (by omega)] at hmodel
  exact congrArg (fun x => Float.ofModel (.pack x)) hmodel

theorem float_mul_one (hn : n < 2 ^ 53) : float n * float 1 = float n := by
  have hmodel := mul_unpacked_one hn
  rw [← unpack_float hn, ← unpack_float (n := 1) (by decide)] at hmodel
  exact congrArg (fun x => Float.ofModel (.pack x)) (hmodel.trans (unpack_float hn))

theorem float_div_one (hn : n < 2 ^ 53) : float n / float 1 = float n := by
  have hmodel := div_unpacked_one hn
  rw [← unpack_float hn, ← unpack_float (n := 1) (by decide)] at hmodel
  exact congrArg (fun x => Float.ofModel (.pack x)) (hmodel.trans (unpack_float hn))

/-- Reading the decimal digits of a whole number gives its float. -/
theorem ofScientific_eq (hn : n < 2 ^ 53) : Float.ofScientific n false 0 = float n := by
  have hword : n.toUInt64.toNat = n := by
    rw [Nat.toUInt64, UInt64.toNat_ofNat', Nat.mod_eq_of_lt (by omega)]
  have hread : n.toUInt64.toFloat = float n := by
    have hnormal := normalize_scaled hn 0
    rw [Nat.pow_zero, Nat.mul_one] at hnormal
    rw [UInt64.toFloat, Float.Model.ofUInt64, UnpackedFloat.ofUInt64, hword]
    exact congrArg (fun x => Float.ofModel (.pack x)) hnormal
  rw [Float.ofScientific, dif_pos ⟨hn, by decide⟩]
  change n.toUInt64.toFloat * float 1 = float n
  rw [hread, float_mul_one hn]

theorem ofNat_eq (hn : n < 2 ^ 53) : Float.ofNat n = float n :=
  ofScientific_eq hn

/-! ## What is read off a float -/

theorem isNaN_float (hn : n < 2 ^ 53) : (float n).isNaN = false := by
  change isNaN (float n).toModel.unpack = false
  rw [unpack_float hn, unpacked]
  split <;> rfl

theorem isInf_float (hn : n < 2 ^ 53) : (float n).isInf = false := by
  change isInf (float n).toModel.unpack = false
  rw [unpack_float hn, unpacked]
  split <;> rfl

theorem bne_zero (hpos : 0 < n) (hn : n < 2 ^ 53) : (float n != 0.0) = true := by
  change (!UnpackedFloat.beq (float n).toModel.unpack (float 0).toModel.unpack) = true
  rw [unpack_float hn, unpack_float (by decide), unpacked_of_pos hpos]
  rfl

theorem not_lt_zero (hn : n < 2 ^ 53) : ¬float n < 0.0 := by
  have hcompare : UnpackedFloat.lt (unpacked n) (unpacked 0) = false := by
    rw [unpacked]
    split <;> rfl
  rw [← unpack_float hn, ← unpack_float (n := 0) (by decide)] at hcompare
  intro hlt
  have : decide ((float n).toModel < (float 0).toModel) = true := hlt
  rw [decide_eq_true_iff] at this
  exact absurd this (Bool.eq_false_iff.1 hcompare)

theorem toNat_toBits (hpos : 0 < n) (hn : n < 2 ^ 53) :
    (float n).toBits.toNat = (n.log2 + 1023) * 2 ^ 52 + mantissa n % 2 ^ 52 := by
  have hle := log2_le hpos hn
  have hword : (float n).toBits.toBitVec = packComponents Format.binary64 .positive
      (BitVec.ofNat 11 (n.log2 + 1023)) (BitVec.ofNat 52 (mantissa n)) :=
    pack_unpacked hpos hn
  have hexponent : (BitVec.ofNat 11 (n.log2 + 1023)).toNat = n.log2 + 1023 := by
    rw [BitVec.toNat_ofNat, Nat.mod_eq_of_lt (by omega)]
  have hbits : (packComponents Format.binary64 .positive (BitVec.ofNat 11 (n.log2 + 1023))
      (BitVec.ofNat 52 (mantissa n))).toNat =
      (Sign.toBitVec .positive ++ BitVec.ofNat 11 (n.log2 + 1023) ++
        BitVec.ofNat 52 (mantissa n)).toNat := rfl
  have hdigits := Nat.two_pow_add_eq_or_of_lt (Nat.mod_lt (mantissa n) (Nat.two_pow_pos 52))
    (n.log2 + 1023)
  have hsign : (Sign.toBitVec .positive).toNat <<< 11 ||| (n.log2 + 1023) = n.log2 + 1023 := by
    rw [show (Sign.toBitVec .positive).toNat = 0 from rfl, Nat.zero_shiftLeft, Nat.zero_or]
  rw [← UInt64.toNat_toBitVec, hword, hbits, BitVec.toNat_append, BitVec.toNat_append, hexponent,
    hsign, BitVec.toNat_ofNat, Nat.shiftLeft_eq, Nat.mul_comm, ← hdigits]

theorem signBit_float (hn : n < 2 ^ 53) : signBit (float n) = false := by
  rcases Nat.eq_zero_or_pos n with rfl | hpos
  · rfl
  have hle := log2_le hpos hn
  have hrest : mantissa n % 2 ^ 52 < 2 ^ 52 := Nat.mod_lt _ (Nat.two_pow_pos 52)
  rw [signBit, toNat_toBits hpos hn, Nat.shiftRight_eq_div_pow, Nat.div_eq_of_lt (by omega)]
  rfl

theorem ofFloat_float (hpos : 0 < n) (hn : n < 2 ^ 53) :
    (Binary.ofFloat (float n)).m = mantissa n ∧
      (Binary.ofFloat (float n)).q = (n.log2 : Int) - 52 := by
  have hle := log2_le hpos hn
  obtain ⟨hlow, hhigh⟩ := mantissa_bounds hpos hn
  have hbits := toNat_toBits hpos hn
  have hfraction : (float n).toBits.toNat % 2 ^ 52 = mantissa n - 2 ^ 52 := by omega
  have hbiased : (float n).toBits.toNat / 2 ^ 52 % 2 ^ 11 = n.log2 + 1023 := by omega
  simp only [Binary.ofFloat, Binary.ofBits, Nat.one_shiftLeft, Nat.shiftRight_eq_div_pow, hfraction,
    hbiased]
  rw [if_neg (by omega)]
  constructor
  · exact Nat.add_sub_cancel' hlow
  · change ((n.log2 + 1023 : Nat) : Int) - 1075 = _
    omega

theorem truncate_ofFloat (hn : n < 2 ^ 53) : (Binary.ofFloat (float n)).truncate = n := by
  rcases Nat.eq_zero_or_pos n with rfl | hpos
  · rfl
  have hle := log2_le hpos hn
  obtain ⟨hm, hq⟩ := ofFloat_float hpos hn
  have hleft : ((n.log2 : Int) - 52).toNat = 0 := by omega
  have hright : (-((n.log2 : Int) - 52)).toNat = 52 - n.log2 := by omega
  rw [Binary.truncate, hm, hq, hleft, hright, Nat.shiftLeft_zero, Nat.shiftRight_eq_div_pow,
    mantissa, Nat.mul_div_cancel _ (Nat.two_pow_pos _)]

theorem floatTruncate_float (hn : n < 2 ^ 53) : floatTruncate (float n) = .ok n := by
  simp only [floatTruncate, isNaN_float hn, isInf_float hn, signBit_float hn, truncate_ofFloat hn]
  rfl

theorem floatOfInt_natCast (hn : n < 2 ^ 53) : floatOfInt n = .ok (float n) := by
  have hread : Decimal.toFloat n 0 = float n := by
    rcases Nat.eq_zero_or_pos n with rfl | hpos
    · rfl
    have hdigits : (Decimal.digitText n).length ≤ 16 :=
      (Nat.length_toDigits_le_iff (by decide) (by decide)).2 (Nat.lt_trans hn (by decide))
    simp only [Decimal.toFloat]
    rw [if_neg (Nat.ne_of_gt hpos), if_neg (by omega), if_neg (by omega)]
    exact ofScientific_eq hn
  simp only [floatOfInt, Int.natAbs_natCast, hread, isInf_float hn]
  rw [if_neg (by decide), if_neg (by omega)]

/-! ## Quotients by one -/

theorem floatRemainder_one (hn : n < 2 ^ 53) : floatRemainder (float n) (float 1) = float 0 := by
  have hrest :
      (Binary.remainder (Binary.ofFloat (float n)) (Binary.ofFloat (float 1))).1 = 0 := by
    rcases Nat.eq_zero_or_pos n with rfl | hpos
    · rfl
    obtain ⟨hm, hq⟩ := ofFloat_float hpos hn
    have hone : Binary.ofFloat (float 1) = ⟨2 ^ 52, -52, true⟩ := by rfl
    have hmin : min ((n.log2 : Int) - 52) (-52) = -52 := by omega
    have hleft : ((n.log2 : Int) - 52 - -52).toNat = n.log2 := by omega
    have hexact : mantissa n * 2 ^ n.log2 = n * 2 ^ 52 := by
      rw [mantissa, Nat.mul_assoc, ← Nat.pow_add, Nat.sub_add_cancel (log2_le hpos hn)]
    simp only [Binary.remainder, hone, hm, hq, hmin, hleft, Nat.shiftLeft_eq, hexact]
    exact Nat.mul_mod_left n (2 ^ 52)
  have hnumber : (float 1).isNaN = false := by rfl
  have hnonzero : (float 1 == 0.0) = false := by rfl
  have hfinite : (float 1).isInf = false := by rfl
  simp only [floatRemainder, isNaN_float hn, isInf_float hn, hnumber, hnonzero, hfinite,
    Bool.or_false, hrest, floatOfBinary, if_true, withSignOf, signBit_float hn]
  rfl

theorem floatFloor_float (hn : n < 2 ^ 53) : floatFloor (float n) = float n := by
  simp only [floatFloor, isNaN_float hn, isInf_float hn, signBit_float hn, truncate_ofFloat hn,
    ofNat_eq hn]
  split
  · rfl
  · rfl

theorem floatFloorRatio_one (hn : n < 2 ^ 53) :
    floatFloorRatio (float n) (float 1) = float n := by
  have hquotient : (float n - float 0) / float 1 = float n := by
    rw [float_sub hn (Nat.zero_le n), Nat.sub_zero, float_div_one hn]
  have hexact : (float 0 != 0.0) = false := by rfl
  simp only [floatFloorRatio, floatRemainder_one hn, hquotient, hexact, Bool.false_and,
    Bool.false_eq_true, if_false]
  rcases Nat.eq_zero_or_pos n with rfl | hpos
  · rfl
  have hwhole : float n - float n = float 0 := by
    rw [float_sub hn (Nat.le_refl n), Nat.sub_self]
  rw [if_pos (bne_zero hpos hn), floatFloor_float hn, hwhole]
  exact if_neg (by decide +kernel)

end TextEditor.WholeFloat

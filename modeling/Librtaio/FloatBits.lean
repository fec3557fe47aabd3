import Librtaio.FloatCast
import Mathlib

/-!
# What the conversions do to a bit pattern

A pattern is its sign, exponent and mantissa, and comes back from the value it
stands for unless that is a NaN (`pack_unpack_of_ne_notANumber`). A `float`
survives the way through a `double` (`toFloat_toDouble`). Truncation to an unsigned integer of
the same width gives the pattern back only for positive zero
(`toUnsigned_eq_iff`): a number's pattern spells its exponent as well.
-/

namespace Librtaio.FloatCast

open Float.Model (Format UnpackedFloat totalExponent)
open Float.Model.UnpackedFloat

/-! ### Patterns and their parts -/

section Patterns

variable {spec : Format}

theorem toNat_packComponents (sign : Sign) (exponent : BitVec spec.exponentBits)
    (mantissa : BitVec spec.mantissaBitsWithoutImplicit) :
    (packComponents spec sign exponent mantissa).toNat =
      (sign.toBitVec.toNat * 2 ^ spec.exponentBits + exponent.toNat) *
        2 ^ spec.mantissaBitsWithoutImplicit + mantissa.toNat := by
  rw [packComponents, BitVec.toNat_append, BitVec.toNat_append,
    ← Nat.shiftLeft_add_eq_or_of_lt exponent.isLt, ← Nat.shiftLeft_add_eq_or_of_lt mantissa.isLt,
    Nat.shiftLeft_eq, Nat.shiftLeft_eq]

/-- The number a pattern spells, by its parts. -/
theorem toNat_parts (b : BitVec spec.numBits) :
    b.toNat = ((unpackSign b).toNat * 2 ^ spec.exponentBits + (unpackExponent b).toNat) *
      2 ^ spec.mantissaBitsWithoutImplicit + (unpackMantissa b).toNat := by
  have hparts := congrArg BitVec.toNat (packComponents_unpackSign_unpackExponent_unpackMantissa b)
  rw [toNat_packComponents, Sign.toBitVec_ofBitVec] at hparts
  exact hparts.symm

theorem toNat_implicit {w : Nat} (mantissa : BitVec w) :
    (1#1 ++ mantissa).toNat = 2 ^ w + mantissa.toNat := by
  rw [BitVec.toNat_append, ← Nat.shiftLeft_add_eq_or_of_lt mantissa.isLt, Nat.shiftLeft_eq]
  simp

/-- **A pattern comes back from its value**, unless that is a NaN. -/
theorem pack_unpack_of_ne_notANumber (hbits : 2 ≤ spec.exponentBits) {b : BitVec spec.numBits}
    (h : unpack spec b ≠ .notANumber) : pack spec (unpack spec b) = b := by
  rw [pack_unpack b hbits, if_neg]
  intro hnan
  obtain ⟨hexponent, hmantissa⟩ := of_decide_eq_true hnan
  apply h
  rw [unpack, if_pos hexponent, if_neg hmantissa]

end Patterns

/-! ### Rounding what needs none -/

section Rounding

variable {spec : Format} {sign : Sign} {m : Nat} {e : Int}

theorem log2_shiftLeft (hm : m ≠ 0) (k : Nat) : (m <<< k).log2 = m.log2 + k := by
  obtain ⟨hlo, hhi⟩ := (Nat.log2_eq_iff hm).mp rfl
  rw [Nat.shiftLeft_eq, Nat.log2_eq_iff (Nat.mul_ne_zero hm (Nat.two_pow_pos k).ne')]
  constructor
  · rw [pow_add]
    exact Nat.mul_le_mul_right _ hlo
  · rw [Nat.add_right_comm, pow_add _ _ k]
    exact Nat.mul_lt_mul_of_pos_right hhi (Nat.two_pow_pos k)

/-- The same number in other terms has the same leading digit. -/
theorem totalExponent_shiftLeft (hm : m ≠ 0) (e : Int) (k : Nat) :
    totalExponent (m <<< k) (e - k) = totalExponent m e := by
  rw [totalExponent, totalExponent, log2_shiftLeft hm]
  omega

theorem shiftRight_mantissa (em : ExtendedMantissa) (n : Nat) :
    (em >>> n).mantissa = em.mantissa / 2 ^ n := by
  change (n.repeat ExtendedMantissa.shiftRightOne em).mantissa = _
  induction n with
  | zero => simp [Nat.repeat]
  | succ n ih =>
    rw [Nat.repeat, ExtendedMantissa.shiftRightOne, ih, Nat.div_div_eq_div_mul, pow_succ]

/-- Bits that were shifted in are shifted out without a trace. -/
theorem shiftLeft_shiftRight (m k : Nat) :
    (⟨m <<< k, false, false⟩ : ExtendedMantissa) >>> k = ⟨m, false, false⟩ := by
  have step (k : Nat) : ∀ j, k.repeat ExtendedMantissa.shiftRightOne ⟨m <<< (k + j), false, false⟩ =
      ⟨m <<< j, false, false⟩ := by
    induction k with
    | zero => intro j; rw [Nat.zero_add]; rfl
    | succ k ih =>
      intro j
      have hdouble : m <<< (j + 1) = 2 * m <<< j := Nat.shiftLeft_succ m j
      rw [Nat.repeat, Nat.add_right_comm, Nat.add_assoc, ih (j + 1), hdouble]
      simp [ExtendedMantissa.shiftRightOne]
  exact step k 0

theorem roundWithAccuracy_exact (sign : Sign) (hm : 0 < m) (h : spec.targetExponent (totalExponent m e) = e)
    (k : Nat) :
    roundWithAccuracy spec sign (m <<< k) (e - k) .exact = .finite sign m e hm := by
  have hfirst : shiftToTargetExponent spec (m <<< k) (e - k) .exact = (⟨m, false, false⟩, e) := by
    rw [shiftToTargetExponent, totalExponent_shiftLeft hm.ne', h, shiftToExponent]
    have hamount : (e - (e - k)).toNat = k := by omega
    simp only [hamount, ExtendedMantissa.ofMantissaAndAccuracy, shiftLeft_shiftRight,
      Int.sub_add_cancel]
  have hsecond : shiftToTargetExponent spec m e .exact = (⟨m, false, false⟩, e) := by
    rw [shiftToTargetExponent, h, shiftToExponent, Int.sub_self]
    exact Prod.ext rfl (Int.add_zero e)
  have hrounded : (⟨m, false, false⟩ : ExtendedMantissa).roundedMantissa = m := rfl
  simp only [roundWithAccuracy, hfirst, hrounded, hsecond, dif_neg hm.ne']

/-- A number with bits to spare is rounded to its own form. -/
theorem round_shiftLeft (hm : 0 < m) (h : spec.targetExponent (totalExponent m e) = e) (k : Nat) :
    UnpackedFloat.round spec sign (m <<< k) (e - k) = .finite sign m e hm := by
  have hdecrease : decreaseExponent (m <<< k) (e - k) e = (m <<< k, e - k) := by
    have hamount : (e - k - e).toNat = 0 := by omega
    simp only [decreaseExponent, hamount, Nat.shiftLeft_zero, Int.natCast_zero, Int.sub_zero]
  rw [UnpackedFloat.round, totalExponent_shiftLeft hm.ne', h, hdecrease]
  exact roundWithAccuracy_exact sign hm h k

/-- A number that needs more bits gets them. -/
theorem round_widen (sign : Sign) (hm : 0 < m) {k : Nat} (h : spec.targetExponent (totalExponent m e) = e - k) :
    ∃ hpos, UnpackedFloat.round spec sign m e = .finite sign (m <<< k) (e - k) hpos := by
  have hpos : 0 < m <<< k := by
    rw [Nat.shiftLeft_eq]
    exact Nat.mul_pos hm (Nat.two_pow_pos k)
  have hdecrease : decreaseExponent m e (e - k) = (m <<< k, e - k) := by
    have hamount : (e - (e - k)).toNat = k := by omega
    simp only [decreaseExponent, hamount]
  have hsame : spec.targetExponent (totalExponent (m <<< k) (e - k)) = e - k := by
    rw [totalExponent_shiftLeft hm.ne', h]
  have hround := roundWithAccuracy_exact sign hpos hsame 0
  rw [Nat.shiftLeft_zero, Int.natCast_zero, Int.sub_zero] at hround
  rw [UnpackedFloat.round, h, hdecrease]
  exact ⟨hpos, hround⟩

end Rounding

/-! ### A `float` in a `double` -/

section Widening

variable {spec : Format} {sign : Sign} {m : Nat} {e : Int}

theorem minExponent_eq (spec : Format) :
    spec.minExponent = 1 - spec.exponentBias - spec.mantissaBitsWithoutImplicit := by
  have hpos := Nat.two_pow_pos (spec.exponentBits - 1)
  have hcast : ((2 ^ (spec.exponentBits - 1) : Nat) : Int) = 2 ^ (spec.exponentBits - 1) := by
    push_cast
    rfl
  simp only [Format.minExponent, Format.exponentBias, Format.mantissaBits]
  omega

/-- What an unpacked number has the form of. -/
structure IsNumber (spec : Format) (m : Nat) (e : Int) : Prop where
  canonical : spec.targetExponent (totalExponent m e) = e
  mantissa : m < 2 ^ (spec.mantissaBitsWithoutImplicit + 1)
  lower : spec.minExponent ≤ e
  upper : e + spec.exponentBias + spec.mantissaBitsWithoutImplicit + 1 < 2 ^ spec.exponentBits

theorem isNumber_unpack (hbits : 2 ≤ spec.exponentBits) {b : BitVec spec.numBits} {hm : 0 < m}
    (h : unpack spec b = .finite sign m e hm) : IsNumber spec m e := by
  have hmlt := (unpackMantissa b).isLt
  have helt := (unpackExponent b).isLt
  have hmin := minExponent_eq spec
  have hcast : ((2 ^ spec.exponentBits : Nat) : Int) = 2 ^ spec.exponentBits := by
    push_cast
    rfl
  rw [unpack] at h
  split at h
  · split at h <;> cases h
  · rename_i hfinite
    have hbelow : (unpackExponent b).toNat + 1 < 2 ^ spec.exponentBits := by
      have hne : (unpackExponent b).toNat ≠ 2 ^ spec.exponentBits - 1 := by
        intro heq
        apply hfinite
        apply BitVec.eq_of_toNat_eq
        rw [heq, BitVec.neg_one_eq_allOnes, BitVec.toNat_allOnes]
      omega
    split at h
    · rename_i hzero
      split at h
      · cases h
      · -- a subnormal number
        rename_i hmantissa
        injection h with _ hm' he'
        subst hm' he'
        have hlog : (unpackMantissa b).toNat.log2 < spec.mantissaBitsWithoutImplicit :=
          (Nat.log2_lt hm.ne').mpr hmlt
        have hfour : 2 ^ 2 ≤ 2 ^ spec.exponentBits := Nat.pow_le_pow_right (by decide) hbits
        rw [hzero, BitVec.toNat_zero]
        refine ⟨?_, by rw [pow_succ]; omega, by omega, by omega⟩
        simp only [Format.targetExponent, totalExponent, Format.mantissaBits]
        omega
    · rename_i hzero
      injection h with _ hm' he'
      rw [toNat_implicit] at hm'
      subst hm' he'
      have hone : 1 ≤ (unpackExponent b).toNat := by
        rw [Nat.one_le_iff_ne_zero]
        intro heq
        exact hzero (BitVec.eq_of_toNat_eq heq)
      have hlog : (2 ^ spec.mantissaBitsWithoutImplicit + (unpackMantissa b).toNat).log2 =
          spec.mantissaBitsWithoutImplicit := by
        rw [Nat.log2_eq_iff (by omega), pow_succ]
        omega
      refine ⟨?_, by rw [pow_succ]; omega, by omega, by omega⟩
      simp only [Format.targetExponent, totalExponent, hlog, Format.mantissaBits]
      omega

/-- A normal number comes back from its pattern. -/
theorem unpack_pack (hm : 0 < m) (hlog : m.log2 = spec.mantissaBitsWithoutImplicit)
    (hlower : 1 ≤ e + spec.exponentBias + spec.mantissaBitsWithoutImplicit)
    (hupper : e + spec.exponentBias + spec.mantissaBitsWithoutImplicit + 1 < 2 ^ spec.exponentBits) :
    unpack spec (pack spec (.finite sign m e hm)) = .finite sign m e hm := by
  obtain ⟨hlo, hhi⟩ := (Nat.log2_eq_iff hm.ne').mp hlog
  rw [pow_succ] at hhi
  have hcast : ((2 ^ spec.exponentBits : Nat) : Int) = 2 ^ spec.exponentBits := by
    push_cast
    rfl
  obtain ⟨biased, hbiased⟩ := Int.eq_ofNat_of_zero_le
    (show 0 ≤ e + spec.exponentBias + spec.mantissaBitsWithoutImplicit by omega)
  have hexponent : (BitVec.ofNat spec.exponentBits biased).toNat = biased := by
    rw [BitVec.toNat_ofNat, Nat.mod_eq_of_lt (by omega)]
  have hpack : pack spec (.finite sign m e hm) = packComponents spec sign
      (BitVec.ofNat spec.exponentBits biased) (BitVec.ofNat spec.mantissaBitsWithoutImplicit m) := by
    simp only [pack, hbiased, Int.toNat_natCast, hlog, Format.mantissaBits, Nat.add_comm 1]
    rw [if_neg (by omega), if_true]
  have hfull : BitVec.ofNat spec.exponentBits biased ≠ -1#_ := by
    intro heq
    have hnat := congrArg BitVec.toNat heq
    rw [hexponent, BitVec.neg_one_eq_allOnes, BitVec.toNat_allOnes] at hnat
    omega
  have hzero : BitVec.ofNat spec.exponentBits biased ≠ 0#_ := by
    intro heq
    have hnat := congrArg BitVec.toNat heq
    rw [hexponent, BitVec.toNat_zero] at hnat
    omega
  have hmantissa : (1#1 ++ BitVec.ofNat spec.mantissaBitsWithoutImplicit m).toNat = m := by
    rw [toNat_implicit, BitVec.toNat_ofNat, Nat.mod_eq_sub_mod hlo, Nat.mod_eq_of_lt (by omega)]
    omega
  rw [hpack, unpack]
  simp only [unpackExponent_packComponents, unpackMantissa_packComponents,
    unpackSign_packComponents, hfull, hzero, if_false, hexponent, hmantissa, Sign.ofBitVec_toBitVec]
  congr 1
  omega

theorem unpack_infinity (spec : Format) (sign : Sign) :
    unpack spec (pack spec (.infinity sign)) = .infinity sign := by
  rw [pack, packedInfinity, unpack]
  simp only [unpackExponent_packComponents, unpackMantissa_packComponents,
    unpackSign_packComponents, Sign.ofBitVec_toBitVec, if_true]
  rfl

theorem unpack_zero (spec : Format) (sign : Sign) :
    unpack spec (pack spec (.zero sign)) = .zero sign := by
  have hbits := spec.he
  have hpow : 2 ^ 1 ≤ 2 ^ spec.exponentBits := Nat.pow_le_pow_right (by decide) hbits
  have hfull : (0 : BitVec spec.exponentBits) ≠ -1#_ := by
    intro heq
    have hnat := congrArg BitVec.toNat heq
    rw [BitVec.neg_one_eq_allOnes, BitVec.toNat_allOnes] at hnat
    have hzero : (0 : BitVec spec.exponentBits).toNat = 0 := rfl
    omega
  rw [pack, packedZero, unpack]
  simp only [unpackExponent_packComponents, unpackMantissa_packComponents,
    unpackSign_packComponents, Sign.ofBitVec_toBitVec, hfull, if_false]
  rfl

/-- **A `float` survives in a `double`.** -/
theorem toFloat_toDouble {b : BitVec 32} (h : unpack .binary32 b ≠ .notANumber) :
    toFloat (toDouble b) = b := by
  have hpattern : pack .binary32 (unpack .binary32 b) = b :=
    pack_unpack_of_ne_notANumber (by decide) h
  rw [toFloat, toDouble]
  cases hvalue : unpack .binary32 b with
  | notANumber => exact absurd hvalue h
  | infinity sign =>
    rw [hvalue] at hpattern
    change pack .binary32 (convert .binary32 (unpack .binary64 (pack .binary64 (.infinity sign)))) = b
    rw [unpack_infinity]
    exact hpattern
  | zero sign =>
    rw [hvalue] at hpattern
    change pack .binary32 (convert .binary32 (unpack .binary64 (pack .binary64 (.zero sign)))) = b
    rw [unpack_zero]
    exact hpattern
  | finite sign m e hm =>
    rw [hvalue] at hpattern
    obtain ⟨hcanonical, hmantissa, hlower, hupper⟩ := isNumber_unpack (by decide) hvalue
    change m < 2 ^ 24 at hmantissa
    change -149 ≤ e at hlower
    change e + 127 + 23 + 1 < 256 at hupper
    -- in the wider format every number is normal
    have hlog : m.log2 < 24 := (Nat.log2_lt hm.ne').mpr hmantissa
    have htarget : Format.binary64.targetExponent (totalExponent m e) = e - (52 - m.log2 : Nat) := by
      change max ((m.log2 : Int) + 1 + e - 53) (-1074) = _
      omega
    obtain ⟨hpos, hwide⟩ := round_widen sign hm htarget
    have hlog52 : (m <<< (52 - m.log2)).log2 = 52 := by
      rw [log2_shiftLeft hm.ne']
      omega
    have hback : unpack .binary64 (pack .binary64
        (.finite sign (m <<< (52 - m.log2)) (e - (52 - m.log2 : Nat)) hpos)) =
          .finite sign (m <<< (52 - m.log2)) (e - (52 - m.log2 : Nat)) hpos :=
      unpack_pack hpos hlog52 (by change 1 ≤ e - _ + 1023 + 52; omega)
        (by change e - _ + 1023 + 52 + 1 < 2048; omega)
    rw [convert, hwide, hback, convert, round_shiftLeft hm hcanonical]
    exact hpattern

end Widening

/-! ### Truncation to an unsigned integer -/

/-- The integer part of a value is a `w`-bit unsigned integer. -/
def Fits (w : Nat) (value : UnpackedFloat) : Prop :=
  ∃ z, truncate value = some z ∧ 0 ≤ z ∧ z < 2 ^ w

theorem roundToInt_eq (sign : Sign) (m : Nat) (e : Int) :
    roundToInt sign m e = sign.apply ((m * 2 ^ e.toNat / 2 ^ (-e).toNat : Nat) : Int) := by
  have hamount : (0 - (e - e.toNat)).toNat = (-e).toNat := by omega
  simp only [roundToInt, decreaseExponent, shiftToExponent, Int.sub_zero, hamount,
    ExtendedMantissa.ofMantissaAndAccuracy, shiftRight_mantissa, Nat.shiftLeft_eq]

/-- A number whose pattern spells its integer part would have an exponent that is a power
of two. -/
theorem no_fixed_number {p bias k m : Nat} (hm : m < 2 ^ p) (hbias : 2 ^ k ≠ bias + p + k) :
    (2 ^ p + m) * 2 ^ k ≠ (bias + p + k) * 2 ^ p + m := by
  intro heq
  have hpos := Nat.two_pow_pos p
  cases k with
  | zero =>
    have hsame : 2 ^ p * 1 = 2 ^ p * (bias + p + 0) := by
      rw [Nat.mul_comm (2 ^ p) (bias + p + 0)]
      omega
    exact hbias (Nat.eq_of_mul_eq_mul_left hpos hsame)
  | succ k =>
    have hodd : Nat.Coprime (2 ^ p) (2 ^ (k + 1) - 1) := by
      have hpow := Nat.two_pow_pos k
      refine Nat.Coprime.pow_left p (Nat.coprime_two_left.mpr ⟨2 ^ k - 1, ?_⟩)
      rw [pow_succ]
      omega
    have hdvd : 2 ^ p ∣ m * (2 ^ (k + 1) - 1) := by
      rw [Nat.mul_sub, Nat.mul_one]
      have hleft : m * 2 ^ (k + 1) + 2 ^ p * 2 ^ (k + 1) = (bias + p + (k + 1)) * 2 ^ p + m := by
        rw [← heq, Nat.add_mul, Nat.add_comm]
      have hsub : m * 2 ^ (k + 1) - m + 2 ^ p * 2 ^ (k + 1) = (bias + p + (k + 1)) * 2 ^ p := by
        have hle : m * 1 ≤ m * 2 ^ (k + 1) := Nat.mul_le_mul_left _ (Nat.two_pow_pos _)
        omega
      rw [← Nat.dvd_add_left (Nat.dvd_mul_right _ _), hsub]
      exact Nat.dvd_mul_left _ _
    obtain rfl : m = 0 := Nat.eq_zero_of_dvd_of_lt (hodd.dvd_of_dvd_mul_right hdvd) hm
    rw [Nat.add_zero, Nat.add_zero, Nat.mul_comm] at heq
    exact hbias (Nat.eq_of_mul_eq_mul_right hpos heq)

section Truncation

variable {spec : Format}

/-- A subnormal number is less than one. -/
theorem subnormal_truncated (hbits : 2 ≤ spec.exponentBits) {m : Nat}
    (hm : m < 2 ^ spec.mantissaBitsWithoutImplicit) :
    m * 2 ^ (((0 : Nat) : Int) - (spec.exponentBias + spec.mantissaBitsWithoutImplicit) + 1).toNat /
      2 ^ (-(((0 : Nat) : Int) - (spec.exponentBias + spec.mantissaBitsWithoutImplicit) + 1)).toNat =
        0 := by
  have hbias : 1 ≤ spec.exponentBias := by
    have htwo : 2 ^ 1 ≤ 2 ^ (spec.exponentBits - 1) :=
      Nat.pow_le_pow_right (by decide) (by omega)
    rw [Format.exponentBias]
    omega
  have hmul : (((0 : Nat) : Int) - (spec.exponentBias + spec.mantissaBitsWithoutImplicit) + 1).toNat =
      0 := by omega
  have hdiv : (-(((0 : Nat) : Int) - (spec.exponentBias + spec.mantissaBitsWithoutImplicit) + 1)).toNat =
      spec.mantissaBitsWithoutImplicit + (spec.exponentBias - 1) := by omega
  rw [hmul, hdiv, Nat.pow_zero, Nat.mul_one]
  apply Nat.div_eq_of_lt
  calc
    m < 2 ^ spec.mantissaBitsWithoutImplicit := hm
    _ ≤ 2 ^ (spec.mantissaBitsWithoutImplicit + (spec.exponentBias - 1)) :=
      Nat.pow_le_pow_right (by decide) (by omega)

/-- A normal number's integer part is not what its exponent and mantissa spell. -/
theorem number_truncated
    (hbias : ∀ k, 2 ^ k ≠ spec.exponentBias + spec.mantissaBitsWithoutImplicit + k) {m e : Nat}
    (hm : m < 2 ^ spec.mantissaBitsWithoutImplicit) (he : e ≠ 0) :
    (2 ^ spec.mantissaBitsWithoutImplicit + m) *
        2 ^ ((e : Int) - (spec.exponentBias + spec.mantissaBitsWithoutImplicit)).toNat /
      2 ^ (-((e : Int) - (spec.exponentBias + spec.mantissaBitsWithoutImplicit))).toNat ≠
        e * 2 ^ spec.mantissaBitsWithoutImplicit + m := by
  set p := spec.mantissaBitsWithoutImplicit
  by_cases hlow : e < spec.exponentBias + p
  · -- less than its mantissa without the fraction
    obtain ⟨j, hj⟩ : ∃ j, spec.exponentBias + p = e + (j + 1) :=
      ⟨spec.exponentBias + p - e - 1, by omega⟩
    have hmul : ((e : Int) - (spec.exponentBias + p)).toNat = 0 := by omega
    have hdiv : (-((e : Int) - (spec.exponentBias + p))).toNat = j + 1 := by omega
    rw [hmul, hdiv, Nat.pow_zero, Nat.mul_one]
    have hhalf : (2 ^ p + m) / 2 ^ (j + 1) < 2 ^ p := by
      rw [Nat.div_lt_iff_lt_mul (Nat.two_pow_pos _), pow_succ]
      have hj := Nat.two_pow_pos j
      calc
        2 ^ p + m < 2 ^ p * 2 := by omega
        _ ≤ 2 ^ p * (2 ^ j * 2) := Nat.mul_le_mul_left _ (by omega)
    have hspelled : 1 * 2 ^ p ≤ e * 2 ^ p := Nat.mul_le_mul_right _ (by omega)
    omega
  · obtain ⟨k, rfl⟩ := Nat.exists_eq_add_of_le (Nat.le_of_not_lt hlow)
    have hmul : (((spec.exponentBias + p + k : Nat) : Int) - (spec.exponentBias + p)).toNat = k := by
      omega
    have hdiv : (-(((spec.exponentBias + p + k : Nat) : Int) - (spec.exponentBias + p))).toNat = 0 := by
      omega
    rw [hmul, hdiv, Nat.pow_zero, Nat.div_one]
    exact no_fixed_number hm (hbias k)

/-- **Only positive zero's pattern is its integer part.** -/
theorem bits_eq_zero (hbits : 2 ≤ spec.exponentBits)
    (hbias : ∀ k, 2 ^ k ≠ spec.exponentBias + spec.mantissaBitsWithoutImplicit + k)
    {b : BitVec spec.numBits} (h : truncate (unpack spec b) = some (b.toNat : Int)) : b = 0#_ := by
  have hparts := toNat_parts b
  have hmlt := (unpackMantissa b).isLt
  suffices hzero : b.toNat = 0 from BitVec.eq_of_toNat_eq hzero
  -- a negative number has no positive integer part
  have negative {n : Nat} (hn : some (Sign.negative.apply n) = some (b.toNat : Int)) :
      b.toNat = 0 := by
    have hn' : -(n : Int) = b.toNat := Option.some.inj hn
    omega
  have positive (hsign : Sign.ofBitVec (unpackSign b) = .positive) : (unpackSign b).toNat = 0 := by
    rw [← Sign.toBitVec_ofBitVec (unpackSign b), hsign]
    rfl
  rw [unpack] at h
  split at h
  · split at h <;> cases h
  · split at h
    · rename_i hexponent
      split at h
      · exact (Int.ofNat_inj.mp (Option.some.inj h)).symm
      · rw [truncate, roundToInt_eq, hexponent, BitVec.toNat_zero] at h
        cases hsign : Sign.ofBitVec (unpackSign b) with
        | negative => exact negative (hsign ▸ h)
        | positive =>
          rw [hsign] at h
          rw [← Int.ofNat_inj.mp (Option.some.inj h)]
          exact subnormal_truncated hbits hmlt
    · rename_i hexponent
      rw [truncate, roundToInt_eq, toNat_implicit] at h
      cases hsign : Sign.ofBitVec (unpackSign b) with
      | negative => exact negative (hsign ▸ h)
      | positive =>
        rw [hsign] at h
        have hnat := Int.ofNat_inj.mp (Option.some.inj h)
        rw [hparts, positive hsign, Nat.zero_mul, Nat.zero_add] at hnat
        have hone : (unpackExponent b).toNat ≠ 0 := by
          intro heq
          exact hexponent (BitVec.eq_of_toNat_eq heq)
        exact absurd hnat (number_truncated hbias hmlt hone)

/-- A pattern that is its own conversion to an unsigned integer is that of positive zero, or
one the conversion is undefined for. -/
theorem toUnsigned_eq_iff (hbits : 2 ≤ spec.exponentBits)
    (hbias : ∀ k, 2 ^ k ≠ spec.exponentBias + spec.mantissaBitsWithoutImplicit + k)
    (undef b : BitVec spec.numBits) :
    toUnsigned spec.numBits undef (unpack spec b) = b ↔
      b = 0#_ ∨ ¬ Fits spec.numBits (unpack spec b) ∧ undef = b := by
  have hpow : ((2 ^ spec.numBits : Nat) : Int) = 2 ^ spec.numBits := by
    push_cast
    rfl
  have hzero : truncate (unpack spec 0#_) = some 0 := by
    have hpattern : pack spec (.zero .positive) = 0#_ := by
      apply BitVec.eq_of_toNat_eq
      rw [pack, packedZero, toNat_packComponents]
      simp [Sign.toBitVec]
    rw [← hpattern, unpack_zero, truncate]
  by_cases hfits : Fits spec.numBits (unpack spec b)
  · obtain ⟨z, htrunc, hlo, hhi⟩ := hfits
    rw [toUnsigned, htrunc]
    simp only [hlo, hhi, and_self, if_true]
    constructor
    · intro hsame
      refine .inl (bits_eq_zero hbits hbias ?_)
      have hnat := congrArg BitVec.toNat hsame
      rw [BitVec.toNat_ofInt, hpow, Int.emod_eq_of_lt hlo hhi] at hnat
      rw [htrunc, ← hnat, Int.toNat_of_nonneg hlo]
    · rintro (rfl | ⟨hout, -⟩)
      · obtain rfl : 0 = z := Option.some.inj (hzero.symm.trans htrunc)
        rfl
      · exact absurd ⟨z, htrunc, hlo, hhi⟩ hout
  · have hundef : toUnsigned spec.numBits undef (unpack spec b) = undef := by
      rw [toUnsigned]
      split
      · rename_i z htrunc
        exact if_neg fun hrange => hfits ⟨z, htrunc, hrange⟩
      · rfl
    rw [hundef]
    constructor
    · intro hsame
      exact .inr ⟨hfits, hsame⟩
    · rintro (rfl | ⟨-, hsame⟩)
      · exact absurd ⟨0, hzero, le_refl _, hpow ▸ Int.natCast_pos.mpr (Nat.two_pow_pos _)⟩ hfits
      · exact hsame

end Truncation

/-! ### The casts of the program -/

theorem two_pow_ne_binary32 (k : Nat) : 2 ^ k ≠ 127 + 23 + k := by
  by_cases hk : k < 9
  · interval_cases k <;> decide
  · obtain ⟨j, rfl⟩ := Nat.exists_eq_add_of_le (Nat.le_of_not_lt hk)
    have hj := Nat.lt_two_pow_self (n := j)
    rw [pow_add]
    omega

theorem two_pow_ne_binary64 (k : Nat) : 2 ^ k ≠ 1023 + 52 + k := by
  by_cases hk : k < 12
  · interval_cases k <;> decide
  · obtain ⟨j, rfl⟩ := Nat.exists_eq_add_of_le (Nat.le_of_not_lt hk)
    have hj := Nat.lt_two_pow_self (n := j)
    rw [pow_add]
    omega

/-- **A `float` is its own conversion to `uint32_t` only if it is positive zero**, or out of
range on a host that yields it. -/
theorem floatToUnsigned_eq_iff (undef f : BitVec 32) :
    floatToUnsigned undef f = f ↔ f = 0#32 ∨ ¬ Fits 32 (unpack .binary32 f) ∧ undef = f :=
  @toUnsigned_eq_iff .binary32 (by decide) two_pow_ne_binary32 undef f

/-- And so is a `double`, to `uint64_t`. -/
theorem doubleToUnsigned_eq_iff (undef d : BitVec 64) :
    doubleToUnsigned undef d = d ↔ d = 0#64 ∨ ¬ Fits 64 (unpack .binary64 d) ∧ undef = d :=
  @toUnsigned_eq_iff .binary64 (by decide) two_pow_ne_binary64 undef d

end Librtaio.FloatCast

import Mathlib.Algebra.Group.Int.Defs

/-!
# Conversions between floating-point formats, on bit patterns

The casts a C++ program makes implicitly when it stores a `float` in a
`double`, narrows a `double` to a `float`, or assigns either to an unsigned
integer. Values are bit patterns; rounding is Lean's own model of IEEE-754
(`Float.Model`), to nearest even. A NaN keeps no payload.
-/

namespace Librtaio.FloatCast

open Float.Model (Format UnpackedFloat)

/-- Round an unpacked value to a format. -/
def convert (spec : Format) : UnpackedFloat → UnpackedFloat
  | .finite sign mantissa exponent _ => UnpackedFloat.round spec sign mantissa exponent
  | value => value

/-- `static_cast<float>` of a `double`. -/
def toFloat (d : BitVec 64) : BitVec 32 :=
  UnpackedFloat.pack .binary32 (convert .binary32 (UnpackedFloat.unpack .binary64 d))

/-- `static_cast<double>` of a `float`. -/
def toDouble (f : BitVec 32) : BitVec 64 :=
  UnpackedFloat.pack .binary64 (convert .binary64 (UnpackedFloat.unpack .binary32 f))

/-- The integer a value is truncated to, toward zero; none for a NaN or an
infinity. -/
def truncate : UnpackedFloat → Option Int
  | .finite sign mantissa exponent _ => some (UnpackedFloat.roundToInt sign mantissa exponent)
  | .zero _ => some 0
  | _ => none

/-- Conversion to an unsigned integer of `w` bits: truncation toward zero. A value
out of range is undefined in C++; `undef` is whatever the host yields there. -/
def toUnsigned (w : Nat) (undef : BitVec w) (value : UnpackedFloat) : BitVec w :=
  match truncate value with
  | some z => if 0 ≤ z ∧ z < 2 ^ w then BitVec.ofInt w z else undef
  | none => undef

/-- `static_cast<uint32_t>` of a `float`. -/
def floatToUnsigned (undef : BitVec 32) (f : BitVec 32) : BitVec 32 :=
  toUnsigned 32 undef (UnpackedFloat.unpack .binary32 f)

/-- `static_cast<uint64_t>` of a `double`. -/
def doubleToUnsigned (undef : BitVec 64) (d : BitVec 64) : BitVec 64 :=
  toUnsigned 64 undef (UnpackedFloat.unpack .binary64 d)

-- 1.5 is 0x3FF8000000000000 as a double, 0x3FC00000 as a float, and truncates to 1
example : toFloat 0x3FF8000000000000#64 = 0x3FC00000#32 ∧
    toDouble 0x3FC00000#32 = 0x3FF8000000000000#64 ∧
    floatToUnsigned 0#32 0x3FC00000#32 = 1#32 := by
  decide

end Librtaio.FloatCast

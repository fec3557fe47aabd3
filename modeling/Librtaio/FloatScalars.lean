import Librtaio.FloatBits
import Librtaio.WrittenBody

/-!
# Floating-point scalars on the wire

`write_float` and `write_double` pass the value to `write_4` and `write_8`, so
it is converted to an integer; the array functions and `read_float`,
`read_double` copy its bits. A scalar therefore arrives only if its conversion
is its own bit pattern (`floatsSurvive_iff`), which is so for positive zero, and
out of the integer's range where the host happens to yield it.
-/

namespace Librtaio

open Bytes FloatCast
open Float.Model (UnpackedFloat)

/-! ### One scalar -/

namespace Field

/-- A scalar FLOAT holds a `float`, and no floating-point scalar a NaN. -/
structure HoldsNumber (p : Field) : Prop where
  float : p.IsScalar .float →
    ∃ f, UnpackedFloat.unpack .binary32 f ≠ .notANumber ∧ p.fvalue = toDouble f
  double : p.IsScalar .double → UnpackedFloat.unpack .binary64 p.fvalue ≠ .notANumber

/-- A one-element array of a type, holding the given bits on host `T`. -/
def oneElement (T : Target) (ty : DataType) (bits : BitVec (8 * ty.width)) : Field :=
  ⟨ty.code, 0, 0, some (T.order.store ty.width bits.toNat), 1⟩

/-- The bytes an entry should put on the wire: a floating-point scalar its bit pattern. -/
def bitImage (p : Field) (T : Target) (cnt : Int) (prev : Field) : List UInt8 :=
  match DataType.ofCode p.type, p.data with
  | some .float, none => beBytes 4 (toFloat p.fvalue).toNat
  | some .double, none => beBytes 8 p.fvalue.toNat
  | _, _ => p.image T cnt prev

/-- The conversion of a floating-point scalar to an integer is its own bit pattern: that of
positive zero, or a value out of range for which the host yields it. -/
structure SurvivesCast (p : Field) (T : Target) : Prop where
  float : p.IsScalar .float → toFloat p.fvalue = 0 ∨
    ¬ Fits 32 (UnpackedFloat.unpack .binary32 (toFloat p.fvalue)) ∧
      T.undefULong (toFloat p.fvalue) = toFloat p.fvalue
  double : p.IsScalar .double → p.fvalue = 0 ∨
    ¬ Fits 64 (UnpackedFloat.unpack .binary64 p.fvalue) ∧ T.undefULongLong p.fvalue = p.fvalue

end Field

/-- A floating-point scalar has the sender's bits. -/
def FloatRestored (_prev p q : Field) : Prop :=
  p.IsScalar .float ∨ p.IsScalar .double → q.data = none ∧ q.fvalue = p.fvalue

section OneScalar

variable {T T' : Target} {cnt : Int} {prev p q : Field}

theorem beBytes_inj {w : Nat} {x y : BitVec (8 * w)} :
    beBytes w x.toNat = beBytes w y.toNat ↔ x = y := by
  refine ⟨fun h => ?_, fun h => h ▸ rfl⟩
  have hval := congrArg ofBeBytes h
  rw [ofBeBytes_beBytes, ofBeBytes_beBytes, pow_256_eq, Nat.mod_eq_of_lt x.isLt,
    Nat.mod_eq_of_lt y.isLt] at hval
  exact BitVec.eq_of_toNat_eq hval

theorem ofNat_beBytes {w : Nat} (x : BitVec (8 * w)) :
    BitVec.ofNat (8 * w) (ofBeBytes (beBytes w x.toNat)) = x := by
  apply BitVec.eq_of_toNat_eq
  rw [ofBeBytes_beBytes, pow_256_eq, BitVec.toNat_ofNat, Nat.mod_mod, Nat.mod_eq_of_lt x.isLt]

/-- A one-element array puts the bits of its element on the wire. -/
theorem image_oneElement {ty : DataType} (hty : ty ≠ .llong) (bits : BitVec (8 * ty.width)) :
    (Field.oneElement T ty bits).image T 1 prev = beBytes ty.width bits.toNat := by
  have hp : (Field.oneElement T ty bits).IsArray ty (T.order.store ty.width bits.toNat) := ⟨rfl, rfl⟩
  have helem : (Field.oneElement T ty bits).elements 1 prev = 1 := rfl
  rw [hp.image_eq, helem, DataType.elemWidth_eq hty]
  change T.order.flip ((T.order.store ty.width bits.toNat).take ty.width) ++ [] = _
  rw [List.take_of_length_le (by rw [ByteOrder.length_store]), ByteOrder.flip_store, List.append_nil]

theorem bitImage_float (hp : p.IsScalar .float) :
    p.bitImage T cnt prev = beBytes 4 (toFloat p.fvalue).toNat := by
  simp only [Field.bitImage, hp.data, hp.type, DataType.ofCode_code]

theorem bitImage_double (hp : p.IsScalar .double) :
    p.bitImage T cnt prev = beBytes 8 p.fvalue.toNat := by
  simp only [Field.bitImage, hp.data, hp.type, DataType.ofCode_code]

theorem bitImage_other (hfloat : ¬ p.IsScalar .float) (hdouble : ¬ p.IsScalar .double)
    (h : Item cnt prev p) : p.bitImage T cnt prev = p.image T cnt prev := by
  rcases h.isScalar_or_isArray with ⟨ty, hp⟩ | ⟨ty, memory, hp⟩
  · simp only [Field.bitImage, hp.data, hp.type, DataType.ofCode_code]
    cases ty
    case float => exact absurd hp hfloat
    case double => exact absurd hp hdouble
    all_goals rfl
  · simp only [Field.bitImage, hp.data, hp.type, DataType.ofCode_code]

theorem atLeast_bitImage : AtLeast T cnt fun prev p => p.bitImage T cnt prev := by
  intro prev p h
  change _ ≤ (p.bitImage T cnt prev).length
  by_cases hfloat : p.IsScalar .float
  · rw [bitImage_float hfloat, hfloat.image_eq, Field.length_scalarWire, length_beBytes]
    rfl
  · by_cases hdouble : p.IsScalar .double
    · rw [bitImage_double hdouble, hdouble.image_eq, Field.length_scalarWire, length_beBytes]
      rfl
    · rw [bitImage_other hfloat hdouble h]

/-- An entry is written as it should be exactly if it survives the conversion. -/
theorem bitImage_eq_image_iff (h : Item cnt prev p) :
    p.bitImage T cnt prev = p.image T cnt prev ↔ p.SurvivesCast T := by
  by_cases hfloat : p.IsScalar .float
  · have hdouble : ¬ p.IsScalar .double := fun hp =>
      absurd (hfloat.type.symm.trans hp.type) (by decide)
    have hcast := floatToUnsigned_eq_iff (T.undefULong (toFloat p.fvalue)) (toFloat p.fvalue)
    rw [bitImage_float hfloat, hfloat.image_eq, eq_comm]
    refine (beBytes_inj (w := 4)).trans (hcast.trans ?_)
    exact ⟨fun hz => ⟨fun _ => hz, fun hp => absurd hp hdouble⟩, fun hz => hz.float hfloat⟩
  · by_cases hdouble : p.IsScalar .double
    · have hcast := doubleToUnsigned_eq_iff (T.undefULongLong p.fvalue) p.fvalue
      rw [bitImage_double hdouble, hdouble.image_eq, eq_comm]
      refine (beBytes_inj (w := 8)).trans (hcast.trans ?_)
      exact ⟨fun hz => ⟨fun hp => absurd hp hfloat, fun _ => hz⟩, fun hz => hz.double hdouble⟩
    · constructor
      · intro _
        exact ⟨fun hp => absurd hp hfloat, fun hp => absurd hp hdouble⟩
      · intro _
        exact bitImage_other hfloat hdouble h

/-- The bits of a scalar that survives come back. -/
theorem floatRestored_readFrom (hnumber : p.HoldsNumber) (hcast : p.SurvivesCast T)
    (hslot : Slot cnt prev p q) (n : Nat) :
    FloatRestored prev p (q.readFrom T' n (p.image T cnt prev)) := by
  rintro (hp | hp)
  · have hq := hslot.isScalar hp
    obtain ⟨f, hf, hvalue⟩ := hnumber.float hp
    have hword := (floatToUnsigned_eq_iff (T.undefULong (toFloat p.fvalue)) _).mpr (hcast.float hp)
    rw [hq.readFrom_eq, hp.image_eq, Field.scalarWire, hword]
    refine ⟨hq.data, ?_⟩
    change toDouble (BitVec.ofNat 32 (ofBeBytes (beBytes 4 (toFloat p.fvalue).toNat))) = p.fvalue
    rw [ofNat_beBytes (w := 4), hvalue, toFloat_toDouble hf]
  · have hq := hslot.isScalar hp
    have hword := (doubleToUnsigned_eq_iff (T.undefULongLong p.fvalue) _).mpr (hcast.double hp)
    rw [hq.readFrom_eq, hp.image_eq, Field.scalarWire, hword]
    refine ⟨hq.data, ?_⟩
    exact ofNat_beBytes (w := 8) p.fvalue

end OneScalar

/-! ### Tables -/

theorem isChain_snd_iff {P : Field → Prop} {prev : Field} {es : List Field} :
    ((prev :: es).IsChain fun _ p => P p) ↔ ∀ p ∈ es, P p := by
  induction es generalizing prev with
  | nil => simp
  | cons p es ih => rw [List.isChain_cons_cons, ih, List.forall_mem_cons]

namespace PacketTable

variable (t : PacketTable)

/-- The floating-point scalars of a table survive the wire: their bytes are their bit
patterns, and the body decoder restores them. -/
structure FloatsSurvive (T T' : Target) : Prop where
  written : t.Writes T fun prev p => p.bitImage T t.cnt prev
  restored : t.Restores T T' FloatRestored

variable {t} {T T' : Target}

theorem FloatsSurvive.survivesCast (h : t.FloatsSurvive T T') (hsize : t.size < 2 ^ 31) :
    ∀ p ∈ t.body, p.SurvivesCast T :=
  isChain_snd_iff.mp
    ((isChain_congr t.items bitImage_eq_image_iff).mp ((writes_iff atLeast_bitImage hsize).mp h.written))

/-- **Floating-point scalars survive the wire exactly if they survive the conversion to an
integer**, in a table that `fields_size` can count in its `int`; that their bytes should be the bit
pattern is what a one-element array does. -/
theorem floatsSurvive_iff (hfit : LengthsFit t.bmark t.body) (hsize : t.size < 2 ^ 31)
    (hnumber : ∀ p ∈ t.body, p.HoldsNumber) :
    (t.FloatsSurvive T T' ↔ ∀ p ∈ t.body, p.SurvivesCast T) ∧
      ∀ prev p : Field, (p.IsScalar .float → p.bitImage T t.cnt prev =
          (Field.oneElement T .float (toFloat p.fvalue)).image T 1 prev) ∧
        (p.IsScalar .double → p.bitImage T t.cnt prev =
          (Field.oneElement T .double p.fvalue).image T 1 prev) := by
  refine ⟨⟨fun h => h.survivesCast hsize, fun h => ?_⟩, fun prev p => ⟨fun hp => ?_, fun hp => ?_⟩⟩
  · have hchain := (isChain_congr t.items bitImage_eq_image_iff).mpr (isChain_snd_iff.mpr h)
    refine ⟨(writes_iff atLeast_bitImage hsize).mpr hchain, ?_⟩
    have hboth : ∀ p ∈ t.body, p.HoldsNumber ∧ p.SurvivesCast T := fun p hp =>
      ⟨hnumber p hp, h p hp⟩
    exact restores_of_chain (fun hP _ hslot => floatRestored_readFrom hP.1 hP.2 hslot _) hfit hsize
      (isChain_snd_iff.mpr hboth)
  · have himage := @image_oneElement T prev .float (by decide) (toFloat p.fvalue)
    exact (bitImage_float hp).trans himage.symm
  · have himage := @image_oneElement T prev .double (by decide) p.fvalue
    exact (bitImage_double hp).trans himage.symm

/-- A body of one DOUBLE. -/
def doubleTable (value : BitVec 64) : PacketTable :=
  ofBody 0 MSG_COMMON 0 1 [⟨DataType.double.code, 0, value, none, 1⟩]
    (by rw [items_cons]; exact ⟨.scalar .double ⟨rfl, rfl⟩, items_nil⟩)

/-- Zero arrives. -/
theorem floatsSurvive_zero :
    (doubleTable 0).FloatsSurvive (.build .little) (.build .big) := by
  refine (floatsSurvive_iff ?_ (by decide) ?_).1.mpr ?_
  · exact lengthsFit_cons.mpr ⟨fun h => absurd rfl h.1, by simp [LengthsFit]⟩
  · intro p hp
    obtain rfl := List.mem_singleton.mp hp
    exact ⟨fun h => absurd h.type (by decide), fun _ h => UnpackedFloat.noConfusion h⟩
  · intro p hp
    obtain rfl := List.mem_singleton.mp hp
    exact ⟨fun h => absurd h.type (by decide), fun _ => .inl rfl⟩

/-- 1.5 does not: it is written as 1. -/
theorem double_lost :
    ¬ (doubleTable 0x3FF8000000000000#64).FloatsSurvive (.build .little) (.build .little) := by
  intro h
  have hcast := h.survivesCast (by decide) _ (List.mem_singleton.mpr rfl)
  rcases hcast.double ⟨rfl, rfl⟩ with hzero | ⟨-, hundef⟩
  · exact absurd hzero (by decide)
  · exact absurd hundef (by decide)

end PacketTable

end Librtaio

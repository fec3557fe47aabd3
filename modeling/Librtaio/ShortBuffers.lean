import Librtaio.Canonical

/-!
# Buffers that are too short, without assertions

`overflow` returns its argument, so the encoder never learns that the buffer is full. `underflow`
returns `EOF`, and the stream fails: the entries that are read after that are given what the
variables of the decoder hold, and of these only the LONGLONG one is looked at again, for the
checksum. The code tells of a body that was cut short exactly if what it holds is not the checksum of the
bytes that were there.
-/

namespace Librtaio

open Bytes Crc32

/-- A build without `assert`, whose casts out of range yield 0. -/
def Target.release (order : ByteOrder) : Target := ⟨order, true, fun _ => 0, fun _ => 0⟩

/-! ### Reads of more than is left -/

namespace InputStream

/-- The stream after all of its bytes were taken for `n`. -/
def fail (s : InputStream) (n : Nat) : InputStream := { s.advance n with good := false }

variable {T : Target} {s : InputStream} {x : List UInt8}

theorem read_failed (hbad : s.good = false) (n : Int) : s.read T x n = .ok (false, x, s) := by
  simp [read, hbad]

theorem read_cut {n : Nat} (hndebug : T.ndebug = true) (hgood : s.good = true)
    (hbeyond : s.beyond = 0) (hrest : s.rest.length < n) (hx : s.rest.length ≤ x.length) :
    s.read T x n = .ok (false, s.rest ++ x.drop s.rest.length, s.fail n) := by
  have hneg : ¬ (n : Int) < 0 := by omega
  have hgot : s.rest.take n = s.rest := List.take_of_length_le hrest.le
  simp [read, xsgetn, underflow, fail, hgood, hneg, hbeyond, hgot, Nat.not_lt.mpr hx, hrest,
    hrest.ne, hndebug]

theorem readWord_failed {w : Nat} {swap : BitVec (8 * w) → BitVec (8 * w)} (hbad : s.good = false)
    (v : BitVec (8 * w)) : readWord T w swap s v = .ok (false, v, s) := by
  have hload : BitVec.ofNat (8 * w) (T.order.load (T.order.store w v.toNat)) = v := by
    apply BitVec.eq_of_toNat_eq
    rw [ByteOrder.load_store, pow_256_eq, BitVec.toNat_ofNat, Nat.mod_mod, Nat.mod_eq_of_lt v.isLt]
  rw [readWord, read_failed hbad, ok_bind]
  simp [hload]

theorem readWord_cut {w : Nat} {swap : BitVec (8 * w) → BitVec (8 * w)} (hndebug : T.ndebug = true)
    (hgood : s.good = true) (hbeyond : s.beyond = 0) (hrest : s.rest.length < w) (v : BitVec (8 * w)) :
    readWord T w swap s v = .ok (false, BitVec.ofNat (8 * w)
      (T.order.load (s.rest ++ (T.order.store w v.toNat).drop s.rest.length)), s.fail w) := by
  rw [readWord, read_cut hndebug hgood hbeyond hrest (by simpa using hrest.le), ok_bind]
  simp

theorem readArray_failed (hbad : s.good = false) (size count : Nat) :
    s.readArray T x size count = .ok (false, x, s) := by
  simp [readArray, read_failed hbad]

theorem readArray_cut {size count : Nat} (hbytes : size * count < 2 ^ 63) (hndebug : T.ndebug = true)
    (hgood : s.good = true) (hbeyond : s.beyond = 0) (hrest : s.rest.length < size * count)
    (hx : s.rest.length ≤ x.length) :
    s.readArray T x size count =
      .ok (false, s.rest ++ x.drop s.rest.length, s.fail (size * count)) := by
  simp only [readArray, toInt_bytes hbytes, read_cut hndebug hgood hbeyond hrest hx, ok_bind,
    Bool.false_and, Bool.false_eq_true, if_false]

end InputStream

/-! ### The LONGLONG variable -/

/-- What the LONGLONG variable holds after an entry was read from the bytes; of a word that is cut
short the bytes that are there replace the first ones in memory. -/
def Field.leftover (p : Field) (o : ByteOrder) (bs : List UInt8) (held : BitVec 64) : BitVec 64 :=
  if p.type = DataType.llong.code ∧ p.data = none then
    if bs.length < 8 then BitVec.ofNat 64 (o.load (bs ++ (o.store 8 held.toNat).drop bs.length))
    else BitVec.ofNat 64 (ofBeBytes (bs.take 8))
  else held

/-- What it holds after consecutive entries, as far as there are bytes for them. -/
def leftover (o : ByteOrder) (cnt : Int) : Field → List Field → List UInt8 → BitVec 64 → BitVec 64
  | _, [], _, held => held
  | prev, p :: es, bs, held =>
    if bs.length < p.moved cnt prev then p.leftover o bs held
    else leftover o cnt p es (bs.drop (p.moved cnt prev)) (p.leftover o bs held)

section Variable

variable {T : Target} {s : InputStream} {v : Locals} {p q : Field} {ty : DataType}

/-- A LONGLONG entry is given what the variable holds then, and no other changes it. -/
theorem getScalar_llVal (hp : p.IsScalar ty) {r : InputStream × Locals × Field}
    (h : getScalar T s v p = .ok r) :
    if ty = .llong then r.2.2.ivalue = r.2.1.llVal.toInt else r.2.1.llVal = v.llVal := by
  rw [getScalar, hp.ofCode] at h
  cases ty <;>
    (obtain ⟨got, -, hr⟩ := bind_eq_ok.mp h; cases hr; rfl)

theorem Field.IsScalar.leftover_eq (hp : p.IsScalar ty) (o : ByteOrder) (bs : List UInt8)
    (held : BitVec 64) :
    p.leftover o bs held =
      if ty = .llong then
        if bs.length < 8 then BitVec.ofNat 64 (o.load (bs ++ (o.store 8 held.toNat).drop bs.length))
        else BitVec.ofNat 64 (ofBeBytes (bs.take 8))
      else held := by
  have hllong : p.type = DataType.llong.code ∧ p.data = none ↔ ty = .llong := by
    rw [hp.type]
    exact ⟨fun h => DataType.code_injective h.1, fun h => ⟨by rw [h], hp.data⟩⟩
  simp only [Field.leftover, hllong]

theorem Field.IsArray.leftover_eq {memory : List UInt8} (hp : p.IsArray ty memory) (o : ByteOrder)
    (bs : List UInt8) (held : BitVec 64) : p.leftover o bs held = held := by
  rw [Field.leftover, if_neg]
  rintro ⟨-, hdata⟩
  exact absurd (hp.data.symm.trans hdata) (by simp)

/-- A scalar that the stream has the bytes for. -/
theorem getScalar_fit_llVal (hp : p.IsScalar ty)
    (hrest : ty.width ≤ s.rest.length) {v' : Locals}
    (h : getScalar T s v p =
      .ok (s.advance ty.width, v', p.scalarRead ty (s.rest.take ty.width))) :
    v'.llVal = p.leftover T.order s.rest v.llVal := by
  have hvalue := getScalar_llVal hp h
  rw [hp.leftover_eq]
  split at hvalue
  · rename_i hty
    subst hty
    rw [if_pos rfl, if_neg (show ¬ s.rest.length < 8 from Nat.not_lt.mpr hrest)]
    exact (BitVec.eq_of_toInt_eq hvalue).symm
  · rename_i hty
    rw [if_neg hty]
    exact hvalue

/-- A scalar that is cut short. -/
theorem getScalar_cut (hndebug : T.ndebug = true) (hp : p.IsScalar ty) (hgood : s.good = true)
    (hbeyond : s.beyond = 0) (hrest : s.rest.length < ty.width) (v : Locals) :
    ∃ v' p', getScalar T s v p = .ok (s.fail ty.width, v', p') ∧
      v'.llVal = p.leftover T.order s.rest v.llVal := by
  have hword {w : Nat} (hw : ty.width = w) (swap : BitVec (8 * w) → BitVec (8 * w))
      (v : BitVec (8 * w)) := @InputStream.readWord_cut T s w swap hndebug hgood hbeyond
    (show s.rest.length < w by omega) v
  rw [getScalar, hp.ofCode, hp.leftover_eq]
  cases ty
  · have hread : s.readChar T v.cVal = _ := hword rfl id v.cVal
    refine ⟨_, _, by rw [hread]; rfl, ?_⟩
    rfl
  · have hread : s.readChar T v.cVal = _ := hword rfl id v.cVal
    refine ⟨_, _, by rw [hread]; rfl, ?_⟩
    rfl
  · have hread : s.readShort T v.sVal = _ := hword rfl (swap2 T.order) v.sVal
    refine ⟨_, _, by rw [hread]; rfl, ?_⟩
    rfl
  · have hread : s.readLong T v.lVal = _ := hword rfl (swap4 T.order) v.lVal
    refine ⟨_, _, by rw [hread]; rfl, ?_⟩
    rfl
  · have hread : s.readLlong T v.llVal = _ := hword rfl (swap8 T.order) v.llVal
    refine ⟨_, _, by rw [hread]; rfl, ?_⟩
    exact (if_pos hrest).symm
  · have hread : s.readFloat T v.fVal = _ := hword rfl (swap4 T.order) v.fVal
    refine ⟨_, _, by rw [hread]; rfl, ?_⟩
    rfl
  · have hread : s.readDouble T v.dVal = _ := hword rfl (swap8 T.order) v.dVal
    refine ⟨_, _, by rw [hread]; rfl, ?_⟩
    rfl

/-- A scalar behind the failure. -/
theorem getScalar_failed (hp : p.IsScalar ty) (hbad : s.good = false) (v : Locals) :
    ∃ v' p', getScalar T s v p = .ok (s, v', p') ∧ v'.llVal = v.llVal := by
  have hword (w : Nat) (swap : BitVec (8 * w) → BitVec (8 * w)) (v : BitVec (8 * w)) :=
    @InputStream.readWord_failed T s w swap hbad v
  rw [getScalar, hp.ofCode]
  cases ty
  · have hread : s.readChar T v.cVal = _ := hword 1 id v.cVal
    refine ⟨_, _, by rw [hread]; rfl, ?_⟩
    rfl
  · have hread : s.readChar T v.cVal = _ := hword 1 id v.cVal
    refine ⟨_, _, by rw [hread]; rfl, ?_⟩
    rfl
  · have hread : s.readShort T v.sVal = _ := hword 2 (swap2 T.order) v.sVal
    refine ⟨_, _, by rw [hread]; rfl, ?_⟩
    rfl
  · have hread : s.readLong T v.lVal = _ := hword 4 (swap4 T.order) v.lVal
    refine ⟨_, _, by rw [hread]; rfl, ?_⟩
    rfl
  · have hread : s.readLlong T v.llVal = _ := hword 8 (swap8 T.order) v.llVal
    refine ⟨_, _, by rw [hread]; rfl, ?_⟩
    rfl
  · have hread : s.readFloat T v.fVal = _ := hword 4 (swap4 T.order) v.fVal
    refine ⟨_, _, by rw [hread]; rfl, ?_⟩
    rfl
  · have hread : s.readDouble T v.dVal = _ := hword 8 (swap8 T.order) v.dVal
    refine ⟨_, _, by rw [hread]; rfl, ?_⟩
    rfl

end Variable

/-! ### One entry -/

section OneEntry

variable {T : Target} {cnt : Int} {prev p q prev' : Field} {s : InputStream} {ty : DataType}
  {memory : List UInt8}

theorem getArray_failed (hbad : s.good = false) (ty : DataType) (memory : List UInt8) (n : Int) :
    getArray T s ty.code memory n = .ok (false, memory, s) := by
  rw [getArray, DataType.ofCode_code]
  cases ty <;> exact InputStream.readArray_failed hbad _ _

/-- The count of an array that has one of its own. -/
theorem Item.checked_count (hcount : 1 ≤ p.count) (hcnt : 0 ≤ cnt) (hp : p.IsArray ty memory)
    (hq : q.count = p.count) (hmoved : p.moved cnt prev < 2 ^ 31) :
    checked 32 (toInt32 cnt * q.count) = .ok (p.elements cnt prev) ∧ 0 ≤ p.elements cnt prev ∧
      p.elements cnt prev < 2 ^ 31 := by
  obtain ⟨helem, hnonneg⟩ := Entry.counted_elements prev hcount hcnt
  have helems := hp.elements_le cnt prev
  have hcntle : cnt ≤ p.elements cnt prev := calc
    cnt = 1 * cnt := (Int.one_mul _).symm
    _ ≤ p.count * cnt := Int.mul_le_mul_of_nonneg_right (by omega) hcnt
    _ = p.elements cnt prev := helem.symm
  have hcomm : toInt32 cnt * q.count = p.elements cnt prev := by
    rw [toInt32_eq (by omega) (by omega), hq, helem, Int.mul_comm]
  exact ⟨by rw [hcomm, checked_eq (le_refl 32) hnonneg (by omega)], hnonneg, by omega⟩

/-- Behind the failure an entry takes nothing, and stores nothing but the variables. -/
theorem unserializeField_failed (h : Item cnt prev p) (hslot : Slot cnt prev p q)
    (htype : prev'.type = prev.type) (hdata : prev'.data = none ↔ prev.data = none)
    (hmoved : p.moved cnt prev < 2 ^ 31) (hbad : s.good = false) (v : Locals) :
    ∃ v' q', unserializeField T (toInt32 cnt) (some prev') v s q = .ok (none, s, v', q') ∧
      v'.llVal = v.llVal := by
  cases h with
  | scalar ty hp =>
    obtain ⟨v', q', hget, hheld⟩ := getScalar_failed (T := T) (hslot.isScalar hp) hbad v
    exact ⟨v', q', by simp only [unserializeField, (hslot.isScalar hp).data, hget, ok_bind], hheld⟩
  | counted ty memory hp hcount hcnt hmem =>
    obtain ⟨memory', hq, hqcount, -⟩ := hslot.isArray hp
    obtain ⟨hchecked, -, -⟩ := Item.checked_count hcount hcnt hp hqcount hmoved
    have hget := getArray_failed (T := T) hbad ty memory' (p.elements cnt prev)
    rw [← hq.type] at hget
    refine ⟨v, { q with data := some memory' }, ?_, rfl⟩
    simp only [unserializeField, hq.data, if_pos (show q.count ≥ 0 by omega), hchecked, ok_bind, hget]
  | prefixed ty memory hp hcount hlength hlen hmem =>
    obtain ⟨memory', hq, hqcount, -⟩ := hslot.isArray hp
    have hget (n : Int) := getArray_failed (T := T) hbad ty memory' n
    rw [← hq.type] at hget
    have hplaced : ¬ (prev'.type ≠ TYPE_SHORT ∧ prev'.type ≠ TYPE_LONG) := by
      rw [htype]
      rcases hlength.type with h | h <;> simp [h]
    have hnone : ¬ prev'.data ≠ none := not_not_intro (hdata.mpr hlength.data)
    simp only [unserializeField, hq.data, if_neg (show ¬ q.count ≥ 0 by omega), if_neg hplaced,
      if_pos (show q.count = -1 by omega), if_neg hnone, hget, ok_bind]
    split
    · exact ⟨v, _, rfl, rfl⟩
    · exact ⟨v, _, rfl, rfl⟩

/-- The entry that there are too few bytes for. -/
theorem unserializeField_cut (hndebug : T.ndebug = true) (h : Item cnt prev p)
    (hslot : Slot cnt prev p q) (hprev : p.Prefixed → prev'.IsLength ∧ prev'.ivalue = prev.ivalue)
    (hmoved : p.moved cnt prev < 2 ^ 31) (hgood : s.good = true) (hbeyond : s.beyond = 0)
    (hrest : s.rest.length < p.moved cnt prev) (v : Locals) :
    ∃ v' q', unserializeField T (toInt32 cnt) (some prev') v s q =
        .ok (none, s.fail (p.moved cnt prev), v', q') ∧
      v'.llVal = p.leftover T.order s.rest v.llVal := by
  have hle := h.moved_le
  -- an array is read as far as there are bytes
  have array {ty : DataType} {memory memory' : List UInt8} (hp : p.IsArray ty memory)
      (hq : q.IsArray ty memory') (hnonneg : 0 ≤ p.elements cnt prev)
      (hroom : p.size cnt prev ≤ memory'.length) :
      getArray T s q.type memory' (p.elements cnt prev) =
        .ok (false, s.rest ++ memory'.drop s.rest.length, s.fail (p.moved cnt prev)) := by
    have helems := hp.elements_le cnt prev
    have hlt : p.elements cnt prev < 2 ^ 31 := by omega
    rw [hp.moved_eq] at hrest hle ⊢
    rw [hq.type, getArray_eq hnonneg hlt]
    exact InputStream.readArray_cut (elemWidth_mul_lt ty hnonneg hlt) hndebug hgood hbeyond hrest
      (by omega)
  cases h with
  | scalar ty hp =>
    have hq := hslot.isScalar hp
    rw [hp.moved_eq] at hrest ⊢
    obtain ⟨v', q', hget, hheld⟩ := getScalar_cut hndebug hq hgood hbeyond hrest v
    rw [hq.leftover_eq, ← hp.leftover_eq] at hheld
    exact ⟨v', q', by simp only [unserializeField, hq.data, hget, ok_bind], hheld⟩
  | counted ty memory hp hcount hcnt hmem =>
    obtain ⟨memory', hq, hqcount, hroom⟩ := hslot.isArray hp
    obtain ⟨hchecked, hnonneg, -⟩ := Item.checked_count hcount hcnt hp hqcount hmoved
    refine ⟨v, { q with data := some (s.rest ++ memory'.drop s.rest.length) }, ?_,
      (hp.leftover_eq _ _ _).symm⟩
    simp only [unserializeField, hq.data, if_pos (show q.count ≥ 0 by omega), hchecked, ok_bind,
      array hp hq hnonneg hroom]
  | prefixed ty memory hp hcount hlength hlen hmem =>
    obtain ⟨memory', hq, hqcount, hroom⟩ := hslot.isArray hp
    obtain ⟨hprev', hvalue⟩ := hprev ⟨by simp [hp.data], hcount⟩
    have helem : prev'.ivalue = p.elements cnt prev := by
      rw [hvalue, Entry.prefixed_elements cnt prev hcount]
    have helems := hp.elements_le cnt prev
    have hnonneg : 0 ≤ p.elements cnt prev := by rwa [← helem, hvalue]
    have hint : toInt32 prev'.ivalue = p.elements cnt prev := by
      rw [helem]
      exact toInt32_eq (by omega) (by omega)
    have hpos : p.elements cnt prev > 0 := by
      by_contra hzero
      rw [hp.moved_eq, show (p.elements cnt prev).toNat = 0 by omega, Nat.mul_zero] at hrest
      omega
    have hplaced : ¬ (prev'.type ≠ TYPE_SHORT ∧ prev'.type ≠ TYPE_LONG) := by
      rcases hprev'.type with h | h <;> simp [h]
    refine ⟨v, { q with data := some (s.rest ++ memory'.drop s.rest.length) }, ?_,
      (hp.leftover_eq _ _ _).symm⟩
    simp only [unserializeField, hq.data, if_neg (show ¬ q.count ≥ 0 by omega), if_neg hplaced,
      if_pos (show q.count = -1 by omega), hprev'.data, ne_eq, not_true, if_false, hint, if_pos hpos,
      ok_bind, array hp hq hnonneg hroom]

/-- An array leaves the variables alone. -/
theorem unserializeField_locals {prev : Option Field} {c : Int} {v : Locals} (hq : q.IsArray ty memory)
    {r : Option Int × InputStream × Locals × Field} (h : unserializeField T c prev v s q = .ok r) :
    r.2.2.1 = v := by
  have array {n : Int} (h : (getArray T s q.type memory n >>= fun a =>
      .ok (none, a.2.2, v, { q with data := some a.2.1 })) = .ok r) : r.2.2.1 = v := by
    obtain ⟨got, -, hr⟩ := bind_eq_ok.mp h
    cases hr
    rfl
  simp only [unserializeField, hq.data] at h
  split at h
  · obtain ⟨count, -, hr⟩ := bind_eq_ok.mp h
    exact array hr
  · split at h
    · cases h
    · rcases leave_or h with rfl | h
      · rfl
      · split at h
        · rcases leave_or h with rfl | h
          · rfl
          · split at h
            · exact array h
            · cases h
              rfl
        · cases h
          rfl

/-- An entry that there are the bytes for. -/
theorem unserializeField_fit_llVal (h : Item cnt prev p) (hslot : Slot cnt prev p q)
    (hrest : p.moved cnt prev ≤ s.rest.length) {v v' : Locals}
    (hfield : unserializeField T (toInt32 cnt) (some prev') v s q =
      .ok (none, s.advance (p.moved cnt prev), v',
        q.readFrom T (p.elements cnt prev).toNat (s.rest.take (p.moved cnt prev)))) :
    v'.llVal = p.leftover T.order s.rest v.llVal := by
  rcases h.isScalar_or_isArray with ⟨ty, hp⟩ | ⟨ty, memory, hp⟩
  · have hq := hslot.isScalar hp
    rw [hp.moved_eq] at hrest hfield
    rw [hq.readFrom_eq] at hfield
    simp only [unserializeField, hq.data] at hfield
    obtain ⟨⟨s₁, v₁, q₁⟩, hget, hr⟩ := bind_eq_ok.mp hfield
    simp only [Except.ok.injEq, Prod.mk.injEq, true_and] at hr
    obtain ⟨rfl, rfl, rfl⟩ := hr
    rw [hp.leftover_eq, ← hq.leftover_eq]
    exact getScalar_fit_llVal hq hrest hget
  · obtain ⟨memory', hq, -⟩ := hslot.isArray hp
    rw [hp.leftover_eq]
    exact congrArg Locals.llVal (unserializeField_locals hq hfield)

end OneEntry

/-! ### The body -/

section Body

variable {T T' : Target} {len cnt : Int} {base n : Nat} {s s' : InputStream} {v v' : Locals}
  {prev prev' bcrc dbcrc terminator : Field} {es ds : List Field}

/-- The code of a body whose bytes are these, if the LONGLONG variable holds that. -/
def crcCode (bs : List UInt8) (held : BitVec 64) : Int :=
  if BitVec.ofNat 32 held.toNat = crc32 bs then ERR_OK else ERR_CHECK_CRC_ERROR

/-- The last entry compares what the variable holds with the checksum of the bytes before it. -/
theorem unserializeBodyLoop_last {p' : Field} (hbcrc : dbcrc.IsScalar .llong)
    (hlast : (n : Int) = len - 1) (hterm : terminator.type < 0)
    (hbase : base ≤ s.consumed.length) (hbytes : s.consumed.length - base < 2 ^ 31)
    (hget : getScalar T s v dbcrc = .ok (s', v', p')) :
    unserializeBodyLoop T len true cnt base n 0 v (some prev) s [dbcrc, terminator] =
      .ok (crcCode (s.consumed.drop base) v'.llVal, s', [p', terminator]) := by
  have htype : ¬ dbcrc.type < 0 := hbcrc.type_nonneg.not_gt
  have hvalue : p'.ivalue = v'.llVal.toInt := getScalar_llVal hbcrc hget
  have hlow : toUInt32 p'.ivalue = BitVec.ofNat 32 v'.llVal.toNat := by
    have hword := toUInt32_toInt (w := 64) (by decide) v'.llVal.toNat
    rwa [BitVec.ofNat_toNat, BitVec.setWidth_eq, ← hvalue] at hword
  have hint : toInt32 ((s.consumed.length : Int) - base) = (s.consumed.drop base).length := by
    rw [List.length_drop, toInt32_eq (by omega) (by omega)]
    omega
  have hcrc : (if toInt32 ((s.consumed.length : Int) - base) > 0 then
      crc32 ((s.consumed.drop base).take (toInt32 ((s.consumed.length : Int) - base)).toNat) else 0) =
        crc32 (s.consumed.drop base) := by
    rw [hint, Int.toNat_natCast, List.take_length]
    split
    · rfl
    · rw [List.eq_nil_of_length_eq_zero (l := s.consumed.drop base) (by omega)]
      rfl
  simp only [unserializeBodyLoop, if_neg htype, unserializeField, hbcrc.data, hget, ok_bind,
    hlast, true_and, hcrc, if_pos hterm, hlow, crcCode]
  split_ifs <;> simp_all

theorem slot_shape {p q q' : Field} (hslot : Slot cnt prev p q) (h : SameShape q q') :
    q'.type = p.type ∧ (q'.data = none ↔ p.data = none) :=
  ⟨h.type.trans hslot.type, h.data.trans hslot.data⟩

/-- Behind the failure the rest of the entries are gone through, and change nothing. -/
theorem unserializeBodyLoop_failed (hbcrc : dbcrc.IsScalar .llong) (hterm : terminator.type < 0)
    (h : Items cnt prev es) (hslots : Along (Slot cnt) prev es ds) (hmoves : moves cnt prev es < 2 ^ 31)
    (hbad : s.good = false) (hbase : base ≤ s.consumed.length)
    (hbytes : s.consumed.length - base < 2 ^ 31) :
    ∀ {n : Nat} {v : Locals} {prev' : Field}, (n : Int) + es.length = len - 1 →
      prev'.type = prev.type → (prev'.data = none ↔ prev.data = none) → ∃ s' fields,
      unserializeBodyLoop T len true (toInt32 cnt) base n 0 v (some prev') s
          (ds ++ [dbcrc, terminator]) =
        .ok (crcCode (s.consumed.drop base) v.llVal, s', fields) := by
  induction hslots with
  | nil =>
    intro n v prev' hlast _ _
    obtain ⟨v', p', hget, hheld⟩ := getScalar_failed (T := T) hbcrc hbad v
    rw [← hheld]
    exact ⟨_, _, unserializeBodyLoop_last hbcrc (by simpa using hlast) hterm hbase hbytes hget⟩
  | @cons prev p q es ds hpq _ ih =>
    intro n v prev' hlast htype hdata
    rw [items_cons] at h
    rw [moves] at hmoves
    rw [List.length_cons] at hlast
    obtain ⟨v', q', hfield, hheld⟩ := unserializeField_failed (T := T) h.1 hpq htype hdata
      (by omega) hbad v
    obtain ⟨htype', hdata'⟩ := slot_shape hpq (unserializeField_sameShape hfield)
    obtain ⟨s', fields, hloop⟩ := @ih h.2 (by omega) (n + 1) v' q' (by omega) htype' hdata'
    have hnonneg : 0 ≤ q.type := by
      rw [hpq.type]
      exact h.1.type_nonneg
    refine ⟨s', q' :: fields, ?_⟩
    rw [List.cons_append, unserializeBodyLoop_step hnonneg (by omega) hfield, hloop, ok_bind, hheld]

/-- **Too few bytes.** The code tells of them exactly if the LONGLONG variable does not happen to
hold the checksum of those that were read in front of the last entry. -/
theorem unserializeBodyLoop_cut (hndebug : T'.ndebug = true) (hbcrc : dbcrc.IsScalar .llong)
    (hterm : terminator.type < 0) (h : Items cnt prev es) (hfit : LengthsFit prev es)
    (hslots : Along (Slot cnt) prev es ds) (hmoves : moves cnt prev es < 2 ^ 31) :
    ∀ {n : Nat} {v : Locals} {prev' : Field} {s : InputStream} {tail : List UInt8},
      (n : Int) + es.length = len - 1 →
      (∀ a ∈ es.head?, a.Prefixed → prev'.IsLength ∧ prev'.ivalue = prev.ivalue) →
      prev'.type = prev.type → (prev'.data = none ↔ prev.data = none) →
      s.good = true → s.beyond = 0 → base ≤ s.consumed.length →
      s.consumed.length + moves cnt prev es - base < 2 ^ 31 →
      s.rest.length < moves cnt prev es + 8 → LengthsKept T cnt prev es (s.rest ++ tail) →
      ∃ s' fields, unserializeBodyLoop T' len true (toInt32 cnt) base n 0 v (some prev') s
          (ds ++ [dbcrc, terminator]) =
        .ok (crcCode ((s.consumed ++ s.rest.take (moves cnt prev es)).drop base)
          (leftover T'.order cnt prev (es ++ [dbcrc]) s.rest v.llVal), s', fields) := by
  induction hslots with
  | @nil prev =>
    intro n v prev' s tail hlast _ _ _ hgood hbeyond hbase hbytes hrest _
    have hmoved : dbcrc.moved cnt prev = 8 := hbcrc.moved_eq _ _
    rw [moves, Nat.zero_add] at hrest
    obtain ⟨v', p', hget, hheld⟩ := getScalar_cut hndebug hbcrc hgood hbeyond hrest v
    have hleft : leftover T'.order cnt prev [dbcrc] s.rest v.llVal = v'.llVal := by
      rw [leftover, hmoved, if_pos hrest, hheld]
    rw [List.nil_append, List.nil_append, hleft, moves, List.take_zero, List.append_nil]
    exact ⟨_, _, unserializeBodyLoop_last hbcrc (by simpa using hlast) hterm hbase
      (by rw [moves] at hbytes; omega) hget⟩
  | @cons prev p q es ds hpq hslots ih =>
    intro n v prev' s tail hlast hprev htype hdata hgood hbeyond hbase hbytes hrest hkept
    rw [items_cons] at h
    rw [lengthsFit_cons] at hfit
    rw [moves] at hmoves hbytes hrest ⊢
    rw [List.length_cons] at hlast
    have hnonneg : 0 ≤ q.type := by
      rw [hpq.type]
      exact h.1.type_nonneg
    have hhead := fun ha => hprev p (by simp) ha
    by_cases hmoved : p.moved cnt prev ≤ s.rest.length
    · obtain ⟨v₁, hfield⟩ := unserializeField_item (T := T') h.1 hpq hhead (by omega) hgood hmoved v
      have hheld := unserializeField_fit_llVal h.1 hpq hmoved hfield
      obtain ⟨htype', hdata'⟩ := slot_shape hpq (unserializeField_sameShape hfield)
      rw [LengthsKept, List.take_append_of_le_length hmoved, List.drop_append_of_le_length hmoved]
        at hkept
      obtain ⟨s', fields, hloop⟩ := @ih h.2 hfit.2 (by omega) (n + 1) v₁ _
        (s.advance (p.moved cnt prev)) tail (by omega) (length_read h.2 hfit.2 hpq hkept.1) htype'
        hdata' hgood hbeyond (by rw [InputStream.advance_consumed, List.length_append]; omega)
        (by rw [InputStream.advance_consumed, List.length_append, List.length_take]; omega)
        (by rw [InputStream.advance_rest, List.length_drop]; omega) hkept.2
      refine ⟨s', q.readFrom T' (p.elements cnt prev).toNat (s.rest.take (p.moved cnt prev)) :: fields,
        ?_⟩
      rw [List.cons_append, unserializeBodyLoop_step hnonneg (by omega) hfield, hloop, ok_bind,
        InputStream.advance_consumed, InputStream.advance_rest, List.append_assoc, ← List.take_add,
        hheld, List.cons_append, leftover, if_neg (Nat.not_lt.mpr hmoved)]
    · rw [Nat.not_le] at hmoved
      obtain ⟨v₁, q', hfield, hheld⟩ := unserializeField_cut hndebug h.1 hpq hhead (by omega) hgood
        hbeyond hmoved v
      obtain ⟨htype', hdata'⟩ := slot_shape hpq (unserializeField_sameShape hfield)
      have hconsumed : (s.fail (p.moved cnt prev)).consumed = s.consumed ++ s.rest := by
        simp only [InputStream.fail, InputStream.advance_consumed, List.take_of_length_le hmoved.le]
      obtain ⟨s', fields, hloop⟩ := @unserializeBodyLoop_failed T' len cnt base
        (s.fail (p.moved cnt prev)) p dbcrc terminator es ds hbcrc hterm h.2 hslots (by omega) rfl
        (by rw [hconsumed, List.length_append]; omega)
        (by rw [hconsumed, List.length_append]; omega) (n + 1) v₁ q' (by omega) htype' hdata'
      refine ⟨s', q' :: fields, ?_⟩
      rw [List.cons_append, unserializeBodyLoop_step hnonneg (by omega) hfield, hloop, ok_bind,
        hconsumed, hheld, List.cons_append, leftover, if_pos hmoved,
        List.take_of_length_le (by omega)]

theorem leftover_concat {o : ByteOrder} {q q' : Field} (hq : q.IsScalar .llong)
    (hq' : q'.IsScalar .llong) (prev : Field) (es : List Field) :
    ∀ {bs : List UInt8} {held : BitVec 64},
      leftover o cnt prev (es ++ [q]) bs held = leftover o cnt prev (es ++ [q']) bs held := by
  induction es generalizing prev with
  | nil =>
    intro bs held
    simp only [List.nil_append, leftover, hq.moved_eq, hq'.moved_eq, hq.leftover_eq, hq'.leftover_eq]
  | cons p es ih =>
    intro bs held
    rw [List.cons_append, leftover, ih, List.cons_append, leftover]

end Body

/-! ### Packets -/

/-- An entry of fewer than 2 GiB is put on the stream. -/
theorem Item.encoded_of_moved {cnt : Int} {prev p : Field} (h : Item cnt prev p)
    (hmoved : p.moved cnt prev < 2 ^ 31) : Encoded cnt prev p := by
  rcases h.isScalar_or_isArray with ⟨ty, hp⟩ | ⟨ty, memory, hp⟩
  · exact .scalar ty hp
  · have hnonneg := h.elements_nonneg (by simp [hp.data])
    have helems := hp.elements_le cnt prev
    have hmem := h.size_le hp
    have hle := h.moved_le
    have hint : toInt32 (p.elements cnt prev) = p.elements cnt prev :=
      toInt32_eq (by omega) (by omega)
    refine .array ty memory hp h.not_misplaced ⟨fun hpos => ?_, fun _ => ?_⟩
    · have helem : p.elements cnt prev = p.count * cnt := if_pos hpos
      rw [checked, if_pos ⟨by omega, by omega⟩]
    · rw [hp.moved_eq] at hle
      rw [Field.walked, hint, toSizeT_eq hnonneg (by omega)]
      omega

theorem Items.encoded {cnt : Int} {prev : Field} {es : List Field} (h : Items cnt prev es)
    (hmoves : moves cnt prev es < 2 ^ 31) : (prev :: es).IsChain (Encoded cnt) := by
  induction es generalizing prev with
  | nil => exact .singleton _
  | cons p es ih =>
    rw [items_cons] at h
    rw [moves] at hmoves
    exact .cons_cons (h.1.encoded_of_moved (by omega)) (ih h.2 (by omega))

/-- `serialize_packet` tells that the buffer is too small. -/
def EncoderReports (T : Target) (buffer : List UInt8) (t : PacketTable) : Prop :=
  ∃ out fields, serializePacket T (.ofBuffer buffer) t.fields t.len = .ok (ERR_ENCODE_ERROE, out, fields)

/-- `unserialize_body_packet` tells that the bytes are no body. -/
def DecoderReports (T : Target) (bs : List UInt8) (fields : List Field) (len : Int) : Prop :=
  ∃ code s fields', unserializeBodyPacket T (.ofBuffer bs bs.length) fields len true =
    .ok (code, s, fields') ∧ code ≠ ERR_OK

namespace PacketTable

variable (t : PacketTable)

/-- What the LONGLONG variable holds after the body was read from the bytes. -/
def heldAfter (o : ByteOrder) (bs : List UInt8) : BitVec 64 :=
  leftover o t.cnt t.hcrc (t.bmark :: t.body ++ [t.bcrc]) bs 0

/-- The bytes that the body's checksum would cover. -/
def coveredBytes (bs : List UInt8) : List UInt8 := bs.take (4 + moves t.cnt t.bmark t.body)

variable {t} {T T' : Target} {hs : List Field} {count : Field} {bs tail buffer : List UInt8}

theorem prefix_decoded (hndebug : T'.ndebug = true) (hfit : LengthsFit t.bmark t.body)
    (hlength : t.length < 2 ^ 31) (dst : t.Dest) (hhs : IsHeader hs)
    (hcount : fieldAt hs FIELD_COUNT = .ok count) (hcnt : count.ivalue = t.cnt)
    (hbody : bs ++ tail = (t.sealed T).bodyWire T) (htail : tail ≠ []) :
    ∃ s fields, unserializeBodyPacket T' (.ofBuffer bs bs.length) (hs ++ dst.tail) t.len true =
      .ok (crcCode (t.coveredBytes bs) (t.heldAfter T'.order bs), s, fields) := by
  have hmoves := t.moves_covered
  have htotal : t.length = 44 + moves t.cnt t.bmark t.body := rfl
  have hbytes : bs.length + tail.length = 12 + moves t.cnt t.bmark t.body := by
    rw [← List.length_append, hbody, length_bodyWire]
    rfl
  have hpos := List.length_pos_of_ne_nil htail
  obtain ⟨count', hcrc', hcount', hllong, hpacket⟩ :=
    unserializeBodyPacket_header (T := T') t.len true hhs
  obtain rfl : count' = count := by simpa using hcount'.symm.trans hcount
  have hrest : (InputStream.ofBuffer bs bs.length).rest = bs := List.take_length
  have hbeyond : (InputStream.ofBuffer bs bs.length).beyond = 0 := Nat.sub_self _
  have hkept := lengthsKept_images (T := T) t.covered_items
    ((t.sealed T).bcrc.scalarWire T .llong)
  rw [← bodyImage_eq] at hkept
  change LengthsKept T t.cnt t.hcrc (t.bmark :: t.body) ((t.sealed T).bodyWire T) at hkept
  rw [← hbody] at hkept
  obtain ⟨s, fields, hloop⟩ := @unserializeBodyLoop_cut T T' t.len t.cnt 0 t.hcrc dst.bcrc
    dst.terminator _ _ hndebug dst.bcrc_llong dst.terminator_neg t.covered_items
    (lengthsFit_cons.mpr ⟨fun hprefixed => absurd t.bmark_long.data hprefixed.1, hfit⟩)
    dst.slots_body (by omega) FIELD_BMARK .zero hcrc' (.ofBuffer bs bs.length) tail
    (by rw [len, List.length_cons, FIELD_BMARK]; omega) (by simp [Field.Prefixed, t.bmark_long.data])
    (hllong.type.trans t.hcrc_llong.type.symm) (iff_of_true hllong.data t.hcrc_llong.data) rfl
    hbeyond (Nat.zero_le _) (by change 0 + _ - 0 < _; omega) (by rw [hrest]; omega)
    (by rwa [hrest])
  rw [hrest, List.drop_zero, hmoves, leftover_concat dst.bcrc_llong t.bcrc_llong] at hloop
  refine ⟨s, hs ++ fields, ?_⟩
  rw [hpacket, hcnt]
  exact congrArg (· >>= fun r => .ok (r.1, r.2.1, hs ++ r.2.2)) hloop

theorem encoder_unreported (hndebug : T.ndebug = true) (hlength : t.length < 2 ^ 31)
    (buffer : List UInt8) : ¬ EncoderReports T buffer t := by
  rintro ⟨out, fields, hrun⟩
  have hsent := @BodyTable.serializePacket_encoded t.bodyTable T (.ofBuffer buffer)
    (t.items.encoded (by rw [length] at hlength; omega)) rfl (.inl hndebug)
  change serializePacket T (.ofBuffer buffer) t.fields t.len = _ at hsent
  rw [hsent] at hrun
  exact absurd (congrArg Prod.fst (Except.ok.inj hrun)) (show ERR_OK ≠ ERR_ENCODE_ERROE by decide)

theorem decoder_reports_iff (hndebug : T'.ndebug = true)
    (hfit : LengthsFit t.bmark t.body) (hlength : t.length < 2 ^ 31) (dst : t.Dest)
    (hhs : IsHeader hs) (hcount : fieldAt hs FIELD_COUNT = .ok count) (hcnt : count.ivalue = t.cnt)
    (hbody : bs ++ tail = (t.sealed T).bodyWire T) (htail : tail ≠ []) :
    DecoderReports T' bs (hs ++ dst.tail) t.len ↔
      BitVec.ofNat 32 (t.heldAfter T'.order bs).toNat ≠ crc32 (t.coveredBytes bs) := by
  obtain ⟨s, fields, hrun⟩ := prefix_decoded hndebug hfit hlength dst hhs hcount hcnt hbody htail
  have hcode : crcCode (t.coveredBytes bs) (t.heldAfter T'.order bs) ≠ ERR_OK ↔
      BitVec.ofNat 32 (t.heldAfter T'.order bs).toNat ≠ crc32 (t.coveredBytes bs) := by
    rw [crcCode]
    split
    · rename_i hsame
      exact iff_of_false (fun h => h rfl) (fun h => h hsame)
    · rename_i hother
      exact iff_of_true (by decide) hother
  rw [← hcode]
  constructor
  · rintro ⟨code, s', fields', hrun', hne⟩
    rw [hrun] at hrun'
    cases hrun'
    exact hne
  · exact fun hne => ⟨_, _, _, hrun, hne⟩

/-- **Buffers that are too short.** Without assertions the encoder never tells of one. The decoder tells of a
body that was cut short exactly if what its LONGLONG variable holds is not the checksum of the
bytes that were there. The bound is the `int` in which `fields_size` counts a packet for its
sender. -/
theorem short_reported_iff (hndebug : T.ndebug = true) (hndebug' : T'.ndebug = true)
    (hfit : LengthsFit t.bmark t.body) (hlength : t.length < 2 ^ 31) (dst : t.Dest)
    (hhs : IsHeader hs) (hcount : fieldAt hs FIELD_COUNT = .ok count) (hcnt : count.ivalue = t.cnt)
    (hbody : bs ++ tail = (t.sealed T).bodyWire T) (htail : tail ≠ []) :
    ¬ EncoderReports T buffer t ∧
      (DecoderReports T' bs (hs ++ dst.tail) t.len ↔
        BitVec.ofNat 32 (t.heldAfter T'.order bs).toNat ≠ crc32 (t.coveredBytes bs)) :=
  ⟨encoder_unreported hndebug hlength buffer,
    decoder_reports_iff hndebug' hfit hlength dst hhs hcount hcnt hbody htail⟩

/-- Nothing is told of no bytes at all. -/
theorem empty_unreported (hndebug : T.ndebug = true) (hfit : LengthsFit t.bmark t.body)
    (hlength : t.length < 2 ^ 31) (dst : t.Dest) (hhs : IsHeader hs)
    (hcount : fieldAt hs FIELD_COUNT = .ok count) (hcnt : count.ivalue = t.cnt) :
    ¬ DecoderReports T [] (hs ++ dst.tail) t.len := by
  have hheld : t.heldAfter T.order [] = 0 := by
    rw [heldAfter, List.cons_append, leftover, t.bmark_long.moved_eq, if_pos (by decide),
      t.bmark_long.leftover_eq, if_neg (by decide)]
  have hne : (t.sealed T).bodyWire T ≠ [] := by
    intro hnil
    have hlen := (t.sealed T).length_bodyWire T
    rw [hnil, List.length_nil] at hlen
    omega
  rw [decoder_reports_iff hndebug hfit hlength dst hhs hcount hcnt (List.nil_append _) hne, hheld,
    coveredBytes, List.take_nil]
  decide

/-- A packet without a body. -/
def emptyPacket : PacketTable := ofBody 0 MSG_COMMON 0 1 [] items_nil

theorem emptyDest_bmark : (scalarField .long 0).IsScalar .long := ⟨rfl, rfl⟩

/-- The destination of a packet without a body. -/
def emptyDest : emptyPacket.Dest where
  header := (msgHeader 0 0 0 1).take FIELD_BMARK
  bmark := scalarField .long 0
  body := []
  bcrc := scalarField .llong 0
  terminator := ⟨-1, 0, 0, none, 0⟩
  isHeader := isHeader_msgHeader 0 0 0 1
  bmark_long := emptyDest_bmark
  slots := .nil
  bcrc_llong := ⟨rfl, rfl⟩
  terminator_neg := by decide

/-- The mark by itself. -/
theorem short_reported_mark :
    ¬ EncoderReports (.release .little) [] emptyPacket ∧
      DecoderReports (.release .big) [0x22, 0x22, 0x22, 0x22]
        ((msgHeader 0 0 0 1).take FIELD_BMARK ++ emptyDest.tail) emptyPacket.len := by
  have hbody : [0x22, 0x22, 0x22, 0x22] ++
      (emptyPacket.sealed (.release .little)).bcrc.scalarWire (.release .little) .llong =
        (emptyPacket.sealed (.release .little)).bodyWire (.release .little) := rfl
  obtain ⟨hencoder, hdecoder⟩ := @short_reported_iff emptyPacket (.release .little) (.release .big)
    ((msgHeader 0 0 0 1).take FIELD_BMARK) (scalarField .long 1) _ _ [] rfl rfl
    (by simp [LengthsFit, emptyPacket, ofBody]) (by decide) emptyDest (isHeader_msgHeader 0 0 0 1) rfl rfl hbody
    (List.ne_nil_of_length_pos (by rw [Field.length_scalarWire]; decide))
  exact ⟨hencoder, hdecoder.mpr (by decide +kernel)⟩

/-- No room, and no bytes. -/
theorem short_unreported :
    ¬ EncoderReports (.release .little) [] emptyPacket ∧
      ¬ DecoderReports (.release .little) []
        ((msgHeader 0 0 0 1).take FIELD_BMARK ++ emptyDest.tail) emptyPacket.len :=
  ⟨encoder_unreported rfl (by decide) [], empty_unreported rfl
    (by simp [LengthsFit, emptyPacket, ofBody]) (by decide) emptyDest (isHeader_msgHeader 0 0 0 1) rfl rfl⟩

end PacketTable

end Librtaio

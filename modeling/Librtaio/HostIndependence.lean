import Librtaio.Computation
import Librtaio.RoundTrip

/-!
# One table on two hosts

A table on a second host has the same scalars, and arrays of the same words in
that host's byte order (`SameField`). `serialize_packet` puts the same bytes on
the wire on both (`MsgTable.SameOn.wire_eq`). With assertions, the decoders run
side by side over any bytes: they fail alike, or return the same code and leave
the stream at the same place and tables that are the same again
(`unserializeHeaderPacket_hosts`, `unserializeBodyPacket_hosts`).
-/

namespace Librtaio

open Bytes Crc32

/-! ### Entries -/

/-- An entry on two hosts. LONGLONG arrays, of which the streams move words of half the
width, are left out. -/
inductive SameField (T T' : Target) : Field → Field → Prop where
  | scalar {p : Field} (hp : p.data = none) : SameField T T' p p
  | array {p : Field} {ty : DataType} {memory memory' : List UInt8} (hp : p.IsArray ty memory)
      (hty : ty ≠ .llong) (hsame : SameWords T.order T'.order ty.width memory memory') :
      SameField T T' p { p with data := some memory' }

section Entries

variable {T T' : Target} {p q : Field}

theorem SameField.type_eq (h : SameField T T' p q) : q.type = p.type := by
  cases h <;> rfl

theorem SameField.ivalue_eq (h : SameField T T' p q) : q.ivalue = p.ivalue := by
  cases h <;> rfl

theorem SameField.isNone_iff (h : SameField T T' p q) : q.data = none ↔ p.data = none := by
  cases h with
  | scalar hp => exact Iff.rfl
  | array hp => simp [hp.data]

theorem SameField.elements_eq (h : SameField T T' p q) {prev prev' : Field}
    (hprev : prev'.ivalue = prev.ivalue) (cnt : Int) :
    q.elements cnt prev' = p.elements cnt prev := by
  cases h <;> simp only [Field.elements, hprev]

end Entries

/-! ### Reading on two hosts -/

/-- The `int` count of an array, as the number of bytes that `read` is asked for. -/
theorem toInt_arrayBytes (ty : DataType) {n : Int} (hlo : -2 ^ 31 ≤ n) (hhi : n < 2 ^ 31) :
    (BitVec.ofNat 64 (ty.width * toSizeT n)).toInt = ty.width * n := by
  have hword : BitVec.ofNat 64 (ty.width * toSizeT n) = BitVec.ofInt 64 (ty.width * n) := by
    rw [toSizeT, BitVec.ofNat_mul, BitVec.ofNat_toNat, BitVec.setWidth_eq, BitVec.ofInt_mul]
    rfl
  have hbound : -2 ^ 34 ≤ (ty.width : Int) * n ∧ (ty.width : Int) * n ≤ 2 ^ 34 := by
    cases ty <;> simp only [DataType.width] <;> omega
  rw [hword, BitVec.toInt_ofInt]
  exact Int.bmod_eq_of_le (by omega) (by omega)

section Reading

variable {T T' : Target} (hdebug : T.ndebug = false) (hdebug' : T'.ndebug = false)

namespace InputStream

include hdebug hdebug'

/-- A read fails on both hosts, or changes nothing on both, or gets all its bytes. -/
theorem read_hosts {x x' : List UInt8} (hlen : x'.length = x.length) (s : InputStream) (z : Int) :
    (∃ fault, s.read T x z = .error fault ∧ s.read T' x' z = .error fault) ∨
      (∃ s', s.read T x z = .ok (false, x, s') ∧ s.read T' x' z = .ok (false, x', s')) ∨
      s.good = true ∧ ∃ n : Nat, z = n ∧ n ≤ s.rest.length ∧ n ≤ x.length := by
  by_cases hgood : s.good = true
  · by_cases hneg : z < 0
    · exact .inr (.inl ⟨{ s with good := false }, by simp [read, hgood, hneg],
        by simp [read, hgood, hneg]⟩)
    · obtain ⟨n, rfl⟩ := Int.eq_ofNat_of_zero_le (Int.not_lt.mp hneg)
      by_cases hrest : n ≤ s.rest.length
      · by_cases hx : n ≤ x.length
        · exact .inr (.inr ⟨hgood, n, rfl, hrest, hx⟩)
        · exact .inl ⟨_, read_overrun hgood hrest (by omega), read_overrun hgood hrest (by omega)⟩
      · have hgot : s.rest.take n = s.rest := List.take_of_length_le (by omega)
        by_cases hbeyond : 0 < s.beyond
        · refine .inl ⟨.outOfBounds, ?_, ?_⟩ <;>
            simp [read, xsgetn, hgood, hneg, hbeyond, Nat.not_le.mp hrest]
        · exact .inl ⟨_, read_short hdebug hgood (by omega) (by omega),
            (hlen ▸ read_short hdebug' hgood (by omega) (by omega))⟩
  · have hbad : s.good = false := by simpa using hgood
    exact .inr (.inl ⟨s, by simp [read, hbad], by simp [read, hbad]⟩)

/-- A word that was not read is the one the variable held. -/
theorem readWord_hosts {w : Nat} {swap swap' : BitVec (8 * w) → BitVec (8 * w)}
    (hswap : IsSwap T.order w swap) (hswap' : IsSwap T'.order w swap') (s : InputStream)
    (x : BitVec (8 * w)) : readWord T w swap s x = readWord T' w swap' s x := by
  have hkept (o : ByteOrder) : BitVec.ofNat (8 * w) (o.load (o.store w x.toNat)) = x := by
    apply BitVec.eq_of_toNat_eq
    rw [o.load_store, pow_256_eq, BitVec.toNat_ofNat, Nat.mod_mod, Nat.mod_eq_of_lt x.isLt]
  have hlen : (T'.order.store w x.toNat).length = (T.order.store w x.toNat).length := by
    rw [ByteOrder.length_store, ByteOrder.length_store]
  rcases read_hosts hdebug hdebug' hlen s w with ⟨fault, h, h'⟩ | ⟨s', h, h'⟩ | ⟨hgood, n, hn, hrest, -⟩
  · rw [readWord, readWord, h, h']
    rfl
  · simp only [readWord, h, h', ok_bind, hkept, Bool.false_and]
    rfl
  · obtain rfl : w = n := by exact_mod_cast hn
    rw [readWord_fit x hswap hgood hrest, readWord_fit x hswap' hgood hrest]

end InputStream

include hdebug hdebug'

theorem getScalar_eq (s : InputStream) (v : Locals) (p : Field) :
    getScalar T s v p = getScalar T' s v p := by
  have h1 (x : BitVec 8) : s.read1 T x = s.read1 T' x :=
    InputStream.readWord_hosts (w := 1) hdebug hdebug' (isSwap_id _) (isSwap_id _) s x
  have h2 (x : BitVec 16) : s.read2 T x = s.read2 T' x :=
    InputStream.readWord_hosts (w := 2) hdebug hdebug' (swap2_isSwap _) (swap2_isSwap _) s x
  have h4 (x : BitVec 32) : s.read4 T x = s.read4 T' x :=
    InputStream.readWord_hosts (w := 4) hdebug hdebug' (swap4_isSwap _) (swap4_isSwap _) s x
  have h8 (x : BitVec 64) : s.read8 T x = s.read8 T' x :=
    InputStream.readWord_hosts (w := 8) hdebug hdebug' (swap8_isSwap _) (swap8_isSwap _) s x
  simp only [getScalar, InputStream.readChar, InputStream.readShort, InputStream.readLong,
    InputStream.readLlong, InputStream.readFloat, InputStream.readDouble, h1, h2, h4, h8]

/-- A scalar becomes the same one, and stays a scalar. -/
theorem getScalar_hosts (s : InputStream) (v : Locals) (p : Field) :
    Agree (fun r r' => r' = r ∧ r.2.2.data = p.data) (getScalar T s v p) (getScalar T' s v p) := by
  rw [← getScalar_eq hdebug hdebug', getScalar]
  split
  case h_8 => exact .ok ⟨rfl, rfl⟩
  all_goals
    refine (Agree.refl _).bind fun r r' h => ?_
    subst h
    exact .ok ⟨rfl, rfl⟩

theorem getArray_hosts {ty : DataType} (hty : ty ≠ .llong) {memory memory' : List UInt8}
    (hsame : SameWords T.order T'.order ty.width memory memory') (s : InputStream) {n : Int}
    (hlo : -2 ^ 31 ≤ n) (hhi : n < 2 ^ 31) :
    Agree (fun r r' => r'.1 = r.1 ∧ r'.2.2 = r.2.2 ∧
        SameWords T.order T'.order ty.width r.2.1 r'.2.1)
      (getArray T s ty.code memory n) (getArray T' s ty.code memory' n) := by
  have helem := DataType.elemWidth_eq hty
  have hread (T : Target) (x : List UInt8) :
      getArray T s ty.code x n = s.readArray T x ty.width (toSizeT n) := by
    rw [getArray, DataType.ofCode_code]
    cases ty
    case llong => exact absurd rfl hty
    all_goals rfl
  have hbytes := toInt_arrayBytes ty hlo hhi
  rcases InputStream.read_hosts hdebug hdebug' hsame.length_eq s (ty.width * n) with
    ⟨fault, h, h'⟩ | ⟨s', h, h'⟩ | ⟨hgood, k, hk, hrest, hmem⟩
  · simp only [hread, InputStream.readArray, hbytes, h, h', error_bind]
    exact .error fault
  · simp only [hread, InputStream.readArray, hbytes, h, h', ok_bind, Bool.false_and]
    exact .ok ⟨rfl, rfl, hsame⟩
  · have hn : 0 ≤ n := by
      have hpos := ty.width_pos
      by_contra hneg
      have := Int.mul_neg_of_pos_of_neg (show (0 : Int) < ty.width by omega) (Int.not_le.mp hneg)
      omega
    have hwords : ty.width * n.toNat = k := by
      have : ((ty.width * n.toNat : Nat) : Int) = k := by
        rw [← hk, Nat.cast_mul, Int.toNat_of_nonneg hn]
      exact_mod_cast this
    rw [getArray_fit hgood hn hhi (by rw [helem]; omega) (by rw [helem]; omega),
      getArray_fit hgood hn hhi (by rw [helem]; omega) (by rw [helem, hsame.length_eq]; omega), helem]
    exact .ok ⟨rfl, rfl, hsame.overwrite ty.width_pos (by omega) (by omega)⟩

/-- One entry of the body. -/
theorem unserializeField_hosts (cnt : Int) {prev prev' : Option Field}
    (hprev : Option.Rel (SameField T T') prev prev') (v : Locals) (s : InputStream) {p q : Field}
    (h : SameField T T' p q) :
    Agree (fun r r' => r'.1 = r.1 ∧ r'.2.1 = r.2.1 ∧ r'.2.2.1 = r.2.2.1 ∧
        SameField T T' r.2.2.2 r'.2.2.2)
      (unserializeField T cnt prev v s p) (unserializeField T' cnt prev' v s q) := by
  cases h with
  | scalar hp =>
    simp only [unserializeField, hp]
    refine (getScalar_hosts hdebug hdebug' s v p).bind ?_
    rintro r _ ⟨rfl, hdata⟩
    exact .ok ⟨rfl, rfl, rfl, .scalar (hdata.trans hp)⟩
  | @array ty memory memory' hp hty hsame =>
    have harray {n : Int} (hlo : -2 ^ 31 ≤ n) (hhi : n < 2 ^ 31) :
        Agree (fun r r' => r'.1 = r.1 ∧ r'.2.1 = r.2.1 ∧ r'.2.2.1 = r.2.2.1 ∧
            SameField T T' r.2.2.2 r'.2.2.2)
          (getArray T s p.type memory n >>= fun r =>
            (.ok (none, r.2.2, v, { p with data := some r.2.1 }) :
              Except Fault (Option Int × InputStream × Locals × Field)))
          (getArray T' s p.type memory' n >>= fun r =>
            .ok (none, r.2.2, v, { p with data := some r.2.1 })) := by
      rw [hp.type]
      refine (getArray_hosts hdebug hdebug' hty hsame s hlo hhi).bind ?_
      rintro ⟨_, x, s₁⟩ ⟨_, x', s₁'⟩ ⟨-, rfl, hx⟩
      exact .ok ⟨rfl, rfl, rfl, .array (p := ⟨ty.code, _, _, some x, _⟩) ⟨rfl, rfl⟩ hty hx⟩
    have hkept : SameField T T' p { p with data := some memory' } := .array hp hty hsame
    simp only [unserializeField, hp.data]
    split
    · -- the count of the table
      rw [checked]
      split
      · rename_i hfits
        exact harray hfits.1 hfits.2
      · exact .error _
    · cases hprev with
      | none => exact .error _
      | some hprev =>
        simp only [hprev.type_eq, hprev.ivalue_eq, ne_eq, hprev.isNone_iff]
        split
        · exact .ok ⟨rfl, rfl, rfl, hkept⟩
        · split
          · split
            · exact .ok ⟨rfl, rfl, rfl, hkept⟩
            · split
              · exact harray (BitVec.le_toInt _) (BitVec.toInt_lt)
              · exact .ok ⟨rfl, rfl, rfl, hkept⟩
          · exact .ok ⟨rfl, rfl, rfl, hkept⟩

end Reading

/-! ### The decoders on two hosts -/

/-- What a decoder returns: its code, where it leaves the stream, and the table. -/
structure SameOutcome (T T' : Target) (r r' : Int × InputStream × List Field) : Prop where
  code : r'.1 = r.1
  stream : r'.2.1 = r.2.1
  fields : List.Forall₂ (SameField T T') r.2.2 r'.2.2

section Decoders

variable {T T' : Target} (hdebug : T.ndebug = false) (hdebug' : T'.ndebug = false)
  {ds ds' : List Field}

/-- The entry in front of the rest of the table. -/
theorem SameOutcome.cons {r r' : Int × InputStream × List Field} {p q : Field}
    (hp : SameField T T' p q) (h : SameOutcome T T' r r') :
    SameOutcome T T' (r.1, r.2.1, p :: r.2.2) (r'.1, r'.2.1, q :: r'.2.2) :=
  ⟨h.code, h.stream, .cons hp h.fields⟩

theorem getElem_hosts (h : List.Forall₂ (SameField T T') ds ds') (i : Nat) :
    Option.Rel (SameField T T') ds[i]? ds'[i]? := by
  induction h generalizing i with
  | nil => exact .none
  | cons hpq _ ih =>
    cases i with
    | zero => exact .some hpq
    | succ i => exact ih i

theorem fieldAt_hosts (h : List.Forall₂ (SameField T T') ds ds') (i : Nat) :
    Agree (SameField T T') (fieldAt ds i) (fieldAt ds' i) := by
  have hentry := getElem_hosts h i
  rw [fieldAt, fieldAt]
  generalize ds[i]? = x, ds'[i]? = y at hentry
  cases hentry with
  | none => exact .error _
  | some hpq => exact .ok hpq

/-- After an entry was read a loop leaves with a code or goes on. -/
theorem leave_hosts {p q : Field} (hpq : SameField T T' p q)
    (hrest : List.Forall₂ (SameField T T') ds ds') {c : Prop} [Decidable c] (code : Int)
    (s : InputStream) {x x' : Except Fault (Int × InputStream × List Field)}
    (hx : Agree (SameOutcome T T') x x') :
    Agree (SameOutcome T T')
      (if c then .ok (code, s, p :: ds)
      else do
        let (code, s, rest) ← x
        .ok (code, s, p :: rest))
      (if c then .ok (code, s, q :: ds')
      else do
        let (code, s, rest) ← x'
        .ok (code, s, q :: rest)) := by
  split
  · exact .ok ⟨rfl, rfl, .cons hpq hrest⟩
  · exact hx.bind fun _ _ hr => .ok (hr.cons hpq)

/-- What the header loop does after an entry was read. -/
theorem headerChecks_hosts {p q : Field} (hpq : SameField T T' p q)
    (hrest : List.Forall₂ (SameField T T') ds ds') (compareCrc : Bool) (n : Nat) (crc : BitVec 32)
    (s : InputStream) {x x' : Except Fault (Int × InputStream × List Field)}
    (hx : Agree (SameOutcome T T') x x') :
    Agree (SameOutcome T T')
      (if n = FIELD_HMARK ∧ toUInt32 p.ivalue ≠ HEAD_MARK then .ok (ERR_DECODE_ERROE, s, p :: ds)
      else if n = FIELD_HCRC then
        if compareCrc ∧ crc ≠ toUInt32 p.ivalue then .ok (ERR_CHECK_CRC_ERROR, s, p :: ds)
        else .ok (ERR_OK, s, p :: ds)
      else if !s.good then .ok (ERR_DECODE_ERROE, s, p :: ds)
      else do
        let (code, s, rest) ← x
        .ok (code, s, p :: rest))
      (if n = FIELD_HMARK ∧ toUInt32 q.ivalue ≠ HEAD_MARK then .ok (ERR_DECODE_ERROE, s, q :: ds')
      else if n = FIELD_HCRC then
        if compareCrc ∧ crc ≠ toUInt32 q.ivalue then .ok (ERR_CHECK_CRC_ERROR, s, q :: ds')
        else .ok (ERR_OK, s, q :: ds')
      else if !s.good then .ok (ERR_DECODE_ERROE, s, q :: ds')
      else do
        let (code, s, rest) ← x'
        .ok (code, s, q :: rest)) := by
  rw [hpq.ivalue_eq]
  split
  · exact .ok ⟨rfl, rfl, .cons hpq hrest⟩
  · split
    · split
      · exact .ok ⟨rfl, rfl, .cons hpq hrest⟩
      · exact .ok ⟨rfl, rfl, .cons hpq hrest⟩
    · exact leave_hosts hpq hrest _ s hx

include hdebug hdebug'

theorem unserializeHeaderLoop_hosts (compareCrc : Bool) (h : List.Forall₂ (SameField T T') ds ds')
    (n : Nat) (crc : BitVec 32) (v : Locals) (s : InputStream) :
    Agree (SameOutcome T T') (unserializeHeaderLoop T compareCrc n crc v s ds)
      (unserializeHeaderLoop T' compareCrc n crc v s ds') := by
  induction h generalizing n crc v s with
  | nil => exact .error _
  | @cons p q ps qs hpq hrest ih =>
    rw [unserializeHeaderLoop, unserializeHeaderLoop, hpq.type_eq]
    split
    · exact .ok ⟨rfl, rfl, .cons hpq hrest⟩
    · cases hpq with
      | scalar hp =>
        simp only [hp]
        refine (getScalar_hosts hdebug hdebug' s v p).bind ?_
        rintro r _ ⟨rfl, hdata⟩
        exact headerChecks_hosts (.scalar (hdata.trans hp)) hrest compareCrc n _ _ (ih _ _ _ _)
      | array hp hty hsame =>
        simp only [hp.data]
        exact headerChecks_hosts (.array hp hty hsame) hrest compareCrc n _ _ (ih _ _ _ _)

/-- **The header decoder runs side by side** on the two hosts, over any bytes. -/
theorem unserializeHeaderPacket_hosts (compareCrc : Bool)
    (h : List.Forall₂ (SameField T T') ds ds') (s : InputStream) :
    Agree (SameOutcome T T') (unserializeHeaderPacket T s ds compareCrc)
      (unserializeHeaderPacket T' s ds' compareCrc) :=
  unserializeHeaderLoop_hosts hdebug hdebug' compareCrc h 0 0 .zero s

theorem unserializeBodyLoop_hosts (len : Int) (compareCrc : Bool) (cnt : Int) (base : Nat)
    (h : List.Forall₂ (SameField T T') ds ds') (n : Nat) (crc : BitVec 32) (v : Locals)
    {prev prev' : Option Field} (hprev : Option.Rel (SameField T T') prev prev')
    (s : InputStream) :
    Agree (SameOutcome T T') (unserializeBodyLoop T len compareCrc cnt base n crc v prev s ds)
      (unserializeBodyLoop T' len compareCrc cnt base n crc v prev' s ds') := by
  induction h generalizing n crc v prev prev' s with
  | nil => exact .error _
  | @cons p q ps qs hpq hrest ih =>
    rw [unserializeBodyLoop, unserializeBodyLoop, hpq.type_eq]
    split
    · exact .ok ⟨rfl, rfl, .cons hpq hrest⟩
    · refine (unserializeField_hosts hdebug hdebug' cnt hprev v s hpq).bind ?_
      rintro ⟨_, _, _, p₁⟩ ⟨ret, s₁, v₁, q₁⟩ ⟨rfl, rfl, rfl, hpq₁⟩
      change SameField T T' p₁ q₁ at hpq₁
      cases ret with
      | some code => exact .ok ⟨rfl, rfl, .cons hpq₁ hrest⟩
      | none =>
        simp only [hpq₁.ivalue_eq]
        exact leave_hosts hpq₁ hrest _ s₁ (ih _ _ _ (.some hpq₁) _)

/-- **The body decoder runs side by side** on the two hosts, over any bytes. -/
theorem unserializeBodyPacket_hosts (len : Int) (compareCrc : Bool)
    (h : List.Forall₂ (SameField T T') ds ds') (s : InputStream) :
    Agree (SameOutcome T T') (unserializeBodyPacket T s ds len compareCrc)
      (unserializeBodyPacket T' s ds' len compareCrc) := by
  refine (fieldAt_hosts h FIELD_COUNT).bind fun p q hpq => ?_
  rw [hpq.ivalue_eq]
  refine (unserializeBodyLoop_hosts hdebug hdebug' len compareCrc _ _
    (List.forall₂_drop _ h) _ _ _ (getElem_hosts h _) s).bind fun r r' hr => ?_
  exact .ok ⟨hr.code, hr.stream, List.rel_append (List.forall₂_take _ h) hr.fields⟩

end Decoders

/-! ### The bytes of a table -/

section Images

variable {T T' : Target} {cnt : Int} {prev prev' p q : Field} {ty : DataType}

/-- A scalar's bytes do not depend on the host, if it is not a floating-point one. -/
theorem scalarWire_hosts (hfloat : ty ≠ .float) (hdouble : ty ≠ .double) (p : Field)
    (T T' : Target) : p.scalarWire T' ty = p.scalarWire T ty := by
  cases ty
  case float => exact absurd rfl hfloat
  case double => exact absurd rfl hdouble
  all_goals rfl

theorem SameField.eq_of_isScalar (h : SameField T T' p q) (hp : p.IsScalar ty) : q = p := by
  cases h with
  | scalar => rfl
  | array hp' => exact absurd (hp'.data.symm.trans hp.data) (by simp)

/-- A scalar that is not a floating-point one. -/
def Field.NoFloat (p : Field) : Prop := ¬ p.IsScalar .float ∧ ¬ p.IsScalar .double

theorem wire_hosts (h : Entry cnt prev p) (hsame : SameField T T' p q)
    (hprev : prev'.ivalue = prev.ivalue) (hp : p.NoFloat) :
    q.wire T' cnt prev' = p.wire T cnt prev := by
  have helem := hsame.elements_eq hprev cnt
  have hnonneg := h.item.elements_nonneg
  have hsize {ty : DataType} {memory : List UInt8} (harray : p.IsArray ty memory) :=
    h.item.size_le harray
  cases hsame with
  | scalar hdata =>
    rcases h.item.isScalar_or_isArray with ⟨ty, hscalar⟩ | ⟨ty, memory, harray⟩
    · rw [hscalar.wire_eq, hscalar.wire_eq]
      exact scalarWire_hosts (fun hty => hp.1 (hty ▸ hscalar)) (fun hty => hp.2 (hty ▸ hscalar)) p T T'
    · exact absurd (harray.data.symm.trans hdata) (by simp)
  | @array ty memory memory' harray hty hwords =>
    have hq : ({ p with data := some memory' } : Field).IsArray ty memory' := ⟨harray.type, rfl⟩
    have hroom := hsize harray
    rw [harray.size_eq, ← Entry.width_mul_toNat ty (hnonneg (by simp [harray.data]))] at hroom
    rw [hq.wire_eq, harray.wire_eq, helem]
    exact hwords.flipWords ty.width_pos (by exact_mod_cast hroom)

theorem wires_hosts {es es' : List Field} (h : Entries cnt prev es)
    (hsame : List.Forall₂ (SameField T T') es es') (hprev : prev'.ivalue = prev.ivalue)
    (hes : ∀ p ∈ es, p.NoFloat) : wires T' cnt prev' es' = wires T cnt prev es := by
  induction hsame generalizing prev prev' with
  | nil => rfl
  | @cons p q es es' hpq hrest ih =>
    rw [entries_cons] at h
    rw [List.forall_mem_cons] at hes
    rw [wires, wires, wire_hosts h.1 hpq hprev hes.1, ih h.2 hpq.ivalue_eq hes.2]

end Images

/-! ### Tables -/

namespace MsgTable

/-- Two tables are one table on two hosts. -/
def SameOn (t : MsgTable) (T T' : Target) (u : MsgTable) : Prop :=
  List.Forall₂ (SameField T T') t.fields u.fields

namespace SameOn

variable {t u : MsgTable} {T T' : Target}

theorem scalar_eq {p q : Field} {ty : DataType} (h : Option.Rel (SameField T T') (some p) (some q))
    (hp : p.IsScalar ty) : q = p := by
  cases h with
  | some h => exact h.eq_of_isScalar hp

theorem hmark_eq (h : t.SameOn T T' u) : u.hmark = t.hmark :=
  scalar_eq (getElem_hosts h FIELD_HMARK) t.hmark_long

theorem count_eq (h : t.SameOn T T' u) : u.count = t.count :=
  scalar_eq (getElem_hosts h FIELD_COUNT) t.count_long

theorem hcrc_eq (h : t.SameOn T T' u) : u.hcrc = t.hcrc :=
  scalar_eq (getElem_hosts h FIELD_HCRC) t.hcrc_llong

theorem bmark_eq (h : t.SameOn T T' u) : u.bmark = t.bmark :=
  scalar_eq (getElem_hosts h FIELD_BMARK) t.bmark_long

theorem cnt_eq (h : t.SameOn T T' u) : u.cnt = t.cnt := congrArg Field.ivalue h.count_eq

theorem plain (h : t.SameOn T T' u) : List.Forall₂ (SameField T T') t.plain u.plain :=
  List.forall₂_take 5 (List.forall₂_drop 1 h)

theorem tail (h : t.SameOn T T' u) :
    List.Forall₂ (SameField T T') (t.body ++ [t.bcrc, t.terminator])
      (u.body ++ [u.bcrc, u.terminator]) := List.forall₂_drop 8 h

theorem length_eq (h : t.SameOn T T' u) : u.body.length = t.body.length := by
  have hlen := h.tail.length_eq
  rw [List.length_append, List.length_append] at hlen
  simpa using hlen.symm

theorem body (h : t.SameOn T T' u) : List.Forall₂ (SameField T T') t.body u.body := by
  have htake := List.forall₂_take t.body.length h.tail
  rwa [List.take_left, List.take_left' h.length_eq] at htake

theorem bcrc_eq (h : t.SameOn T T' u) : u.bcrc = t.bcrc := by
  have hdrop := List.forall₂_drop t.body.length h.tail
  rw [List.drop_left, List.drop_left' h.length_eq] at hdrop
  rcases hdrop with _ | ⟨hbcrc, _⟩
  exact hbcrc.eq_of_isScalar t.bcrc_llong

theorem headerImage_eq (h : t.SameOn T T' u) : u.headerImage T' = t.headerImage T := by
  have hplain : ∀ p ∈ t.plain, p.NoFloat := by
    have long {p : Field} (hp : p.IsScalar .long) : p.NoFloat :=
      ⟨fun hf => absurd (hp.type.symm.trans hf.type) (by decide),
        fun hd => absurd (hp.type.symm.trans hd.type) (by decide)⟩
    simp only [MsgTable.plain, List.forall_mem_cons]
    exact ⟨long t.method_long, long t.bsize_long, long t.ret_long, long t.time_long,
      long t.count_long, by simp⟩
  rw [headerImage, headerImage, h.hmark_eq, h.cnt_eq,
    wires_hosts t.plain_entries h.plain rfl hplain]
  rfl

theorem bodyImage_eq (h : t.SameOn T T' u) (hbody : ∀ p ∈ t.body, p.NoFloat) :
    u.bodyImage T' = t.bodyImage T := by
  rw [bodyImage, bodyImage, h.bmark_eq, h.cnt_eq, wires_hosts t.entries h.body rfl hbody]
  rfl

/-- **The two hosts write the same packet.** -/
theorem wire_eq (h : t.SameOn T T' u) (hbody : ∀ p ∈ t.body, p.NoFloat) :
    (u.sealed T').wire T' = (t.sealed T).wire T := by
  have hheader : (u.sealed T').headerImage T' = (t.sealed T).headerImage T := h.headerImage_eq
  have himage : (u.sealed T').bodyImage T' = (t.sealed T).bodyImage T := h.bodyImage_eq hbody
  have hcrc : (u.sealed T').hcrc = (t.sealed T).hcrc := by
    simp only [sealed, h.headerImage_eq, h.hcrc_eq]
  have hbcrc : (u.sealed T').bcrc = (t.sealed T).bcrc := by
    simp only [sealed, h.bodyImage_eq hbody, h.bcrc_eq]
  rw [wire, wire, headerWire, headerWire, bodyWire, bodyWire, hheader, himage, hcrc, hbcrc]
  rfl

theorem size_eq (h : t.SameOn T T' u) (hbody : ∀ p ∈ t.body, p.NoFloat) : u.size = t.size := by
  have hlen := (u.sealed T').length_wire T'
  rw [h.wire_eq hbody, (t.sealed T).length_wire T] at hlen
  exact hlen.symm

end SameOn

/-- What is written and read does not depend on the host that a table is on: there is one
packet, the decoders run side by side over any bytes where assertions are compiled in, and
a table that can be restored is restored from the packet on every host. -/
structure HostIndependent (t : MsgTable) (T T' : Target) (u : MsgTable) (packet : List UInt8) :
    Prop where
  length_eq : packet.length = t.size
  written : ∀ buffer : List UInt8, t.size ≤ buffer.length →
    (∃ fields, serializePacket T (.ofBuffer buffer) t.fields t.len =
      .ok (ERR_OK, (OutputStream.ofBuffer buffer).append packet, fields)) ∧
    ∃ fields, serializePacket T' (.ofBuffer buffer) u.fields u.len =
      .ok (ERR_OK, (OutputStream.ofBuffer buffer).append packet, fields)
  sideBySide : T.ndebug = false → T'.ndebug = false → ∀ ds ds' : List Field,
    List.Forall₂ (SameField T T') ds ds' → ∀ (s : InputStream) (len : Int) (compareCrc : Bool),
      Agree (SameOutcome T T') (unserializeHeaderPacket T s ds compareCrc)
        (unserializeHeaderPacket T' s ds' compareCrc) ∧
      Agree (SameOutcome T T') (unserializeBodyPacket T s ds len compareCrc)
        (unserializeBodyPacket T' s ds' len compareCrc)
  restored : t.Decodable → t.bsize.InRange → ∀ (R : Target) (dst : t.Dest) (compareCrc : Bool),
    ∃ s₁ dst₁ s₂ dst₂,
      unserializeHeaderPacket R (.ofBuffer (packet.take 32) 32) dst.fields compareCrc =
        .ok (ERR_OK, s₁, dst₁) ∧
      unserializeBodyPacket R (.ofBuffer (packet.drop 32) (packet.length - 32)) dst₁ t.len
        compareCrc = .ok (ERR_OK, s₂, dst₂) ∧
      (t.sealed T).RestoredIn T R dst₂

/-- **The wire image does not depend on the host's byte order**, for a table that `fields_size` can
count in its `int`. -/
theorem hostIndependent {t u : MsgTable} {T T' : Target} (h : t.SameOn T T' u)
    (hbody : ∀ p ∈ t.body, p.NoFloat) (hsize : t.size < 2 ^ 31) :
    ∃ packet, t.HostIndependent T T' u packet := by
  have hlen := (t.sealed T).length_wire T
  have hheader := (t.sealed T).length_headerWire T
  refine ⟨(t.sealed T).wire T, hlen, fun buffer hroom => ⟨?_, ?_⟩, ?_, ?_⟩
  · exact ⟨_, t.serializePacket_fields T hsize buffer hroom⟩
  · have hwritten := u.serializePacket_fields T' (by rwa [h.size_eq hbody]) buffer
      (by rwa [h.size_eq hbody])
    rw [h.wire_eq hbody] at hwritten
    exact ⟨_, hwritten⟩
  · intro hdebug hdebug' ds ds' hds s len compareCrc
    exact ⟨unserializeHeaderPacket_hosts hdebug hdebug' compareCrc hds s,
      unserializeBodyPacket_hosts hdebug hdebug' len compareCrc hds s⟩
  · intro hdecodable hbsize R dst compareCrc
    have htake : ((t.sealed T).wire T).take 32 = (t.sealed T).headerWire T := List.take_left' hheader
    have hdrop : ((t.sealed T).wire T).drop 32 = (t.sealed T).bodyWire T := List.drop_left' hheader
    have hsplit : ((t.sealed T).wire T).length - 32 = ((t.sealed T).bodyWire T).length := by
      rw [← hdrop, List.length_drop]
    rw [htake, hdrop, hsplit]
    obtain ⟨dst₁, dst₂, hread₁, hread₂, hrestored⟩ := hdecodable.packet_restored (T := T) hbsize
      hsize dst (.ofBuffer ((t.sealed T).headerWire T) 32)
      (.ofBuffer ((t.sealed T).bodyWire T) ((t.sealed T).bodyWire T).length) rfl rfl rfl
      (by rw [List.append_nil]; exact List.take_of_length_le hheader.le)
      (by rw [List.append_nil]; exact List.take_length)
    exact ⟨_, dst₁, _, dst₂, hread₁, hread₂, hrestored⟩

/-- A body of one SHORT array of two elements. -/
def shorts (memory : List UInt8) (h : 4 ≤ memory.length) : MsgTable :=
  ofBody 0 MSG_COMMON 0 1 [⟨DataType.short.code, 0, 0, some memory, 2⟩] (by
    rw [entries_cons]
    refine ⟨.counted .short memory ⟨rfl, rfl⟩ (by decide) (show (1 : Int) ≤ 2 by decide)
      (by decide) ?_, entries_nil⟩
    change ((4 : Nat) : Int) ≤ memory.length
    exact_mod_cast h)

/-- The numbers 1 and 2 in the memory of a little-endian and of a big-endian host. -/
theorem hostIndependent_shorts :
    ∃ packet, (shorts [1, 0, 2, 0] (by decide)).HostIndependent (.build .little) (.build .big)
      (shorts [0, 1, 0, 2] (by decide)) packet := by
  refine hostIndependent ?_ ?_ (by decide)
  · have header : List.Forall₂ (SameField (.build .little) (.build .big))
        (msgHeader 0 MSG_COMMON 0 1) (msgHeader 0 MSG_COMMON 0 1) :=
      List.forall₂_same.mpr fun p hp => .scalar (by
        simp only [msgHeader, List.mem_cons, List.not_mem_nil, or_false] at hp
        rcases hp with rfl | rfl | rfl | rfl | rfl | rfl | rfl | rfl <;> rfl)
    have array : SameField (.build .little) (.build .big)
        ⟨DataType.short.code, 0, 0, some [1, 0, 2, 0], 2⟩
        ⟨DataType.short.code, 0, 0, some [0, 1, 0, 2], 2⟩ :=
      @SameField.array _ _ _ .short _ _ ⟨rfl, rfl⟩ (by decide) ⟨rfl, by decide⟩
    exact List.rel_append header (.cons array (.cons (.scalar rfl) (.cons (.scalar rfl) .nil)))
  · intro p hp
    obtain rfl := List.mem_singleton.mp hp
    exact ⟨fun h => absurd h.data (by simp), fun h => absurd h.data (by simp)⟩

end MsgTable

end Librtaio

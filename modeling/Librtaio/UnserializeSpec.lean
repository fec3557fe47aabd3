import Librtaio.SerializeSpec

/-!
# What the decoders read

Over any bytes, in network order. A scalar takes its width from the stream and
becomes the number the bytes spell (`getScalar_fit`), an array takes its
elements (`getArray_fit`). With assertions, an entry the stream has too few
bytes for does not return (`getScalar_short`, `getArray_error`). The header
decoder accepts exactly the headers with the mark and the checksum in place
(`unserializeHeaderPacket_fields`).
-/

namespace Librtaio

open Bytes Crc32 FloatCast

/-! ### Scalars -/

namespace Field

/-- The entry after a scalar of the type was read from `bs` into it. -/
def scalarRead (p : Field) (ty : DataType) (bs : List UInt8) : Field :=
  match ty with
  | .char | .byte => { p with ivalue := (BitVec.ofNat 8 (ofBeBytes bs)).toInt }
  | .short => { p with ivalue := (BitVec.ofNat 16 (ofBeBytes bs)).toInt }
  | .long => { p with ivalue := (BitVec.ofNat 32 (ofBeBytes bs)).toInt }
  | .llong => { p with ivalue := (BitVec.ofNat 64 (ofBeBytes bs)).toInt }
  | .float => { p with fvalue := toDouble (BitVec.ofNat 32 (ofBeBytes bs)) }
  | .double => { p with fvalue := BitVec.ofNat 64 (ofBeBytes bs) }

@[simp] theorem scalarRead_type (p : Field) (ty : DataType) (bs : List UInt8) :
    (p.scalarRead ty bs).type = p.type := by
  cases ty <;> rfl

@[simp] theorem scalarRead_data (p : Field) (ty : DataType) (bs : List UInt8) :
    (p.scalarRead ty bs).data = p.data := by
  cases ty <;> rfl

@[simp] theorem scalarRead_count (p : Field) (ty : DataType) (bs : List UInt8) :
    (p.scalarRead ty bs).count = p.count := by
  cases ty <;> rfl

theorem IsScalar.scalarRead {p : Field} {ty : DataType} (h : p.IsScalar ty) (bs : List UInt8) :
    (p.scalarRead ty bs).IsScalar ty :=
  ⟨by rw [scalarRead_type, h.type], by rw [scalarRead_data, h.data]⟩

end Field

section Scalars

variable {T : Target} {s : InputStream} {v : Locals} {p : Field} {ty : DataType}

open InputStream

theorem Field.IsScalar.ofCode (hp : p.IsScalar ty) : DataType.ofCode p.type = some ty := by
  rw [hp.type, DataType.ofCode_code]

theorem getScalar_fit (v : Locals) (hp : p.IsScalar ty) (hgood : s.good = true)
    (hrest : ty.width ≤ s.rest.length) :
    ∃ v', getScalar T s v p =
      .ok (s.advance ty.width, v', p.scalarRead ty (s.rest.take ty.width)) := by
  rw [getScalar, hp.ofCode]
  cases ty
  · have hread : s.readChar T v.cVal = _ := readWord_fit (w := 1) v.cVal (isSwap_id T.order) hgood hrest
    exact ⟨_, by rw [hread]; rfl⟩
  · have hread : s.readChar T v.cVal = _ := readWord_fit (w := 1) v.cVal (isSwap_id T.order) hgood hrest
    exact ⟨_, by rw [hread]; rfl⟩
  · have hread : s.readShort T v.sVal = _ := readWord_fit (w := 2) v.sVal (swap2_isSwap T.order) hgood hrest
    exact ⟨_, by rw [hread]; rfl⟩
  · have hread : s.readLong T v.lVal = _ := readWord_fit (w := 4) v.lVal (swap4_isSwap T.order) hgood hrest
    exact ⟨_, by rw [hread]; rfl⟩
  · have hread : s.readLlong T v.llVal = _ := readWord_fit (w := 8) v.llVal (swap8_isSwap T.order) hgood hrest
    exact ⟨_, by rw [hread]; rfl⟩
  · have hread : s.readFloat T v.fVal = _ := readWord_fit (w := 4) v.fVal (swap4_isSwap T.order) hgood hrest
    exact ⟨_, by rw [hread]; rfl⟩
  · have hread : s.readDouble T v.dVal = _ := readWord_fit (w := 8) v.dVal (swap8_isSwap T.order) hgood hrest
    exact ⟨_, by rw [hread]; rfl⟩

theorem getScalar_short (v : Locals) (hp : p.IsScalar ty) (hdebug : T.ndebug = false)
    (hgood : s.good = true) (hbeyond : s.beyond = 0) (hrest : s.rest.length < ty.width) :
    getScalar T s v p = .error .assertion := by
  rw [getScalar, hp.ofCode]
  cases ty
  · have hread : s.readChar T v.cVal = _ := readWord_short (w := 1) v.cVal hdebug hgood hbeyond hrest
    rw [hread]
    rfl
  · have hread : s.readChar T v.cVal = _ := readWord_short (w := 1) v.cVal hdebug hgood hbeyond hrest
    rw [hread]
    rfl
  · have hread : s.readShort T v.sVal = _ := readWord_short (w := 2) v.sVal hdebug hgood hbeyond hrest
    rw [hread]
    rfl
  · have hread : s.readLong T v.lVal = _ := readWord_short (w := 4) v.lVal hdebug hgood hbeyond hrest
    rw [hread]
    rfl
  · have hread : s.readLlong T v.llVal = _ := readWord_short (w := 8) v.llVal hdebug hgood hbeyond hrest
    rw [hread]
    rfl
  · have hread : s.readFloat T v.fVal = _ := readWord_short (w := 4) v.fVal hdebug hgood hbeyond hrest
    rw [hread]
    rfl
  · have hread : s.readDouble T v.dVal = _ := readWord_short (w := 8) v.dVal hdebug hgood hbeyond hrest
    rw [hread]
    rfl

end Scalars

/-! ### Arrays -/

section Arrays

variable {T : Target} {s : InputStream} {ty : DataType} {memory : List UInt8} {n : Int}

/-- Every array function reads words of the type's element width. -/
theorem getArray_eq (hn : 0 ≤ n) (hlt : n < 2 ^ 31) :
    getArray T s ty.code memory n = s.readArray T memory ty.elemWidth n.toNat := by
  rw [getArray, DataType.ofCode_code, toSizeT_eq hn hlt]
  cases ty <;> rfl

theorem elemWidth_mul_lt (ty : DataType) (hn : 0 ≤ n) (hlt : n < 2 ^ 31) :
    ty.elemWidth * n.toNat < 2 ^ 63 := by
  have hwidth : ty.elemWidth ≤ 8 := by cases ty <;> decide
  calc
    ty.elemWidth * n.toNat ≤ 8 * n.toNat := Nat.mul_le_mul_right _ hwidth
    _ < 2 ^ 63 := by omega

theorem getArray_fit (hgood : s.good = true) (hn : 0 ≤ n) (hlt : n < 2 ^ 31)
    (hrest : ty.elemWidth * n.toNat ≤ s.rest.length)
    (hmem : ty.elemWidth * n.toNat ≤ memory.length) :
    getArray T s ty.code memory n =
      .ok (true, T.order.flipWords ty.elemWidth n.toNat s.rest ++
          memory.drop (ty.elemWidth * n.toNat),
        s.advance (ty.elemWidth * n.toNat)) := by
  rw [getArray_eq hn hlt]
  exact InputStream.readArray_fit ty.wordSize_elemWidth (elemWidth_mul_lt ty hn hlt) hgood hrest hmem

theorem getArray_error (hdebug : T.ndebug = false) (hgood : s.good = true) (hbeyond : s.beyond = 0)
    (hn : 0 ≤ n) (hlt : n < 2 ^ 31)
    (h : ¬ (ty.elemWidth * n.toNat ≤ s.rest.length ∧ ty.elemWidth * n.toNat ≤ memory.length)) :
    ∃ fault, getArray T s ty.code memory n = .error fault := by
  rw [getArray_eq hn hlt]
  exact InputStream.readArray_error hdebug (elemWidth_mul_lt ty hn hlt) hgood hbeyond h

end Arrays

/-! ### The header -/

/-- The low word of a number read as a signed one. -/
theorem toUInt32_toInt {w : Nat} (hw : 32 ≤ w) (n : Nat) :
    toUInt32 (BitVec.ofNat w n).toInt = BitVec.ofNat 32 n := by
  have hdvd : (2 : Nat) ^ 32 ∣ 2 ^ w := Nat.pow_dvd_pow 2 hw
  apply BitVec.eq_of_toInt_eq
  rw [toUInt32, BitVec.toInt_ofInt, BitVec.toInt_ofNat', BitVec.toInt_ofNat']
  exact Int.bmod_bmod_of_dvd hdvd

namespace InputStream

theorem advance_advance (s : InputStream) (m n : Nat) :
    (s.advance m).advance n = s.advance (m + n) := by
  simp [advance, List.take_add]

end InputStream

/-- The entries after scalars of the types were read from `bs` into them. -/
def scalarsRead : List Field → List DataType → List UInt8 → List Field
  | p :: ps, ty :: tys, bs =>
    p.scalarRead ty (bs.take ty.width) :: scalarsRead ps tys (bs.drop ty.width)
  | _, _, _ => []

def widths (tys : List DataType) : Nat := (tys.map DataType.width).sum

/-- The types of the entries the header decoder reads. -/
def headerTypes : List DataType := [.long, .long, .long, .long, .long, .long, .llong]

/-- The first entries of a table, up to `FIELD_HCRC`. -/
def IsHeader (hs : List Field) : Prop := List.Forall₂ Field.IsScalar hs headerTypes

theorem isHeader_msgHeader (now method ret count : Int) :
    IsHeader ((msgHeader now method ret count).take FIELD_BMARK) := by
  have long (z : Int) : (scalarField .long z).IsScalar .long := ⟨rfl, rfl⟩
  exact .cons (long _) (.cons (long _) (.cons (long _) (.cons (long _) (.cons (long _)
    (.cons (long _) (.cons ⟨rfl, rfl⟩ .nil))))))

/-- The header decoder's two checks. -/
def HeaderAccepted (compareCrc : Bool) (bs : List UInt8) : Prop :=
  BitVec.ofNat 32 (ofBeBytes (bs.take 4)) = HEAD_MARK ∧
    (compareCrc = true →
      crc32 (bs.take 24) = BitVec.ofNat 32 (ofBeBytes ((bs.drop 24).take 8)))

instance (compareCrc : Bool) (bs : List UInt8) : Decidable (HeaderAccepted compareCrc bs) :=
  inferInstanceAs (Decidable (_ ∧ _))

section Header

variable {T : Target} {compareCrc : Bool} {n : Nat} {crc : BitVec 32} {v : Locals}
  {s s' : InputStream} {p : Field} {ty : DataType} {rest rest' : List Field} {code : Int}

theorem unserializeHeaderLoop_step (v : Locals) (hp : p.IsScalar ty) (hmark : n ≠ FIELD_HMARK)
    (hhcrc : n ≠ FIELD_HCRC) (hgood : s.good = true) (hrest : ty.width ≤ s.rest.length)
    (hloop : ∀ v', unserializeHeaderLoop T compareCrc (n + 1) crc v' (s.advance ty.width) rest =
      .ok (code, s', rest')) :
    unserializeHeaderLoop T compareCrc n crc v s (p :: rest) =
      .ok (code, s', p.scalarRead ty (s.rest.take ty.width) :: rest') := by
  obtain ⟨v', hget⟩ := getScalar_fit (T := T) v hp hgood hrest
  have htype : ¬ p.type < 0 := hp.type_nonneg.not_gt
  simp only [unserializeHeaderLoop, if_neg htype, hp.data, hget, ok_bind, hmark, hhcrc, false_and,
    if_false, InputStream.advance_good, hgood, Bool.not_true, Bool.false_eq_true, hloop]

theorem unserializeHeaderLoop_scalars {ps : List Field} {tys : List DataType}
    (hps : List.Forall₂ Field.IsScalar ps tys) (v : Locals) (hmark : FIELD_HMARK < n)
    (hhcrc : n + ps.length ≤ FIELD_HCRC) (hgood : s.good = true)
    (hrest : widths tys ≤ s.rest.length)
    (hloop : ∀ v', unserializeHeaderLoop T compareCrc (n + ps.length) crc v'
      (s.advance (widths tys)) rest = .ok (code, s', rest')) :
    unserializeHeaderLoop T compareCrc n crc v s (ps ++ rest) =
      .ok (code, s', scalarsRead ps tys s.rest ++ rest') := by
  induction hps generalizing n v s with
  | nil =>
    have hadvance : s.advance (widths []) = s := by simp [InputStream.advance, widths]
    rw [hadvance] at hloop
    exact hloop v
  | @cons p ty ps tys hp hps ih =>
    have hwidths : widths (ty :: tys) = ty.width + widths tys := by simp [widths]
    rw [hwidths] at hrest hloop
    rw [List.length_cons] at hhcrc hloop
    refine unserializeHeaderLoop_step v hp (by omega) (by omega) hgood (by omega) ?_
    intro v'
    refine ih v' (by omega) (by omega) hgood ?_ fun v'' => ?_
    · rw [InputStream.advance_rest, List.length_drop]
      omega
    · rw [InputStream.advance_advance, show n + 1 + ps.length = n + (ps.length + 1) by omega]
      exact hloop v''

theorem IsHeader.parts {hs : List Field} (h : IsHeader hs) :
    ∃ hmark plain hcrc, hs = hmark :: plain ++ [hcrc] ∧ hmark.IsScalar .long ∧
      List.Forall₂ Field.IsScalar plain (List.replicate 5 .long) ∧ hcrc.IsScalar .llong := by
  rcases h with _ | ⟨h0, _ | ⟨h1, _ | ⟨h2, _ | ⟨h3, _ | ⟨h4, _ | ⟨h5, _ | ⟨h6, _ | _⟩⟩⟩⟩⟩⟩⟩
  exact ⟨_, [_, _, _, _, _], _, rfl, h0, .cons h1 (.cons h2 (.cons h3 (.cons h4 (.cons h5 .nil)))),
    h6⟩

theorem isScalar_scalarsRead {ps : List Field} {tys : List DataType}
    (h : List.Forall₂ Field.IsScalar ps tys) (bs : List UInt8) :
    List.Forall₂ Field.IsScalar (scalarsRead ps tys bs) tys := by
  induction h generalizing bs with
  | nil => exact .nil
  | cons hp hps ih => exact .cons (hp.scalarRead _) (ih _)

theorem unserializeHeaderLoop_hcrc (v : Locals) (hp : p.IsScalar .llong)
    (hconsumed : s.consumed.length = 24) (hgood : s.good = true) (hrest : 8 ≤ s.rest.length) :
    unserializeHeaderLoop T compareCrc FIELD_HCRC crc v s (p :: rest) =
      .ok (if compareCrc = true → crc32 s.consumed = BitVec.ofNat 32 (ofBeBytes (s.rest.take 8))
          then ERR_OK else ERR_CHECK_CRC_ERROR,
        s.advance 8, p.scalarRead .llong (s.rest.take 8) :: rest) := by
  obtain ⟨v', hget⟩ := getScalar_fit (T := T) v hp hgood hrest
  have htype : ¬ p.type < 0 := hp.type_nonneg.not_gt
  have hlength : toInt32 s.consumed.length = 24 := by rw [hconsumed]; rfl
  have htake : s.consumed.take (24 : Int).toNat = s.consumed :=
    List.take_of_length_le (by rw [hconsumed]; decide)
  have hvalue : toUInt32 (p.scalarRead .llong (s.rest.take 8)).ivalue =
      BitVec.ofNat 32 (ofBeBytes (s.rest.take 8)) := toUInt32_toInt (by decide) _
  simp only [unserializeHeaderLoop, if_neg htype, hp.data, hget, ok_bind, hlength, htake, hvalue,
    DataType.width, show FIELD_HCRC ≠ FIELD_HMARK by decide, false_and, if_false, if_true, true_and]
  cases compareCrc
  · rfl
  · by_cases hcrc : crc32 s.consumed = BitVec.ofNat 32 (ofBeBytes (s.rest.take 8)) <;> simp [hcrc]

theorem unserializeHeaderLoop_hmark (v : Locals) (hp : p.IsScalar .long) (hgood : s.good = true)
    (hrest : 4 ≤ s.rest.length) (hmark : BitVec.ofNat 32 (ofBeBytes (s.rest.take 4)) = HEAD_MARK)
    (hloop : ∀ v', unserializeHeaderLoop T compareCrc 1 crc v' (s.advance 4) rest =
      .ok (code, s', rest')) :
    unserializeHeaderLoop T compareCrc FIELD_HMARK crc v s (p :: rest) =
      .ok (code, s', p.scalarRead .long (s.rest.take 4) :: rest') := by
  obtain ⟨v', hget⟩ := getScalar_fit (T := T) v hp hgood hrest
  have htype : ¬ p.type < 0 := hp.type_nonneg.not_gt
  have hvalue : toUInt32 (p.scalarRead .long (s.rest.take 4)).ivalue = HEAD_MARK :=
    (toUInt32_toInt (by decide) _).trans hmark
  simp only [unserializeHeaderLoop, if_neg htype, hp.data, hget, ok_bind, hvalue, DataType.width,
    show FIELD_HMARK ≠ FIELD_HCRC by decide, false_and, and_false, if_false, not_true, ne_eq,
    InputStream.advance_good, hgood, Bool.not_true, Bool.false_eq_true]
  rw [show FIELD_HMARK + 1 = 1 by rfl, hloop, ok_bind]

theorem unserializeHeaderLoop_noMark (v : Locals) (hp : p.IsScalar .long) (hgood : s.good = true)
    (hrest : 4 ≤ s.rest.length) (hmark : BitVec.ofNat 32 (ofBeBytes (s.rest.take 4)) ≠ HEAD_MARK) :
    unserializeHeaderLoop T compareCrc FIELD_HMARK crc v s (p :: rest) =
      .ok (ERR_DECODE_ERROE, s.advance 4, p.scalarRead .long (s.rest.take 4) :: rest) := by
  obtain ⟨v', hget⟩ := getScalar_fit (T := T) v hp hgood hrest
  have htype : ¬ p.type < 0 := hp.type_nonneg.not_gt
  have hvalue : toUInt32 (p.scalarRead .long (s.rest.take 4)).ivalue ≠ HEAD_MARK := by
    rw [show toUInt32 (p.scalarRead .long (s.rest.take 4)).ivalue = _ from
      toUInt32_toInt (by decide) _]
    exact hmark
  simp only [unserializeHeaderLoop, if_neg htype, hp.data, hget, ok_bind, hvalue, DataType.width,
    ne_eq, not_false_iff, true_and, if_true]

/-- A header with its mark in place is read to its end. -/
theorem unserializeHeaderPacket_mark {hs : List Field} (hhs : IsHeader hs)
    (hconsumed : s.consumed = []) (hgood : s.good = true) (hrest : 32 ≤ s.rest.length)
    (hmark : BitVec.ofNat 32 (ofBeBytes (s.rest.take 4)) = HEAD_MARK) :
    unserializeHeaderPacket T s (hs ++ rest) compareCrc =
      .ok (if HeaderAccepted compareCrc s.rest then ERR_OK else ERR_CHECK_CRC_ERROR,
        s.advance 32, scalarsRead hs headerTypes s.rest ++ rest) := by
  obtain ⟨h0, plain, h6, rfl, hh0, hplain, hh6⟩ := hhs.parts
  have hlength : plain.length = 5 := by rw [hplain.length_eq, List.length_replicate]
  have hread : scalarsRead (h0 :: plain ++ [h6]) headerTypes s.rest ++ rest =
      h0.scalarRead .long (s.rest.take 4) ::
        (scalarsRead plain (List.replicate 5 .long) (s.rest.drop 4) ++
          h6.scalarRead .llong ((s.rest.drop 24).take 8) :: rest) := by
    obtain ⟨p1, p2, p3, p4, p5, rfl⟩ : ∃ p1 p2 p3 p4 p5, plain = [p1, p2, p3, p4, p5] := by
      match plain, hlength with
      | [p1, p2, p3, p4, p5], _ => exact ⟨p1, p2, p3, p4, p5, rfl⟩
    simp [scalarsRead, headerTypes, DataType.width, List.replicate]
  have hcode : HeaderAccepted compareCrc s.rest ↔ (compareCrc = true →
      crc32 (s.advance 24).consumed =
        BitVec.ofNat 32 (ofBeBytes ((s.advance 24).rest.take 8))) := by
    simp only [HeaderAccepted, hmark, true_and, InputStream.advance_consumed, hconsumed,
      List.nil_append, InputStream.advance_rest]
  have hsplit : h0 :: plain ++ [h6] ++ rest = h0 :: (plain ++ h6 :: rest) := by simp
  rw [hread, unserializeHeaderPacket, hsplit]
  refine unserializeHeaderLoop_hmark _ hh0 hgood (by omega) hmark ?_
  intro v'
  refine unserializeHeaderLoop_scalars hplain v' (by decide) (by rw [hlength]; decide) hgood ?_
    fun v'' => ?_
  · rw [InputStream.advance_rest, List.length_drop, show widths (List.replicate 5 .long) = 20 by rfl]
    omega
  rw [InputStream.advance_advance, hlength]
  change unserializeHeaderLoop T compareCrc FIELD_HCRC 0 v'' (s.advance 24) (h6 :: rest) = _
  have hread24 : (s.advance 24).consumed.length = 24 := by
    rw [InputStream.advance_consumed, hconsumed, List.nil_append, List.length_take]
    omega
  have hrest8 : 8 ≤ (s.advance 24).rest.length := by
    rw [InputStream.advance_rest, List.length_drop]
    omega
  rw [unserializeHeaderLoop_hcrc v'' hh6 hread24 hgood hrest8, if_congr hcode rfl rfl,
    InputStream.advance_advance, InputStream.advance_rest]

variable (compareCrc rest) in
/-- **The header decoder.** It returns from any 32 bytes, with `ERR_OK` exactly for the
headers that pass both checks, and then the entries hold what the bytes spell. -/
theorem unserializeHeaderPacket_fields {hs : List Field} (hhs : IsHeader hs)
    (hconsumed : s.consumed = []) (hgood : s.good = true) (hrest : 32 ≤ s.rest.length) :
    (HeaderAccepted compareCrc s.rest ∧
        unserializeHeaderPacket T s (hs ++ rest) compareCrc =
          .ok (ERR_OK, s.advance 32, scalarsRead hs headerTypes s.rest ++ rest)) ∨
      (¬ HeaderAccepted compareCrc s.rest ∧
        ∃ code s' hs', unserializeHeaderPacket T s (hs ++ rest) compareCrc =
          .ok (code, s', hs' ++ rest) ∧ code ≠ ERR_OK ∧ IsHeader hs') := by
  by_cases hmark : BitVec.ofNat 32 (ofBeBytes (s.rest.take 4)) = HEAD_MARK
  · have hpacket : unserializeHeaderPacket T s (hs ++ rest) compareCrc = _ :=
      unserializeHeaderPacket_mark hhs hconsumed hgood hrest hmark
    by_cases haccept : HeaderAccepted compareCrc s.rest
    · rw [if_pos haccept] at hpacket
      exact .inl ⟨haccept, hpacket⟩
    · rw [if_neg haccept] at hpacket
      exact .inr ⟨haccept, _, _, _, hpacket, by decide, isScalar_scalarsRead hhs _⟩
  · refine .inr ⟨fun h => hmark h.1, ?_⟩
    rcases hhs with _ | ⟨h0, htail⟩
    exact ⟨_, _, _ :: _, unserializeHeaderLoop_noMark _ h0 hgood (by omega) hmark, by decide,
      .cons (h0.scalarRead _) htail⟩

end Header

/-! ### The body -/

/-- An array entry after `n` elements were read from `bs` into its memory. -/
def Field.arrayRead (p : Field) (o : ByteOrder) (ty : DataType) (memory : List UInt8) (n : Nat)
    (bs : List UInt8) : Field :=
  { p with
    data := some (o.flipWords ty.elemWidth n bs ++ memory.drop (ty.elemWidth * n)) }

section Body

variable {T : Target} (cnt : Int) {prev : Field} {v : Locals} {s : InputStream} {p : Field}
  {ty : DataType} {memory : List UInt8}

theorem unserializeField_scalar (prev : Option Field) (v : Locals) (hp : p.IsScalar ty)
    (hgood : s.good = true) (hrest : ty.width ≤ s.rest.length) :
    ∃ v', unserializeField T cnt prev v s p =
      .ok (none, s.advance ty.width, v', p.scalarRead ty (s.rest.take ty.width)) := by
  obtain ⟨v', hget⟩ := getScalar_fit (T := T) v hp hgood hrest
  exact ⟨v', by simp only [unserializeField, hp.data, hget, ok_bind]⟩

theorem unserializeField_short (prev : Option Field) (v : Locals) (hp : p.IsScalar ty)
    (hdebug : T.ndebug = false) (hgood : s.good = true) (hbeyond : s.beyond = 0)
    (hrest : s.rest.length < ty.width) :
    unserializeField T cnt prev v s p = .error .assertion := by
  simp only [unserializeField, hp.data, getScalar_short v hp hdebug hgood hbeyond hrest, error_bind]

theorem unserializeField_counted (prev : Option Field) (v : Locals) (hp : p.IsArray ty memory)
    (hcount : 0 ≤ p.count) (hn : 0 ≤ cnt * p.count) (hlt : cnt * p.count < 2 ^ 31)
    (hgood : s.good = true) (hrest : ty.elemWidth * (cnt * p.count).toNat ≤ s.rest.length)
    (hmem : ty.elemWidth * (cnt * p.count).toNat ≤ memory.length) :
    unserializeField T cnt prev v s p =
      .ok (none, s.advance (ty.elemWidth * (cnt * p.count).toNat), v,
        p.arrayRead T.order ty memory (cnt * p.count).toNat s.rest) := by
  have hget := getArray_fit (T := T) hgood hn hlt hrest hmem
  rw [← hp.type] at hget
  simp only [unserializeField, hp.data, if_pos hcount, checked_eq (le_refl 32) hn hlt,
    ok_bind, hget]
  rfl

/-- An array after its length: elements are read only if there are any. -/
theorem unserializeField_prefixed (v : Locals) (hp : p.IsArray ty memory) (hcount : p.count = -1)
    (hprev : prev.IsLength) (hlen : toInt32 prev.ivalue = prev.ivalue) (hlt : prev.ivalue < 2 ^ 31)
    (hgood : s.good = true) (hrest : ty.elemWidth * prev.ivalue.toNat ≤ s.rest.length)
    (hmem : ty.elemWidth * prev.ivalue.toNat ≤ memory.length) :
    unserializeField T cnt (some prev) v s p =
      .ok (none, s.advance (ty.elemWidth * prev.ivalue.toNat), v,
        p.arrayRead T.order ty memory prev.ivalue.toNat s.rest) := by
  have htype : ¬ (prev.type ≠ TYPE_SHORT ∧ prev.type ≠ TYPE_LONG) := by
    rcases hprev.type with h | h <;> simp [h]
  simp only [unserializeField, hp.data, if_neg (show ¬ p.count ≥ 0 by omega), if_neg htype,
    if_pos hcount, hprev.data, ne_eq, not_true, if_false, hlen]
  by_cases hpos : prev.ivalue > 0
  · have hget := getArray_fit (T := T) hgood hpos.le hlt hrest hmem
    rw [← hp.type] at hget
    simp only [if_pos hpos, hget, ok_bind]
    rfl
  · have hzero : prev.ivalue.toNat = 0 := by omega
    have hread : p.arrayRead T.order ty memory 0 s.rest = p := by
      simp [Field.arrayRead, ByteOrder.flipWords, ← hp.data]
    have hadvance : s.advance 0 = s := by simp [InputStream.advance]
    rw [if_neg hpos, hzero, Nat.mul_zero, hread, hadvance]

theorem unserializeField_overrun (v : Locals) (hp : p.IsArray ty memory) (hcount : p.count = -1)
    (hprev : prev.IsLength) (hlen : toInt32 prev.ivalue = prev.ivalue) (hlt : prev.ivalue < 2 ^ 31)
    (hdebug : T.ndebug = false) (hgood : s.good = true) (hbeyond : s.beyond = 0)
    (h : ¬ (ty.elemWidth * prev.ivalue.toNat ≤ s.rest.length ∧
      ty.elemWidth * prev.ivalue.toNat ≤ memory.length)) :
    ∃ fault, unserializeField T cnt (some prev) v s p = .error fault := by
  have htype : ¬ (prev.type ≠ TYPE_SHORT ∧ prev.type ≠ TYPE_LONG) := by
    rcases hprev.type with h | h <;> simp [h]
  have hpos : prev.ivalue > 0 := by
    by_contra hle
    have hzero : prev.ivalue.toNat = 0 := by omega
    simp [hzero] at h
  obtain ⟨fault, hget⟩ := getArray_error (T := T) hdebug hgood hbeyond hpos.le hlt h
  rw [← hp.type] at hget
  exact ⟨fault, by simp only [unserializeField, hp.data, if_neg (show ¬ p.count ≥ 0 by omega),
    if_neg htype, if_pos hcount, hprev.data, ne_eq, not_true, if_false, hlen, if_pos hpos, hget,
    error_bind]⟩

/-- An array that does not follow its length makes the decoder return. -/
theorem unserializeField_noLength (v : Locals) (hp : p.IsArray ty memory) (hcount : p.count = -1)
    (hprev : ¬ (prev.type = TYPE_SHORT ∨ prev.type = TYPE_LONG) ∨ prev.data ≠ none) :
    unserializeField T cnt (some prev) v s p = .ok (some ERR_DECODE_ERROE, s, v, p) := by
  simp only [unserializeField, hp.data, if_neg (show ¬ p.count ≥ 0 by omega), if_pos hcount]
  by_cases htype : prev.type = TYPE_SHORT ∨ prev.type = TYPE_LONG
  · have hdata : prev.data ≠ none := hprev.resolve_left (not_not_intro htype)
    rw [if_neg (by tauto), if_pos hdata]
  · rw [if_pos (by tauto)]

end Body

section BodyLoop

variable {T : Target} {len : Int} {compareCrc : Bool} {cnt : Int} {base n : Nat} {crc : BitVec 32}
  {v v' : Locals} {prev : Option Field} {s s' : InputStream} {p p' : Field} {rest : List Field}

theorem unserializeBodyLoop_step (htype : 0 ≤ p.type) (hbcrc : (n : Int) ≠ len - 1)
    (hfield : unserializeField T cnt prev v s p = .ok (none, s', v', p')) :
    unserializeBodyLoop T len compareCrc cnt base n crc v prev s (p :: rest) =
      unserializeBodyLoop T len compareCrc cnt base (n + 1) crc v' (some p') s' rest >>=
        fun r => .ok (r.1, r.2.1, p' :: r.2.2) := by
  simp only [unserializeBodyLoop, if_neg (show ¬ p.type < 0 by omega), hfield, ok_bind, hbcrc,
    Ne.symm hbcrc, false_and, if_false]

theorem unserializeBodyLoop_bcrc {terminator : Field} (v : Locals) (hp : p.IsScalar .llong)
    (hbcrc : (n : Int) = len - 1) (hterm : terminator.type < 0) (hgood : s.good = true)
    (hrest : 8 ≤ s.rest.length) :
    unserializeBodyLoop T len compareCrc cnt base n crc v prev s [p, terminator] =
      .ok (if compareCrc = true → BitVec.ofNat 32 (ofBeBytes (s.rest.take 8)) =
            (if toInt32 (s.consumed.length - base) > 0 then
              crc32 ((s.consumed.drop base).take (toInt32 (s.consumed.length - base)).toNat)
            else crc) then ERR_OK else ERR_CHECK_CRC_ERROR,
        s.advance 8, [p.scalarRead .llong (s.rest.take 8), terminator]) := by
  obtain ⟨v', hfield⟩ := unserializeField_scalar (T := T) cnt prev v hp hgood hrest
  have htype : ¬ p.type < 0 := hp.type_nonneg.not_gt
  have hvalue : toUInt32 (p.scalarRead .llong (s.rest.take 8)).ivalue =
      BitVec.ofNat 32 (ofBeBytes (s.rest.take 8)) := toUInt32_toInt (by decide) _
  simp only [unserializeBodyLoop, if_neg htype, hfield, ok_bind, DataType.width, hvalue,
    hbcrc, if_pos hterm, true_and]
  cases compareCrc
  · simp
  · split_ifs <;> simp_all

variable (len compareCrc) in
/-- The body decoder is its loop over the entries behind the header. -/
theorem unserializeBodyPacket_header {hs : List Field} (hhs : IsHeader hs) :
    ∃ count hcrc, fieldAt hs FIELD_COUNT = .ok count ∧ hcrc.IsScalar .llong ∧
      ∀ s rest, unserializeBodyPacket T s (hs ++ rest) len compareCrc =
        (unserializeBodyLoop T len compareCrc (toInt32 count.ivalue) s.consumed.length FIELD_BMARK 0
          .zero (some hcrc) s rest >>= fun r => .ok (r.1, r.2.1, hs ++ r.2.2)) := by
  rcases hhs with _ | ⟨_, _ | ⟨_, _ | ⟨_, _ | ⟨_, _ | ⟨_, _ | ⟨_, _ | ⟨hhcrc, _ | _⟩⟩⟩⟩⟩⟩⟩
  exact ⟨_, _, rfl, hhcrc, fun s rest => rfl⟩

end BodyLoop

end Librtaio

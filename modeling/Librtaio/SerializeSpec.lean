import Librtaio.PacketTable

/-!
# What `serialize_packet` writes

One entry puts its image on the stream (`serializeField_item`), a run of entries
their images one after the other (`serializeLoop_items`), and a whole table its
packet, checksums included (`serializePacket_fields`). The buffer only has to
have the room.
-/

namespace Librtaio

open Bytes Crc32 FloatCast

/-! ### Conversions that change nothing -/

theorem toInt32_eq {z : Int} (hlo : -2 ^ 31 ≤ z) (hhi : z < 2 ^ 31) : toInt32 z = z := by
  rw [toInt32, BitVec.toInt_ofInt]
  exact Int.bmod_eq_of_le (by omega) (by omega)

theorem toSizeT_eq {z : Int} (hlo : 0 ≤ z) (hhi : z < 2 ^ 31) : toSizeT z = z.toNat := by
  rw [toSizeT, BitVec.toNat_ofInt]
  rw [Int.emod_eq_of_lt hlo (by omega)]

theorem checked_eq {bits : Nat} {z : Int} (hbits : 32 ≤ bits) (hlo : 0 ≤ z) (hhi : z < 2 ^ 31) :
    checked bits z = .ok z := by
  have hpow : (2 : Int) ^ 31 ≤ 2 ^ (bits - 1) := by
    exact_mod_cast Nat.pow_le_pow_right (by decide) (by omega)
  rw [checked, if_pos ⟨by omega, by omega⟩]

/-- An array has no more elements than the bytes that are moved for it. -/
theorem Field.IsArray.elements_le {p : Field} {ty : DataType} {memory : List UInt8}
    (hp : p.IsArray ty memory) (cnt : Int) (prev : Field) :
    (p.elements cnt prev).toNat ≤ p.moved cnt prev := by
  rw [hp.moved_eq]
  exact Nat.le_mul_of_pos_left _ ty.elemWidth_pos

/-! ### One entry -/

section OneEntry

variable {T : Target} {out : OutputStream} {fields : List Field} {p : Field}

theorem putScalar_store {ty : DataType} (hp : p.IsScalar ty) (hbad : out.bad = false)
    (htakes : out.Takes T ty.width) :
    putScalar T out p = .ok (true, out.store (p.scalarWire T ty)) := by
  rw [putScalar, hp.type, DataType.ofCode_code]
  cases ty
  · exact OutputStream.write1_store _ hbad htakes
  · exact OutputStream.write1_store _ hbad htakes
  · exact OutputStream.write2_store _ hbad htakes
  · exact OutputStream.write4_store _ hbad htakes
  · exact OutputStream.write8_store _ hbad htakes
  · exact OutputStream.write4_store _ hbad htakes
  · exact OutputStream.write8_store _ hbad htakes

theorem putScalar_fit {ty : DataType} (hp : p.IsScalar ty) (hbad : out.bad = false)
    (hroom : ty.width ≤ out.room.length) :
    putScalar T out p = .ok (true, out.append (p.scalarWire T ty)) := by
  rw [putScalar_store hp hbad (.inr hroom), OutputStream.store_eq_append]
  rwa [Field.length_scalarWire]

/-- Every array function writes words of the type's element width. -/
theorem putArray_eq (ty : DataType) (memory : List UInt8) (n : Int) :
    putArray T out ty.code memory n = out.writeArray T memory ty.elemWidth (toSizeT n) := by
  rw [putArray, DataType.ofCode_code]
  cases ty <;> rfl

theorem putArray_fit {ty : DataType} {memory : List UInt8} {n : Int}
    (hbad : out.bad = false) (hn : 0 ≤ n) (hlt : n < 2 ^ 31)
    (hmem : ty.elemWidth * n.toNat ≤ memory.length)
    (hroom : ty.elemWidth * n.toNat ≤ out.room.length) :
    putArray T out ty.code memory n =
      .ok (true, out.append (T.order.flipWords ty.elemWidth n.toNat memory)) := by
  have hput := OutputStream.writeArray_store (T := T) ty.wordSize_elemWidth hbad hmem (.inr hroom)
  rw [putArray_eq, toSizeT_eq hn hlt, hput, OutputStream.store_eq_append]
  rwa [ByteOrder.length_flipWords _ _ _ _ hmem]

theorem serializeField_scalar {ty : DataType} (fields : List Field) (prev : Option Field)
    (hp : p.IsScalar ty) (hbad : out.bad = false) (hroom : ty.width ≤ out.room.length) :
    serializeField T fields prev p out = .ok (none, out.append (p.scalarWire T ty)) := by
  simp only [serializeField, hp.data, putScalar_fit hp hbad hroom, ok_bind]

/-- An entry puts its image on the stream. -/
theorem serializeField_item {cnt : Int} {prev count : Field}
    (hcount : fieldAt fields FIELD_COUNT = .ok count) (hcnt : count.ivalue = cnt)
    (h : Item cnt prev p) (hmoved : p.moved cnt prev < 2 ^ 31) (hbad : out.bad = false)
    (hroom : p.moved cnt prev ≤ out.room.length) :
    serializeField T fields (some prev) p out = .ok (none, out.append (p.image T cnt prev)) := by
  have hfit := h.moved_le
  cases h with
  | scalar ty hp =>
    rw [hp.moved_eq] at hroom
    rw [hp.image_eq]
    exact serializeField_scalar _ _ hp hbad hroom
  | counted ty memory hp hpos hcnt0 hmem =>
    obtain ⟨helem, hnonneg⟩ := Entry.counted_elements prev hpos hcnt0
    have hle := hp.elements_le cnt prev
    rw [hp.moved_eq] at hfit hroom
    rw [hp.image_eq]
    simp only [serializeField, hp.data, if_pos (show p.count > 0 by omega), hcount, ok_bind]
    rw [hcnt, ← helem, checked_eq (by decide) hnonneg (by omega), ok_bind,
      toInt32_eq (by omega) (by omega), hp.type,
      putArray_fit hbad hnonneg (by omega) (by omega) hroom, ok_bind]
  | prefixed ty memory hp hneg hprev hlen hmem =>
    have helem := Entry.prefixed_elements cnt prev hneg
    have hnonneg : 0 ≤ p.elements cnt prev := by rw [helem]; exact hlen
    have hle := hp.elements_le cnt prev
    have htype : ¬ (prev.type ≠ TYPE_SHORT ∧ prev.type ≠ TYPE_LONG) := by
      rcases hprev.type with h | h <;> simp [h]
    rw [hp.moved_eq] at hfit hroom
    rw [hp.image_eq]
    simp only [serializeField, hp.data, if_neg (show ¬ p.count > 0 by omega), if_neg htype,
      if_pos hneg]
    rw [← helem, toInt32_eq (by omega) (by omega), hp.type,
      putArray_fit hbad hnonneg (by omega) (by omega) hroom, ok_bind]

end OneEntry

/-! ### The loop -/

section Loop

variable {T : Target} {fields : List Field} {len : Int} {n : Nat} {bodyBase : Option Nat}
  {out out' : OutputStream} {rest rest' : List Field} {code : Int}

theorem serializeLoop_step {prev : Option Field} {p p' : Field} {bs : List UInt8}
    (hcrc : crcField len n bodyBase out p = p') (htype : 0 ≤ p.type)
    (hput : serializeField T fields prev p' out = .ok (none, out.append bs))
    (hbad : out.bad = false)
    (hrest : serializeLoop T fields len (n + 1) (some p')
      (if n = FIELD_BMARK - 1 then some (out.append bs).written.length else bodyBase)
      (out.append bs) rest = .ok (code, out', rest')) :
    serializeLoop T fields len n prev bodyBase out (p :: rest) = .ok (code, out', p' :: rest') := by
  simp only [serializeLoop, if_neg (show ¬ p.type < 0 by omega), hcrc, hput, ok_bind,
    OutputStream.append_bad, hbad, hrest, Bool.false_eq_true, if_false]

theorem crcField_plain (p : Field) (hhcrc : n ≠ FIELD_HCRC) (hbcrc : (n : Int) < len - 1) :
    crcField len n bodyBase out p = p := by
  simp only [crcField, if_neg hhcrc, if_neg (show ¬ len - 1 = n by omega)]

/-- **A run of entries.** Away from the checksums the loop puts their images on
the stream one after the other and changes none of them. -/
theorem serializeLoop_items {cnt : Int} {prev count : Field} {es : List Field}
    (hcount : fieldAt fields FIELD_COUNT = .ok count) (hcnt : count.ivalue = cnt)
    (h : Items cnt prev es)
    (hmoves : moves cnt prev es < 2 ^ 31) (hbad : out.bad = false)
    (hroom : moves cnt prev es ≤ out.room.length)
    (hhcrc : n + es.length ≤ FIELD_HCRC ∨ FIELD_HCRC < n) (hbcrc : (n : Int) + es.length < len)
    (hrest : serializeLoop T fields len (n + es.length) (some (lastEntry prev es)) bodyBase
      (out.append (images T cnt prev es)) rest = .ok (code, out', rest')) :
    serializeLoop T fields len n (some prev) bodyBase out (es ++ rest) =
      .ok (code, out', es ++ rest') := by
  induction es generalizing n prev out with
  | nil => simpa [images, lastEntry] using hrest
  | cons p es ih =>
    rw [items_cons] at h
    rw [moves] at hmoves hroom
    simp only [List.length_cons] at hhcrc hbcrc hrest
    have himage := h.1.length_image T
    have hn : n ≠ FIELD_HCRC := by
      simp only [FIELD_HCRC] at hhcrc ⊢
      omega
    have hput := serializeField_item (T := T) hcount hcnt h.1 (by omega) hbad (by omega)
    refine serializeLoop_step (crcField_plain p hn (by omega)) h.1.type_nonneg hput hbad ?_
    rw [if_neg (show n ≠ FIELD_BMARK - 1 from hn)]
    refine ih h.2 (by omega) hbad ?_ ?_ (by omega) ?_
    · rw [OutputStream.append_room, List.length_drop]
      omega
    · simp only [FIELD_HCRC] at hhcrc ⊢
      omega
    · rw [OutputStream.append_append, show n + 1 + es.length = n + (es.length + 1) by omega]
      exact hrest

end Loop

/-! ### The packet -/

namespace PacketTable

variable (t : PacketTable) (T : Target)

theorem crcField_hcrc {out : OutputStream} (hwritten : out.written = []) :
    crcField t.len FIELD_HCRC none (out.append (t.headerImage T)) t.hcrc = (t.sealed T).hcrc := by
  have himage := t.length_headerImage T
  simp only [crcField, if_true, OutputStream.append_written, hwritten, List.nil_append, himage]
  rw [if_pos (by decide), List.take_of_length_le (by rw [himage]; decide)]
  rfl

theorem crcField_bcrc (hlength : t.length < 2 ^ 31) {out : OutputStream}
    (hwritten : out.written.length = 32) :
    crcField t.len (FIELD_NEXT + t.body.length) (some 32) (out.append (t.bodyImage T)) t.bcrc =
      (t.sealed T).bcrc := by
  have himage := t.length_bodyImage T
  have htotal : t.length = 44 + moves t.cnt t.bmark t.body := rfl
  have hbytes : ((out.append (t.bodyImage T)).written.length : Int) - (32 : Nat) =
      (t.bodyImage T).length := by
    rw [OutputStream.append_written, List.length_append, hwritten]
    omega
  have hdrop : (out.append (t.bodyImage T)).written.drop 32 = t.bodyImage T :=
    List.drop_left' hwritten
  have hn : FIELD_NEXT + t.body.length ≠ FIELD_HCRC := by
    simp only [FIELD_NEXT, FIELD_HCRC]
    omega
  have hlast : t.len - 1 = ((FIELD_NEXT + t.body.length : Nat) : Int) := by
    simp only [FIELD_NEXT, len]
    omega
  simp only [crcField]
  rw [if_neg hn, if_pos hlast, hbytes, hdrop,
    toInt32_eq (by omega) (by omega), if_pos (by omega), Int.toNat_natCast, List.take_length]
  rfl

theorem serializeLoop_header {out out' : OutputStream} {rest rest' : List Field} {code : Int}
    (hwritten : out.written = []) (hbad : out.bad = false) (hroom : 32 ≤ out.room.length)
    (hrest : serializeLoop T t.fields t.len FIELD_BMARK (some (t.sealed T).hcrc) (some 32)
      (out.append ((t.sealed T).headerWire T)) rest = .ok (code, out', rest')) :
    serializeLoop T t.fields t.len 0 none none out (t.hmark :: t.plain ++ t.hcrc :: rest) =
      .ok (code, out', t.hmark :: t.plain ++ (t.sealed T).hcrc :: rest') := by
  have hlen : t.len = t.body.length + 9 := rfl
  have hmoves := t.moves_plain
  have himage := t.length_headerImage T
  have hput := serializeField_scalar (T := T) t.fields none t.hmark_long hbad
    (show DataType.width .long ≤ _ by rw [DataType.width]; omega)
  refine serializeLoop_step (crcField_plain _ (by decide) (by omega)) t.hmark_long.type_nonneg
    hput hbad ?_
  refine serializeLoop_items t.fieldAt_count t.count_ivalue t.plain_items (by rw [hmoves]; decide) hbad ?_
    (.inl (by rw [length_plain]; decide)) (by rw [length_plain]; omega) ?_
  · rw [hmoves, OutputStream.append_room, List.length_drop, Field.length_scalarWire,
      DataType.width]
    omega
  rw [OutputStream.append_append]
  change serializeLoop T t.fields t.len FIELD_HCRC _ _ (out.append (t.headerImage T)) _ = _
  refine serializeLoop_step (t.crcField_hcrc T hwritten) t.hcrc_llong.type_nonneg
    (serializeField_scalar _ _ (t.sealed T).hcrc_llong hbad ?_) hbad ?_
  · rw [OutputStream.append_room, List.length_drop, himage, DataType.width]
    omega
  have hwire : (out.append (t.headerImage T)).append ((t.sealed T).hcrc.scalarWire T .llong) =
      out.append ((t.sealed T).headerWire T) := out.append_append _ _
  have hlength : (out.append ((t.sealed T).headerWire T)).written.length = 32 := by
    rw [OutputStream.append_written, hwritten, List.nil_append, length_headerWire]
  rw [hwire, if_pos (by rfl), hlength]
  exact hrest

theorem serializeLoop_body (hlength : t.length < 2 ^ 31) {out : OutputStream} (prev : Option Field)
    (hwritten : out.written.length = 32) (hbad : out.bad = false)
    (hroom : t.length ≤ out.room.length + 32) :
    serializeLoop T t.fields t.len FIELD_BMARK prev (some 32) out
        (t.bmark :: t.body ++ [t.bcrc, t.terminator]) =
      .ok (ERR_OK, out.append ((t.sealed T).bodyWire T),
        t.bmark :: t.body ++ [(t.sealed T).bcrc, t.terminator]) := by
  have hlen : t.len = t.body.length + 9 := rfl
  have htotal : t.length = 44 + moves t.cnt t.bmark t.body := rfl
  have himage := t.length_bodyImage T
  have hput := serializeField_scalar (T := T) t.fields prev t.bmark_long hbad
    (show DataType.width .long ≤ _ by rw [DataType.width]; omega)
  refine serializeLoop_step (crcField_plain _ (by decide) (by simp only [FIELD_BMARK]; omega))
    t.bmark_long.type_nonneg hput hbad ?_
  rw [if_neg (by decide)]
  refine serializeLoop_items t.fieldAt_count t.count_ivalue t.items (by omega) hbad ?_
    (.inr (by decide)) (by simp only [FIELD_BMARK]; omega) ?_
  · rw [OutputStream.append_room, List.length_drop, Field.length_scalarWire, DataType.width]
    omega
  rw [OutputStream.append_append]
  change serializeLoop T t.fields t.len (FIELD_NEXT + t.body.length) _ _
    (out.append (t.bodyImage T)) _ = _
  refine serializeLoop_step (t.crcField_bcrc T hlength hwritten) t.bcrc_llong.type_nonneg
    (serializeField_scalar _ _ (t.sealed T).bcrc_llong hbad ?_) hbad ?_
  · rw [OutputStream.append_room, List.length_drop, DataType.width]
    omega
  rw [OutputStream.append_append, serializeLoop, if_pos t.terminator_neg]
  rfl

/-- **`serialize_packet` on a packet table.** Into a buffer with the room for it, it
returns `ERR_OK` and writes the packet, and leaves the checksums in the table. -/
theorem serializePacket_fields (hlength : t.length < 2 ^ 31) (buffer : List UInt8)
    (hroom : t.length ≤ buffer.length) :
    serializePacket T (.ofBuffer buffer) t.fields t.len =
      .ok (ERR_OK, (OutputStream.ofBuffer buffer).append ((t.sealed T).wire T),
        (t.sealed T).fields) := by
  have htotal : t.length = 44 + moves t.cnt t.bmark t.body := rfl
  have hroom0 : (OutputStream.ofBuffer buffer).room.length = buffer.length := rfl
  have hheader := (t.sealed T).length_headerWire T
  have hwritten : ((OutputStream.ofBuffer buffer).append ((t.sealed T).headerWire T)).written.length =
      32 := hheader
  have hloop := t.serializeLoop_body T hlength (some (t.sealed T).hcrc) hwritten rfl
    (by rw [OutputStream.append_room, List.length_drop]; omega)
  have hpacket := t.serializeLoop_header T rfl rfl (by omega) hloop
  rw [OutputStream.append_append] at hpacket
  have hfields : t.fields =
      t.hmark :: t.plain ++ t.hcrc :: (t.bmark :: t.body ++ [t.bcrc, t.terminator]) := by
    simp [fields]
  rw [serializePacket]
  nth_rewrite 2 [hfields]
  rw [hpacket]
  simp [fields, wire, sealed, plain]

end PacketTable

namespace MsgTable

variable (t : MsgTable) (T : Target)

/-- And so it does on a message table. -/
theorem serializePacket_fields (hsize : t.size < 2 ^ 31) (buffer : List UInt8)
    (hroom : t.size ≤ buffer.length) :
    serializePacket T (.ofBuffer buffer) t.fields t.len =
      .ok (ERR_OK, (OutputStream.ofBuffer buffer).append ((t.sealed T).wire T),
        (t.sealed T).fields) := by
  have hlength := t.length_packetTable
  have hpacket := t.packetTable.serializePacket_fields T (by omega) buffer (by omega)
  rw [sealed_packetTable, wire_packetTable] at hpacket
  exact hpacket

end MsgTable

end Librtaio

import Librtaio.FieldsSize
import Librtaio.PacketDecode

/-!
# Decode undoes encode

The two decoders, run over the bytes `send_packet` puts on the wire into a table
of the same shape, restore the sender's values: a scalar's `ivalue`, and the
words of an array as numbers, so that the two hosts may differ in byte order.

What the decoder reads from the bytes of an entry has the entry's value
(`sameValue_readFrom`), and so has what it reads from those of a run
(`sameValue_readsFrom`).
-/

namespace Librtaio

open Bytes Crc32

/-! ### The value of an entry -/

/-- An entry `q` on host `T'` with the value of `p` on host `T`. -/
structure SameValue (T T' : Target) (cnt : Int) (prev p q : Field) : Prop where
  type : q.type = p.type
  scalar : p.data = none → q.data = none ∧ q.ivalue = p.ivalue
  array : ∀ ty memory, p.IsArray ty memory → ∃ memory', q.data = some memory' ∧
    T'.order.loadWords ty.width (p.elements cnt prev).toNat memory' =
      T.order.loadWords ty.width (p.elements cnt prev).toNat memory

section Slots

variable {T T' : Target} {cnt : Int} {prev p q : Field} {ty : DataType} {memory : List UInt8}

theorem sameValue_scalarRead (hp : p.IsScalar ty) (hin : p.InRange) (hq : q.IsScalar ty) :
    SameValue T T' cnt prev p (q.scalarRead ty (p.scalarWire T ty)) where
  type := by rw [Field.scalarRead_type, hq.type, hp.type]
  scalar := fun _ => ⟨by rw [Field.scalarRead_data, hq.data], scalarRead_scalarWire hp hin T q⟩
  array := fun _ _ h => absurd (h.data.symm.trans hp.data) (by simp)

theorem sameValue_arrayRead {memory' : List UInt8} (hp : p.IsArray ty memory) (hty : ty ≠ .llong)
    (hq : q.IsArray ty memory') (helem : 0 ≤ p.elements cnt prev)
    (hmem : p.size cnt prev ≤ memory.length) :
    SameValue T T' cnt prev p
      (q.arrayRead T'.order ty memory' (p.elements cnt prev).toNat (p.wire T cnt prev)) where
  type := hq.type.trans hp.type.symm
  scalar := fun h => absurd (hp.data.symm.trans h) (by simp)
  array := by
    intro ty' memory₀ hp'
    obtain rfl : ty' = ty := DataType.code_injective (hp'.type.symm.trans hp.type)
    obtain rfl : memory₀ = memory := Option.some.inj (hp'.data.symm.trans hp.data)
    rw [hp.size_eq, ← Entry.width_mul_toNat _ helem] at hmem
    have hmem' := Int.ofNat_le.mp hmem
    have hlen := T.order.length_flipWords _ _ _ hmem'
    refine ⟨_, rfl, ?_⟩
    rw [DataType.elemWidth_eq hty, hp.wire_eq,
      ByteOrder.loadWords_flipWords _ _ _ _ _ (by rw [hlen]),
      ByteOrder.big_loadWords_flipWords _ _ _ hmem']

/-- The bytes of an entry give its value. -/
theorem sameValue_readFrom (h : Entry cnt prev p) (hin : p.InRange) (hslot : Slot cnt prev p q) :
    SameValue T T' cnt prev p
      (q.readFrom T' (p.elements cnt prev).toNat (p.wire T cnt prev)) := by
  have hnonneg := h.item.elements_nonneg
  cases h with
  | scalar ty hp =>
    have hq := hslot.isScalar hp
    rw [hq.readFrom_eq, hp.wire_eq]
    exact sameValue_scalarRead hp hin hq
  | counted ty memory hp hty _ _ hmem =>
    obtain ⟨memory', hq, -, -⟩ := hslot.isArray hp
    rw [hq.readFrom_eq]
    exact sameValue_arrayRead hp hty hq (hnonneg (by simp [hp.data])) hmem
  | prefixed ty memory hp hty _ _ _ hmem =>
    obtain ⟨memory', hq, -, -⟩ := hslot.isArray hp
    rw [hq.readFrom_eq]
    exact sameValue_arrayRead hp hty hq (hnonneg (by simp [hp.data])) hmem

end Slots

/-- An entry is read from its own bytes. -/
theorem readsFrom_wires_cons (T T' : Target) {cnt : Int} {prev p : Field} (h : Entry cnt prev p)
    (q : Field) (es ds : List Field) :
    readsFrom T' cnt prev (p :: es) (q :: ds) (wires T cnt prev (p :: es)) =
      q.readFrom T' (p.elements cnt prev).toNat (p.wire T cnt prev) ::
        readsFrom T' cnt p es ds (wires T cnt p es) := by
  have hlen : (p.wire T cnt prev).length = p.moved cnt prev := by
    rw [← h.image_eq, h.item.length_image]
  rw [readsFrom, wires, List.take_left' hlen, List.drop_left' hlen]

/-- **A run of entries.** The bytes of the entries give their values. -/
theorem sameValue_readsFrom (T T' : Target) {cnt : Int} {prev : Field} {es ds : List Field}
    (h : Entries cnt prev es) (hin : ∀ p ∈ es, p.InRange) (hslots : Along (Slot cnt) prev es ds) :
    Along (SameValue T T' cnt) prev es (readsFrom T' cnt prev es ds (wires T cnt prev es)) := by
  induction hslots with
  | nil => exact .nil
  | @cons prev p q es ds hpq _ ih =>
    rw [entries_cons] at h
    rw [readsFrom_wires_cons T T' h.1]
    exact .cons (sameValue_readFrom h.1 (hin p (by simp)) hpq)
      (ih h.2 fun r hr => hin r (by simp [hr]))

/-! ### The packet -/

theorem sameValue_scalarsRead {T T' : Target} {cnt : Int} {prev : Field} {es ds : List Field}
    {tys : List DataType} (hes : List.Forall₂ Field.IsScalar es tys) (hin : ∀ p ∈ es, p.InRange)
    (hds : List.Forall₂ Field.IsScalar ds tys) (tail : List UInt8) :
    Along (SameValue T T' cnt) prev es (scalarsRead ds tys (wires T cnt prev es ++ tail)) := by
  induction hes generalizing prev ds with
  | nil =>
    cases hds
    exact .nil
  | @cons p ty es tys hp hes ih =>
    rcases hds with _ | ⟨hq, hds⟩
    have hwire : (p.wire T cnt prev).length = ty.width := by
      rw [hp.wire_eq, Field.length_scalarWire]
    rw [scalarsRead, wires, List.append_assoc, List.take_left' hwire, List.drop_left' hwire,
      hp.wire_eq]
    exact .cons (sameValue_scalarRead hp (hin p (by simp)) hq)
      (ih (fun r hr => hin r (by simp [hr])) hds)

namespace MsgTable

variable (t : MsgTable)

/-- The marks are in place. -/
structure Marked : Prop where
  hmark : t.hmark.ivalue = HEAD_MARK.toInt
  bmark : t.bmark.ivalue = BODY_MARK.toInt

/-- And every scalar is one the decoders can restore. -/
structure Decodable : Prop extends t.Marked where
  method : t.method.InRange
  ret : t.ret.InRange
  time : t.time.InRange
  count : t.count.InRange
  body : ∀ p ∈ t.body, p.InRange

/-- A table the packet can be decoded into: the shape of `t`, with the room its arrays need. -/
structure Dest where
  header : List Field
  bmark : Field
  body : List Field
  bcrc : Field
  terminator : Field
  isHeader : IsHeader header
  bmark_long : bmark.IsScalar .long
  slots : Along (Slot t.cnt) t.bmark t.body body
  bcrc_llong : bcrc.IsScalar .llong
  terminator_neg : terminator.type < 0

def Dest.tail {t : MsgTable} (dst : t.Dest) : List Field :=
  dst.bmark :: dst.body ++ [dst.bcrc, dst.terminator]

def Dest.fields {t : MsgTable} (dst : t.Dest) : List Field := dst.header ++ dst.tail

def Dest.packetDest {t : MsgTable} (dst : t.Dest) : t.packetTable.Dest := { dst with }

def Dest.sealed {t : MsgTable} (dst : t.Dest) (T : Target) : (t.sealed T).Dest := { dst with }

def head : List Field := t.hmark :: t.plain ++ [t.hcrc]

/-- The table on host `T'` has the values `t` has on host `T`. -/
def RestoredIn (T T' : Target) (fields : List Field) : Prop :=
  ∃ ds terminator, fields = ds ++ [terminator] ∧
    Along (SameValue T T' t.cnt) t.hmark (t.head ++ t.bmark :: t.body ++ [t.bcrc]) ds

theorem inRange_of_isScalar {p : Field} {ty : DataType} (hp : p.IsScalar ty) (hfloat : ty ≠ .float)
    (hdouble : ty ≠ .double) (hlo : -2 ^ (8 * ty.width - 1) ≤ p.ivalue)
    (hhi : p.ivalue < 2 ^ (8 * ty.width - 1)) : p.InRange := by
  intro ty' hp'
  obtain rfl : ty' = ty := DataType.code_injective (hp'.type.symm.trans hp.type)
  exact ⟨hfloat, hdouble, hlo, hhi⟩

theorem inRange_crc {p : Field} (hp : p.IsScalar .llong) (crc : BitVec 32)
    (hcrc : p.ivalue = crc.toNat) : p.InRange := by
  have hlt := crc.isLt
  refine inRange_of_isScalar hp (by decide) (by decide) ?_ ?_ <;>
    · simp only [DataType.width]
      omega

variable {t} (T : Target)

theorem Marked.bmark_inRange (h : t.Marked) : t.bmark.InRange :=
  inRange_of_isScalar t.bmark_long (by decide) (by decide) (by rw [h.bmark]; decide)
    (by rw [h.bmark]; decide)

theorem Decodable.hmark_inRange (h : t.Decodable) : t.hmark.InRange :=
  inRange_of_isScalar t.hmark_long (by decide) (by decide) (by rw [h.hmark]; decide)
    (by rw [h.hmark]; decide)

theorem Marked.setBsize (h : t.Marked) (value : Int) : (t.setBsize value).Marked :=
  ⟨h.hmark, h.bmark⟩

theorem Decodable.setBsize (h : t.Decodable) (value : Int) : (t.setBsize value).Decodable :=
  ⟨h.toMarked.setBsize value, h.method, h.ret, h.time, h.count, h.body⟩

theorem isHeader_head : IsHeader t.head :=
  .cons t.hmark_long (.cons t.method_long (.cons t.bsize_long (.cons t.ret_long
    (.cons t.time_long (.cons t.count_long (.cons t.hcrc_llong .nil))))))

theorem headerWire_eq : t.headerWire T = wires T t.cnt t.hmark t.head := by
  rw [headerWire, headerImage, head, List.cons_append, wires, wires_append, wires, wires,
    t.hmark_long.wire_eq, t.hcrc_llong.wire_eq, List.append_nil, List.append_assoc]

theorem bodyImage_eq : t.bodyImage T = wires T t.cnt t.hcrc (t.bmark :: t.body) := by
  rw [bodyImage, wires, t.bmark_long.wire_eq]

/-- The header a sealed table puts on the wire is accepted. -/
theorem Marked.headerAccepted (h : t.Marked) (compareCrc : Bool) (tail : List UInt8) :
    HeaderAccepted compareCrc ((t.sealed T).headerWire T ++ tail) := by
  have himage := t.length_headerImage T
  have hsplit : (t.sealed T).headerWire T ++ tail =
      t.headerImage T ++ (beBytes 8 (BitVec.ofInt 64 (crc32 (t.headerImage T)).toNat).toNat ++
        tail) := List.append_assoc _ _ _
  rw [HeaderAccepted, hsplit]
  constructor
  · have hword : (t.headerImage T).take 4 = beBytes 4 (BitVec.ofInt 32 t.hmark.ivalue).toNat :=
      List.take_left' (length_beBytes 4 _)
    rw [List.take_append_of_le_length (by omega), hword, h.hmark]
    decide
  · intro _
    rw [List.take_left' himage, List.drop_left' himage, List.take_left' (length_beBytes 8 _),
      ofNat_crc]

section Decode

variable {T} {T' : Target} {s : InputStream} {tail : List UInt8} {compareCrc : Bool}

theorem Marked.header_decoded (h : t.Marked) {hs : List Field} (hhs : IsHeader hs)
    (rest : List Field) (hconsumed : s.consumed = []) (hgood : s.good = true)
    (hrest : s.rest = (t.sealed T).headerWire T ++ tail) :
    unserializeHeaderPacket T' s (hs ++ rest) compareCrc =
      .ok (ERR_OK, s.advance 32, scalarsRead hs headerTypes s.rest ++ rest) := by
  have hlength := (t.sealed T).length_headerWire T
  have haccept : HeaderAccepted compareCrc s.rest := by
    rw [hrest]
    exact h.headerAccepted T compareCrc tail
  rcases unserializeHeaderPacket_fields (T := T') compareCrc rest hhs hconsumed hgood
    (by rw [hrest, List.length_append]; omega) with ⟨_, hpacket⟩ | ⟨hreject, _⟩
  · exact hpacket
  · exact absurd haccept hreject

theorem Decodable.header_restored (h : t.Decodable) (hbsize : t.bsize.InRange) {hs : List Field}
    (hhs : IsHeader hs) (tail : List UInt8) :
    Along (SameValue T T' t.cnt) t.hmark (t.sealed T).head
      (scalarsRead hs headerTypes ((t.sealed T).headerWire T ++ tail)) := by
  have hin : ∀ p ∈ (t.sealed T).head, p.InRange := by
    intro p hp
    simp only [head, plain, List.cons_append, List.nil_append, List.mem_cons, List.not_mem_nil,
      or_false] at hp
    rcases hp with rfl | rfl | rfl | rfl | rfl | rfl | rfl
    · exact h.hmark_inRange
    · exact h.method
    · exact hbsize
    · exact h.ret
    · exact h.time
    · exact h.count
    · exact inRange_crc (t.sealed T).hcrc_llong _ rfl
  rw [headerWire_eq]
  exact sameValue_scalarsRead (t.sealed T).isHeader_head hin hhs tail

/-- The method and the count among them. -/
theorem header_values {hs : List Field}
    (hsame : Along (SameValue T T' t.cnt) t.hmark t.head hs) :
    (∃ method, fieldAt hs FIELD_METHOD = .ok method ∧ method.ivalue = t.method.ivalue) ∧
      ∃ count, fieldAt hs FIELD_COUNT = .ok count ∧ count.ivalue = t.cnt := by
  rcases hsame with _ | ⟨_, _ | ⟨hmethod, _ | ⟨_, _ | ⟨_, _ | ⟨_, _ | ⟨hcount, _⟩⟩⟩⟩⟩⟩
  exact ⟨⟨_, rfl, (hmethod.scalar t.method_long.data).2⟩, _, rfl,
    (hcount.scalar t.count_long.data).2⟩

/-- The entries a body's checksum covers, after the header. -/
theorem covered_entries (t : MsgTable) : Entries t.cnt t.hcrc (t.bmark :: t.body) :=
  entries_cons.mpr ⟨.scalar _ t.bmark_long, t.entries⟩

/-- The body decoder on a sealed table's body, after the header's count: every entry is read from
its own bytes. -/
theorem sealed_body_decoded (T T' : Target) (compareCrc : Bool) (hfit : LengthsFit t.bmark t.body)
    (hsize : t.size < 2 ^ 31) (dst : t.Dest) {hs : List Field} {count : Field} (hhs : IsHeader hs)
    (hcount : fieldAt hs FIELD_COUNT = .ok count) (hcnt : count.ivalue = t.cnt)
    (hgood : s.good = true) (hrest : s.rest = (t.sealed T).bodyWire T ++ tail) :
    unserializeBodyPacket T' s (hs ++ dst.tail) t.len compareCrc =
      .ok (ERR_OK, s.advance ((t.sealed T).bodyWire T).length,
        hs ++ (readsFrom T' t.cnt (t.sealed T).hcrc (t.bmark :: t.body) (dst.bmark :: dst.body)
            (wires T t.cnt (t.sealed T).hcrc (t.bmark :: t.body)) ++
          [dst.bcrc.scalarRead .llong ((t.sealed T).bcrc.scalarWire T .llong),
            dst.terminator])) := by
  have hlength := (t.sealed T).length_packetTable
  rw [show (t.sealed T).size = t.size from rfl] at hlength
  have himage : (t.sealed T).packetTable.bodyImage T = t.bodyImage T :=
    (t.sealed T).bodyImage_packetTable T
  have hcovered : t.bodyImage T = wires T t.cnt (t.sealed T).hcrc (t.bmark :: t.body) :=
    (t.sealed T).bodyImage_eq T
  have hsealed : (t.sealed T).packetTable.sealed T = (t.sealed T).packetTable :=
    (t.sealed T).sealed_packetTable T
  have hbody := PacketTable.own_body_decoded (T := T) (s := s) (t := (t.sealed T).packetTable)
    hfit (by omega) (dst.sealed T).packetDest T' compareCrc tail hhs hcount hcnt hgood
    (by rw [hsealed, bodyWire_packetTable]; exact hrest)
  rw [hsealed, bodyWire_packetTable, himage, hcovered] at hbody
  exact hbody

/-- The body decoder restores the values of a sealed table's body. -/
theorem Decodable.body_restored (h : t.Decodable) (hsize : t.size < 2 ^ 31)
    (dst : t.Dest) {hs : List Field} {count : Field} (hhs : IsHeader hs)
    (hcount : fieldAt hs FIELD_COUNT = .ok count) (hcnt : count.ivalue = t.cnt)
    (hgood : s.good = true) (hrest : s.rest = (t.sealed T).bodyWire T ++ tail) :
    ∃ ds', Along (SameValue T T' t.cnt) (t.sealed T).hcrc (t.bmark :: t.body ++ [(t.sealed T).bcrc])
        ds' ∧
      unserializeBodyPacket T' s (hs ++ dst.tail) t.len compareCrc =
        .ok (ERR_OK, s.advance ((t.sealed T).bodyWire T).length,
          hs ++ (ds' ++ [dst.terminator])) := by
  have hin : ∀ p ∈ t.bmark :: t.body, p.InRange := fun p hp =>
    (List.mem_cons.mp hp).elim (fun hp => hp ▸ h.bmark_inRange) (h.body p)
  have hbody := sealed_body_decoded T T' compareCrc
    (lengthsFit_of_inRange h.bmark_inRange h.body) hsize dst hhs hcount hcnt hgood hrest
  have hsame := (sameValue_readsFrom T T' (t.sealed T).covered_entries hin
    (dst.sealed T).packetDest.slots_body).append (.cons (sameValue_scalarRead
      (t.sealed T).bcrc_llong (inRange_crc (t.sealed T).bcrc_llong _ rfl) dst.bcrc_llong) .nil)
  refine ⟨_, hsame, ?_⟩
  rw [List.append_assoc]
  exact hbody

/-- The body decoder on the body of a sealed table, after its header was decoded. -/
theorem Decodable.sealed_restored (h : t.Decodable) (hsize : t.size < 2 ^ 31) (dst : t.Dest)
    {hs : List Field} (hhs : IsHeader hs)
    (hsame : Along (SameValue T T' t.cnt) t.hmark (t.sealed T).head hs) (hgood : s.good = true)
    (hrest : s.rest = (t.sealed T).bodyWire T ++ tail) :
    ∃ fields, unserializeBodyPacket T' s (hs ++ dst.tail) t.len compareCrc =
        .ok (ERR_OK, s.advance ((t.sealed T).bodyWire T).length, fields) ∧
      (t.sealed T).RestoredIn T T' fields := by
  -- the count that was decoded is the sender's
  obtain ⟨-, count, hcount, hcnt⟩ := (t.sealed T).header_values hsame
  obtain ⟨ds', hsame', hbody⟩ := h.body_restored hsize dst hhs hcount hcnt hgood hrest
  refine ⟨_, hbody, hs ++ ds', dst.terminator, (List.append_assoc _ _ _).symm, ?_⟩
  rw [List.append_assoc]
  exact hsame.append hsame'

/-- And both decoders, the header's first. -/
theorem Decodable.packet_restored (h : t.Decodable) (hbsize : t.bsize.InRange)
    (hsize : t.size < 2 ^ 31) (dst : t.Dest) (s₁ s₂ : InputStream) {tail₁ tail₂ : List UInt8}
    (hconsumed : s₁.consumed = []) (hgood₁ : s₁.good = true) (hgood₂ : s₂.good = true)
    (hrest₁ : s₁.rest = (t.sealed T).headerWire T ++ tail₁)
    (hrest₂ : s₂.rest = (t.sealed T).bodyWire T ++ tail₂) :
    ∃ dst₁ dst₂, unserializeHeaderPacket T' s₁ dst.fields compareCrc =
        .ok (ERR_OK, s₁.advance 32, dst₁) ∧
      unserializeBodyPacket T' s₂ dst₁ t.len compareCrc =
        .ok (ERR_OK, s₂.advance ((t.sealed T).bodyWire T).length, dst₂) ∧
      (t.sealed T).RestoredIn T T' dst₂ := by
  have hheader : unserializeHeaderPacket T' s₁ dst.fields compareCrc = _ :=
    h.header_decoded dst.isHeader dst.tail hconsumed hgood₁ hrest₁
  have hsame : Along (SameValue T T' t.cnt) t.hmark (t.sealed T).head
      (scalarsRead dst.header headerTypes s₁.rest) := by
    rw [hrest₁]
    exact h.header_restored hbsize dst.isHeader tail₁
  obtain ⟨dst₂, hbody, hrestored⟩ := h.sealed_restored hsize dst
    (isScalar_scalarsRead dst.isHeader s₁.rest) hsame hgood₂ hrest₂
  exact ⟨_, dst₂, hheader, hbody, hrestored⟩

end Decode

def Dest.setBsize (dst : t.Dest) (value : Int) : (t.setBsize value).Dest := { dst with }

theorem setBsize_inRange (hsize : t.size < 2 ^ 31) : (t.setBsize t.bodySize).bsize.InRange := by
  have hbody := t.bodySize_ge
  have htotal : t.size = 32 + t.bodySize := rfl
  refine inRange_of_isScalar (t.setBsize t.bodySize).bsize_long (by decide) (by decide) ?_ ?_ <;>
    · simp only [MsgTable.setBsize, DataType.width]
      omega

/-- The body decoder on the body of a packet, after its header was decoded. -/
theorem Decodable.sent_restored (h : t.Decodable) (hsize : t.size < 2 ^ 31) (dst : t.Dest)
    {T' : Target} {compareCrc : Bool} {s : InputStream} {tail : List UInt8} {hs : List Field}
    (hhs : IsHeader hs) (hsame : Along (SameValue T T' t.cnt) t.hmark (t.sent T).head hs)
    (hgood : s.good = true) (hrest : s.rest = (t.sent T).bodyWire T ++ tail) :
    ∃ fields, unserializeBodyPacket T' s (hs ++ dst.tail) t.len compareCrc =
        .ok (ERR_OK, s.advance ((t.sent T).bodyWire T).length, fields) ∧
      (t.sent T).RestoredIn T T' fields :=
  (h.setBsize t.bodySize).sealed_restored hsize (dst.setBsize t.bodySize) hhs hsame hgood hrest

theorem Decodable.restored (h : t.Decodable) (hsize : t.size < 2 ^ 31) (dst : t.Dest)
    {T' : Target} {compareCrc : Bool} (s₁ s₂ : InputStream) {tail₁ tail₂ : List UInt8}
    (hconsumed : s₁.consumed = []) (hgood₁ : s₁.good = true) (hgood₂ : s₂.good = true)
    (hrest₁ : s₁.rest = (t.sent T).headerWire T ++ tail₁)
    (hrest₂ : s₂.rest = (t.sent T).bodyWire T ++ tail₂) :
    ∃ dst₁ dst₂, unserializeHeaderPacket T' s₁ dst.fields compareCrc =
        .ok (ERR_OK, s₁.advance 32, dst₁) ∧
      unserializeBodyPacket T' s₂ dst₁ t.len compareCrc =
        .ok (ERR_OK, s₂.advance ((t.sent T).bodyWire T).length, dst₂) ∧
      (t.sent T).RestoredIn T T' dst₂ :=
  (h.setBsize t.bodySize).packet_restored (setBsize_inRange hsize) hsize (dst.setBsize t.bodySize)
    s₁ s₂ hconsumed hgood₁ hgood₂ hrest₁ hrest₂

/-- **Decode undoes encode.** What `send_packet` encodes, the decoders accept, consume to
the last byte and restore, whether header and body come from buffers of their own, as
in the server and the client, or from one stream. -/
theorem decode_encode (h : t.Decodable) (hsize : t.size < 2 ^ 31) (dst : t.Dest) (T' : Target)
    (compareCrc : Bool) :
    ∃ packet, encodePacket T t.fields t.len = .ok (ERR_OK, packet, (t.sent T).fields) ∧
      packet.length = t.size ∧
      (∃ s₁ dst₁ s₂ dst₂,
        unserializeHeaderPacket T' (.ofBuffer (packet.take 32) 32) dst.fields compareCrc =
          .ok (ERR_OK, s₁, dst₁) ∧ s₁.rest = [] ∧
        unserializeBodyPacket T' (.ofBuffer (packet.drop 32) (packet.length - 32)) dst₁ t.len
          compareCrc = .ok (ERR_OK, s₂, dst₂) ∧ s₂.rest = [] ∧
        (t.sent T).RestoredIn T T' dst₂) ∧
      ∃ s₁ dst₁ s₂ dst₂,
        unserializeHeaderPacket T' (.ofBuffer packet packet.length) dst.fields compareCrc =
          .ok (ERR_OK, s₁, dst₁) ∧
        unserializeBodyPacket T' s₁ dst₁ t.len compareCrc = .ok (ERR_OK, s₂, dst₂) ∧
        s₂.rest = [] ∧ (t.sent T).RestoredIn T T' dst₂ := by
  have hlen : (((t.sent T).wire T).length : Int) = t.size := (t.sent T).length_wire T
  have hheader := (t.sent T).length_headerWire T
  have htake : ((t.sent T).wire T).take 32 = (t.sent T).headerWire T := List.take_left' hheader
  have hdrop : ((t.sent T).wire T).drop 32 = (t.sent T).bodyWire T := List.drop_left' hheader
  have hsplit : ((t.sent T).wire T).length - 32 = ((t.sent T).bodyWire T).length := by
    rw [← hdrop, List.length_drop]
  refine ⟨_, t.encodePacket_fields T hsize, hlen, ?_, ?_⟩
  · rw [htake, hdrop, hsplit]
    obtain ⟨dst₁, dst₂, hread₁, hread₂, hrestored⟩ := h.restored (T := T) hsize dst
      (.ofBuffer ((t.sent T).headerWire T) 32)
      (.ofBuffer ((t.sent T).bodyWire T) ((t.sent T).bodyWire T).length) rfl rfl rfl
      (by rw [List.append_nil]; exact List.take_of_length_le hheader.le)
      (by rw [List.append_nil]; exact List.take_length)
    refine ⟨_, dst₁, _, dst₂, hread₁, ?_, hread₂, ?_, hrestored⟩
    · simp [InputStream.ofBuffer, hheader]
    · simp [InputStream.ofBuffer]
  · set s := InputStream.ofBuffer ((t.sent T).wire T) ((t.sent T).wire T).length with hs
    have hrest : s.rest = (t.sent T).headerWire T ++ (t.sent T).bodyWire T := List.take_length
    have hrest' : (s.advance 32).rest = (t.sent T).bodyWire T := by
      rw [InputStream.advance_rest, hrest, List.drop_left' hheader]
    obtain ⟨dst₁, dst₂, hread₁, hread₂, hrestored⟩ := h.restored (T := T) hsize dst
      s (s.advance 32) rfl rfl rfl hrest (by rw [hrest', List.append_nil])
    refine ⟨_, dst₁, _, dst₂, hread₁, hread₂, ?_, hrestored⟩
    rw [InputStream.advance_rest, hrest', List.drop_length]

/-! ### The tables of the protocol -/

theorem inRange_scalarField {ty : DataType} {ivalue : Int} (hfloat : ty ≠ .float)
    (hdouble : ty ≠ .double) (hlo : -2 ^ (8 * ty.width - 1) ≤ ivalue)
    (hhi : ivalue < 2 ^ (8 * ty.width - 1)) : (scalarField ty ivalue).InRange :=
  inRange_of_isScalar (isScalar_scalarField ty ivalue) hfloat hdouble hlo hhi

theorem slot_scalarField {cnt : Int} {prev : Field} (ty : DataType) (z z' : Int) :
    Slot cnt prev (scalarField ty z) (scalarField ty z') :=
  ⟨rfl, fun hdata => absurd rfl hdata, Iff.rfl, fun _ hdata => by cases hdata⟩

/-- A destination between `MSG_HEADER` and `MSG_TAIL`. -/
def Dest.ofBody {t : MsgTable} (now method ret count : Int) (body : List Field)
    (h : Along (Slot t.cnt) t.bmark t.body body) : t.Dest where
  header := (msgHeader now method ret count).take FIELD_BMARK
  bmark := scalarField .long BODY_MARK.toInt
  body := body
  bcrc := scalarField .llong 0
  terminator := ⟨-1, 0, 0, none, 0⟩
  isHeader := isHeader_msgHeader now method ret count
  bmark_long := long_bmark
  slots := h
  bcrc_llong := llong_crc
  terminator_neg := neg_terminator

/-- An `int` as the header has it. -/
def IsInt (z : Int) : Prop := -2 ^ 31 ≤ z ∧ z < 2 ^ 31

instance (z : Int) : Decidable (IsInt z) := inferInstanceAs (Decidable (_ ∧ _))

theorem ofBody_decodable {now method ret count : Int} {body : List Field}
    (h : Entries count (scalarField .long BODY_MARK.toInt) body) (hnow : IsInt now)
    (hmethod : IsInt method) (hret : IsInt ret) (hcount : IsInt count)
    (hbody : ∀ p ∈ body, p.InRange) : (ofBody now method ret count body h).Decodable := by
  have long {z : Int} (hz : IsInt z) : (scalarField .long z).InRange :=
    inRange_scalarField (by decide) (by decide) hz.1 hz.2
  exact ⟨⟨rfl, rfl⟩, long hmethod, long hret, long hnow, long hcount, hbody⟩

theorem connectResp_decodable {now retcode priv : Int} (hnow : IsInt now) (hret : IsInt retcode)
    (hpriv : -2 ^ 15 ≤ priv ∧ priv < 2 ^ 15) : (connectResp now retcode priv).Decodable := by
  refine ofBody_decodable _ hnow (by decide) hret (by decide) ?_
  intro p hp
  obtain rfl := List.mem_singleton.mp hp
  exact inRange_scalarField (by decide) (by decide) hpriv.1 hpriv.2

section ConnectReq

variable {now : Int} {clientname processname : List UInt8}
  (hclient : strlen clientname < clientname.length)
  (hprocess : strlen processname < processname.length)

theorem connectReq_inRange (now : Int) (hclient15 : strlen clientname + 1 < 2 ^ 15)
    (hprocess15 : strlen processname + 1 < 2 ^ 15) :
    ∀ p ∈ (connectReq now clientname processname hclient hprocess).body, p.InRange := by
  have short {n : Nat} (hn : n + 1 < 2 ^ 15) : (scalarField .short (n + 1)).InRange :=
    inRange_scalarField (by decide) (by decide) (by simp only [DataType.width]; omega)
      (by simp only [DataType.width]; omega)
  have array (memory : List UInt8) :
      (⟨DataType.char.code, 0, 0, some memory, -1⟩ : Field).InRange := by
    intro ty hp
    exact absurd hp.data (by simp)
  simp only [connectReq, ofBody, List.mem_cons, List.not_mem_nil, or_false, forall_eq_or_imp,
    forall_eq]
  exact ⟨short hclient15, array _, short hprocess15, array _⟩

theorem connectReq_decodable (hnow : IsInt now) (hclient15 : strlen clientname + 1 < 2 ^ 15)
    (hprocess15 : strlen processname + 1 < 2 ^ 15) :
    (connectReq now clientname processname hclient hprocess).Decodable :=
  ofBody_decodable _ hnow (by decide) (by decide) (by decide)
    (connectReq_inRange hclient hprocess now hclient15 hprocess15)

/-- The table `msg_connect` decodes a connect request into, if its buffers have the room. -/
def connectDest (now' : Int) (buffer buffer' : List UInt8)
    (hbuffer : strlen clientname + 1 ≤ buffer.length)
    (hbuffer' : strlen processname + 1 ≤ buffer'.length) :
    (connectReq now clientname processname hclient hprocess).Dest :=
  .ofBody now' MSG_CONNECT 0 1
    [ scalarField .short (strlen buffer + 1)
    , ⟨DataType.char.code, 0, 0, some buffer, -1⟩
    , scalarField .short (strlen buffer' + 1)
    , ⟨DataType.char.code, 0, 0, some buffer', -1⟩ ] <| by
    have array {memory memory' : List UInt8} (h : strlen memory + 1 ≤ memory'.length) :
        Slot 1 (scalarField .short (strlen memory + 1))
          ⟨DataType.char.code, 0, 0, some memory, -1⟩
          ⟨DataType.char.code, 0, 0, some memory', -1⟩ := by
      refine ⟨rfl, fun _ => rfl, by simp, ?_⟩
      intro m hm
      obtain rfl := Option.some.inj hm
      simp only [Field.size, Field.elements, DataType.typeSize_code, DataType.width, scalarField]
      rw [if_neg (by decide)]
      omega
    exact .cons (slot_scalarField _ _ _) (.cons (array hbuffer) (.cons (slot_scalarField _ _ _)
      (.cons (array hbuffer') .nil)))

theorem fields_connectDest (now' : Int) (buffer buffer' : List UInt8)
    (hbuffer : strlen clientname + 1 ≤ buffer.length)
    (hbuffer' : strlen processname + 1 ≤ buffer'.length) :
    (connectDest hclient hprocess now' buffer buffer' hbuffer hbuffer' :
      (connectReq now clientname processname hclient hprocess).Dest).fields =
        msgConnectFields now' buffer buffer' := rfl

end ConnectReq

/-- A connect request from client `"a"`, process `"bc"`, decoded on a host of the other
byte order. -/
theorem decode_encode_connectReq :
    ∃ packet fields, encodePacket (.build .little)
        (msgConnectFields 7 [0x61, 0] [0x62, 0x63, 0]) 13 = .ok (ERR_OK, packet, fields) ∧
      packet.length = 53 ∧
      ∃ s₁ dst₁ s₂ dst₂,
        unserializeHeaderPacket (.build .big)
            (.ofBuffer (packet.take 32) 32) (msgConnectFields 0 (List.replicate 1024 0)
              (List.replicate 1024 0)) true = .ok (ERR_OK, s₁, dst₁) ∧
        unserializeBodyPacket (.build .big)
            (.ofBuffer (packet.drop 32) (packet.length - 32)) dst₁ 13 true =
          .ok (ERR_OK, s₂, dst₂) := by
  have hreq : (connectReq 7 [0x61, 0] [0x62, 0x63, 0] (by decide) (by decide)).Decodable :=
    connectReq_decodable _ _ (by decide) (by decide) (by decide)
  obtain ⟨packet, hencode, hlength, ⟨s₁, dst₁, s₂, dst₂, hread₁, -, hread₂, -, -⟩, -⟩ :=
    decode_encode (T := .build .little) hreq (by decide)
      (connectDest (by decide) (by decide) 0 (List.replicate 1024 0) (List.replicate 1024 0)
        (by rw [List.length_replicate]; decide) (by rw [List.length_replicate]; decide))
      (.build .big) true
  exact ⟨packet, _, hencode, Int.ofNat_inj.mp hlength, s₁, dst₁, s₂, dst₂, hread₁, hread₂⟩

end MsgTable

end Librtaio

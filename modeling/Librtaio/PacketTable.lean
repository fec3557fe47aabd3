import Librtaio.TableShape

/-!
# Tables with arrays of every type

A table of the header, body, tail shape whose arrays may have any element type
(`PacketTable`). What the streams move for an entry (`Field.moved`,
`Field.image`) follows the element width the streams use, which for a LONGLONG
array is 4: it is `Field.size` and `Field.wire` for every entry of a message
table (`Entry.moved_eq`, `Entry.image_eq`), so that what holds of the codec over
packet tables holds over message tables.
-/

namespace Librtaio

open Bytes Crc32

namespace DataType

/-- The width `write_array` and `read_array` are called with. -/
def elemWidth : DataType → Nat
  | llong => 4
  | ty => ty.width

theorem elemWidth_eq {ty : DataType} (h : ty ≠ llong) : ty.elemWidth = ty.width := by
  cases ty
  case llong => exact absurd rfl h
  all_goals rfl

theorem elemWidth_pos (ty : DataType) : 0 < ty.elemWidth := by
  cases ty <;> decide

theorem elemWidth_le (ty : DataType) : ty.elemWidth ≤ ty.width := by
  cases ty <;> decide

theorem wordSize_elemWidth (ty : DataType) : OutputStream.WordSize ty.elemWidth := by
  cases ty <;> simp [OutputStream.WordSize, elemWidth, width]

end DataType

/-! ### Entries -/

namespace Field

/-- The bytes the streams move for an entry. -/
def moved (p : Field) (cnt : Int) (prev : Field) : Nat :=
  match DataType.ofCode p.type, p.data with
  | some ty, none => ty.width
  | some ty, some _ => ty.elemWidth * (p.elements cnt prev).toNat
  | none, _ => 0

/-- The bytes the streams put on the wire for an entry. -/
def image (p : Field) (T : Target) (cnt : Int) (prev : Field) : List UInt8 :=
  match DataType.ofCode p.type, p.data with
  | some ty, none => p.scalarWire T ty
  | some ty, some memory => T.order.flipWords ty.elemWidth (p.elements cnt prev).toNat memory
  | none, _ => []

section Shapes

variable {p : Field} {ty : DataType} {memory : List UInt8}

theorem IsScalar.moved_eq (h : p.IsScalar ty) (cnt : Int) (prev : Field) :
    p.moved cnt prev = ty.width := by
  simp only [moved, h.data, h.type, DataType.ofCode_code]

theorem IsArray.moved_eq (h : p.IsArray ty memory) (cnt : Int) (prev : Field) :
    p.moved cnt prev = ty.elemWidth * (p.elements cnt prev).toNat := by
  simp only [moved, h.data, h.type, DataType.ofCode_code]

theorem IsScalar.image_eq (h : p.IsScalar ty) (T : Target) (cnt : Int) (prev : Field) :
    p.image T cnt prev = p.scalarWire T ty := by
  simp only [image, h.data, h.type, DataType.ofCode_code]

theorem IsArray.image_eq (h : p.IsArray ty memory) (T : Target) (cnt : Int) (prev : Field) :
    p.image T cnt prev =
      T.order.flipWords ty.elemWidth (p.elements cnt prev).toNat memory := by
  simp only [image, h.data, h.type, DataType.ofCode_code]

end Shapes

end Field

/-- The shapes of a body entry, given the header's count and the entry before. -/
inductive Item (cnt : Int) (prev p : Field) : Prop where
  | scalar (ty : DataType) (hp : p.IsScalar ty)
  | counted (ty : DataType) (memory : List UInt8) (hp : p.IsArray ty memory)
      (hcount : 1 ≤ p.count) (hcnt : 0 ≤ cnt) (hmem : p.size cnt prev ≤ memory.length)
  | prefixed (ty : DataType) (memory : List UInt8) (hp : p.IsArray ty memory)
      (hcount : p.count = -1) (hprev : prev.IsLength) (hlen : 0 ≤ prev.ivalue)
      (hmem : p.size cnt prev ≤ memory.length)

theorem Field.IsArray.moved_le {p : Field} {ty : DataType} {memory : List UInt8}
    (hp : p.IsArray ty memory) {cnt : Int} {prev : Field} (helem : 0 ≤ p.elements cnt prev) :
    (p.moved cnt prev : Int) ≤ p.size cnt prev := by
  rw [hp.moved_eq, hp.size_eq, ← Entry.width_mul_toNat ty helem]
  exact_mod_cast Nat.mul_le_mul_right _ ty.elemWidth_le

namespace Item

variable {cnt : Int} {prev p : Field}

theorem type_nonneg (h : Item cnt prev p) : 0 ≤ p.type := by
  cases h with
  | scalar ty hp => exact hp.type_nonneg
  | counted ty _ hp => exact hp.type_nonneg
  | prefixed ty _ hp => exact hp.type_nonneg

/-- An array has its elements in its memory. -/
theorem elements_nonneg (h : Item cnt prev p) (hdata : p.data ≠ none) :
    0 ≤ p.elements cnt prev := by
  cases h with
  | scalar ty hp => exact absurd hp.data hdata
  | counted ty memory hp hcount hcnt => exact (Entry.counted_elements prev hcount hcnt).2
  | prefixed ty memory hp hcount hprev hlen =>
    rw [Entry.prefixed_elements cnt prev hcount]
    exact hlen

theorem size_le (h : Item cnt prev p) {ty : DataType} {memory : List UInt8}
    (hp : p.IsArray ty memory) : p.size cnt prev ≤ memory.length := by
  have same {ty' : DataType} {memory' : List UInt8} (hp' : p.IsArray ty' memory')
      (hmem : p.size cnt prev ≤ memory'.length) : p.size cnt prev ≤ memory.length := by
    obtain rfl : memory' = memory := Option.some.inj (hp'.data.symm.trans hp.data)
    exact hmem
  cases h with
  | scalar ty' hp' => exact absurd (hp'.data.symm.trans hp.data) (by simp)
  | counted ty' memory' hp' _ _ hmem => exact same hp' hmem
  | prefixed ty' memory' hp' _ _ _ hmem => exact same hp' hmem

theorem isScalar_or_isArray (h : Item cnt prev p) :
    (∃ ty, p.IsScalar ty) ∨ ∃ ty memory, p.IsArray ty memory := by
  cases h with
  | scalar ty hp => exact .inl ⟨ty, hp⟩
  | counted ty memory hp => exact .inr ⟨ty, memory, hp⟩
  | prefixed ty memory hp => exact .inr ⟨ty, memory, hp⟩

/-- What the streams move is in the memory, and no more than the entry's size. -/
theorem moved_le (h : Item cnt prev p) : (p.moved cnt prev : Int) ≤ p.size cnt prev := by
  rcases h.isScalar_or_isArray with ⟨ty, hp⟩ | ⟨ty, memory, hp⟩
  · rw [hp.moved_eq, hp.size_eq]
  · exact hp.moved_le (h.elements_nonneg (by simp [hp.data]))

theorem size_nonneg (h : Item cnt prev p) : 0 ≤ p.size cnt prev := by
  have hle := h.moved_le
  omega

theorem length_image (h : Item cnt prev p) (T : Target) :
    (p.image T cnt prev).length = p.moved cnt prev := by
  rcases h.isScalar_or_isArray with ⟨ty, hp⟩ | ⟨ty, memory, hp⟩
  · rw [hp.image_eq, hp.moved_eq, Field.length_scalarWire]
  · have hmem := h.size_le hp
    have hle := h.moved_le
    rw [hp.moved_eq] at hle ⊢
    rw [hp.image_eq, ByteOrder.length_flipWords _ _ _ _ (by omega)]

end Item

namespace Entry

variable {cnt : Int} {prev p : Field}

theorem item (h : Entry cnt prev p) : Item cnt prev p := by
  cases h with
  | scalar ty hp => exact .scalar ty hp
  | counted ty memory hp _ hcount hcnt hmem => exact .counted ty memory hp hcount hcnt hmem
  | prefixed ty memory hp _ hcount hprev hlen hmem =>
    exact .prefixed ty memory hp hcount hprev hlen hmem

theorem image_eq (h : Entry cnt prev p) (T : Target) :
    p.image T cnt prev = p.wire T cnt prev := by
  cases h with
  | scalar ty hp => rw [hp.image_eq, hp.wire_eq]
  | counted ty memory hp hty => rw [hp.image_eq, hp.wire_eq, DataType.elemWidth_eq hty]
  | prefixed ty memory hp hty => rw [hp.image_eq, hp.wire_eq, DataType.elemWidth_eq hty]

end Entry

/-! ### Runs of entries -/

/-- The bytes the streams move for consecutive entries. -/
def moves (cnt : Int) : Field → List Field → Nat
  | _, [] => 0
  | prev, p :: es => p.moved cnt prev + moves cnt p es

/-- The bytes the streams put on the wire for consecutive entries. -/
def images (T : Target) (cnt : Int) : Field → List Field → List UInt8
  | _, [] => []
  | prev, p :: es => p.image T cnt prev ++ images T cnt p es

/-- Consecutive body entries after `prev`. -/
def Items (cnt : Int) (prev : Field) (es : List Field) : Prop :=
  (prev :: es).IsChain (Item cnt)

section Runs

variable {cnt : Int} {prev p : Field} {es : List Field}

@[simp] theorem items_nil : Items cnt prev [] := by simp [Items]

@[simp] theorem items_cons : Items cnt prev (p :: es) ↔ Item cnt prev p ∧ Items cnt p es := by
  simp [Items]

theorem Items.length_images (T : Target) (h : Items cnt prev es) :
    (images T cnt prev es).length = moves cnt prev es := by
  induction es generalizing prev with
  | nil => rfl
  | cons p es ih =>
    rw [items_cons] at h
    rw [images, moves, List.length_append, h.1.length_image T, ih h.2]

theorem Items.moves_le (h : Items cnt prev es) : (moves cnt prev es : Int) ≤ sizes cnt prev es := by
  induction es generalizing prev with
  | nil => exact le_refl _
  | cons p es ih =>
    rw [items_cons] at h
    rw [moves, sizes, Int.natCast_add]
    exact Int.add_le_add h.1.moved_le (ih h.2)

theorem Items.sizes_nonneg (h : Items cnt prev es) : 0 ≤ sizes cnt prev es := by
  have hle := h.moves_le
  omega

theorem Items.append {ds : List Field} (h : Items cnt prev es)
    (hds : Items cnt (lastEntry prev es) ds) : Items cnt prev (es ++ ds) := by
  induction es generalizing prev with
  | nil => exact hds
  | cons p es ih =>
    rw [items_cons] at h
    rw [List.cons_append, items_cons]
    exact ⟨h.1, ih h.2 hds⟩

theorem Entries.items (h : Entries cnt prev es) : Items cnt prev es :=
  List.IsChain.imp (fun _ _ => Entry.item) h

theorem Entries.images_eq (h : Entries cnt prev es) (T : Target) :
    images T cnt prev es = wires T cnt prev es := by
  induction es generalizing prev with
  | nil => rfl
  | cons p es ih =>
    rw [entries_cons] at h
    rw [images, wires, h.1.image_eq T, ih h.2]

theorem Entries.moves_eq (h : Entries cnt prev es) :
    (moves cnt prev es : Int) = sizes cnt prev es := by
  rw [← h.items.length_images ⟨.big, false, id, id⟩, h.images_eq, h.length_wires]

theorem moves_append (ds : List Field) :
    moves cnt prev (es ++ ds) = moves cnt prev es + moves cnt (lastEntry prev es) ds := by
  induction es generalizing prev with
  | nil => simp [moves, lastEntry]
  | cons p es ih => simp [moves, lastEntry, ih, Nat.add_assoc]

end Runs

/-! ### Tables -/

/-- A table of the `MSG_HEADER`, body, `MSG_TAIL` shape. -/
structure PacketTable where
  hmark : Field
  method : Field
  bsize : Field
  ret : Field
  time : Field
  count : Field
  hcrc : Field
  bmark : Field
  body : List Field
  bcrc : Field
  terminator : Field
  hmark_long : hmark.IsScalar .long
  method_long : method.IsScalar .long
  bsize_long : bsize.IsScalar .long
  ret_long : ret.IsScalar .long
  time_long : time.IsScalar .long
  count_long : count.IsScalar .long
  hcrc_llong : hcrc.IsScalar .llong
  bmark_long : bmark.IsScalar .long
  body_items : Items count.ivalue bmark body
  bcrc_llong : bcrc.IsScalar .llong
  terminator_neg : terminator.type < 0

namespace PacketTable

variable (t : PacketTable)

def cnt : Int := t.count.ivalue

/-- The entries after `hmark` that the header's checksum covers. -/
def plain : List Field := [t.method, t.bsize, t.ret, t.time, t.count]

/-- The table as the C array has it. -/
def fields : List Field :=
  t.hmark :: t.plain ++ t.hcrc :: t.bmark :: t.body ++ [t.bcrc, t.terminator]

def len : Int := t.body.length + 9

/-- The bytes of the entries after the header as `fields_size` counts them. -/
def bodySize : Int := 4 + sizes t.cnt t.bmark t.body + 8

def size : Int := 32 + t.bodySize

/-- The bytes that are written for the whole packet. -/
def length : Nat := 44 + moves t.cnt t.bmark t.body

/-- The entries the header's checksum covers, on the wire. -/
def headerImage (T : Target) : List UInt8 :=
  t.hmark.scalarWire T .long ++ images T t.cnt t.hmark t.plain

/-- The entries the body's checksum covers, on the wire. -/
def bodyImage (T : Target) : List UInt8 :=
  t.bmark.scalarWire T .long ++ images T t.cnt t.bmark t.body

def headerWire (T : Target) : List UInt8 := t.headerImage T ++ t.hcrc.scalarWire T .llong

def bodyWire (T : Target) : List UInt8 := t.bodyImage T ++ t.bcrc.scalarWire T .llong

def wire (T : Target) : List UInt8 := t.headerWire T ++ t.bodyWire T

/-- The table with its two checksums as `serialize_packet` leaves them. -/
def sealed (T : Target) : PacketTable :=
  { t with
    hcrc := { t.hcrc with ivalue := (crc32 (t.headerImage T)).toNat }
    bcrc := { t.bcrc with ivalue := (crc32 (t.bodyImage T)).toNat }
    hcrc_llong := t.hcrc_llong.setIvalue _
    bcrc_llong := t.bcrc_llong.setIvalue _ }

theorem items : Items t.cnt t.bmark t.body := t.body_items

theorem plain_items : Items t.cnt t.hmark t.plain := by
  simp only [plain, items_cons, items_nil, and_true]
  exact ⟨.scalar _ t.method_long, .scalar _ t.bsize_long, .scalar _ t.ret_long,
    .scalar _ t.time_long, .scalar _ t.count_long⟩

theorem count_ivalue : t.count.ivalue = t.cnt := rfl

theorem fieldAt_count : fieldAt t.fields FIELD_COUNT = .ok t.count := rfl

theorem length_plain : t.plain.length = 5 := rfl

theorem moves_plain : moves t.cnt t.hmark t.plain = 20 := by
  simp only [plain, moves, t.method_long.moved_eq, t.bsize_long.moved_eq, t.ret_long.moved_eq,
    t.time_long.moved_eq, t.count_long.moved_eq, DataType.width]

theorem length_headerImage (T : Target) : (t.headerImage T).length = 24 := by
  rw [headerImage, List.length_append, Field.length_scalarWire, t.plain_items.length_images,
    moves_plain]
  rfl

theorem length_headerWire (T : Target) : (t.headerWire T).length = 32 := by
  rw [headerWire, List.length_append, length_headerImage, Field.length_scalarWire]
  rfl

theorem length_bodyImage (T : Target) :
    (t.bodyImage T).length = 4 + moves t.cnt t.bmark t.body := by
  rw [bodyImage, List.length_append, Field.length_scalarWire, t.items.length_images T]
  rfl

theorem length_bodyWire (T : Target) :
    (t.bodyWire T).length = 12 + moves t.cnt t.bmark t.body := by
  rw [bodyWire, List.length_append, Field.length_scalarWire, length_bodyImage, DataType.width]
  omega

theorem length_wire (T : Target) : (t.wire T).length = t.length := by
  rw [wire, List.length_append, length_headerWire, length_bodyWire, length]
  omega

theorem length_le : (t.length : Int) ≤ t.size := by
  have hmoves := t.items.moves_le
  rw [length, size, bodySize]
  omega

theorem long_hmark : (scalarField .long HEAD_MARK.toInt).IsScalar .long :=
  MsgTable.isScalar_scalarField _ _

theorem long_bsize : (scalarField .long 0).IsScalar .long := MsgTable.isScalar_scalarField _ _

/-- A body between `MSG_HEADER` and `MSG_TAIL`. -/
def ofBody (now method ret count : Int) (body : List Field)
    (h : Items count (scalarField .long BODY_MARK.toInt) body) : PacketTable where
  hmark := scalarField .long HEAD_MARK.toInt
  method := scalarField .long method
  bsize := scalarField .long 0
  ret := scalarField .long ret
  time := scalarField .long now
  count := scalarField .long count
  hcrc := scalarField .llong 0
  bmark := scalarField .long BODY_MARK.toInt
  body := body
  bcrc := scalarField .llong 0
  terminator := ⟨-1, 0, 0, none, 0⟩
  hmark_long := long_hmark
  method_long := MsgTable.isScalar_scalarField _ _
  bsize_long := long_bsize
  ret_long := MsgTable.isScalar_scalarField _ _
  time_long := MsgTable.isScalar_scalarField _ _
  count_long := MsgTable.isScalar_scalarField _ _
  hcrc_llong := MsgTable.llong_crc
  bmark_long := MsgTable.long_bmark
  body_items := h
  bcrc_llong := MsgTable.llong_crc
  terminator_neg := MsgTable.neg_terminator

theorem fields_ofBody (now method ret count : Int) (body : List Field)
    (h : Items count (scalarField .long BODY_MARK.toInt) body) :
    (ofBody now method ret count body h).fields =
      msgHeader now method ret count ++ body ++ msgTail := rfl

end PacketTable

/-! ### Message tables among them -/

namespace MsgTable

variable (t : MsgTable)

def packetTable : PacketTable :=
  { hmark := t.hmark, method := t.method, bsize := t.bsize, ret := t.ret, time := t.time
    count := t.count, hcrc := t.hcrc, bmark := t.bmark, body := t.body, bcrc := t.bcrc
    terminator := t.terminator, hmark_long := t.hmark_long, method_long := t.method_long
    bsize_long := t.bsize_long, ret_long := t.ret_long, time_long := t.time_long
    count_long := t.count_long, hcrc_llong := t.hcrc_llong, bmark_long := t.bmark_long
    body_items := t.body_entries.items, bcrc_llong := t.bcrc_llong
    terminator_neg := t.terminator_neg }

theorem fields_packetTable : t.packetTable.fields = t.fields := rfl

theorem headerImage_packetTable (T : Target) : t.packetTable.headerImage T = t.headerImage T :=
  congrArg _ (t.plain_entries.images_eq T)

theorem bodyImage_packetTable (T : Target) : t.packetTable.bodyImage T = t.bodyImage T :=
  congrArg _ (t.entries.images_eq T)

theorem headerWire_packetTable (T : Target) : t.packetTable.headerWire T = t.headerWire T :=
  congrArg (· ++ _) (t.headerImage_packetTable T)

theorem bodyWire_packetTable (T : Target) : t.packetTable.bodyWire T = t.bodyWire T :=
  congrArg (· ++ _) (t.bodyImage_packetTable T)

theorem wire_packetTable (T : Target) : t.packetTable.wire T = t.wire T := by
  rw [PacketTable.wire, headerWire_packetTable, bodyWire_packetTable, wire]

theorem sealed_packetTable (T : Target) :
    t.packetTable.sealed T = (t.sealed T).packetTable := by
  simp only [PacketTable.sealed, headerImage_packetTable, bodyImage_packetTable]
  rfl

theorem length_packetTable : (t.packetTable.length : Int) = t.size := by
  have hmoves := t.entries.moves_eq
  change ((44 + moves t.cnt t.bmark t.body : Nat) : Int) = 32 + (4 + sizes t.cnt t.bmark t.body + 8)
  omega

end MsgTable

end Librtaio

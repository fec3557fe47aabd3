import Librtaio.PacketProtocol
import Mathlib.Data.List.Chain

/-!
# Message tables and their wire image

The shape every message table has: the eight `MSG_HEADER` entries, the body
entries, the `MSG_TAIL` checksum and a terminator (`MsgTable`). A body entry is
a scalar, an array counted by its own `count` times the header's, or an array
whose length is the `ivalue` of the SHORT or LONG scalar before it (`Entry`).

An entry has a size and a wire image, given here without any loop; the later
modules prove that the codec computes them. The element width the streams use
for a LONGLONG array is not the size of its elements, so it has no place here.
-/

namespace Librtaio

open Bytes Crc32 FloatCast

/-! ### Widths -/

namespace DataType

/-- The bytes a scalar of the type takes on the wire. -/
def width : DataType → Nat
  | char => 1
  | byte => 1
  | short => 2
  | long => 4
  | llong => 8
  | float => 4
  | double => 8

theorem width_pos (ty : DataType) : 0 < ty.width := by
  cases ty <;> decide

@[simp] theorem typeSize_code (ty : DataType) : typeSize ty.code = ty.width := by
  cases ty <;> rfl

end DataType

/-! ### Entries -/

namespace Field

/-- A scalar entry of the given type. -/
structure IsScalar (p : Field) (ty : DataType) : Prop where
  type : p.type = ty.code
  data : p.data = none

/-- An array entry of the given element type over a block of memory. -/
structure IsArray (p : Field) (ty : DataType) (memory : List UInt8) : Prop where
  type : p.type = ty.code
  data : p.data = some memory

/-- An entry that can hold the length of the array after it. -/
def IsLength (p : Field) : Prop := p.IsScalar .short ∨ p.IsScalar .long

def elements (p : Field) (cnt : Int) (prev : Field) : Int :=
  if p.count > 0 then p.count * cnt else prev.ivalue

/-- The bytes an entry takes on the wire. -/
def size (p : Field) (cnt : Int) (prev : Field) : Int :=
  match p.data with
  | none => typeSize p.type
  | some _ => typeSize p.type * p.elements cnt prev

/-- The bytes a scalar of a type puts on the wire. -/
def scalarWire (p : Field) (T : Target) : DataType → List UInt8
  | .char | .byte => beBytes 1 (BitVec.ofInt 8 p.ivalue).toNat
  | .short => beBytes 2 (BitVec.ofInt 16 p.ivalue).toNat
  | .long => beBytes 4 (BitVec.ofInt 32 p.ivalue).toNat
  | .llong => beBytes 8 (BitVec.ofInt 64 p.ivalue).toNat
  | .float =>
    beBytes 4 (floatToUnsigned (T.undefULong (toFloat p.fvalue)) (toFloat p.fvalue)).toNat
  | .double => beBytes 8 (doubleToUnsigned (T.undefULongLong p.fvalue) p.fvalue).toNat

/-- The bytes an entry puts on the wire: an array's elements in network order. -/
def wire (p : Field) (T : Target) (cnt : Int) (prev : Field) : List UInt8 :=
  match DataType.ofCode p.type, p.data with
  | some ty, none => p.scalarWire T ty
  | some ty, some memory => T.order.flipWords ty.width (p.elements cnt prev).toNat memory
  | none, _ => []

@[simp] theorem length_scalarWire (p : Field) (T : Target) (ty : DataType) :
    (p.scalarWire T ty).length = ty.width := by
  cases ty <;> simp [scalarWire, DataType.width]

section Shapes

variable {p : Field} {ty : DataType} {memory : List UInt8}

theorem IsScalar.type_nonneg (h : p.IsScalar ty) : 0 ≤ p.type := by
  rw [h.type]
  exact ty.code_nonneg

theorem IsArray.type_nonneg (h : p.IsArray ty memory) : 0 ≤ p.type := by
  rw [h.type]
  exact ty.code_nonneg

theorem IsScalar.size_eq (h : p.IsScalar ty) (cnt : Int) (prev : Field) :
    p.size cnt prev = ty.width := by
  simp only [size, h.data, h.type, DataType.typeSize_code]

theorem IsArray.size_eq (h : p.IsArray ty memory) (cnt : Int) (prev : Field) :
    p.size cnt prev = ty.width * p.elements cnt prev := by
  simp only [size, h.data, h.type, DataType.typeSize_code]

theorem IsScalar.wire_eq (h : p.IsScalar ty) (T : Target) (cnt : Int) (prev : Field) :
    p.wire T cnt prev = p.scalarWire T ty := by
  simp only [wire, h.data, h.type, DataType.ofCode_code]

theorem IsArray.wire_eq (h : p.IsArray ty memory) (T : Target) (cnt : Int) (prev : Field) :
    p.wire T cnt prev = T.order.flipWords ty.width (p.elements cnt prev).toNat memory := by
  simp only [wire, h.data, h.type, DataType.ofCode_code]

theorem IsScalar.setIvalue (h : p.IsScalar ty) (value : Int) :
    ({ p with ivalue := value } : Field).IsScalar ty := ⟨h.type, h.data⟩

theorem IsLength.type (h : p.IsLength) : p.type = TYPE_SHORT ∨ p.type = TYPE_LONG :=
  h.imp (·.type) (·.type)

theorem IsLength.data (h : p.IsLength) : p.data = none :=
  h.elim (·.data) (·.data)

theorem IsScalar.not_isLength (h : p.IsScalar .llong) : ¬ p.IsLength := by
  rintro (hp | hp) <;> exact absurd (hp.type.symm.trans h.type) (by decide)

end Shapes

end Field

/-- The shapes of a body entry, given the header's count and the entry before. -/
inductive Entry (cnt : Int) (prev p : Field) : Prop where
  | scalar (ty : DataType) (hp : p.IsScalar ty)
  | counted (ty : DataType) (memory : List UInt8) (hp : p.IsArray ty memory) (hty : ty ≠ .llong)
      (hcount : 1 ≤ p.count) (hcnt : 0 ≤ cnt) (hmem : p.size cnt prev ≤ memory.length)
  | prefixed (ty : DataType) (memory : List UInt8) (hp : p.IsArray ty memory) (hty : ty ≠ .llong)
      (hcount : p.count = -1) (hprev : prev.IsLength) (hlen : 0 ≤ prev.ivalue)
      (hmem : p.size cnt prev ≤ memory.length)

namespace Entry

variable {cnt : Int} {prev p : Field}

theorem counted_elements (prev : Field) (hcount : 1 ≤ p.count) (hcnt : 0 ≤ cnt) :
    p.elements cnt prev = p.count * cnt ∧ 0 ≤ p.elements cnt prev := by
  have helem : p.elements cnt prev = p.count * cnt := if_pos (by omega)
  exact ⟨helem, by rw [helem]; exact Int.mul_nonneg (by omega) hcnt⟩

theorem prefixed_elements (cnt : Int) (prev : Field) (hcount : p.count = -1) :
    p.elements cnt prev = prev.ivalue := if_neg (by omega)

/-- What a wire image takes out of an array's memory. -/
theorem width_mul_toNat (ty : DataType) {n : Int} (hn : 0 ≤ n) :
    ((ty.width * n.toNat : Nat) : Int) = ty.width * n := by
  rw [Int.natCast_mul, Int.toNat_of_nonneg hn]

theorem length_wire (h : Entry cnt prev p) (T : Target) :
    ((p.wire T cnt prev).length : Int) = p.size cnt prev := by
  have key {ty : DataType} {memory : List UInt8} (hp : p.IsArray ty memory)
      (helem : 0 ≤ p.elements cnt prev) (hmem : p.size cnt prev ≤ memory.length) :
      ((p.wire T cnt prev).length : Int) = p.size cnt prev := by
    rw [hp.size_eq, ← width_mul_toNat ty helem] at hmem ⊢
    rw [hp.wire_eq, ByteOrder.length_flipWords _ _ _ _ (by exact_mod_cast hmem)]
  cases h with
  | scalar ty hp => rw [hp.wire_eq, hp.size_eq, Field.length_scalarWire]
  | counted ty memory hp hty hcount hcnt hmem => exact key hp (counted_elements prev hcount hcnt).2 hmem
  | prefixed ty memory hp hty hcount hprev hlen hmem =>
    exact key hp (by rw [prefixed_elements cnt prev hcount]; exact hlen) hmem

end Entry

/-! ### Runs of entries -/

/-- The size of consecutive entries. -/
def sizes (cnt : Int) : Field → List Field → Int
  | _, [] => 0
  | prev, p :: es => p.size cnt prev + sizes cnt p es

/-- The wire image of consecutive entries. -/
def wires (T : Target) (cnt : Int) : Field → List Field → List UInt8
  | _, [] => []
  | prev, p :: es => p.wire T cnt prev ++ wires T cnt p es

/-- Consecutive body entries after `prev`. -/
def Entries (cnt : Int) (prev : Field) (es : List Field) : Prop :=
  (prev :: es).IsChain (Entry cnt)

/-- The last of `prev` and the entries after it. -/
def lastEntry : Field → List Field → Field
  | prev, [] => prev
  | _, p :: es => lastEntry p es

section Runs

variable {cnt : Int} {prev p : Field} {es : List Field}

@[simp] theorem entries_nil : Entries cnt prev [] := by simp [Entries]

@[simp] theorem entries_cons : Entries cnt prev (p :: es) ↔ Entry cnt prev p ∧ Entries cnt p es := by
  simp [Entries]

theorem Entries.length_wires (T : Target) (h : Entries cnt prev es) :
    ((wires T cnt prev es).length : Int) = sizes cnt prev es := by
  induction es generalizing prev with
  | nil => rfl
  | cons p es ih =>
    rw [entries_cons] at h
    rw [wires, sizes, List.length_append, Int.natCast_add, h.1.length_wire T, ih h.2]

theorem Entries.sizes_nonneg (h : Entries cnt prev es) : 0 ≤ sizes cnt prev es := by
  have hlen := h.length_wires ⟨.big, false, id, id⟩
  omega

theorem sizes_append (ds : List Field) :
    sizes cnt prev (es ++ ds) = sizes cnt prev es + sizes cnt (lastEntry prev es) ds := by
  induction es generalizing prev with
  | nil => simp [sizes, lastEntry]
  | cons p es ih => simp [sizes, lastEntry, ih, Int.add_assoc]

theorem wires_append (T : Target) (ds : List Field) :
    wires T cnt prev (es ++ ds) = wires T cnt prev es ++ wires T cnt (lastEntry prev es) ds := by
  induction es generalizing prev with
  | nil => simp [wires, lastEntry]
  | cons p es ih => simp [wires, lastEntry, ih]

end Runs

/-! ### Tables -/

/-- A table of the `MSG_HEADER`, body, `MSG_TAIL` shape. -/
structure MsgTable where
  hmark : Field
  method : Field
  bsize : Field
  ret : Field
  time : Field
  count : Field
  hcrc : Field
  bmark : Field
  body : List Field
  bcrc : Field
  terminator : Field
  hmark_long : hmark.IsScalar .long
  method_long : method.IsScalar .long
  bsize_long : bsize.IsScalar .long
  ret_long : ret.IsScalar .long
  time_long : time.IsScalar .long
  count_long : count.IsScalar .long
  hcrc_llong : hcrc.IsScalar .llong
  bmark_long : bmark.IsScalar .long
  body_entries : Entries count.ivalue bmark body
  bcrc_llong : bcrc.IsScalar .llong
  terminator_neg : terminator.type < 0

namespace MsgTable

variable (t : MsgTable)

/-- What an array entry's own `count` is multiplied by. -/
def cnt : Int := t.count.ivalue

/-- The entries after `hmark` that the header's checksum covers. -/
def plain : List Field := [t.method, t.bsize, t.ret, t.time, t.count]

/-- The table as the C array has it. -/
def fields : List Field :=
  t.hmark :: t.plain ++ t.hcrc :: t.bmark :: t.body ++ [t.bcrc, t.terminator]

def len : Int := t.body.length + 9

/-- The bytes of the entries after the header. -/
def bodySize : Int := 4 + sizes t.cnt t.bmark t.body + 8

def size : Int := 32 + t.bodySize

/-- The wire image of the entries the header's checksum covers. -/
def headerImage (T : Target) : List UInt8 :=
  t.hmark.scalarWire T .long ++ wires T t.cnt t.hmark t.plain

/-- The wire image of the entries the body's checksum covers. -/
def bodyImage (T : Target) : List UInt8 :=
  t.bmark.scalarWire T .long ++ wires T t.cnt t.bmark t.body

def headerWire (T : Target) : List UInt8 := t.headerImage T ++ t.hcrc.scalarWire T .llong

def bodyWire (T : Target) : List UInt8 := t.bodyImage T ++ t.bcrc.scalarWire T .llong

def wire (T : Target) : List UInt8 := t.headerWire T ++ t.bodyWire T

theorem plain_entries : Entries t.cnt t.hmark t.plain := by
  simp only [plain, entries_cons, entries_nil, and_true]
  exact ⟨.scalar _ t.method_long, .scalar _ t.bsize_long, .scalar _ t.ret_long,
    .scalar _ t.time_long, .scalar _ t.count_long⟩

theorem entries : Entries t.cnt t.bmark t.body := t.body_entries

theorem fieldsLen_fields : fieldsLen t.fields = t.len := by
  simp only [fieldsLen, fields, plain, len, List.length_append, List.length_cons, List.length_nil]
  omega

theorem sizes_plain : sizes t.cnt t.hmark t.plain = 20 := by
  simp only [plain, sizes, t.method_long.size_eq, t.bsize_long.size_eq, t.ret_long.size_eq,
    t.time_long.size_eq, t.count_long.size_eq]
  rfl

theorem length_headerImage (T : Target) : (t.headerImage T).length = 24 := by
  have hplain := t.plain_entries.length_wires T
  have hsizes := t.sizes_plain
  rw [headerImage, List.length_append, Field.length_scalarWire, DataType.width]
  omega

theorem length_headerWire (T : Target) : (t.headerWire T).length = 32 := by
  rw [headerWire, List.length_append, length_headerImage, Field.length_scalarWire]
  rfl

theorem length_bodyImage (T : Target) :
    ((t.bodyImage T).length : Int) = 4 + sizes t.cnt t.bmark t.body := by
  rw [bodyImage, List.length_append, Field.length_scalarWire, Int.natCast_add,
    t.entries.length_wires T]
  rfl

theorem length_bodyWire (T : Target) : ((t.bodyWire T).length : Int) = t.bodySize := by
  rw [bodyWire, List.length_append, Field.length_scalarWire, Int.natCast_add, length_bodyImage]
  rfl

theorem length_wire (T : Target) : ((t.wire T).length : Int) = t.size := by
  rw [wire, List.length_append, length_headerWire, Int.natCast_add, length_bodyWire]
  rfl

theorem bodySize_ge : 12 ≤ t.bodySize := by
  have hsizes := t.entries.sizes_nonneg
  rw [bodySize]
  omega

def setBsize (value : Int) : MsgTable :=
  { t with
    bsize := { t.bsize with ivalue := value }
    bsize_long := t.bsize_long.setIvalue value }

/-- The table with its two checksums as `serialize_packet` leaves them. -/
def sealed (T : Target) : MsgTable :=
  { t with
    hcrc := { t.hcrc with ivalue := (crc32 (t.headerImage T)).toNat }
    bcrc := { t.bcrc with ivalue := (crc32 (t.bodyImage T)).toNat }
    hcrc_llong := t.hcrc_llong.setIvalue _
    bcrc_llong := t.bcrc_llong.setIvalue _ }

/-- The table as `send_packet` leaves it. -/
def sent (T : Target) : MsgTable := (t.setBsize t.bodySize).sealed T

theorem setIvalue_bsize (value : Int) :
    setIvalue t.fields FIELD_BSIZE value = (t.setBsize value).fields := rfl

/-! ### The tables of the protocol -/

theorem isScalar_scalarField (ty : DataType) (ivalue : Int) :
    (scalarField ty ivalue).IsScalar ty := ⟨rfl, rfl⟩

theorem long_bmark : (scalarField .long BODY_MARK.toInt).IsScalar .long := isScalar_scalarField _ _

theorem llong_crc : (scalarField .llong 0).IsScalar .llong := isScalar_scalarField _ _

theorem neg_terminator : (⟨-1, 0, 0, none, 0⟩ : Field).type < 0 := by decide

/-- A body between `MSG_HEADER` and `MSG_TAIL`. -/
def ofBody (now method ret count : Int) (body : List Field)
    (h : Entries count (scalarField .long BODY_MARK.toInt) body) : MsgTable where
  hmark := scalarField .long HEAD_MARK.toInt
  method := scalarField .long method
  bsize := scalarField .long 0
  ret := scalarField .long ret
  time := scalarField .long now
  count := scalarField .long count
  hcrc := scalarField .llong 0
  bmark := scalarField .long BODY_MARK.toInt
  body := body
  bcrc := scalarField .llong 0
  terminator := ⟨-1, 0, 0, none, 0⟩
  hmark_long := isScalar_scalarField _ _
  method_long := isScalar_scalarField _ _
  bsize_long := isScalar_scalarField _ _
  ret_long := isScalar_scalarField _ _
  time_long := isScalar_scalarField _ _
  count_long := isScalar_scalarField _ _
  hcrc_llong := llong_crc
  bmark_long := long_bmark
  body_entries := h
  bcrc_llong := llong_crc
  terminator_neg := neg_terminator

theorem fields_ofBody (now method ret count : Int) (body : List Field)
    (h : Entries count (scalarField .long BODY_MARK.toInt) body) :
    (ofBody now method ret count body h).fields = msgHeader now method ret count ++ body ++ msgTail :=
  rfl

/-- `MSG_CONNECT_FIELDS` has the shape, if its names are strings. -/
def connectReq (now : Int) (clientname processname : List UInt8)
    (hclient : strlen clientname < clientname.length)
    (hprocess : strlen processname < processname.length) : MsgTable :=
  ofBody now MSG_CONNECT 0 1
    [ scalarField .short (strlen clientname + 1)
    , ⟨DataType.char.code, 0, 0, some clientname, -1⟩
    , scalarField .short (strlen processname + 1)
    , ⟨DataType.char.code, 0, 0, some processname, -1⟩ ]
    (by
      have name {memory : List UInt8} (h : strlen memory < memory.length) :
          Entry 1 (scalarField .short (strlen memory + 1))
            ⟨DataType.char.code, 0, 0, some memory, -1⟩ := by
        have hp : (⟨DataType.char.code, 0, 0, some memory, -1⟩ : Field).IsArray .char memory :=
          ⟨rfl, rfl⟩
        refine .prefixed .char memory hp (by decide) rfl (.inl (isScalar_scalarField _ _))
          (by simp only [scalarField]; omega) ?_
        rw [hp.size_eq, Entry.prefixed_elements _ _ rfl]
        simp only [scalarField, DataType.width]
        omega
      simp only [entries_cons, entries_nil, and_true]
      exact ⟨.scalar _ (isScalar_scalarField _ _), name hclient,
        .scalar _ (isScalar_scalarField _ _), name hprocess⟩)

theorem fields_connectReq (now : Int) (clientname processname : List UInt8)
    (hclient : strlen clientname < clientname.length)
    (hprocess : strlen processname < processname.length) :
    (connectReq now clientname processname hclient hprocess).fields =
      msgConnectFields now clientname processname := rfl

/-- `MSG_CONNECT_RESP_FIELDS` has the shape. -/
def connectResp (now retcode priv : Int) : MsgTable :=
  ofBody now MSG_CONNECT retcode 1 [scalarField .short priv]
    (by rw [entries_cons]; exact ⟨.scalar _ (isScalar_scalarField _ _), entries_nil⟩)

theorem fields_connectResp (now retcode priv : Int) :
    (connectResp now retcode priv).fields = msgConnectRespFields now retcode priv := rfl

theorem size_connectResp (now retcode priv : Int) : (connectResp now retcode priv).size = 46 := rfl

end MsgTable

end Librtaio

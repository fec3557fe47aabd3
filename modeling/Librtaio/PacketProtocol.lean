import Librtaio.Crc32
import Librtaio.Field

/-!
# The packet codec (`protocol/packet_protocol.cpp`)

`serialize_packet`, `unserialize_header_packet`, `unserialize_body_packet`,
`copy_fields` and `fields_size`, each a loop over a table. A loop is a recursion
on the entries that are left; it carries the entry's index `n`, the entry
before it (`p-1`), and what the loop's variables hold. Reading past the last
entry of a list is reading past the C array.
-/

namespace Librtaio

open Crc32 FloatCast

/-! ### `serialize_packet` -/

/-- The scalar `switch` of `serialize_packet`. -/
def putScalar (T : Target) (out : OutputStream) (p : Field) : Except Fault (Bool × OutputStream) :=
  match DataType.ofCode p.type with
  | some .char | some .byte => out.writeChar T (BitVec.ofInt 8 p.ivalue)
  | some .short => out.writeShort T (BitVec.ofInt 16 p.ivalue)
  | some .long => out.writeLong T (BitVec.ofInt 32 p.ivalue)
  | some .llong => out.writeLlong T (BitVec.ofInt 64 p.ivalue)
  | some .float => out.writeFloat T (toFloat p.fvalue)
  | some .double => out.writeDouble T p.fvalue
  | none => .ok (false, out)

/-- The array `switch` of `serialize_packet`; the `int` count becomes a `size_t`. -/
def putArray (T : Target) (out : OutputStream) (type : Int) (data : List UInt8) (count : Int) :
    Except Fault (Bool × OutputStream) :=
  match DataType.ofCode type with
  | some .char | some .byte => out.writeCharArray T data (toSizeT count)
  | some .short => out.writeShortArray T data (toSizeT count)
  | some .long => out.writeLongArray T data (toSizeT count)
  | some .llong => out.writeLlongArray T data (toSizeT count)
  | some .float => out.writeFloatArray T data (toSizeT count)
  | some .double => out.writeDoubleArray T data (toSizeT count)
  | none => .ok (false, out)

/-- What one entry puts on the stream, and the code if the function returns there. -/
def serializeField (T : Target) (fields : List Field) (prev : Option Field) (p : Field)
    (out : OutputStream) : Except Fault (Option Int × OutputStream) :=
  match p.data with
  | none => do
    let (_, out) ← putScalar T out p
    .ok (none, out)
  | some data =>
    if p.count > 0 then do
      -- no assignment of the loop is to entry FIELD_COUNT, so the table it started with will do
      let cnt ← fieldAt fields FIELD_COUNT
      let product ← checked 64 (p.count * cnt.ivalue)
      let (_, out) ← putArray T out p.type data (toInt32 product)
      .ok (none, out)
    else
      match prev with
      | none => .error .outOfBounds
      | some prev =>
        if prev.type ≠ TYPE_SHORT ∧ prev.type ≠ TYPE_LONG then .ok (some ERR_ENCODE_ERROE, out)
        else if p.count = -1 then do
          let (_, out) ← putArray T out p.type data (toInt32 prev.ivalue)
          .ok (none, out)
        else .ok (none, out)

/-- The checksums: entry `n` with its `ivalue` as it is when it is written. -/
def crcField (len : Int) (n : Nat) (bodyBase : Option Nat) (out : OutputStream) (p : Field) :
    Field :=
  if n = FIELD_HCRC then
    let length := (BitVec.ofNat 32 out.written.length).toNat
    if length > 0 then { p with ivalue := (crc32 (out.written.take length)).toNat } else p
  else if len - 1 = n then
    match bodyBase with
    | none => p
    | some base =>
      let length := toInt32 (out.written.length - base)
      if length > 0 then
        { p with ivalue := (crc32 ((out.written.drop base).take length.toNat)).toNat }
      else p
  else p

/-- The loop of `serialize_packet`, with the table as it leaves it. -/
def serializeLoop (T : Target) (fields : List Field) (len : Int) :
    Nat → Option Field → Option Nat → OutputStream → List Field →
      Except Fault (Int × OutputStream × List Field)
  | _, _, _, _, [] => .error .outOfBounds
  | n, prev, bodyBase, out, p :: rest =>
    if p.type < 0 then .ok (ERR_OK, out, p :: rest)
    else do
      let p := crcField len n bodyBase out p
      let (ret, out) ← serializeField T fields prev p out
      match ret with
      | some code => .ok (code, out, p :: rest)
      | none =>
        let bodyBase := if n = FIELD_BMARK - 1 then some out.written.length else bodyBase
        if out.bad then .ok (ERR_ENCODE_ERROE, out, p :: rest)
        else do
          let (code, out, rest) ← serializeLoop T fields len (n + 1) (some p) bodyBase out rest
          .ok (code, out, p :: rest)

def serializePacket (T : Target) (out : OutputStream) (fields : List Field) (len : Int) :
    Except Fault (Int × OutputStream × List Field) :=
  serializeLoop T fields len 0 none none out fields

/-! ### `unserialize_header_packet` and `unserialize_body_packet` -/

/-- The variables the decoders read scalars into. -/
structure Locals where
  cVal : BitVec 8
  sVal : BitVec 16
  lVal : BitVec 32
  llVal : BitVec 64
  fVal : BitVec 32
  dVal : BitVec 64

def Locals.zero : Locals := ⟨0, 0, 0, 0, 0, 0⟩

/-- The scalar `switch` of the decoders: the variable is read and assigned, whether
the read succeeded or not. -/
def getScalar (T : Target) (s : InputStream) (v : Locals) (p : Field) :
    Except Fault (InputStream × Locals × Field) :=
  match DataType.ofCode p.type with
  | some .char | some .byte => do
    let (_, x, s) ← s.readChar T v.cVal
    .ok (s, { v with cVal := x }, { p with ivalue := x.toInt })
  | some .short => do
    let (_, x, s) ← s.readShort T v.sVal
    .ok (s, { v with sVal := x }, { p with ivalue := x.toInt })
  | some .long => do
    let (_, x, s) ← s.readLong T v.lVal
    .ok (s, { v with lVal := x }, { p with ivalue := x.toInt })
  | some .llong => do
    let (_, x, s) ← s.readLlong T v.llVal
    .ok (s, { v with llVal := x }, { p with ivalue := x.toInt })
  | some .float => do
    let (_, x, s) ← s.readFloat T v.fVal
    .ok (s, { v with fVal := x }, { p with fvalue := toDouble x })
  | some .double => do
    let (_, x, s) ← s.readDouble T v.dVal
    .ok (s, { v with dVal := x }, { p with fvalue := x })
  | none => .ok (s, v, p)

/-- The array `switch` of `unserialize_body_packet`. -/
def getArray (T : Target) (s : InputStream) (type : Int) (data : List UInt8) (count : Int) :
    Except Fault (Bool × List UInt8 × InputStream) :=
  match DataType.ofCode type with
  | some .char | some .byte => s.readCharArray T data (toSizeT count)
  | some .short => s.readShortArray T data (toSizeT count)
  | some .long => s.readLongArray T data (toSizeT count)
  | some .llong => s.readLlongArray T data (toSizeT count)
  | some .float => s.readFloatArray T data (toSizeT count)
  | some .double => s.readDoubleArray T data (toSizeT count)
  | none => .ok (false, data, s)

/-- The loop of `unserialize_header_packet`. -/
def unserializeHeaderLoop (T : Target) (compareCrc : Bool) :
    Nat → BitVec 32 → Locals → InputStream → List Field →
      Except Fault (Int × InputStream × List Field)
  | _, _, _, _, [] => .error .outOfBounds
  | n, crc, v, s, p :: rest =>
    if p.type < 0 then .ok (ERR_OK, s, p :: rest)
    else do
      let length := toInt32 s.consumed.length
      let crc := if n = FIELD_HCRC ∧ length > 0 ∧ compareCrc then
        crc32 (s.consumed.take length.toNat) else crc
      let (s, v, p) ← match p.data with
        | none => getScalar T s v p
        | some _ => .ok (s, v, p)
      if n = FIELD_HMARK ∧ toUInt32 p.ivalue ≠ HEAD_MARK then .ok (ERR_DECODE_ERROE, s, p :: rest)
      else if n = FIELD_HCRC then
        if compareCrc ∧ crc ≠ toUInt32 p.ivalue then .ok (ERR_CHECK_CRC_ERROR, s, p :: rest)
        else .ok (ERR_OK, s, p :: rest)
      else if !s.good then .ok (ERR_DECODE_ERROE, s, p :: rest)
      else do
        let (code, s, rest) ← unserializeHeaderLoop T compareCrc (n + 1) crc v s rest
        .ok (code, s, p :: rest)

/-- `unserialize_header_packet`; `in.base_ptr()` is where the stream's buffer starts. -/
def unserializeHeaderPacket (T : Target) (s : InputStream) (fields : List Field)
    (compareCrc : Bool) : Except Fault (Int × InputStream × List Field) :=
  unserializeHeaderLoop T compareCrc 0 0 .zero s fields

/-- What one entry of the body takes from the stream, and the code if the function
returns there. -/
def unserializeField (T : Target) (cnt : Int) (prev : Option Field) (v : Locals) (s : InputStream)
    (p : Field) : Except Fault (Option Int × InputStream × Locals × Field) :=
  match p.data with
  | none => do
    let (s, v, p) ← getScalar T s v p
    .ok (none, s, v, p)
  | some data =>
    if p.count ≥ 0 then do
      let count ← checked 32 (cnt * p.count)
      let (_, data, s) ← getArray T s p.type data count
      .ok (none, s, v, { p with data := some data })
    else
      match prev with
      | none => .error .outOfBounds
      | some prev =>
        if prev.type ≠ TYPE_SHORT ∧ prev.type ≠ TYPE_LONG then .ok (some ERR_DECODE_ERROE, s, v, p)
        else if p.count = -1 then
          if prev.data ≠ none then .ok (some ERR_DECODE_ERROE, s, v, p)
          else if toInt32 prev.ivalue > 0 then do
            let (_, data, s) ← getArray T s p.type data (toInt32 prev.ivalue)
            .ok (none, s, v, { p with data := some data })
          else .ok (none, s, v, p)
        else .ok (none, s, v, p)

/-- The loop of `unserialize_body_packet`. -/
def unserializeBodyLoop (T : Target) (len : Int) (compareCrc : Bool) (cnt : Int) (base : Nat) :
    Nat → BitVec 32 → Locals → Option Field → InputStream → List Field →
      Except Fault (Int × InputStream × List Field)
  | _, _, _, _, _, [] => .error .outOfBounds
  | n, crc, v, prev, s, p :: rest =>
    if p.type < 0 then .ok (ERR_OK, s, p :: rest)
    else do
      let length := toInt32 (s.consumed.length - base)
      let crc := if len - 1 = n ∧ compareCrc ∧ length > 0 then
        crc32 ((s.consumed.drop base).take length.toNat) else crc
      let (ret, s, v, p) ← unserializeField T cnt prev v s p
      match ret with
      | some code => .ok (code, s, p :: rest)
      | none =>
        if n = len - 1 ∧ compareCrc ∧ toUInt32 p.ivalue ≠ crc then
          .ok (ERR_CHECK_CRC_ERROR, s, p :: rest)
        else do
          let (code, s, rest) ←
            unserializeBodyLoop T len compareCrc cnt base (n + 1) crc v (some p) s rest
          .ok (code, s, p :: rest)

/-- `unserialize_body_packet`: the loop starts at entry `FIELD_BMARK`. -/
def unserializeBodyPacket (T : Target) (s : InputStream) (fields : List Field) (len : Int)
    (compareCrc : Bool) : Except Fault (Int × InputStream × List Field) := do
  let count ← fieldAt fields FIELD_COUNT
  let (code, s', rest) ← unserializeBodyLoop T len compareCrc (toInt32 count.ivalue)
    s.consumed.length FIELD_BMARK 0 .zero fields[FIELD_BMARK - 1]? s (fields.drop FIELD_BMARK)
  .ok (code, s', fields.take FIELD_BMARK ++ rest)

/-! ### `copy_fields` -/

/-- The loop of `copy_fields`, with the index it stops at. -/
def copyLoop (onlyHeader : Bool) : Nat → List Field → List Field → Except Fault (Nat × List Field)
  | _, [], _ => .error .outOfBounds
  | n, p :: src, dest =>
    if ¬ p.type > 0 then .ok (n, dest)
    else if n < dest.length then
      let dest := dest.set n p
      if onlyHeader ∧ n = FIELD_BMARK - 1 then .ok (n, dest)
      else copyLoop onlyHeader (n + 1) src dest
    else .error .outOfBounds

/-- `copy_fields`: the value it returns and the destination as it leaves it. -/
def copyFields (dest src : List Field) (onlyHeader : Bool) : Except Fault (Nat × List Field) := do
  let (n, dest) ← copyLoop onlyHeader 0 src dest
  if onlyHeader then .ok (n, dest)
  else do
    let d ← fieldAt dest n
    .ok (n, dest.set n { d with type := -1 })

/-! ### `fields_size` -/

/-- The pointer arguments of `fields_size` and what they point to; none is null. -/
structure Sizes where
  total : Option Int
  header : Option Int
  body : Option Int
  bodyCount : Option Int
deriving DecidableEq, Repr

/-- The `size` a type starts with. -/
def typeSize (type : Int) : Int :=
  match DataType.ofCode type with
  | some .char | some .byte => 1
  | some .short => 2
  | some .long => 4
  | some .llong => 8
  | some .float => 4
  | some .double => 8
  | none => 0

/-- The `size` of one entry. -/
def fieldSize (cnt : Int) (prev : Option Field) (p : Field) : Except Fault Int :=
  if p.data = none then .ok (typeSize p.type)
  else if p.count ≥ 0 then do
    let count ← checked 32 (p.count * cnt)
    checked 32 (typeSize p.type * count)
  else if p.count = -1 then
    match prev with
    | none => .error .outOfBounds
    | some prev =>
      if prev.data = none then do
        let size ← checked 64 (typeSize p.type * prev.ivalue)
        .ok (toInt32 size)
      else .ok (typeSize p.type)
  else .ok (typeSize p.type)

/-- `*acc += size`, if `acc` is not null. -/
def addSize (size : Int) : Option Int → Except Fault (Option Int)
  | none => .ok none
  | some acc => do
    let acc ← checked 32 (acc + size)
    .ok (some acc)

/-- The loop of `fields_size`, with the number of entries it saw. -/
def sizeLoop (cnt : Int) : Nat → Option Field → Sizes → List Field → Except Fault (Nat × Sizes)
  | _, _, _, [] => .error .outOfBounds
  | n, prev, sz, p :: rest =>
    if p.type < 0 then .ok (n, sz)
    else do
      let size ← fieldSize cnt prev p
      let bodyCount := if n = FIELD_NEXT then sz.bodyCount.map fun _ => (n : Int) else sz.bodyCount
      let total ← addSize size sz.total
      if n ≤ FIELD_HCRC then do
        let header ← addSize size sz.header
        sizeLoop cnt (n + 1) (some p) ⟨total, header, sz.body, bodyCount⟩ rest
      else do
        let body ← addSize size sz.body
        sizeLoop cnt (n + 1) (some p) ⟨total, sz.header, body, bodyCount⟩ rest

/-- `fields_size`; `*body_count` is not initialized by the function. -/
def fieldsSize (fields : List Field) (sz : Sizes) : Except Fault Sizes := do
  let count ← fieldAt fields FIELD_COUNT
  let zero : Option Int → Option Int := Option.map fun _ => 0
  let (n, sz) ← sizeLoop (toInt32 count.ivalue) 0 none
    ⟨zero sz.total, zero sz.header, zero sz.body, sz.bodyCount⟩ fields
  .ok { sz with bodyCount := sz.bodyCount.map fun c => n - c + 1 }

/-! ### Encoding a whole packet -/

/-- `fields[i].ivalue=value` -/
def setIvalue (fields : List Field) (i : Nat) (value : Int) : List Field :=
  fields.modify i fun p => { p with ivalue := value }

/-- The steps the `send_packet` of the server and that of the client both start with:
`fields_size`, the body size stored into the header, a buffer resized to the total,
`serialize_packet` into it. The result is its code, the buffer and the table. -/
def encodePacket (T : Target) (fields : List Field) (len : Int) :
    Except Exit (Int × List UInt8 × List Field) := do
  let sz ← orFault (fieldsSize fields ⟨some 0, some 0, some 0, some 0⟩)
  let fields := setIvalue fields FIELD_BSIZE (sz.body.getD 0)
  let total := sz.total.getD 0
  if total < 0 then .error .exception
  else do
    let out := OutputStream.ofBuffer (List.replicate total.toNat 0)
    let (code, out, fields) ← orFault (serializePacket T out fields len)
    .ok (code, out.buffer, fields)

end Librtaio

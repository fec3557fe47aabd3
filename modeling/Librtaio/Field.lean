import Librtaio.Streams

/-!
# Field tables (`protocol/packet_protocol.h`, `protocol/protocol_network.h`)

A packet is described by a C array of `FIELD` entries ended by one of negative
type. Here a table is the list of its entries, the terminator included. An
entry's `data` is the block of host memory it points to, starting at the
pointer; `name` is not modelled, no function reads it.
-/

namespace Librtaio

/-! ### Integer conversions -/

def toInt32 (z : Int) : Int := (BitVec.ofInt 32 z).toInt

def toUInt32 (z : Int) : BitVec 32 := BitVec.ofInt 32 z

/-- Conversion of an `int` to `size_t`. -/
def toSizeT (z : Int) : Nat := (BitVec.ofInt 64 z).toNat

/-- The result of a signed operation of the given width. -/
def checked (bits : Nat) (z : Int) : Except Fault Int :=
  if -2 ^ (bits - 1) ≤ z ∧ z < 2 ^ (bits - 1) then .ok z else .error .signedOverflow

/-! ### Types and numbers -/

/-- `MSG_DATA_TYPE` -/
inductive DataType where
  | char
  | byte
  | short
  | long
  | llong
  | float
  | double
deriving DecidableEq, Repr

namespace DataType

def code : DataType → Int
  | char => 0
  | byte => 1
  | short => 2
  | long => 3
  | llong => 4
  | float => 5
  | double => 6

/-- What a `switch` over `p->type` finds; none is its `default`. -/
def ofCode (type : Int) : Option DataType :=
  if type = 0 then some char
  else if type = 1 then some byte
  else if type = 2 then some short
  else if type = 3 then some long
  else if type = 4 then some llong
  else if type = 5 then some float
  else if type = 6 then some double
  else none

@[simp] theorem ofCode_code (ty : DataType) : ofCode ty.code = some ty := by
  cases ty <;> rfl

theorem code_nonneg (ty : DataType) : 0 ≤ ty.code := by
  cases ty <;> decide

theorem code_injective : Function.Injective code := by
  intro a b h
  have h' := congrArg ofCode h
  simpa using h'

end DataType

def TYPE_SHORT : Int := DataType.short.code
def TYPE_LONG : Int := DataType.long.code

def HEAD_MARK : BitVec 32 := 0x11111111#32
def BODY_MARK : BitVec 32 := 0x22222222#32

/-! `MSG_FIELD_NUMBER` -/

def FIELD_HMARK : Nat := 0
def FIELD_METHOD : Nat := 1
def FIELD_BSIZE : Nat := 2
def FIELD_RETURN : Nat := 3
def FIELD_TIME : Nat := 4
def FIELD_COUNT : Nat := 5
def FIELD_HCRC : Nat := 6
def FIELD_BMARK : Nat := 7
def FIELD_NEXT : Nat := 8

/-! `MSG_ID`, as far as it is used -/

def MSG_COMMON : Int := 1
def MSG_CONNECT : Int := 2
def MSG_DISCONNECT : Int := 3

/-! `include/error_code.h`, as far as it is used; the codes are returned as `int` -/

def ERR_OK : Int := 0
def ERR_ENCODE_ERROE : Int := toInt32 0xFFFF0001
def ERR_DECODE_ERROE : Int := toInt32 0xFFFF0002
def ERR_CHECK_CRC_ERROR : Int := toInt32 0xFFFF0003
def ERR_UNEXPECTIED_METHOD : Int := toInt32 0xFFFF0004
def ERR_SEND_PACKET_ERROR : Int := toInt32 0xFFFF0013

/-! ### Entries and tables -/

structure Field where
  type : Int
  ivalue : Int
  /-- The bits of the `double`. -/
  fvalue : BitVec 64
  /-- The memory `data` points to; none is the null pointer. -/
  data : Option (List UInt8)
  count : Int
deriving DecidableEq, Repr

/-- An entry of a table's initializer with a null `data`. -/
def scalarField (ty : DataType) (ivalue : Int) : Field := ⟨ty.code, ivalue, 0, none, 1⟩

def fieldAt (fields : List Field) (i : Nat) : Except Fault Field :=
  match fields[i]? with
  | some p => .ok p
  | none => .error .outOfBounds

/-- `MSG_HEADER(method,ret,count)`; `now` is what `time(NULL)` returns. -/
def msgHeader (now method ret count : Int) : List Field :=
  [ scalarField .long HEAD_MARK.toInt
  , scalarField .long method
  , scalarField .long 0
  , scalarField .long ret
  , scalarField .long now
  , scalarField .long count
  , scalarField .llong 0
  , scalarField .long BODY_MARK.toInt ]

/-- `MSG_TAIL()` -/
def msgTail : List Field := [scalarField .llong 0, ⟨-1, 0, 0, none, 0⟩]

/-- `MSG_COMMON_REQ_FIELDS(method,obj)` -/
def msgCommonReqFields (now method : Int) : List Field := msgHeader now method 0 1 ++ msgTail

def strlen (s : List UInt8) : Nat := (s.takeWhile (· ≠ 0)).length

/-- `MSG_CONNECT_FIELDS(clientname,processname,obj)` -/
def msgConnectFields (now : Int) (clientname processname : List UInt8) : List Field :=
  msgHeader now MSG_CONNECT 0 1 ++
  [ scalarField .short (strlen clientname + 1)
  , ⟨DataType.char.code, 0, 0, some clientname, -1⟩
  , scalarField .short (strlen processname + 1)
  , ⟨DataType.char.code, 0, 0, some processname, -1⟩ ] ++
  msgTail

/-- `MSG_CONNECT_RESP_FIELDS(retcode,priv,obj)` -/
def msgConnectRespFields (now retcode priv : Int) : List Field :=
  msgHeader now MSG_CONNECT retcode 1 ++ [scalarField .short priv] ++ msgTail

/-- `MSG_DISCONNECT_FIELDS(obj)` -/
def msgDisconnectFields (now : Int) : List Field := msgHeader now MSG_DISCONNECT 0 1 ++ msgTail

/-- `FIELDS_LEN(fields)`: the entries before the terminator. -/
def fieldsLen (fields : List Field) : Int := fields.length - 1

end Librtaio

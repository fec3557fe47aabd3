import Librtaio.CharVector
import Librtaio.Computation
import Librtaio.PacketProtocol

/-!
# The client (`api/rtdb_client_impl.cpp`)

`recv_packet` reads a header and a body in blocking calls of `read_some`, each
in a loop that counts what is missing, and decodes them into the caller's table.
The socket delivers a stream of bytes and decides how many of them each call
returns. What the call has handed to the decoders is recorded in order; nothing
in the program reads it.
-/

namespace Librtaio

/-! ### Data -/

/-- The connection, from the client's side. -/
structure Socket where
  /-- What it still delivers before it ends or fails. -/
  stream : List UInt8
  /-- What the next calls of `read_some` return at most; the calls after them return all they ask
  for. -/
  sizes : List Nat
deriving DecidableEq

/-- What `recv_packet` looks at. -/
inductive Seen where
  | header (buffer : List UInt8)
  | body (buffer : List UInt8)
  /-- The stream it hands to `unserialize_body_packet`. -/
  | stream (s : InputStream)
deriving DecidableEq

structure Receiver where
  socket : Socket
  fields : List Field
  seen : List Seen
deriving DecidableEq

/-- A computation in `recv_packet`. -/
abbrev Receive : Type → Type := Exec Exit Receiver

namespace Receive

def getSocket : Receive Socket := fun r => (.ok r.socket, r)

def getFields : Receive (List Field) := fun r => (.ok r.fields, r)

def setSocket (socket : Socket) : Receive Unit := fun r => (.ok (), { r with socket })

def setFields (fields : List Field) : Receive Unit := fun r => (.ok (), { r with fields })

def see (e : Seen) : Receive Unit := fun r => (.ok (), { r with seen := r.seen ++ [e] })

section Run

variable {β : Type} (r : Receiver)

@[simp] theorem getSocket_bind (k : Socket → Receive β) : (getSocket >>= k) r = k r.socket r := rfl

@[simp] theorem getFields_bind (k : List Field → Receive β) : (getFields >>= k) r = k r.fields r :=
  rfl

@[simp] theorem setSocket_bind (socket : Socket) (k : Unit → Receive β) :
    (setSocket socket >>= k) r = k () { r with socket } := rfl

@[simp] theorem setFields_bind (fields : List Field) (k : Unit → Receive β) :
    (setFields fields >>= k) r = k () { r with fields } := rfl

@[simp] theorem see_bind (e : Seen) (k : Unit → Receive β) :
    (see e >>= k) r = k () { r with seen := r.seen ++ [e] } := rfl

end Run

end Receive

open Exec Receive

/-! ### `recv_packet` -/

/-- `m_socket.read_some` of some bytes, with the stream after it. A call for no bytes returns at
once; one on a connection that ended throws. -/
def readSome (size asked : Nat) (stream : List UInt8) : Except Exit (List UInt8 × List UInt8) :=
  if asked = 0 then .ok ([], stream)
  else if stream = [] then .error .exception
  else .ok (stream.take (min asked (max 1 size)), stream.drop (min asked (max 1 size)))

/-- The two loops around `read_some`: each call reads to `&buffer[0]`. With no size left to
decide, one call returns all the bytes that are missing, or a later one throws. -/
def readLoop : List Nat → CharVector → Nat → List UInt8 → Except Exit (CharVector × Socket)
  | [], buffer, nextBytes, stream =>
    if nextBytes ≤ stream.length then do
      let buffer ← orFault (buffer.store 0 (stream.take nextBytes))
      .ok (buffer, ⟨stream.drop nextBytes, []⟩)
    else .error .exception
  | size :: sizes, buffer, nextBytes, stream => do
    let (bs, stream) ← readSome size nextBytes stream
    let buffer ← orFault (buffer.store 0 bs)
    if nextBytes - bs.length > 0 then readLoop sizes buffer (nextBytes - bs.length) stream
    else .ok (buffer, ⟨stream, sizes⟩)

/-- A new vector of `n` bytes, read from the connection. -/
def readBuffer (n : Int) : Receive CharVector := do
  let buffer ← lift (CharVector.empty.resize n)
  let socket ← getSocket
  let (buffer, socket) ← lift (readLoop socket.sizes buffer (toSizeT n) socket.stream)
  setSocket socket
  pure buffer

/-- `*(int *)p` -/
def markAt (T : Target) (buffer : CharVector) : Except Exit (BitVec 32) :=
  if buffer.storage.length < 4 then .error (.fault .outOfBounds)
  else .ok (BitVec.ofNat 32 (T.order.load (buffer.storage.take 4)))

/-- `recv_packet` compares the method of the header with the caller's: the code so far, and whether
the body is parsed. -/
def matchMethod (robj : List Field) : Receive (Int × Bool) := do
  let methodSend ← lift (orFault (fieldAt robj FIELD_METHOD))
  let fields ← getFields
  let methodRecv ← lift (orFault (fieldAt fields FIELD_METHOD))
  if toInt32 methodSend.ivalue = toInt32 methodRecv.ivalue then do
    let (_, fields) ← lift (orFault (copyFields fields robj true))
    setFields fields
    pure (0, true)
  else if MSG_COMMON = toInt32 methodSend.ivalue then do
    let ret ← lift (orFault (fieldAt robj FIELD_RETURN))
    pure (toInt32 ret.ivalue, false)
  else pure (ERR_UNEXPECTIED_METHOD, false)

/-- `recv_packet` parses the body it has read. -/
def parseBody (T : Target) (headerSize len ret : Int) (parsePacket : Bool) (body : CharVector) :
    Receive Int := do
  if parsePacket then do
    see (.body body.storage)
    let bmark ← lift (markAt T body)
    if bmark ≠ BODY_MARK then pure ERR_DECODE_ERROE
    else do
      let rd1 := InputStream.ofBuffer body.storage (toSizeT headerSize)
      see (.stream rd1)
      let fields ← getFields
      let (ret, _, fields) ← lift (orFault (unserializeBodyPacket T rd1 fields len true))
      setFields fields
      pure ret
  else pure ret

/-- `recv_packet` goes on to a body of the size the header `robj` announced. -/
def recvBody (T : Target) (headerSize len : Int) (robj : List Field) (bodySize : Int) :
    Receive Int := do
  let (ret, parsePacket) ← matchMethod robj
  let body ← readBuffer bodySize
  parseBody T headerSize len ret parsePacket body

/-- `recv_packet` parses the header it has read, and goes on to the body. -/
def parseHeader (T : Target) (now headerSize len : Int) (header : CharVector) : Receive Int := do
  see (.header header.storage)
  let hmark ← lift (markAt T header)
  if HEAD_MARK ≠ hmark then pure ERR_DECODE_ERROE
  else do
    let rd := InputStream.ofBuffer header.storage (toSizeT headerSize)
    let (ret, _, robj) ←
      lift (orFault (unserializeHeaderPacket T rd (msgCommonReqFields now MSG_COMMON) true))
    if ret ≠ 0 then pure ret
    else do
      let bsize ← lift (orFault (fieldAt robj FIELD_BSIZE))
      recvBody T headerSize len robj (toInt32 bsize.ivalue)

def recvPacket (T : Target) (now len : Int) : Receive Int := do
  let fields ← getFields
  let sz ← lift (orFault (fieldsSize fields ⟨none, some 0, none, none⟩))
  let headerSize := sz.header.getD 0
  let header ← readBuffer headerSize
  parseHeader T now headerSize len header

def Receiver.init (socket : Socket) (fields : List Field) : Receiver := ⟨socket, fields, []⟩

end Librtaio

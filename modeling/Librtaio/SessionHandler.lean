import Librtaio.CharVector
import Librtaio.Computation
import Librtaio.PacketProtocol

/-!
# A server session (`core/network/session_handler.cpp`, `core/network/api_network.cpp`)

The handlers of one connection. A handler runs to its end between two
completions of the event loop; it changes the session's data, starts
asynchronous operations, may close the session, and may be left by an exception
or run into undefined behaviour. `m_socket` is not modelled: what the peer and
the system do to it is what an operation completes with (`Completion`) and what
the moment's `Env` says.

The events record what a handler did in order: the windows of `m_recv_buffer`
it used, the packets it looked at, the handlers it entered, the operations it
started. Nothing in the program reads them.
-/

namespace Librtaio

/-! ### Data -/

/-- The data members of `session_handler`, but for its socket and its acceptor. -/
structure Session where
  headerSize : Int
  packetHeader : List Field
  recvBuffer : CharVector
  sendBuffer : CharVector
deriving DecidableEq

/-- An asynchronous operation on the socket. A read keeps the length it asks for twice, as
the length of its buffer and as the `want_bytes` bound into its handler; they are equal. -/
inductive Op where
  | read (offset length : Nat)
  | write (packet : List UInt8)
deriving DecidableEq

/-- The function that starts an operation. -/
inductive Site where
  | start
  | handleRead
  | handleWrite
  | handlePacketHeader
  | sendPacket
deriving DecidableEq

inductive Event where
  /-- A part of `m_recv_buffer` is used while it has the given size. -/
  | window (offset length size : Nat)
  /-- A read stored these bytes. -/
  | received (bs : List UInt8)
  /-- `handle_read` looks at the memory that a read of all the bytes it wanted has left. -/
  | inspected (memory : List UInt8)
  | enteredHeader
  /-- `read_packet_header` returned 0, and this is the header's body size. -/
  | acceptedHeader (bodySize : Int)
  | enteredBody
  /-- What `msg_connect` logs. -/
  | connected (clientname clientprocess : List UInt8)
  | armed (site : Site) (op : Op)
deriving DecidableEq

/-- What a moment's run of a handler depends on besides the session. -/
structure Env where
  now : Int
  /-- The peer is still connected, so that `remote_endpoint()` does not throw. -/
  connected : Bool
deriving DecidableEq

/-! ### Handlers -/

/-- What a handler works on and leaves. -/
structure Frame where
  session : Session
  ops : List Op
  /-- `close()` ran to its end: the session is out of `m_set_handlers` and deleted. -/
  closed : Bool
  events : List Event
deriving DecidableEq

def Frame.init (s : Session) : Frame := ⟨s, [], false, []⟩

/-- A computation in a handler. -/
abbrev Handler : Type → Type := Exec Exit Frame

namespace Handler

def get : Handler Session := fun f => (.ok f.session, f)

def set (s : Session) : Handler Unit := fun f => (.ok (), { f with session := s })

def emit (e : Event) : Handler Unit := fun f => (.ok (), { f with events := f.events ++ [e] })

def setClosed : Handler Unit := fun f => (.ok (), { f with closed := true })

/-- Use `length` bytes of `m_recv_buffer` from `offset` on. -/
def window (offset length : Nat) : Handler Unit := fun f =>
  (.ok (), { f with events := f.events ++ [.window offset length f.session.recvBuffer.size] })

def arm (site : Site) (op : Op) : Handler Unit := fun f =>
  (.ok (), { f with ops := f.ops ++ [op], events := f.events ++ [.armed site op] })

section Run

variable {β : Type} (f : Frame)

@[simp] theorem get_bind (k : Session → Handler β) : (get >>= k) f = k f.session f := rfl

@[simp] theorem set_bind (s : Session) (k : Unit → Handler β) :
    (set s >>= k) f = k () { f with session := s } := rfl

@[simp] theorem emit_bind (e : Event) (k : Unit → Handler β) :
    (emit e >>= k) f = k () { f with events := f.events ++ [e] } := rfl

@[simp] theorem setClosed_run : setClosed f = (.ok (), { f with closed := true }) := rfl

@[simp] theorem window_bind (offset length : Nat) (k : Unit → Handler β) :
    (window offset length >>= k) f =
      k () { f with events := f.events ++ [.window offset length f.session.recvBuffer.size] } :=
  rfl

@[simp] theorem arm_run (site : Site) (op : Op) :
    arm site op f =
      (.ok (), { f with ops := f.ops ++ [op], events := f.events ++ [.armed site op] }) := rfl

@[simp] theorem arm_bind (site : Site) (op : Op) (k : Unit → Handler β) :
    (arm site op >>= k) f =
      k () { f with ops := f.ops ++ [op], events := f.events ++ [.armed site op] } := rfl

end Run

end Handler

open Exec Handler

/-- `m_socket.async_read_some(buffer(&m_recv_buffer[offset],length), ..)` with `handle_read`
and `length` bound. -/
def asyncReadSome (site : Site) (offset length : Nat) : Handler Unit := do
  window offset length
  arm site (.read offset length)

@[simp] theorem asyncReadSome_run (site : Site) (offset length : Nat) (f : Frame) :
    asyncReadSome site offset length f =
      (.ok (), { f with
        ops := f.ops ++ [.read offset length]
        events := f.events ++ [.window offset length f.session.recvBuffer.size,
          .armed site (.read offset length)] }) := by
  simp [asyncReadSome]

@[simp] theorem asyncReadSome_bind {β : Type} (site : Site) (offset length : Nat) (f : Frame)
    (k : Unit → Handler β) :
    (asyncReadSome site offset length >>= k) f =
      k () { f with
        ops := f.ops ++ [.read offset length]
        events := f.events ++ [.window offset length f.session.recvBuffer.size,
          .armed site (.read offset length)] } :=
  bind_of_ok (asyncReadSome_run site offset length f) k

/-- `m_socket.remote_endpoint()` -/
def remoteEndpoint (env : Env) : Handler Unit :=
  if env.connected then pure () else lift (.error .exception)

/-- `session_handler::session_handler`; `uninit` is what the memory of `m_packet_header` holds. -/
def newSession (now : Int) (uninit : Fin (FIELD_BMARK + 3) → Field) : Except Fault Session := do
  let sz ← fieldsSize (msgCommonReqFields now MSG_COMMON) ⟨none, some 0, none, none⟩
  .ok ⟨sz.header.getD 0, List.ofFn uninit, .empty, .empty⟩

def start (env : Env) : Handler Unit := do
  remoteEndpoint env
  let s ← get
  let recvBuffer ← lift (s.recvBuffer.clear.resize s.headerSize)
  set { s with recvBuffer }
  asyncReadSome .start 0 (toSizeT s.headerSize)

def close (env : Env) : Handler Unit := do
  remoteEndpoint env
  setClosed

def readPacketHeader (T : Target) : Handler Int := do
  let s ← get
  window 0 (toSizeT s.headerSize)
  let rd := InputStream.ofBuffer s.recvBuffer.storage (toSizeT s.headerSize)
  let (ret, _, packetHeader) ← lift (orFault (unserializeHeaderPacket T rd s.packetHeader true))
  set { s with packetHeader }
  pure ret

def handlePacketHeader (T : Target) (env : Env) : Handler Int := do
  emit .enteredHeader
  let s ← get
  let (_, packetHeader) ←
    lift (orFault (copyFields s.packetHeader (msgCommonReqFields env.now MSG_COMMON) true))
  set { s with packetHeader }
  let ret ← readPacketHeader T
  if ret = 0 then do
    let s ← get
    let bsize ← lift (orFault (fieldAt s.packetHeader FIELD_BSIZE))
    let bodySize := toInt32 bsize.ivalue
    emit (.acceptedHeader bodySize)
    let recvBuffer ← lift (s.recvBuffer.clear.resize bodySize)
    set { s with recvBuffer }
    asyncReadSome .handlePacketHeader 0 (toSizeT bodySize)
    pure ret
  else pure ret

/-- `session_handler::read_packet_body`, with the table as it leaves it. -/
def readPacketBody (T : Target) (fields : List Field) (len : Int) : Handler (Int × List Field) := do
  let s ← get
  let (_, fields) ← lift (orFault (copyFields fields s.packetHeader true))
  let bsize ← lift (orFault (fieldAt s.packetHeader FIELD_BSIZE))
  let bodySize := toInt32 bsize.ivalue
  window 0 (toSizeT bodySize)
  let rd := InputStream.ofBuffer s.recvBuffer.storage (toSizeT bodySize)
  let (ret, _, fields) ← lift (orFault (unserializeBodyPacket T rd fields len true))
  pure (ret, fields)

def sendPacket (T : Target) (fields : List Field) (len : Int) : Handler Int := do
  let (ret, packet, _) ← lift (encodePacket T fields len)
  let s ← get
  set { s with sendBuffer := ⟨packet, packet.length, le_refl _⟩ }
  if ret = 0 then do
    arm .sendPacket (.write packet)
    pure ret
  else pure ret

def dataAt (fields : List Field) (i : Nat) : List UInt8 := (fields[i]?.bind (·.data)).getD []

/-- `char clientname[1024]={0}`, `char clientprocess[1024]={0}` -/
def nameBuffer : List UInt8 := List.replicate 1024 0

def msgConnect (T : Target) (env : Env) : Handler Int := do
  let robj := msgConnectFields env.now nameBuffer nameBuffer
  let (ret, robj) ← readPacketBody T robj (fieldsLen robj)
  if ret ≠ ERR_OK then pure ret
  else do
    emit (.connected (dataAt robj 9) (dataAt robj 11))
    let wobj := msgConnectRespFields env.now ERR_OK 1
    sendPacket T wobj (fieldsLen wobj)

def msgDisconnect (T : Target) (env : Env) : Handler Int := do
  let robj := msgDisconnectFields env.now
  let (ret, _) ← readPacketBody T robj (fieldsLen robj)
  if ret ≠ ERR_OK then pure ret
  else do
    close env
    pure 0

def handlePacketBody (T : Target) (env : Env) : Handler Int := do
  emit .enteredBody
  let s ← get
  let method ← lift (orFault (fieldAt s.packetHeader FIELD_METHOD))
  if toInt32 method.ivalue = MSG_CONNECT then msgConnect T env
  else if toInt32 method.ivalue = MSG_DISCONNECT then msgDisconnect T env
  else pure (-1)

/-- `*(reinterpret_cast<int32_t *>(&m_recv_buffer[0]))` -/
def readMark (T : Target) : Handler (BitVec 32) := do
  let s ← get
  window 0 4
  if s.recvBuffer.storage.length < 4 then lift (.error (.fault .outOfBounds))
  else pure (BitVec.ofNat 32 (T.order.load (s.recvBuffer.storage.take 4)))

def handleRead (T : Target) (env : Env) (error : Bool) (bytesTransferred wantBytes : Nat) :
    Handler Unit := do
  if !error then
    if bytesTransferred = 0 then close env
    else if bytesTransferred < wantBytes then
      asyncReadSome .handleRead bytesTransferred (wantBytes - bytesTransferred)
    else do
      let s ← get
      emit (.inspected s.recvBuffer.storage)
      let mark ← readMark T
      if HEAD_MARK = mark then do
        let _ ← handlePacketHeader T env
      else if BODY_MARK = mark then do
        let _ ← handlePacketBody T env
      else pure ()
  else close env

def handleWrite (env : Env) (error : Bool) : Handler Unit := do
  if !error then do
    let s ← get
    asyncReadSome .handleWrite 0 (toSizeT s.headerSize)
  else close env

/-! ### Completions -/

/-- What an operation completes with. -/
inductive Completion where
  | received (bs : List UInt8)
  | written
  | failed
deriving DecidableEq

/-- A read of nothing completes at once with nothing; one of some bytes, with at least one. -/
def Op.CanComplete : Op → Completion → Prop
  | .read _ length, .received bs => bs.length ≤ length ∧ (bs = [] → length = 0)
  | .write _, .written => True
  | _, .failed => True
  | _, _ => False

instance (op : Op) (result : Completion) : Decidable (op.CanComplete result) := by
  cases op <;> cases result <;> unfold Op.CanComplete <;> infer_instance

/-- A completion: the socket stores what a read received, then the handler runs. -/
def dispatch (T : Target) (env : Env) (op : Op) (result : Completion) : Handler Unit :=
  match op, result with
  | .read offset length, .received bs => do
    let s ← get
    let recvBuffer ← lift (orFault (s.recvBuffer.store offset bs))
    set { s with recvBuffer }
    emit (.received bs)
    handleRead T env false bs.length length
  | .read _ length, _ => handleRead T env true 0 length
  | .write _, .written => handleWrite env false
  | .write _, _ => handleWrite env true

/-- A connection between two handlers: the session, the operations in flight, whether the
session was closed, how the handler that did not return was left, and the past. -/
structure Conn where
  session : Session
  pending : List Op
  closed : Bool
  exit : Option Exit
  trace : List Event
deriving DecidableEq

/-- An operation's completion at some moment. -/
structure Label where
  op : Op
  result : Completion
  env : Env

/-- What a handler that was entered from `c` leaves. -/
def Conn.after (c : Conn) (left : Except Exit Unit × Frame) : Conn where
  session := left.2.session
  pending := c.pending ++ left.2.ops
  closed := c.closed || left.2.closed
  exit := raised left.1
  trace := c.trace ++ left.2.events

/-- The connection after a completion. -/
def Conn.complete (T : Target) (c : Conn) (i : Label) : Conn :=
  { c with pending := c.pending.erase i.op }.after
    (dispatch T i.env i.op i.result (.init c.session))

/-- One completion of a connection whose handlers all returned. -/
structure Step (T : Target) (c : Conn) (i : Label) (c' : Conn) : Prop where
  returned : c.exit = none
  pending : i.op ∈ c.pending
  valid : i.op.CanComplete i.result
  eq : c' = c.complete T i

def Conn.accepted (s : Session) : Conn := ⟨s, [], false, none, []⟩

def Conn.started (env : Env) (s : Session) : Conn :=
  (Conn.accepted s).after (start env (.init s))

end Librtaio

import Librtaio.ClientImpl

/-!
# The calls of a client (`api/rtdb_client.cpp`, `api/rtdb_client_impl.cpp`)

`connect` opens the socket, sends a connect request and waits for its response;
`disconnect` sends a disconnect request. The mutex lets the calls on one
`rtdb_client` come one after the other only. What the system and the server do
in a call is given with it. `m_socket` is never closed, so a client has one
connection at most.
-/

namespace Librtaio

/-! ### Data -/

/-- What a call of `write_some` does: it writes some bytes, or fails. -/
inductive WriteSome where
  | wrote (n : Nat)
  | failed
deriving DecidableEq

/-- A packet that was handed to `write_some`, and what was written of it. -/
structure Attempt where
  packet : List UInt8
  written : List UInt8
deriving DecidableEq

structure Client where
  /-- `m_socket` is open. -/
  opened : Bool
  /-- `m_socket` is connected to the server. -/
  connected : Bool
  /-- What was written to the connection. -/
  written : List UInt8
  /-- The calls of `write_some` on the connection; nothing in the program reads them. -/
  attempts : List Attempt
  /-- A call ran into undefined behaviour or a failed assertion. -/
  crashed : Bool
deriving DecidableEq

/-- A new `rtdb_client`. -/
def Client.init : Client := ⟨false, false, [], [], false⟩

/-- What the system and the server do in a call of `connect`. -/
structure Connecting where
  /-- The system has a socket. -/
  opens : Bool
  /-- The server takes the connection. -/
  reached : Bool
  /-- The values of `time(NULL)`, in order. -/
  clock : Nat → Int
  hostname : Option (List UInt8)
  /-- What `/proc/self/exe` links to. -/
  exe : Option (List UInt8)
  write : WriteSome
  /-- The server's answer. -/
  answer : Socket

/-! ### Names -/

/-- `char buffer[size]={"..."}` -/
def charArray (size : Nat) (text : List UInt8) : List UInt8 :=
  text ++ List.replicate (size - text.length) 0

/-- A call of the system that stores as many of the bytes as the buffer takes. -/
def storeInto (buffer bs : List UInt8) : List UInt8 :=
  bs.take buffer.length ++ buffer.drop bs.length

/-- `gethostname` stores the name with its NUL, or nothing. -/
def gethostname (name : Option (List UInt8)) (buffer : List UInt8) : List UInt8 :=
  match name with
  | some name => storeInto buffer (name ++ [0])
  | none => buffer

/-- `readlink` stores what the link holds, or nothing. -/
def readlink (target : Option (List UInt8)) (buffer : List UInt8) : List UInt8 :=
  match target with
  | some target => storeInto buffer target
  | none => buffer

/-- `"client"` -/
def defaultComputer : List UInt8 := [0x63, 0x6c, 0x69, 0x65, 0x6e, 0x74]

/-- `"test/hhh/client"` -/
def defaultProcess : List UInt8 :=
  [0x74, 0x65, 0x73, 0x74, 0x2f, 0x68, 0x68, 0x68, 0x2f, 0x63, 0x6c, 0x69, 0x65, 0x6e, 0x74]

/-- `computer`, once `gethostname` has been called. -/
def Connecting.computer (env : Connecting) : List UInt8 :=
  gethostname env.hostname (charArray 1024 defaultComputer)

/-- `process`, once `readlink` has been called. -/
def Connecting.process (env : Connecting) : List UInt8 :=
  readlink env.exe (charArray 1024 defaultProcess)

/-- `strlen` stays within a buffer that holds a NUL. -/
def terminated (buffer : List UInt8) : Except Fault Unit :=
  if 0 ∈ buffer then .ok () else .error .outOfBounds

/-! ### Calls -/

/-- A computation in a call. -/
abbrev Call : Type → Type := Exec Exit Client

namespace Client

open Exec

/-- `m_socket.open(..)`, which throws on a socket that is open. -/
def openSocket (opens : Bool) : Call Unit := fun c =>
  if c.opened || !opens then (.error .exception, c) else (.ok (), { c with opened := true })

/-- `m_socket.connect(m_endpoint,err)`; whether `err` is clear. -/
def connectSocket (reached : Bool) : Call Bool := fun c =>
  (.ok reached, { c with connected := reached })

/-- `m_socket.write_some(buffer, ec)`: the number of bytes, and whether `ec` is set. -/
def writeSome (packet : List UInt8) (result : WriteSome) : Call (Nat × Bool) := fun c =>
  if !c.connected then (.ok (0, true), c)
  else
    match result with
    | .wrote n =>
      (.ok ((packet.take n).length, false), { c with
        written := c.written ++ packet.take n
        attempts := c.attempts ++ [⟨packet, packet.take n⟩] })
    | .failed => (.ok (0, true), { c with attempts := c.attempts ++ [⟨packet, []⟩] })

/-- `rtdb_client_impl::send_packet` -/
def sendPacket (T : Target) (fields : List Field) (len : Int) (write : WriteSome) : Call Int := do
  let (ret, packet, _) ← lift (encodePacket T fields len)
  if ret = 0 then do
    let (writeBytes, ec) ← writeSome packet write
    if writeBytes < packet.length ∨ ec then pure ERR_SEND_PACKET_ERROR
    else pure ret
  else pure ret

/-- The rest of `connect`, behind the request: the response is received. -/
def receiveResponse (T : Target) (clock : Nat → Int) (answer : Socket) : Call Int := do
  let robj := msgConnectRespFields (clock 1) 0 0
  let ret ← lift (recvPacket T (clock 2) (fieldsLen robj) (.init answer robj)).1
  if ret ≠ ERR_OK then pure ret else pure ret

def connect (T : Target) (env : Connecting) : Call Int := do
  openSocket env.opens
  let reached ← connectSocket env.reached
  if !reached then pure (-1)
  else do
    lift (orFault (terminated env.computer))
    lift (orFault (terminated env.process))
    let wobj := msgConnectFields (env.clock 0) env.computer env.process
    let ret ← sendPacket T wobj (fieldsLen wobj) env.write
    if 0 ≠ ret then pure ret
    else receiveResponse T env.clock env.answer

def disconnect (T : Target) (now : Int) (write : WriteSome) : Call Int := do
  let wobj := msgDisconnectFields now
  let ret ← sendPacket T wobj (fieldsLen wobj) write
  if 0 ≠ ret then pure ret else pure 0

end Client

/-- A call on an `rtdb_client`. -/
inductive ApiCall where
  | connect (env : Connecting)
  | disconnect (now : Int) (write : WriteSome)

namespace ApiCall

def run (T : Target) : ApiCall → Call Int
  | connect env => Client.connect T env
  | disconnect now write => Client.disconnect T now write

end ApiCall

/-- A client after a call; how the call was left does not matter to the next one, unless it
crashed. -/
def Client.after (T : Target) (c : Client) (call : ApiCall) : Client :=
  let left := call.run T c
  { left.2 with crashed := (Exec.raised left.1).any fun exit => exit ≠ .exception }

/-- A call on a client. -/
structure Client.Step (T : Target) (c : Client) (call : ApiCall) (c' : Client) : Prop where
  alive : c.crashed = false
  eq : c' = c.after T call

end Librtaio

import Librtaio.SessionHandler

/-!
# The server (`core/network/async_acceptor.cpp`, `core/network/network_server.cpp`)

One thread runs `io_service::run`; it delivers the completions of the sessions
and of the acceptor one after the other, in any order. An exception that leaves
a handler leaves `io_service::run` and is caught around it, so that no
completion is delivered any more. The objects the acceptor makes are numbered in
the order of their construction; allocation succeeds.
-/

namespace Librtaio

/-- Whether completions are still delivered. -/
inductive Service where
  | running
  | stopped  -- `network_server::stop` was called
  | escaped  -- an exception left a handler
  | crashed  -- a handler ran into undefined behaviour or a failed assertion
deriving DecidableEq

/-- `network_server`, with its acceptor and every `session_handler` constructed so far. -/
structure Server where
  sessions : List Conn
  /-- `m_set_handlers` -/
  handlers : List Nat
  /-- The handlers that wait for an `async_accept`. -/
  accepting : List Nat
  service : Service
deriving DecidableEq

/-- What becomes of `io_service::run` when a handler is done. -/
def Service.after : Option Exit → Service
  | none => .running
  | some .exception => .escaped
  | some (.fault _) => .crashed

namespace Server

/-- `async_acceptor::make_session_handler`, for the constructed object, and the `async_accept` into
it. -/
def accept (srv : Server) (s : Session) : Server :=
  { srv with
    sessions := srv.sessions ++ [.accepted s]
    handlers := srv.handlers ++ [srv.sessions.length]
    accepting := srv.accepting ++ [srv.sessions.length] }

def start (s : Session) : Server := accept ⟨[], [], [], .running⟩ s

/-- The object is what its last handler left of it; `close` has removed it from
`m_set_handlers`. -/
def put (srv : Server) (k : Nat) (c : Conn) : Server :=
  { srv with
    sessions := srv.sessions.set k c
    handlers := if c.closed then srv.handlers.erase k else srv.handlers
    service := .after c.exit }

/-- `async_acceptor::handle_accept` of the handler with number `k`; `s` is the object that is
constructed for the next connection. -/
def handleAccept (srv : Server) (k : Nat) (c : Conn) (error : Bool) (env : Env) (s : Session) :
    Server :=
  let srv := { srv with accepting := srv.accepting.erase k }
  if !error then
    let srv := srv.put k (.started env c.session)
    if srv.service = .running then srv.accept s else srv
  else srv.put k { c with closed := true }

/-- What can be delivered, and the call of `stop`. -/
inductive Delivery where
  | session (k : Nat) (i : Label)
  | accepted (k : Nat) (error : Bool) (env : Env) (s : Session)
  | stop

/-- The steps of the server. -/
inductive Step (T : Target) (srv : Server) : Delivery → Server → Prop where
  | session (k : Nat) (i : Label) (c c' : Conn) (hrunning : srv.service = .running)
      (hc : srv.sessions[k]? = some c) (hstep : Librtaio.Step T c i c') :
      Step T srv (.session k i) (srv.put k c')
  | accepted (k : Nat) (error : Bool) (env : Env) (s : Session) (c : Conn)
      (hrunning : srv.service = .running) (haccepting : k ∈ srv.accepting)
      (hc : srv.sessions[k]? = some c) (hnew : ∃ now uninit, newSession now uninit = .ok s) :
      Step T srv (.accepted k error env s) (srv.handleAccept k c error env s)
  | stop (hrunning : srv.service = .running) : Step T srv .stop { srv with service := .stopped }

end Server

end Librtaio

import Librtaio.NetworkServer
import Librtaio.SessionOrder

/-!
# Which runs of the server are served to their end

All sessions and the acceptor share one `io_service::run`. What one of them
does leaves the others as they are, as long as no exception and no fault leaves
a handler; the first that does ends the service for all of them. It is shown of
which runs that holds.
-/

namespace Librtaio

open Transition

/-- What a handler must not find in the buffer in order to return: a header that announces a
negative size, a body that the decoder reads past its end, or the request to close a session whose
peer is gone. -/
structure Session.Harmless (T : Target) (env : Env) (s : Session) : Prop where
  header : s.mark T = HEAD_MARK → HeaderAccepted true s.memory → 0 ≤ announcedSize s.memory
  body : ∀ fields, s.mark T = BODY_MARK → s.bodyTable env.now = some fields →
    ∃ code fields', s.decodeBody T fields = .ok (code, fields') ∧
      (s.headerInt FIELD_METHOD = MSG_DISCONNECT → code = ERR_OK → env.connected = true)

theorem HeaderHandled.returns_iff {T : Target} {env : Env} {f : Frame}
    {left : Except Exit Int × Frame} (h : HeaderHandled f left)
    (hmark : f.session.mark T = HEAD_MARK) :
    (∃ code, left.1 = .ok code) ↔ f.session.Harmless T env := by
  have hbody : f.session.mark T ≠ BODY_MARK := by rw [hmark]; decide
  cases h with
  | rejected ret packetHeader hreject hlength =>
    exact iff_of_true ⟨ret, rfl⟩ ⟨fun _ haccept => absurd haccept hreject, fun _ hb => absurd hb hbody⟩
  | negative s' haccept hneg =>
    refine iff_of_false (fun ⟨code, hcode⟩ => by cases hcode) ?_
    intro h
    exact absurd (h.header hmark haccept) (by omega)
  | accepted n s' haccept hn hready hsize hbsize =>
    exact iff_of_true ⟨0, rfl⟩ ⟨fun _ _ => by omega, fun _ hb => absurd hb hbody⟩

theorem BodyHandled.returns_iff {T : Target} {env : Env} {f : Frame}
    {left : Except Exit Int × Frame} (h : BodyHandled T env f left)
    (hmark : f.session.mark T = BODY_MARK) :
    (∃ code, left.1 = .ok code) ↔ f.session.Harmless T env := by
  have hhead : f.session.mark T ≠ HEAD_MARK := by rw [hmark]; decide
  cases h with
  | unhandled htable =>
    refine iff_of_true ⟨-1, rfl⟩ ⟨fun hh => absurd hh hhead, ?_⟩
    intro fields _ hfields
    cases htable.symm.trans hfields
  | undecoded fields fields' code htable hdecode hcode =>
    refine iff_of_true ⟨code, rfl⟩ ⟨fun hh => absurd hh hhead, ?_⟩
    intro fields _ hfields
    cases htable.symm.trans hfields
    exact ⟨code, fields', hdecode, fun _ hok => absurd hok hcode⟩
  | faulted fields fault htable hdecode =>
    refine iff_of_false (fun ⟨code, hcode⟩ => by cases hcode) ?_
    intro h
    obtain ⟨code, fields', hok, -⟩ := h.body fields hmark htable
    cases hdecode.symm.trans hok
  | replied fields fields' packet hmethod htable hdecode hpacket =>
    refine iff_of_true ⟨ERR_OK, rfl⟩ ⟨fun hh => absurd hh hhead, ?_⟩
    intro fields _ hfields
    cases htable.symm.trans hfields
    refine ⟨ERR_OK, fields', hdecode, ?_⟩
    intro hdisconnect
    exact absurd (hmethod.symm.trans hdisconnect) (by decide)
  | disconnected fields fields' hmethod htable hdecode henv =>
    refine iff_of_true ⟨0, rfl⟩ ⟨fun hh => absurd hh hhead, ?_⟩
    intro fields _ hfields
    cases htable.symm.trans hfields
    exact ⟨ERR_OK, fields', hdecode, fun _ _ => henv⟩
  | gone fields fields' hmethod htable hdecode henv =>
    refine iff_of_false (fun ⟨code, hcode⟩ => by cases hcode) ?_
    intro h
    obtain ⟨code, fields'', hok, hconnected⟩ := h.body fields hmark htable
    cases hdecode.symm.trans hok
    cases henv.symm.trans (hconnected hmethod rfl)

namespace Conn

variable {T : Target} {c c' : Conn} {i : Label}

/-- What a completion must not bring for its handler to return. -/
structure Harmless (T : Target) (c : Conn) (i : Label) : Prop where
  /-- A session that is closed because of it has a peer. -/
  ends : i.result = .failed ∨ i.result = .received [] → i.env.connected = true
  buffer : ∀ s', c.Fills i s' → s'.Harmless T i.env

theorem exit_leave_dropCode {trace : List Event} {left : Except Exit Int × Frame} :
    (leave trace (dropCode left)).exit = none ↔ ∃ code, left.1 = .ok code := by
  obtain ⟨exit | code, f⟩ := left
  · exact iff_of_false (fun h => by cases h) fun ⟨code, h⟩ => by cases h
  · exact iff_of_true rfl ⟨code, rfl⟩

theorem exit_step (hc : c.Inv) (h : Step T c i c') : c'.exit = none ↔ Harmless T c i := by
  obtain ⟨hop, left, hleft, rfl⟩ := h.cases hc
  cases hleft with
  | closed s' evs hends henv =>
    exact iff_of_true rfl ⟨fun _ => henv, fun s' hs' => absurd hs' (not_fills_of_ends hends s')⟩
  | gone s' evs hends henv =>
    refine iff_of_false (fun h => by cases h) ?_
    intro hharmless
    have hconnected : i.env.connected = true := by
      cases hends with
      | failed hfailed => exact hharmless.ends (.inl hfailed)
      | nothing offset hread hnothing => exact hharmless.ends (.inr hnothing)
    cases henv.symm.trans hconnected
  | partly offset length bs s' hread hresult hpos hlt hs' =>
    refine iff_of_true rfl ⟨fun hends => ?_,
      fun s' hs' => absurd hs' (not_fills_of_lt hread hresult hlt s')⟩
    rcases hends with hfailed | hnothing
    · cases hfailed.symm.trans hresult
    · cases hnothing.symm.trans hresult
      exact absurd hpos (by decide)
  | written packet hwrite hresult =>
    refine iff_of_true rfl ⟨fun hends => ?_, fun s' hs' => absurd hs' (not_fills_of_write hwrite s')⟩
    rcases hends with hfailed | hnothing
    · cases hfailed.symm.trans hresult
    · cases hnothing.symm.trans hresult
  | whole offset length bs s' hread hresult hpos hlen hs' hinspected =>
    have hfills : c.Fills i s' := ⟨offset, length, bs, hread, hresult, hpos, hlen, hs'⟩
    have hnotends : ¬ (i.result = .failed ∨ i.result = .received []) := by
      rintro (hfailed | hnothing)
      · cases hfailed.symm.trans hresult
      · cases hnothing.symm.trans hresult
        exact absurd hpos (by decide)
    have hharmless : Harmless T c i ↔ s'.Harmless T i.env :=
      ⟨fun h => h.buffer s' hfills,
        fun h => ⟨fun hends => absurd hends hnotends, fun s'' hs'' => hs''.unique hfills ▸ h⟩⟩
    rw [hharmless]
    cases hinspected with
    | unknown hhead hbody =>
      exact iff_of_true rfl ⟨fun hh => absurd hh hhead, fun _ hb => absurd hb hbody⟩
    | header hmark hheader => rw [exit_leave_dropCode, hheader.returns_iff hmark]
    | body hmark hbody => rw [exit_leave_dropCode, hbody.returns_iff hmark]

end Conn

namespace Server

variable {T : Target} {srv srv' : Server} {d : Delivery} {log : List (Server × Delivery)}

/-! ### The invariant of the server -/

/-- What holds in every run of the server. -/
structure Inv (srv : Server) : Prop where
  sessions : ∀ (k : Nat) (c : Conn), srv.sessions[k]? = some c → c.Inv
  /-- No more than one handler waits for a connection, and it has not been started. -/
  accepting : srv.accepting = [] ∨ ∃ k, srv.accepting = [k] ∧ ∃ now uninit s,
    newSession now uninit = .ok s ∧ srv.sessions[k]? = some (.accepted s)

theorem Inv.of_accepting (h : srv.Inv) {k : Nat} {c : Conn} (hk : k ∈ srv.accepting)
    (hc : srv.sessions[k]? = some c) :
    srv.accepting = [k] ∧ ∃ now uninit s, newSession now uninit = .ok s ∧ c = .accepted s := by
  rcases h.accepting with hnone | ⟨j, hj, now, uninit, s, hnew, hsession⟩
  · simp [hnone] at hk
  · obtain rfl : k = j := by simpa [hj] using hk
    cases hc.symm.trans hsession
    exact ⟨hj, now, uninit, s, hnew, rfl⟩

theorem sessions_put (k : Nat) (c : Conn) : (srv.put k c).sessions = srv.sessions.set k c := rfl

theorem Inv.put (h : srv.Inv) {k : Nat} {c : Conn} (hc : c.Inv) (hk : k ∉ srv.accepting) :
    (srv.put k c).Inv where
  sessions := by
    intro j c' hc'
    rw [sessions_put, List.getElem?_set] at hc'
    split at hc'
    · split at hc'
      · cases hc'
        exact hc
      · cases hc'
    · exact h.sessions j c' hc'
  accepting := by
    rcases h.accepting with hnone | ⟨j, hj, now, uninit, s, hnew, hsession⟩
    · exact .inl hnone
    · refine .inr ⟨j, hj, now, uninit, s, hnew, ?_⟩
      have hne : k ≠ j := fun hkj => hk (by simp [hj, hkj])
      rw [sessions_put, List.getElem?_set_ne hne]
      exact hsession

theorem Inv.accept (h : srv.Inv) (hnone : srv.accepting = []) {now : Int}
    {uninit : Fin (FIELD_BMARK + 3) → Field} {s : Session} (hnew : newSession now uninit = .ok s) :
    (srv.accept s).Inv where
  sessions := by
    intro j c hc
    rw [Server.accept, List.getElem?_append] at hc
    split at hc
    · exact h.sessions j c hc
    · obtain rfl : c = .accepted s := by simpa using List.mem_of_getElem? hc
      exact .of_nil rfl
  accepting := by
    refine .inr ⟨srv.sessions.length, ?_, now, uninit, s, hnew, ?_⟩
    · simp [Server.accept, hnone]
    · simp [Server.accept]

theorem Inv.step (h : srv.Inv) (hstep : Step T srv d srv') : srv'.Inv := by
  cases hstep with
  | session k i c c' hrunning hc hstep =>
    refine h.put ((h.sessions k c hc).step hstep) ?_
    intro hk
    -- a handler that waits for a connection has nothing in flight
    obtain ⟨-, now, uninit, s, -, rfl⟩ := h.of_accepting hk hc
    exact absurd hstep.pending List.not_mem_nil
  | accepted k error env s c hrunning haccepting hc hnew =>
    obtain ⟨now, uninit, hnew⟩ := hnew
    obtain ⟨hj, now', uninit', s', hnew', rfl⟩ := h.of_accepting haccepting hc
    have herase : srv.accepting.erase k = [] := by simp [hj]
    have htaken : Inv { srv with accepting := srv.accepting.erase k } := ⟨h.sessions, .inl herase⟩
    have hk : k ∉ srv.accepting.erase k := by simp [herase]
    rw [handleAccept]
    cases error with
    | true => exact htaken.put (.of_nil rfl) hk
    | false =>
      have hstarted := htaken.put (Conn.Inv.started hnew' env) hk
      simp only [Bool.not_false, if_true]
      split
      · exact hstarted.accept herase hnew
      · exact hstarted
  | stop hrunning => exact ⟨h.sessions, h.accepting⟩

theorem Inv.start {now : Int} {uninit : Fin (FIELD_BMARK + 3) → Field} {s : Session}
    (hnew : newSession now uninit = .ok s) : (Server.start s).Inv :=
  Inv.accept ⟨fun _ _ hc => by simp at hc, .inl rfl⟩ rfl hnew

/-! ### The service -/

/-- `io_service::run` was not left but by `stop`. -/
def Serves (srv : Server) : Prop := srv.service = .running ∨ srv.service = .stopped

def Delivery.session? : Delivery → Option Nat
  | .session k _ => some k
  | .accepted k _ _ _ => some k
  | .stop => none

/-- What must not be delivered to a server that is to go on. -/
def Harmless (T : Target) (srv : Server) : Delivery → Prop
  | .session k i => ∀ c, srv.sessions[k]? = some c → c.Harmless T i
  | .accepted _ error env _ => error = false → env.connected = true
  | .stop => True

theorem after_serves (exit : Option Exit) :
    Service.after exit = .running ∨ Service.after exit = .stopped ↔ exit = none := by
  rcases exit with _ | _ | _ <;> simp [Service.after]

theorem exit_started {now : Int} {uninit : Fin (FIELD_BMARK + 3) → Field} {s : Session}
    (hnew : newSession now uninit = .ok s) (env : Env) :
    (Conn.started env s).exit = none ↔ env.connected = true := by
  rw [newSession_eq] at hnew
  cases hnew
  cases henv : env.connected with
  | true =>
    obtain ⟨w, -, hstart⟩ := start_run (s := ⟨32, List.ofFn uninit, .empty, .empty⟩) rfl henv
    rw [Conn.started, hstart]
    exact iff_of_true rfl rfl
  | false =>
    rw [Conn.started, start_gone henv]
    exact iff_of_false (fun h => by cases h) (by decide)

theorem serves_step (h : srv.Inv) (hstep : Step T srv d srv') :
    srv'.Serves ↔ srv.Serves ∧ Harmless T srv d := by
  cases hstep with
  | session k i c c' hrunning hc hstep =>
    have hharmless : Harmless T srv (.session k i) ↔ c.Harmless T i :=
      ⟨fun hall => hall c hc, fun hi c'' hc'' => by cases hc.symm.trans hc''; exact hi⟩
    rw [hharmless, and_iff_right (.inl hrunning), ← Conn.exit_step (h.sessions k c hc) hstep]
    exact after_serves _
  | accepted k error env s c hrunning haccepting hc hnew =>
    obtain ⟨-, now, uninit, s', hnew', rfl⟩ := h.of_accepting haccepting hc
    rw [and_iff_right (.inl hrunning)]
    cases error with
    | true => exact iff_of_true (.inl rfl) fun h => by cases h
    | false =>
      have hexit := exit_started hnew' env
      have hharmless : Harmless T srv (.accepted k false env s) ↔ env.connected = true :=
        ⟨fun h => h rfl, fun h _ => h⟩
      rw [hharmless, ← hexit, handleAccept, Conn.accepted]
      simp only [Bool.not_false, if_true]
      split
      next hservice => exact iff_of_true (.inl hservice) ((after_serves _).mp (.inl hservice))
      next => exact after_serves _
  | stop hrunning => exact iff_of_true (.inr rfl) ⟨.inl hrunning, trivial⟩

theorem sessions_put_ne {j k : Nat} {c c' : Conn} (hne : k ≠ j) (hc : srv.sessions[j]? = some c) :
    (srv.put k c').sessions[j]? = some c := by
  rwa [sessions_put, List.getElem?_set_ne hne]

def fresh : Session := ⟨32, List.ofFn (n := FIELD_BMARK + 3) fun _ => ⟨0, 0, 0, none, 0⟩, .empty, .empty⟩

def connectedServer : Server :=
  (start fresh).handleAccept 0 (.accepted fresh) false ⟨0, true⟩ fresh

theorem connectedServer_step (T : Target) :
    Step T (start fresh) (.accepted 0 false ⟨0, true⟩ fresh) connectedServer :=
  .accepted 0 false ⟨0, true⟩ fresh (.accepted fresh) rfl (by decide) rfl
    ⟨0, fun _ => ⟨0, 0, 0, none, 0⟩, newSession_eq _ _⟩

end Server

end Librtaio

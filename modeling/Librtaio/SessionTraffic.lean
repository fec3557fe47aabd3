import Librtaio.SentPackets
import Librtaio.SessionReassembly

/-!
# A session's whole traffic

A peer that sends connect requests back to back, and perhaps a request to
disconnect behind them, gets one response for each, as long as every read and
write completes whole. Between two completions the session is in one of five
stages (`Traffic.Stage`); each completion takes it to the next one, so that no
run takes more completions than the traffic needs, and one that cannot go on
has served all of it.
-/

namespace Librtaio

open Bytes Exec Handler Transition MsgTable

/-! ### One completion -/

namespace Session

/-- The body of a packet is expected: its header was accepted. -/
structure Expects (s : Session) (t : MsgTable) (H : Target) : Prop where
  ready : s.Ready
  size : s.recvBuffer.size = ((t.sent H).bodyWire H).length
  header : ∃ now rest, s.packetHeader =
    scalarsRead ((msgHeader now MSG_COMMON 0 1).take FIELD_BMARK) headerTypes
      ((t.sent H).headerWire H) ++ rest

end Session

/-- What a session says: the clients it reports, and its packets. -/
def spoken (events : List Event) : List Event :=
  events.filter fun
    | .connected _ _ => true
    | .armed _ (.write _) => true
    | _ => false

@[simp] theorem spoken_append (evs evs' : List Event) :
    spoken (evs ++ evs') = spoken evs ++ spoken evs' := List.filter_append ..

theorem Session.Stored.take {s s' : Session} {bs : List UInt8} (h : s.Stored 0 bs s') :
    s'.memory.take bs.length = bs := by
  rw [h.memory, List.take_zero, List.nil_append, List.take_left]

section Dispatch

variable {T H : Target} {t : MsgTable} {s : Session}

/-- A whole read hands the packet's piece to the handlers. -/
theorem dispatch_piece (hready : s.Ready) {piece : List UInt8} (hpos : 0 < piece.length)
    (hroom : piece.length ≤ s.memory.length) (env : Env) :
    ∃ s', s.Stored 0 piece s' ∧
      dispatch T env (.read 0 piece.length) (.received piece) (.init s) =
        if HEAD_MARK = s'.mark T then
          dropCode (handlePacketHeader T env (Frame.looked ⟨s', [], false, [.received piece]⟩))
        else if BODY_MARK = s'.mark T then
          dropCode (handlePacketBody T env (Frame.looked ⟨s', [], false, [.received piece]⟩))
        else (.ok (), Frame.looked ⟨s', [], false, [.received piece]⟩) := by
  obtain ⟨s', hs'⟩ := Session.exists_stored s 0 piece (by omega)
  refine ⟨s', hs', ?_⟩
  rw [dispatch_received hs']
  exact handleRead_run (hs'.ready hready) hpos le_rfl

/-- The header of a packet is accepted, and its body is read next. -/
theorem dispatch_header (h : t.Marked) (hsize : t.size < 2 ^ 31) (hready : s.Ready) (env : Env) :
    ∃ s' evs, dispatch T env (.read 0 32) (.received ((t.sent H).headerWire H)) (.init s) =
        (.ok (), ⟨s', [.read 0 ((t.sent H).bodyWire H).length], false, evs⟩) ∧
      s'.Expects t H ∧ received evs = (t.sent H).headerWire H ∧ spoken evs = [] := by
  have hheader := (t.sent H).length_headerWire H
  have hbody := (t.sent H).length_bodyWire H
  rw [bodySize_sent] at hbody
  obtain ⟨s₁, hs₁, hrun⟩ := dispatch_piece (T := T) hready
    (show 0 < ((t.sent H).headerWire H).length by omega) (by rw [hheader]; exact hready.storage) env
  rw [hheader] at hrun
  have hmemory : s₁.memory.take 32 = (t.sent H).headerWire H := by
    rw [← hheader]
    exact hs₁.take
  have hmark : s₁.mark T = HEAD_MARK := by
    have hword : s₁.memory.take 4 = ((t.sent H).headerWire H).take 4 := by
      rw [← hmemory, List.take_take]
      rfl
    rw [Session.mark, hword, h.take_headerWire]
    cases T.order <;> rfl
  rw [if_pos hmark.symm] at hrun
  set f : Frame := Frame.looked ⟨s₁, [], false, [.received ((t.sent H).headerWire H)]⟩ with hf
  have hmemory : f.session.memory.take 32 = (t.sent H).headerWire H := hmemory
  have haccept : HeaderAccepted true f.session.memory := by
    rw [← headerAccepted_take, hmemory, ← List.append_nil ((t.sent H).headerWire H)]
    exact (h.setBsize t.bodySize).headerAccepted H true []
  have hannounced : announcedSize f.session.memory = ((t.sent H).bodyWire H).length := by
    rw [← announcedSize_take, hmemory, t.announcedSize_headerWire hsize H, hbody]
  have hready₁ : f.session.Ready := hs₁.ready hready
  obtain ⟨hhandled, htable⟩ : HeaderHandled f (handlePacketHeader T env f) ∧ _ :=
    handlePacketHeader_run hready₁
  have htable := htable haccept
  rw [hmemory] at htable
  rw [hrun]
  generalize handlePacketHeader T env f = left at hhandled htable
  cases hhandled with
  | rejected ret packetHeader hreject hlength => exact absurd haccept hreject
  | negative s' haccept hneg => omega
  | accepted n s' haccept' hn hready' hsize' hbsize' =>
    obtain rfl : n = ((t.sent H).bodyWire H).length := by omega
    exact ⟨s', _, rfl, ⟨hready', hsize', env.now, _, htable⟩, List.append_nil _, rfl⟩

/-- What a handler of a body finds. -/
structure Session.Brought (s : Session) (t : MsgTable) (H : Target) : Prop extends s.Expects t H where
  body : s.memory.take ((t.sent H).bodyWire H).length = (t.sent H).bodyWire H

theorem toInt32_toInt32 (z : Int) : toInt32 (toInt32 z) = toInt32 z :=
  toInt32_eq (BitVec.le_toInt _) BitVec.toInt_lt

theorem Session.Expects.headerInt (h : s.Expects t H) {i : Nat} (hi : i < FIELD_HCRC) {p : Field}
    (hp : (t.sent H).head[i]? = some p) : s.headerInt i = toInt32 p.ivalue := by
  obtain ⟨now, rest, hheader⟩ := h.header
  obtain ⟨q, hq, hvalue⟩ := t.fieldAt_sent H (isHeader_msgHeader now MSG_COMMON 0 1) hi hp rest
  rw [← hheader] at hq
  rw [headerInt_of_fieldAt hq, hvalue, toInt32_toInt32]

theorem Session.Expects.bsize (h : s.Expects t H) (hsize : t.size < 2 ^ 31) :
    toSizeT (s.headerInt FIELD_BSIZE) = ((t.sent H).bodyWire H).length := by
  have hbody := t.bodySize_ge
  have htotal : t.size = 32 + t.bodySize := rfl
  have hlength := (t.sent H).length_bodyWire H
  rw [bodySize_sent] at hlength
  have hint : s.headerInt FIELD_BSIZE = t.bodySize :=
    (h.headerInt (i := FIELD_BSIZE) (by decide) rfl).trans
      (toInt32_eq (by change _ ≤ t.bodySize; omega) (by change t.bodySize < _; omega))
  rw [hint, toSizeT_eq (by omega) (by omega), ← hlength, Int.toNat_natCast]

/-- The body decoder gets the body of the packet, behind its header. -/
theorem Session.Brought.decodeBody (h : s.Brought t H) (hsize : t.size < 2 ^ 31) (T : Target)
    {fields : List Field} (hfields : FIELD_BMARK ≤ fields.length) :
    ∃ hs rd, IsHeader hs ∧ rd.good = true ∧ rd.rest = (t.sent H).bodyWire H ++ [] ∧
      s.decodeBody T fields = unserializeBodyPacket T rd
          (scalarsRead hs headerTypes ((t.sent H).headerWire H) ++ fields.drop FIELD_BMARK)
          (fieldsLen fields) true >>= fun r => .ok (r.1, r.2.2) := by
  obtain ⟨now, rest, hheader⟩ := h.header
  have hhs := isHeader_msgHeader now MSG_COMMON 0 1
  have hcopy := copyFields_header (isScalar_scalarsRead hhs ((t.sent H).headerWire H)) rest hfields
  refine ⟨_, InputStream.ofBuffer s.memory ((t.sent H).bodyWire H).length, hhs, rfl, ?_, ?_⟩
  · rw [List.append_nil]
    exact h.body
  · rw [Session.decodeBody, hheader, hcopy, ok_bind, h.bsize hsize]

/-- The body of a packet is handed to the handler of its method. -/
theorem dispatch_body (h : t.Marked) (hs : s.Expects t H) (env : Env) :
    ∃ s' : Session, s'.Brought t H ∧
      dispatch T env (.read 0 ((t.sent H).bodyWire H).length)
          (.received ((t.sent H).bodyWire H)) (.init s) =
        dropCode (handlePacketBody T env
          (Frame.looked ⟨s', [], false, [.received ((t.sent H).bodyWire H)]⟩)) := by
  have hbody := t.bodySize_ge
  have hlength := (t.sent H).length_bodyWire H
  rw [bodySize_sent] at hlength
  have hroom : ((t.sent H).bodyWire H).length ≤ s.memory.length := by
    rw [← hs.size]
    exact s.recvBuffer.size_le
  obtain ⟨s', hs', hrun⟩ := dispatch_piece (T := T) hs.ready (by omega) hroom env
  have hmemory := hs'.take
  have hmark : s'.mark T = BODY_MARK := by
    have hword := congrArg (List.take 4) hmemory
    rw [List.take_take, Nat.min_eq_left (by omega)] at hword
    rw [Session.mark, hword, h.take_bodyWire]
    cases T.order <;> rfl
  rw [if_neg (by rw [hmark]; decide), if_pos hmark.symm] at hrun
  obtain ⟨now, rest, hheader⟩ := hs.header
  exact ⟨s', ⟨⟨hs'.ready hs.ready, hs'.size.trans hs.size, now, rest,
    hs'.packetHeader.trans hheader⟩, hmemory⟩, hrun⟩

/-- What is left of a body that was decoded. -/
theorem BodyHandled.decoded {env : Env} {f : Frame} {left : Except Exit Int × Frame}
    (h : BodyHandled T env f left) {fields fields' : List Field}
    (hready : f.session.Ready) (htable : f.session.bodyTable env.now = some fields)
    (hdecode : f.session.decodeBody T fields = .ok (ERR_OK, fields')) :
    (f.session.headerInt FIELD_METHOD = MSG_CONNECT ∧ ∃ s' : Session, ∃ packet, s'.Ready ∧
      packet = ((connectResp env.now ERR_OK 1).sent T).wire T ∧
      left = (.ok ERR_OK, ⟨s', f.ops ++ [.write packet], f.closed,
        f.events ++ [.enteredBody, f.session.bodyWindow,
          .connected (dataAt fields' 9) (dataAt fields' 11), .armed .sendPacket (.write packet)]⟩)) ∨
    (f.session.headerInt FIELD_METHOD = MSG_DISCONNECT ∧ (env.connected = true →
      left = (.ok 0, { f with
        closed := true
        events := f.events ++ [.enteredBody, f.session.bodyWindow] }))) := by
  have hsame {fields₁ : List Field} {r : Except Fault (Int × List Field)}
      (htable₁ : f.session.bodyTable env.now = some fields₁)
      (hdecode₁ : f.session.decodeBody T fields₁ = r) : r = .ok (ERR_OK, fields') := by
    rw [← hdecode₁, ← hdecode, Option.some.inj (htable₁.symm.trans htable)]
  cases h with
  | unhandled htable₁ => cases htable₁.symm.trans htable
  | undecoded fields₁ fields'₁ code htable₁ hdecode₁ hcode =>
    cases hsame htable₁ hdecode₁
    exact absurd rfl hcode
  | faulted fields₁ fault htable₁ hdecode₁ => cases hsame htable₁ hdecode₁
  | replied fields₁ fields'₁ packet hmethod htable₁ hdecode₁ hpacket =>
    cases hsame htable₁ hdecode₁
    refine .inl ⟨hmethod, _, packet, ?_, hpacket, rfl⟩
    exact ⟨hready.headerSize, hready.packetHeader, hready.storage⟩
  | disconnected fields₁ fields'₁ hmethod htable₁ hdecode₁ henv => exact .inr ⟨hmethod, fun _ => rfl⟩
  | gone fields₁ fields'₁ hmethod htable₁ hdecode₁ henv =>
    exact .inr ⟨hmethod, fun hconnected => by cases henv.symm.trans hconnected⟩

/-- A connect request is reported, and answered. -/
theorem dispatch_connect (r : ConnectRequest) (hs : s.Expects r.table r.host) (env : Env) :
    ∃ s' evs packet, packet = ((connectResp env.now ERR_OK 1).sent T).wire T ∧
      dispatch T env (.read 0 ((r.table.sent r.host).bodyWire r.host).length)
          (.received ((r.table.sent r.host).bodyWire r.host)) (.init s) =
        (.ok (), ⟨s', [.write packet], false, evs⟩) ∧
      s'.Ready ∧ received evs = (r.table.sent r.host).bodyWire r.host ∧
      spoken evs = [.connected (charArray 1024 (cString r.clientname))
        (charArray 1024 (cString r.processname)), .armed .sendPacket (.write packet)] := by
  obtain ⟨s₁, hs₁, hrun⟩ := dispatch_body (T := T) r.marked hs env
  have hmethod : s₁.headerInt FIELD_METHOD = MSG_CONNECT :=
    hs₁.headerInt (i := FIELD_METHOD) (by decide) rfl
  obtain ⟨hs, rd, hhs, hgood, hrest, hdecode⟩ := hs₁.decodeBody r.size_lt T
    (show FIELD_BMARK ≤ (msgConnectFields env.now nameBuffer nameBuffer).length from
      show 7 ≤ 14 by decide)
  obtain ⟨rd', fields', hbody, hclient, hprocess⟩ :=
    connectRequest_decoded (T := T) r env.now hhs hgood hrest
  rw [hbody, ok_bind] at hdecode
  rw [hrun]
  set f : Frame := Frame.looked ⟨s₁, [], false, [.received ((r.table.sent r.host).bodyWire r.host)]⟩
    with hf
  have hready₁ : f.session.Ready := hs₁.ready
  have hhandled : BodyHandled T env f (handlePacketBody T env f) := handlePacketBody_handled hready₁
  rcases hhandled.decoded hready₁ (if_pos hmethod) hdecode with
    ⟨-, s', packet, hready, hpacket, hleft⟩ | ⟨hother, -⟩
  · refine ⟨s', _, packet, hpacket, by rw [hleft]; rfl, hready, List.append_nil _, ?_⟩
    rw [← hclient, ← hprocess]
    rfl
  · cases hmethod.symm.trans hother

/-- A request to disconnect closes the session. -/
theorem dispatch_disconnect (r : DisconnectRequest) (hs : s.Expects r.table r.host) {env : Env}
    (hconnected : env.connected = true) :
    ∃ s' evs, dispatch T env (.read 0 ((r.table.sent r.host).bodyWire r.host).length)
          (.received ((r.table.sent r.host).bodyWire r.host)) (.init s) =
        (.ok (), ⟨s', [], true, evs⟩) ∧
      received evs = (r.table.sent r.host).bodyWire r.host ∧ spoken evs = [] := by
  obtain ⟨s₁, hs₁, hrun⟩ := dispatch_body (T := T) (t := r.table) ⟨rfl, rfl⟩ hs env
  have hmethod : s₁.headerInt FIELD_METHOD = MSG_DISCONNECT :=
    hs₁.headerInt (i := FIELD_METHOD) (by decide) rfl
  have hconnect : s₁.headerInt FIELD_METHOD ≠ MSG_CONNECT := by
    rw [hmethod]
    decide
  obtain ⟨hs, rd, hhs, hgood, hrest, hdecode⟩ := hs₁.decodeBody
    (by rw [DisconnectRequest.table, size_disconnectReq]; decide) T
    (show FIELD_BMARK ≤ (msgDisconnectFields env.now).length from show 7 ≤ 10 by decide)
  obtain ⟨rd', fields', hbody⟩ := disconnectRequest_decoded (T := T) r env.now hhs hgood hrest
  rw [hbody, ok_bind] at hdecode
  have htable : s₁.bodyTable env.now = some (msgDisconnectFields env.now) := by
    rw [Session.bodyTable, if_neg hconnect, if_pos hmethod]
  rw [hrun]
  set f : Frame := Frame.looked ⟨s₁, [], false, [.received ((r.table.sent r.host).bodyWire r.host)]⟩
    with hf
  have hready₁ : f.session.Ready := hs₁.ready
  have hhandled : BodyHandled T env f (handlePacketBody T env f) := handlePacketBody_handled hready₁
  rcases hhandled.decoded hready₁ htable hdecode with ⟨hother, -⟩ | ⟨-, hleft⟩
  · exact absurd hother hconnect
  · exact ⟨_, _, by rw [hleft hconnected]; rfl, List.append_nil _, rfl⟩

end Dispatch

/-! ### The traffic -/

/-- Requests of one peer, sent back to back. -/
structure Traffic where
  requests : List ConnectRequest
  disconnect : Option DisconnectRequest

def packets (requests : List ConnectRequest) : List UInt8 := requests.flatMap (·.packet)

@[simp] theorem packets_append (rs rs' : List ConnectRequest) :
    packets (rs ++ rs') = packets rs ++ packets rs' := List.flatMap_append

@[simp] theorem packets_cons (r : ConnectRequest) (rs : List ConnectRequest) :
    packets (r :: rs) = r.packet ++ packets rs := List.flatMap_cons

@[simp] theorem packets_nil : packets [] = [] := rfl

/-- The whole of an operation completes, while the peer is connected. -/
structure Label.Complete (i : Label) : Prop where
  whole : i.Whole
  succeeds : i.result ≠ .failed
  connected : i.env.connected = true

/-- A whole completion of a connection whose peer sends the bytes. -/
structure Fed (T : Target) (sent : List UInt8) (c : Conn) (i : Label) (c' : Conn) : Prop where
  step : Step T c i c'
  complete : i.Complete
  sent : received c'.trace <+: sent

/-- What was received stays received. -/
theorem Step.received_grows {T : Target} {c c' : Conn} {i : Label} (h : Step T c i c') :
    received c.trace <+: received c'.trace := by
  rw [h.eq]
  change received c.trace <+: received (c.trace ++ _)
  rw [received_append]
  exact List.prefix_append _ _

theorem received_run {T : Target} {c c' : Conn} {log : List (Conn × Label)}
    (hrun : Run (Step T) c log c') : received c.trace <+: received c'.trace := by
  induction hrun with
  | nil => exact List.prefix_refl _
  | snoc hrun hstep ih => exact ih.trans hstep.received_grows

/-- The closings of a run. -/
def closings (T : Target) (log : List (Conn × Label)) : Nat :=
  log.countP fun p => (dispatch T p.2.env p.2.op p.2.result (.init p.1.session)).2.closed

namespace Traffic

variable (tr : Traffic)

def bytes : List UInt8 := packets tr.requests ++ tr.disconnect.elim [] (·.packet)

/-- A header, a body and a response for each request to connect, and a header and a body for
the other. -/
def completions : Nat := 3 * tr.requests.length + if tr.disconnect.isSome then 2 else 0

end Traffic

/-- What a session has said is one report and one granting response for each request, in order. -/
inductive Answered : List ConnectRequest → List Event → Prop where
  | nil : Answered [] []
  | snoc {requests : List ConnectRequest} {events : List Event} (h : Answered requests events)
      (r : ConnectRequest) (packet : List UInt8) (hgrants : Grants packet) :
      Answered (requests ++ [r]) (events ++
        [.connected (charArray 1024 (cString r.clientname)) (charArray 1024 (cString r.processname)),
          .armed .sendPacket (.write packet)])

/-- All of the traffic was served. -/
structure Traffic.Served (tr : Traffic) (T : Target) (log : List (Conn × Label)) (c : Conn) :
    Prop where
  returned : c.exit = none
  received : received c.trace = tr.bytes
  answered : Answered tr.requests (spoken c.trace)
  pending : c.pending = if tr.disconnect.isSome then [] else [.read 0 32]
  closed : c.closed = tr.disconnect.isSome
  closings : closings T log = if tr.disconnect.isSome then 1 else 0

/-! ### Stages -/

/-- What a connection waits for after some completions of the traffic. -/
inductive Traffic.Stage (tr : Traffic) (c : Conn) : Nat → Prop where
  | header (done rest : List ConnectRequest) (hrequests : tr.requests = done ++ rest)
      (hpending : c.pending = [.read 0 32]) (hready : c.session.Ready)
      (hreceived : received c.trace = packets done) (hanswered : Answered done (spoken c.trace)) :
      Stage tr c (3 * done.length)
  | body (done rest : List ConnectRequest) (r : ConnectRequest)
      (hrequests : tr.requests = done ++ r :: rest)
      (hpending : c.pending = [.read 0 ((r.table.sent r.host).bodyWire r.host).length])
      (hexpects : c.session.Expects r.table r.host)
      (hreceived : received c.trace = packets done ++ (r.table.sent r.host).headerWire r.host)
      (hanswered : Answered done (spoken c.trace)) : Stage tr c (3 * done.length + 1)
  | reply (done rest : List ConnectRequest) (r : ConnectRequest) (packet : List UInt8)
      (hrequests : tr.requests = done ++ r :: rest) (hpending : c.pending = [.write packet])
      (hready : c.session.Ready) (hreceived : received c.trace = packets (done ++ [r]))
      (hanswered : Answered (done ++ [r]) (spoken c.trace)) : Stage tr c (3 * done.length + 2)
  | closing (r : DisconnectRequest) (hdisconnect : tr.disconnect = some r)
      (hpending : c.pending = [.read 0 ((r.table.sent r.host).bodyWire r.host).length])
      (hexpects : c.session.Expects r.table r.host)
      (hreceived : received c.trace = packets tr.requests ++ (r.table.sent r.host).headerWire r.host)
      (hanswered : Answered tr.requests (spoken c.trace)) : Stage tr c (3 * tr.requests.length + 1)
  | closed (r : DisconnectRequest) (hdisconnect : tr.disconnect = some r) (hpending : c.pending = [])
      (hclosed : c.closed = true) (hreceived : received c.trace = tr.bytes)
      (hanswered : Answered tr.requests (spoken c.trace)) : Stage tr c (3 * tr.requests.length + 2)

/-! ### What a whole read brings -/

theorem received_inspected {T : Target} {env : Env} {f : Frame} {left : Except Exit Unit × Frame}
    (h : Inspected T env f left) : received left.2.events = received f.events := by
  have happend {evs : List Event} (hevs : received evs = []) :
      received (f.events ++ evs) = received f.events := by
    rw [received_append, hevs, List.append_nil]
  cases h with
  | unknown hhead hbody => rfl
  | header hmark hheader => cases hheader <;> exact happend rfl
  | body hmark hbody => cases hbody <;> exact happend rfl

theorem Dispatched.brings {T : Target} {i : Label} {s : Session} {left : Except Exit Unit × Frame}
    (h : Dispatched T i s left) {bs : List UInt8} (hresult : i.result = .received bs) :
    received left.2.events = bs := by
  have hends {evs : List Event} (hends : i.Ends evs) : received evs = bs := by
    cases hends with
    | failed hfailed => cases hfailed.symm.trans hresult
    | nothing offset hop hnothing =>
      cases hnothing.symm.trans hresult
      rfl
  cases h with
  | closed s' evs h henv => exact hends h
  | gone s' evs h henv => exact hends h
  | partly offset length bs' s' hop hresult' hpos hlt hs' =>
    cases hresult'.symm.trans hresult
    exact List.append_nil bs
  | whole offset length bs' s' hop hresult' hpos hlen hs' hinspected =>
    cases hresult'.symm.trans hresult
    rw [received_inspected hinspected]
    exact List.append_nil bs
  | written packet hop hwritten => cases hwritten.symm.trans hresult

namespace Fed

variable {T : Target} {sent : List UInt8} {c c' : Conn} {i : Label}

/-- A read receives as much as it asked for. -/
theorem brings (h : Fed T sent c i c') (hc : c.Inv) {n : Nat} (hpending : c.pending = [.read 0 n]) :
    ∃ bs, bs.length = n ∧ received c'.trace = received c.trace ++ bs ∧
      c' = .leave c.trace (dispatch T i.env (.read 0 n) (.received bs) (.init c.session)) := by
  obtain ⟨hop, left, hdispatched, hleave⟩ := h.step.cases hc
  obtain hop : i.op = .read 0 n := by simpa [hpending, eq_comm] using hop
  have hvalid := h.step.valid
  cases hresult : i.result with
  | received bs =>
    refine ⟨bs, h.complete.whole _ _ _ hop hresult, ?_, ?_⟩
    · rw [hleave, Conn.leave_trace, received_append, hdispatched.brings hresult]
    · rw [(h.step.eq_leave hc).2, hop, hresult]
  | written =>
    rw [hop, hresult] at hvalid
    exact hvalid.elim
  | failed => exact absurd hresult h.complete.succeeds

/-- A read of the length of what is sent next receives it. -/
theorem read (h : Fed T sent c i c') (hc : c.Inv) {piece : List UInt8}
    (hpending : c.pending = [.read 0 piece.length])
    (hsent : received c.trace ++ piece <+: sent) :
    c' = .leave c.trace
      (dispatch T i.env (.read 0 piece.length) (.received piece) (.init c.session)) := by
  obtain ⟨bs, hlength, hreceived, hleave⟩ := h.brings hc hpending
  have hbytes := h.sent
  rw [hreceived] at hbytes
  have hsame : received c.trace ++ bs = received c.trace ++ piece :=
    (List.prefix_of_prefix_length_le hbytes hsent (by simp [hlength])).eq_of_length
      (by simp [hlength])
  rw [hleave, List.append_cancel_left hsame]

theorem write (h : Fed T sent c i c') (hc : c.Inv) {packet : List UInt8}
    (hpending : c.pending = [.write packet]) :
    c' = .leave c.trace (dispatch T i.env (.write packet) .written (.init c.session)) := by
  obtain ⟨hop, heq⟩ := h.step.eq_leave hc
  obtain hop : i.op = .write packet := by simpa [hpending, eq_comm] using hop
  have hvalid := h.step.valid
  cases hresult : i.result with
  | received bs =>
    rw [hop, hresult] at hvalid
    exact hvalid.elim
  | written => rw [heq, hop, hresult]
  | failed => exact absurd hresult h.complete.succeeds

/-- A header that is expected brings a body. -/
theorem header (h : Fed T sent c i c') (hc : c.Inv) {t : MsgTable} {H : Target} (ht : t.Marked)
    (hsize : t.size < 2 ^ 31) (hpending : c.pending = [.read 0 32]) (hready : c.session.Ready)
    (hsent : received c.trace ++ (t.sent H).headerWire H <+: sent) :
    c'.pending = [.read 0 ((t.sent H).bodyWire H).length] ∧ c'.exit = none ∧
      c'.session.Expects t H ∧ received c'.trace = received c.trace ++ (t.sent H).headerWire H ∧
      spoken c'.trace = spoken c.trace := by
  have hheader := (t.sent H).length_headerWire H
  have heq := h.read hc (by rw [hheader]; exact hpending) hsent
  obtain ⟨s', evs, hdispatch, hexpects, hevs, hspoken⟩ :=
    dispatch_header (T := T) (H := H) ht hsize hready i.env
  rw [hheader, hdispatch] at heq
  rw [heq]
  refine ⟨rfl, rfl, hexpects, ?_, ?_⟩
  · rw [Conn.leave_trace, received_append, hevs]
  · rw [Conn.leave_trace, spoken_append, hspoken, List.append_nil]

end Fed

namespace Traffic

variable {tr : Traffic} {T : Target} {c c' : Conn} {i : Label}

theorem bytes_of_requests {done rest : List ConnectRequest} {r : ConnectRequest}
    (h : tr.requests = done ++ r :: rest) :
    packets done ++ (r.table.sent r.host).headerWire r.host ++
      (r.table.sent r.host).bodyWire r.host <+: tr.bytes := by
  have hbytes : tr.bytes = packets done ++ (r.table.sent r.host).headerWire r.host ++
      (r.table.sent r.host).bodyWire r.host ++ (packets rest ++ tr.disconnect.elim [] (·.packet)) := by
    simp only [bytes, h, packets_append, packets_cons, ConnectRequest.packet, wire, List.append_assoc]
  rw [hbytes]
  exact List.prefix_append _ _

theorem bytes_of_disconnect {r : DisconnectRequest} (h : tr.disconnect = some r) :
    tr.bytes = packets tr.requests ++ (r.table.sent r.host).headerWire r.host ++
      (r.table.sent r.host).bodyWire r.host := by
  rw [bytes, h, List.append_assoc]
  rfl

/-- **Each completion leads to the next stage.** -/
theorem Stage.next {n : Nat} (h : tr.Stage c n) (hc : c.Inv) (hnext : Fed T tr.bytes c i c') :
    tr.Stage c' (n + 1) ∧ c'.exit = none := by
  cases h with
  | header done rest hrequests hpending hready hreceived hanswered =>
    rcases rest with _ | ⟨r, rest⟩
    · rw [List.append_nil] at hrequests
      subst hrequests
      obtain ⟨r, hdisconnect⟩ : ∃ r, tr.disconnect = some r := by
        cases hdisconnect : tr.disconnect with
        | none =>
          -- nothing is left to read
          obtain ⟨bs, hlength, hbs, -⟩ := hnext.brings hc hpending
          have hsent := hnext.sent.length_le
          simp [hbs, hreceived, bytes, hdisconnect, hlength] at hsent
        | some r => exact ⟨r, rfl⟩
      have hsent : received c.trace ++ (r.table.sent r.host).headerWire r.host <+: tr.bytes := by
        rw [hreceived, bytes_of_disconnect hdisconnect]
        exact List.prefix_append _ _
      obtain ⟨hpending', hexit, hexpects, hreceived', hspoken⟩ := hnext.header hc (t := r.table)
        ⟨rfl, rfl⟩ (by rw [DisconnectRequest.table, size_disconnectReq]; decide) hpending hready hsent
      rw [hreceived] at hreceived'
      rw [← hspoken] at hanswered
      exact ⟨.closing r hdisconnect hpending' hexpects hreceived' hanswered, hexit⟩
    · have hsent : received c.trace ++ (r.table.sent r.host).headerWire r.host <+: tr.bytes := by
        rw [hreceived]
        exact (List.prefix_append _ _).trans (bytes_of_requests hrequests)
      obtain ⟨hpending', hexit, hexpects, hreceived', hspoken⟩ := hnext.header hc r.marked r.size_lt
        hpending hready hsent
      rw [hreceived] at hreceived'
      rw [← hspoken] at hanswered
      exact ⟨.body done rest r hrequests hpending' hexpects hreceived' hanswered, hexit⟩
  | body done rest r hrequests hpending hexpects hreceived hanswered =>
    obtain ⟨s', evs, packet, hpacket, hdispatch, hready', hevs, hspoken⟩ :=
      dispatch_connect (T := T) r hexpects i.env
    obtain rfl := hnext.read hc hpending (by rw [hreceived]; exact bytes_of_requests hrequests)
    rw [hdispatch]
    refine ⟨.reply done rest r packet hrequests rfl hready' ?_ ?_, rfl⟩
    · rw [Conn.leave_trace, received_append, hreceived, hevs, packets_append, packets_cons,
        packets_nil, List.append_nil, List.append_assoc]
      rfl
    · rw [Conn.leave_trace, spoken_append, hspoken]
      exact .snoc hanswered r packet (by rw [hpacket]; exact connectResp_grants _ _)
  | reply done rest r packet hrequests hpending hready hreceived hanswered =>
    have heq := hnext.write hc hpending
    rw [dispatch_written hready] at heq
    rw [heq]
    have hlength : 3 * done.length + 2 + 1 = 3 * (done ++ [r]).length := by
      rw [List.length_append, List.length_singleton]
      omega
    rw [hlength]
    refine ⟨.header (done ++ [r]) rest ?_ rfl hready ?_ ?_, rfl⟩
    · rw [hrequests, List.append_assoc]
      rfl
    · rw [Conn.leave_trace, received_append, hreceived]
      exact List.append_nil _
    · rw [Conn.leave_trace, spoken_append]
      exact (List.append_nil (spoken c.trace)).symm ▸ hanswered
  | closing r hdisconnect hpending hexpects hreceived hanswered =>
    obtain ⟨s', evs, hdispatch, hevs, hspoken⟩ :=
      dispatch_disconnect (T := T) r hexpects hnext.complete.connected
    obtain rfl := hnext.read hc hpending
      ⟨[], by rw [List.append_nil, hreceived, bytes_of_disconnect hdisconnect]⟩
    rw [hdispatch]
    refine ⟨.closed r hdisconnect rfl rfl ?_ ?_, rfl⟩
    · rw [Conn.leave_trace, received_append, hreceived, hevs, bytes_of_disconnect hdisconnect]
    · rw [Conn.leave_trace, spoken_append, hspoken, List.append_nil]
      exact hanswered
  | closed r hdisconnect hpending hclosed hreceived hanswered =>
    have hmem := hnext.step.pending
    rw [hpending] at hmem
    cases hmem

/-- Where a whole read can bring what is sent next, the run goes on. -/
theorem exists_next_read (T : Target) (hc : c.Inv) (hexit : c.exit = none) {piece : List UInt8}
    (hpending : c.pending = [.read 0 piece.length]) (hsent : received c.trace ++ piece <+: tr.bytes) :
    ∃ i c', Fed T tr.bytes c i c' := by
  have hstep : Step T c ⟨.read 0 piece.length, .received piece, ⟨0, true⟩⟩ _ :=
    ⟨hexit, by rw [hpending]; exact List.mem_singleton.mpr rfl,
      ⟨le_rfl, fun hnil => by rw [hnil]; rfl⟩, rfl⟩
  obtain ⟨-, left, hdispatched, hleave⟩ := hstep.cases hc
  refine ⟨_, _, hstep, ⟨?_, by simp, rfl⟩, ?_⟩
  · intro offset length bs hop hresult
    cases hop
    cases hresult
    rfl
  · rw [hleave, Conn.leave_trace, received_append, hdispatched.brings rfl]
    exact hsent

theorem Stage.le {n : Nat} (h : tr.Stage c n) : n ≤ tr.completions := by
  have hsome {r : DisconnectRequest} (hdisconnect : tr.disconnect = some r) :
      tr.completions = 3 * tr.requests.length + 2 := by rw [completions, hdisconnect]; rfl
  cases h with
  | header done rest hrequests hpending hready hreceived hanswered =>
    rw [completions, hrequests, List.length_append]
    omega
  | body done rest r hrequests hpending hexpects hreceived hanswered =>
    rw [completions, hrequests, List.length_append, List.length_cons]
    omega
  | reply done rest r packet hrequests hpending hready hreceived hanswered =>
    rw [completions, hrequests, List.length_append, List.length_cons]
    omega
  | closing r hdisconnect hpending hexpects hreceived hanswered =>
    rw [hsome hdisconnect]
    omega
  | closed r hdisconnect hpending hclosed hreceived hanswered => exact (hsome hdisconnect).ge

/-- Once a request was received, it was answered. -/
theorem Stage.answered {n : Nat} (h : tr.Stage c n) (hdisconnect : tr.disconnect = none)
    (hall : received c.trace = tr.bytes) : Answered tr.requests (spoken c.trace) := by
  have hlong (t : MsgTable) (H : Target) : ((t.sent H).bodyWire H).length ≠ 0 := by
    have hbody := t.bodySize_ge
    have hlength := (t.sent H).length_bodyWire H
    rw [bodySize_sent] at hlength
    omega
  have hbytes : tr.bytes = packets tr.requests := by rw [bytes, hdisconnect]; exact List.append_nil _
  rw [hbytes] at hall
  cases h with
  | header done rest hrequests hpending hready hreceived hanswered =>
    rw [hreceived, hrequests, packets_append] at hall
    rcases rest with _ | ⟨r, rest⟩
    · rw [hrequests, List.append_nil]
      exact hanswered
    · have hlength := congrArg List.length hall
      simp only [packets_cons, ConnectRequest.packet, wire, List.length_append] at hlength
      exact absurd (by omega) (hlong r.table r.host)
  | body done rest r hrequests hpending hexpects hreceived hanswered =>
    rw [hreceived, hrequests, packets_append] at hall
    have hlength := congrArg List.length hall
    simp only [packets_cons, ConnectRequest.packet, wire, List.length_append] at hlength
    exact absurd (by omega) (hlong r.table r.host)
  | reply done rest r packet hrequests hpending hready hreceived hanswered =>
    rw [hreceived, hrequests, packets_append, packets_append] at hall
    rcases rest with _ | ⟨r', rest⟩
    · rw [hrequests]
      exact hanswered
    · have hlength := congrArg List.length hall
      simp only [packets_cons, packets_nil, ConnectRequest.packet, wire, List.length_append,
        List.length_nil] at hlength
      exact absurd (by omega) (hlong r'.table r'.host)
  | closing r hsome hpending hexpects hreceived hanswered => cases hsome.symm.trans hdisconnect
  | closed r hsome hpending hclosed hreceived hanswered => cases hsome.symm.trans hdisconnect

/-- A stage that a run cannot go on from is the last one. -/
inductive Stage.Last (tr : Traffic) (c : Conn) : Prop where
  | waiting (hdisconnect : tr.disconnect = none) (hpending : c.pending = [.read 0 32])
      (hreceived : received c.trace = tr.bytes) (hanswered : Answered tr.requests (spoken c.trace))
  | closed (hdisconnect : tr.disconnect.isSome) (hpending : c.pending = []) (hclosed : c.closed = true)
      (hreceived : received c.trace = tr.bytes) (hanswered : Answered tr.requests (spoken c.trace))

/-- **A run that cannot go on** has served the traffic. -/
theorem Stage.last {n : Nat} (T : Target) (h : tr.Stage c n) (hc : c.Inv) (hexit : c.exit = none)
    (hstuck : ∀ i c', ¬ Fed T tr.bytes c i c') : Last tr c := by
  have hread {piece : List UInt8} (hpending : c.pending = [.read 0 piece.length]) :
      ¬ received c.trace ++ piece <+: tr.bytes := by
    intro hsent
    obtain ⟨i, c', hnext⟩ := exists_next_read T hc hexit hpending hsent
    exact hstuck i c' hnext
  cases h with
  | header done rest hrequests hpending hready hreceived hanswered =>
    have hheader (t : MsgTable) (H : Target) :
        ¬ received c.trace ++ (t.sent H).headerWire H <+: tr.bytes :=
      hread (by rw [(t.sent H).length_headerWire]; exact hpending)
    rcases rest with _ | ⟨r, rest⟩
    · rw [List.append_nil] at hrequests
      subst hrequests
      cases hdisconnect : tr.disconnect with
      | none =>
        exact .waiting hdisconnect hpending (by rw [hreceived, bytes, hdisconnect]; simp) hanswered
      | some r =>
        refine absurd ?_ (hheader r.table r.host)
        rw [hreceived, bytes_of_disconnect hdisconnect]
        exact List.prefix_append _ _
    · refine absurd ?_ (hheader r.table r.host)
      rw [hreceived]
      exact (List.prefix_append _ _).trans (bytes_of_requests hrequests)
  | body done rest r hrequests hpending hexpects hreceived hanswered =>
    exact absurd (by rw [hreceived]; exact bytes_of_requests hrequests) (hread hpending)
  | reply done rest r packet hrequests hpending hready hreceived hanswered =>
    have hstep : Step T c ⟨.write packet, .written, ⟨0, true⟩⟩ _ :=
      ⟨hexit, by rw [hpending]; exact List.mem_singleton.mpr rfl, trivial, rfl⟩
    refine absurd ⟨hstep, ⟨fun _ _ _ hop => (by cases hop), by simp, rfl⟩, ?_⟩ (hstuck _ _)
    rw [(hstep.eq_leave hc).2, dispatch_written hready, Conn.leave_trace, received_append, hreceived]
    rw [packets_append, packets_cons, packets_nil, List.append_nil]
    have hbytes := bytes_of_requests hrequests
    rw [List.append_assoc] at hbytes
    exact (List.append_nil _).symm ▸ hbytes
  | closing r hdisconnect hpending hexpects hreceived hanswered =>
    exact absurd ⟨[], by rw [List.append_nil, hreceived, bytes_of_disconnect hdisconnect]⟩
      (hread hpending)
  | closed r hdisconnect hpending hclosed hreceived hanswered =>
    exact .closed (by rw [hdisconnect]; rfl) hpending hclosed hreceived hanswered

end Traffic

/-! ### Runs -/

section Runs

variable {T : Target} {now : Int} {uninit : Fin (FIELD_BMARK + 3) → Field} {s : Session} {env : Env}
  {c : Conn} {log : List (Conn × Label)}

/-- A session is closed once at most. -/
theorem Conn.closings_eq (hrun : Run (Step T) (.started env s) log c)
    (hnew : newSession now uninit = .ok s) : closings T log = if c.closed then 1 else 0 := by
  induction hrun with
  | nil =>
    have hopen : (Conn.started env s).closed = false := by
      rcases Conn.started_cases hnew env with h | ⟨w, -, h⟩ <;> rw [h] <;> rfl
    rw [hopen]
    rfl
  | @snoc log t u i hrun hstep ih =>
    have hinv : t.Inv := hrun.invariant (.started hnew env) .step
    obtain ⟨hpending, hleave⟩ := hstep.eq_leave hinv
    have hopen := hinv.closed_eq_false (by rw [hpending]; exact List.cons_ne_nil _ _)
    rw [closings, List.countP_append, ← closings, ih, hopen, hleave, Conn.leave_closed,
      List.countP_singleton]
    simp

theorem Traffic.stage_started (tr : Traffic) (hnew : newSession now uninit = .ok s)
    (hconnected : env.connected = true) :
    tr.Stage (.started env s) 0 ∧ (Conn.started env s).exit = none := by
  have hsize : s.headerSize = 32 := by
    rw [newSession_eq] at hnew
    cases hnew
    rfl
  have hheader : s.packetHeader.length = FIELD_BMARK + 3 := by
    rw [newSession_eq] at hnew
    cases hnew
    exact List.length_ofFn
  obtain ⟨w, hw, hstart⟩ := start_run hsize hconnected
  have hstarted : Conn.started env s = (Conn.accepted s).after
      (.ok (), ⟨{ s with recvBuffer := w }, [.read 0 32], false,
        [.window 0 32 32, .armed .start (.read 0 32)]⟩) := congrArg _ hstart
  rw [hstarted]
  have hready : Session.Ready { s with recvBuffer := w } :=
    ⟨hsize, hheader, hw.symm.trans_le w.size_le⟩
  exact ⟨.header [] tr.requests rfl rfl hready rfl .nil, rfl⟩

theorem Traffic.stage_run {tr : Traffic} (hnew : newSession now uninit = .ok s)
    (hconnected : env.connected = true) (hrun : Run (Fed T tr.bytes) (.started env s) log c) :
    tr.Stage c log.length ∧ c.exit = none := by
  induction hrun with
  | nil => exact tr.stage_started hnew hconnected
  | @snoc log t u i hrun hstep ih =>
    have hinv : t.Inv := (hrun.mono Fed.step).invariant (.started hnew env) .step
    rw [List.length_append, List.length_singleton]
    exact ih.1.next hinv hstep

/-- Some run comes to where it cannot go on. -/
theorem Traffic.exists_stuck (tr : Traffic) (T : Target) (hnew : newSession now uninit = .ok s)
    (hconnected : env.connected = true) :
    ∃ log c, Run (Fed T tr.bytes) (.started env s) log c ∧ ∀ i c', ¬ Fed T tr.bytes c i c' := by
  by_contra hnone
  push Not at hnone
  -- else there were runs of every length
  have hlong (n : Nat) : ∃ log c, Run (Fed T tr.bytes) (.started env s) log c ∧ log.length = n := by
    induction n with
    | zero => exact ⟨[], _, .nil, rfl⟩
    | succ n ih =>
      obtain ⟨log, c, hrun, hlength⟩ := ih
      obtain ⟨i, c', hnext⟩ := hnone log c hrun
      exact ⟨_, c', hrun.snoc hnext, by rw [List.length_append, hlength]; rfl⟩
  obtain ⟨log, c, hrun, hlength⟩ := hlong (tr.completions + 1)
  have hle := (stage_run hnew hconnected hrun).1.le
  omega

theorem Traffic.served_of_stuck {tr : Traffic} (hnew : newSession now uninit = .ok s)
    (hconnected : env.connected = true) (hrun : Run (Fed T tr.bytes) (.started env s) log c)
    (hstuck : ∀ i c', ¬ Fed T tr.bytes c i c') : tr.Served T log c := by
  obtain ⟨hstage, hexit⟩ := stage_run hnew hconnected hrun
  have hrun := hrun.mono Fed.step
  have hinv : c.Inv := hrun.invariant (.started hnew env) .step
  have hclosings := Conn.closings_eq hrun hnew
  cases hstage.last T hinv hexit hstuck with
  | waiting hdisconnect hpending hreceived hanswered =>
    have hopen : c.closed = false :=
      hinv.closed_eq_false (by rw [hpending]; exact List.cons_ne_nil _ _)
    rw [hopen] at hclosings
    exact ⟨hexit, hreceived, hanswered, by rw [hpending, hdisconnect]; rfl,
      by rw [hopen, hdisconnect]; rfl, by rw [hclosings, hdisconnect]; rfl⟩
  | closed hdisconnect hpending hclosed hreceived hanswered =>
    rw [hclosed] at hclosings
    exact ⟨hexit, hreceived, hanswered, by rw [hpending, hdisconnect]; rfl,
      by rw [hclosed, hdisconnect], by rw [hclosings, hdisconnect]⟩

/-- **A session's whole traffic.** However the completions follow one another, there are not more of
them than the traffic needs, and once none can follow all of it was served: one report and one
granting response for each request to connect, in order, and one closing for that to disconnect. -/
theorem Traffic.served (tr : Traffic) (hnew : newSession now uninit = .ok s)
    (hconnected : env.connected = true) (hrun : Run (Fed T tr.bytes) (.started env s) log c) :
    log.length ≤ tr.completions ∧ ((∀ i c', ¬ Fed T tr.bytes c i c') → tr.Served T log c) :=
  ⟨(stage_run hnew hconnected hrun).1.le, served_of_stuck hnew hconnected hrun⟩

end Runs

/-- `/bin/sh` on `localhost` connects and disconnects. -/
def Traffic.greeting : Traffic where
  requests :=
    [{ host := .build .little
       now := 7
       clientname := [0x6c, 0x6f, 0x63, 0x61, 0x6c, 0x68, 0x6f, 0x73, 0x74, 0]
       processname := [0x2f, 0x62, 0x69, 0x6e, 0x2f, 0x73, 0x68, 0]
       client_terminated := by decide
       process_terminated := by decide
       client_short := by decide
       process_short := by decide }]
  disconnect := some ⟨.build .little, 8⟩

theorem Traffic.served_greeting :
    ∃ log c, Run (Fed (.build .big) greeting.bytes) .fresh log c ∧ greeting.Served (.build .big) log c := by
  have hnew := newSession_eq 0 fun _ => ⟨0, 0, 0, none, 0⟩
  have hconnected : (Env.mk 0 true).connected = true := rfl
  obtain ⟨log, c, hrun, hstuck⟩ := greeting.exists_stuck (.build .big) hnew hconnected
  exact ⟨log, c, hrun, (greeting.served hnew rfl hrun).2 hstuck⟩

end Librtaio

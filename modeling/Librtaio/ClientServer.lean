import Librtaio.ClientNames
import Librtaio.ServerResponses

/-!
# A client and its session (`test/client_main.cpp` against the server)

The program connects, and disconnects if that was a success. Its calls and the
completions of the session it talks to follow one another in any order. The
session has received a part of what the program has written; the program has its
request written whole, and reads all it asks for from what the session has sent,
or throws when that is not there and the connection has ended.
-/

namespace Librtaio

open Bytes Exec Receive Transition MsgTable

/-! ### What `connect` makes of a response -/

section Response

variable {T T' : Target} {now : Int}

theorem response_eq (T : Target) (now : Int) : response T now =
    ((connectResp now ERR_OK 1).sent T).headerWire T ++ ((connectResp now ERR_OK 1).sent T).bodyWire T :=
  rfl

theorem length_responseBody (T : Target) (now : Int) :
    (((connectResp now ERR_OK 1).sent T).bodyWire T).length = 14 := by
  have hlength := length_response T now
  rw [response_eq, List.length_append, length_headerWire] at hlength
  omega

theorem responseBody_sent (T : Target) (now : Int) :
    ResponseBody (((connectResp now ERR_OK 1).sent T).bodyWire T) := by
  set t := (connectResp now ERR_OK 1).setBsize (connectResp now ERR_OK 1).bodySize with ht
  have hmarked : (connectResp now ERR_OK 1).Marked := ⟨rfl, rfl⟩
  have hword : ((t.sealed T).bcrc.scalarWire T .llong).length = 8 := Field.length_scalarWire _ _ _
  have hsplit : (t.sealed T).bodyWire T = t.bodyImage T ++ (t.sealed T).bcrc.scalarWire T .llong := rfl
  have hlength := length_responseBody T now
  have himage : (t.bodyImage T).length = 6 := by
    change ((t.sealed T).bodyWire T).length = 14 at hlength
    rw [hsplit, List.length_append, hword] at hlength
    omega
  refine ⟨hlength.ge, ?_, ?_⟩
  · rw [hmarked.take_bodyWire]
    decide
  · change Checked 6 ((t.sealed T).bodyWire T)
    rw [Checked, hsplit, List.take_left' himage, List.drop_left' himage,
      List.take_of_length_le hword.le]
    exact (ofNat_crc _).symm

/-- The header of a response that has arrived. -/
theorem response_header {bs rest : List UInt8} (hbs : bs <+: response T' now ++ rest)
    (hlong : 32 ≤ bs.length) :
    HeaderAccepted true bs ∧ announcedSize bs = 14 ∧ headerWord bs FIELD_METHOD = MSG_CONNECT := by
  set t := connectResp now ERR_OK 1 with ht
  have hmarked : t.Marked := ⟨rfl, rfl⟩
  have hsize : t.size < 2 ^ 31 := by rw [ht, size_connectResp]; decide
  obtain ⟨tail, htail⟩ := hbs
  have htake : bs.take 32 = (t.sent T').headerWire T' := by
    have h := congrArg (List.take 32) htail
    rw [List.take_append_of_le_length hlong, response_eq, List.append_assoc,
      List.take_left' ((t.sent T').length_headerWire T')] at h
    exact h
  refine ⟨?_, ?_, ?_⟩
  · rw [← headerAccepted_take, htake, ← List.append_nil ((t.sent T').headerWire T')]
    exact (hmarked.setBsize t.bodySize).headerAccepted T' true []
  · rw [← announcedSize_take, htake, t.announcedSize_headerWire hsize]
    rfl
  · have hword := (t.sent T').headerWord_headerWire T' (i := FIELD_METHOD) (by decide) rfl []
    rw [List.append_nil, ← htake, headerWord_take (by decide)] at hword
    exact hword

theorem recvPacket_whole (now₁ now₂ : Int) {bs rest : List UInt8}
    (hbs : bs <+: response T' now ++ rest) (hwhole : 46 ≤ bs.length) :
    (recvPacket T now₂ 10 (.init ⟨bs, []⟩ (msgConnectRespFields now₁ 0 0))).1 = .ok 0 := by
  obtain ⟨haccept, hannounced, hmethod⟩ := response_header hbs (by omega)
  have hbody : answerBody bs = ((connectResp now ERR_OK 1).sent T').bodyWire T' := by
    obtain ⟨tail, htail⟩ := hbs
    have h := congrArg (fun l => (l.drop 32).take 14) htail
    simp only [List.drop_append_of_le_length (show 32 ≤ bs.length by omega)] at h
    rw [List.take_append_of_le_length (by rw [List.length_drop]; omega), response_eq,
      List.append_assoc, List.drop_left' (length_headerWire _ _),
      List.take_left' (length_responseBody T' now)] at h
    rw [answerBody, hannounced]
    exact h
  rw [recvPacket_connect_iff]
  refine ⟨⟨by omega, haccept, ?_, ?_⟩, .inl ⟨hmethod, ?_⟩⟩
  · rw [hannounced]
    decide
  · rw [hannounced]
    omega
  · rw [hbody]
    exact responseBody_sent T' now

theorem recvPacket_cut (now₁ now₂ : Int) {bs rest : List UInt8}
    (hbs : bs <+: response T' now ++ rest) (hcut : bs.length < 46) :
    (recvPacket T now₂ 10 (.init ⟨bs, []⟩ (msgConnectRespFields now₁ 0 0))).1 =
      .error .exception := by
  have hsize := (connectResp now₁ 0 0).fieldsSize_fields
    (by rw [size_connectResp]; decide) ⟨none, some 0, none, none⟩
  rw [fields_connectResp] at hsize
  rw [recvPacket, Receiver.init, getFields_bind]
  simp only [hsize, orFault_ok, lift_ok_bind, Option.map_some, Option.getD_some]
  rcases readBuffer_cases (n := 32) (by decide) bs (msgConnectRespFields now₁ 0 0) [] with
    ⟨-, hlong, w, hw, hread⟩ | ⟨-, r, hread⟩
  · -- the header has arrived, and not all of the body
    have hlong : 32 ≤ bs.length := by exact_mod_cast hlong
    obtain ⟨haccept, hannounced, hmethod⟩ := response_header hbs hlong
    rw [bind_of_ok hread]
    rcases parseHeader_cases (T := T) now₂ 10 hlong hw
        ⟨⟨bs.drop 32, []⟩, msgConnectRespFields now₁ 0 0, []⟩ with
      ⟨-, hs, rest, p, q, hhs, hp, hvalue, hq, hret, hrun⟩ | ⟨hreject, -⟩
    · have hfields : FIELD_BMARK ≤ (msgConnectRespFields now₁ 0 0).length := by
        simp [msgConnectRespFields, msgHeader, msgTail, FIELD_BMARK]
      have hcaller : fieldAt (msgConnectRespFields now₁ 0 0) FIELD_METHOD =
          .ok (scalarField .long MSG_CONNECT) := rfl
      have hmatch := matchMethod_same hhs rest hfields hp hcaller (by rw [hvalue, hmethod]; rfl)
        ⟨bs.drop 32, []⟩ [.header w.storage]
      have hbody : recvBody T 32 10 (hs ++ rest) (announcedSize bs)
          ⟨⟨bs.drop 32, []⟩, msgConnectRespFields now₁ 0 0, [.header w.storage]⟩ = _ :=
        recvBody_matched hmatch
      refine (congrArg Prod.fst (hrun.trans hbody)).trans ?_
      rw [hannounced]
      rcases readBuffer_cases (n := 14) (by decide) (bs.drop 32)
          (hs ++ (msgConnectRespFields now₁ 0 0).drop FIELD_BMARK) [.header w.storage] with
        ⟨-, hthere, -⟩ | ⟨-, r, hread'⟩
      · rw [List.length_drop] at hthere
        omega
      · rw [bind_of_error hread']
    · exact absurd haccept hreject
  · rw [bind_of_error hread]

end Response

/-! ### The client's program -/

/-- `main` of `test/client_main.cpp`; `disconnect` of `rtdb_client` drops its result. -/
def clientMain (T : Target) (env : Connecting) (now : Int) (write : WriteSome) : Call Int := do
  let ret ← Client.connect T env
  if 0 = ret then do
    let _ ← Client.disconnect T now write
    pure 0
  else pure 0

/-- The connection's answer is these bytes, each read as it is asked for. -/
def Connecting.answered (env : Connecting) (bs : List UInt8) : Connecting :=
  { env with answer := ⟨bs, []⟩ }

/-- Where `main` is. -/
inductive Main where
  | connecting
  | connected (c : Client)
  /-- It returned, or an exception left it. -/
  | finished

/-- `main` goes on with what `connect` returned. -/
def Main.after : Except Exit Int × Client → Main
  | (.ok ret, c) => if 0 = ret then .connected c else .finished
  | (.error _, _) => .finished

theorem Main.after_error {left : Except Exit Int × Client} {exit : Exit}
    (h : left.1 = .error exit) : after left = .finished := by
  obtain ⟨result, c⟩ := left
  cases h
  rfl

theorem Main.after_zero {left : Except Exit Int × Client} (h : left.1 = .ok 0) :
    after left = .connected left.2 := by
  obtain ⟨result, c⟩ := left
  cases h
  rfl

/-- The program and the session it talks to. -/
structure Link where
  main : Main
  /-- What the client has written to the connection. -/
  written : List UInt8
  session : Conn

/-- What happens next on one of the two sides. -/
inductive Move where
  | session (i : Label)
  /-- `connect` returns, or throws, once these bytes of the session's have arrived. -/
  | returns (bs : List UInt8)
  | disconnects (now : Int) (write : WriteSome)

namespace Link

/-- `connect` has written its request, and waits. -/
def start (T : Target) (env : Connecting) (c : Conn) : Link :=
  ⟨.connecting, (Client.connect T (env.answered []) .init).2.written, c⟩

/-- The steps of the two sides; the client's build is `T` and the server's `T'`. -/
inductive Step (T T' : Target) (env : Connecting) (l : Link) : Move → Link → Prop where
  | session (i : Label) (c : Conn) (hstep : Librtaio.Step T' l.session i c)
      (hsent : received c.trace <+: l.written) : Step T T' env l (.session i) { l with session := c }
  /-- A call that has not all it reads for goes on only when the connection has ended. -/
  | returns (bs : List UInt8) (hmain : l.main = .connecting)
      (harrived : bs <+: bytesSent l.session.trace)
      (hends : (∃ code, (Client.connect T (env.answered bs) .init).1 = .ok code) ∨
        l.session.closed = true ∨ l.session.exit ≠ none) :
      Step T T' env l (.returns bs)
        { l with main := .after (Client.connect T (env.answered bs) .init) }
  | disconnects (now : Int) (write : WriteSome) (c : Client) (hmain : l.main = .connected c) :
      Step T T' env l (.disconnects now write)
        { l with
          main := .finished
          written := (Client.disconnect T now write c).2.written }

end Link

namespace Client

variable {T : Target} {env : Connecting}

theorem request_answered (h : Named env) (bs : List UInt8) :
    request (env.answered bs) ⟨h.computer, h.process⟩ = request env h := rfl

theorem Sends.answered (h : Sends T .init env) (bs : List UInt8) :
    Sends T .init (env.answered bs) where
  opens := h.opens
  reached := h.reached
  named := ⟨h.named.computer, h.named.process⟩
  whole := by
    rw [request_answered h.named bs]
    exact h.whole

/-- The client of a call of `connect` that has written its request. -/
def requested (packet : List UInt8) : Client :=
  { init with opened := true, connected := true, written := packet, attempts := [⟨packet, packet⟩] }

theorem Sends.connect_run (h : Sends T .init env) (bs : List UInt8) :
    connect T (env.answered bs) .init =
      ((recvPacket T (env.clock 2) 10 (.init ⟨bs, []⟩ (msgConnectRespFields (env.clock 1) 0 0))).1,
        requested (connectRequest T env h.named).packet) := by
  have hsends := h.answered bs
  have hrun := Client.connect_run T (env.answered bs) .init
  generalize connect T (env.answered bs) .init = left at hrun
  cases hrun with
  | thrown hclosed => exact absurd hsends.opens hclosed
  | unreached hopens hreached => cases hreached.symm.trans hsends.reached
  | unnamed hopens hreached hnamed => exact absurd hsends.named hnamed
  | short hopens hreached hnamed packet hpacket hshort =>
    subst hpacket
    exact absurd hsends.whole hshort
  | sent hopens hreached hnamed packet hpacket hwhole =>
    rw [request_answered h.named bs] at hpacket
    have hrequest : packet = (connectRequest T env h.named).packet := hpacket
    rw [← hrequest]
    rfl

/-- A disconnect that succeeds has written its request. -/
theorem disconnect_whole {packet : List UInt8} {now : Int} {write : WriteSome}
    (hwhole : (disconnect T now write (requested packet)).1 = .ok 0) :
    (disconnect T now write (requested packet)).2.written =
      packet ++ (DisconnectRequest.mk T now).packet := by
  obtain ⟨next, hnext, hrun⟩ := disconnect_run T now write (requested packet)
  rw [hrun] at hwhole ⊢
  have hrequest : next = (DisconnectRequest.mk T now).packet := hnext
  rw [← hrequest]
  by_cases hpart : (requested packet).part next write = next
  · rw [hpart]
    rfl
  · rw [if_neg hpart] at hwhole
    exact absurd (Except.ok.inj hwhole) (by decide)

/-- A write with room for the request succeeds. -/
theorem exists_disconnect (T : Target) (now : Int) (packet : List UInt8) :
    ∃ write, (disconnect T now write (requested packet)).1 = .ok 0 := by
  have hsucceeds (n : Nat) (hn : ((DisconnectRequest.mk T now).packet).length ≤ n) :
      (disconnect T now (.wrote n) (requested packet)).1 = .ok 0 := by
    obtain ⟨next, hnext, hrun⟩ := disconnect_run T now (.wrote n) (requested packet)
    have hpart : (requested packet).part next (.wrote n) = next := by
      rw [hnext]
      exact List.take_of_length_le hn
    rw [hrun, if_pos hpart]
  exact ⟨_, hsucceeds _ le_rfl⟩

end Client

/-! ### Agreement -/

namespace Link

variable {T T' : Target} {env : Connecting} {l l' : Link} {m : Move} {log : List (Link × Move)}
  {now : Int} {uninit : Fin (FIELD_BMARK + 3) → Field} {s : Session} {senv : Env}

/-- What has arrived of a session's bytes: nothing of use, or a whole response that the session has
sent behind the report of a client. -/
theorem connect_answered (hsends : Client.Sends T .init env) {events : List Event}
    (hspeech : Speech T' (spoken events)) {bs : List UInt8} (harrived : bs <+: bytesSent events) :
    (Client.connect T (env.answered bs) .init).1 = .error .exception ∨
      (Client.connect T (env.answered bs) .init).1 = .ok 0 ∧
        ∃ clientname clientprocess now rest, spoken events = .connected clientname clientprocess ::
          .armed .sendPacket (.write (response T' now)) :: rest := by
  rw [hsends.connect_run]
  by_cases hnone : packetsSent (spoken events) = []
  · -- nothing was sent
    rw [bytesSent, ← packetsSent_spoken, hnone, List.flatten_nil, List.prefix_nil] at harrived
    subst harrived
    have hempty : [] <+: response T' 0 ++ [] := List.nil_prefix
    exact .inl (recvPacket_cut _ _ hempty (by decide))
  · obtain ⟨clientname, clientprocess, now, rest, hspoken⟩ := hspeech.of_sent hnone
    have hbytes : bytesSent events = response T' now ++ (packetsSent rest).flatten := by
      rw [bytesSent, ← packetsSent_spoken, hspoken]
      rfl
    rw [hbytes] at harrived
    by_cases hwhole : 46 ≤ bs.length
    · exact .inr ⟨recvPacket_whole _ _ harrived hwhole, clientname, clientprocess, now, rest, hspoken⟩
    · exact .inl (recvPacket_cut _ _ harrived (by omega))

/-- The run of the session within a run of the link. -/
theorem session_run {c₀ : Conn} (hrun : Run (Step T T' env) (start T env c₀) log l) :
    ∃ log', Run (Librtaio.Step T') c₀ log' l.session := by
  induction hrun with
  | nil => exact ⟨[], .nil⟩
  | snoc hrun hstep ih =>
    obtain ⟨log', hrun'⟩ := ih
    cases hstep with
    | session i c hstep hsent => exact ⟨_, hrun'.snoc hstep⟩
    | returns bs hmain harrived hends => exact ⟨log', hrun'⟩
    | disconnects now write c hmain => exact ⟨log', hrun'⟩

/-- What a session does by itself, it does here, if the client has written what it receives. -/
theorem plays (l : Link) (T T' : Target) (env : Connecting) {is : List Label} (hplay : l.session.Playable T' is)
    (hsent : received (l.session.play T' is).2.trace <+: l.written) :
    ∃ log, Run (Step T T' env) l log { l with session := (l.session.play T' is).2 } := by
  induction is generalizing l with
  | nil => exact ⟨[], .nil⟩
  | cons i is ih =>
    obtain ⟨hreturned, hpending, hvalid, hrest⟩ := hplay
    have hstep : Step T T' env l (.session i) { l with session := l.session.complete T' i } :=
      .session i _ ⟨hreturned, hpending, hvalid, rfl⟩ ((received_run hrest.run).trans hsent)
    obtain ⟨log, hrun⟩ := ih { l with session := l.session.complete T' i } hrest hsent
    exact ⟨_, (Run.single hstep).trans hrun⟩

/-- The session has reported a client, and answered it. -/
def Greeted (T' : Target) (l : Link) : Prop :=
  ∃ clientname clientprocess now rest, spoken l.session.trace =
    .connected clientname clientprocess :: .armed .sendPacket (.write (response T' now)) :: rest

theorem Greeted.step (h : l.Greeted T') (hinv : l.session.Inv) (hstep : Step T T' env l m l') :
    l'.Greeted T' := by
  cases hstep with
  | session i c hstep hsent =>
    obtain ⟨clientname, clientprocess, now, rest, hspoken⟩ := h
    obtain ⟨-, hleave⟩ := hstep.eq_leave hinv
    have htrace := congrArg Conn.trace hleave
    rw [Conn.leave_trace] at htrace
    refine ⟨clientname, clientprocess, now, rest ++ spoken
      (dispatch T' i.env i.op i.result (.init l.session.session)).2.events, ?_⟩
    change spoken c.trace = _
    rw [htrace, spoken_append, hspoken]
    rfl
  | returns bs hmain harrived hends => exact h
  | disconnects now write c hmain => exact h

/-- What the two sides know of one another. -/
structure Agreed (T' : Target) (moves : List Move) (l : Link) : Prop where
  /-- A client that takes itself for connected was reported and answered. -/
  connected : ∀ c, l.main = .connected c → l.Greeted T'
  /-- A program that is over has disconnected, or its session has ended. -/
  finished : l.main = .finished → (l.Greeted T' ∧ ∃ now write, .disconnects now write ∈ moves) ∨
    l.session.closed = true ∨ l.session.exit ≠ none

/-! ### Completion -/

/-- A step in which a session's operation completes whole, and a disconnect is written whole. -/
structure Carries (T T' : Target) (env : Connecting) (l : Link) (m : Move) (l' : Link) : Prop where
  step : Step T T' env l m l'
  complete : ∀ i, m = .session i → i.Complete
  whole : ∀ now write c, m = .disconnects now write → l.main = .connected c →
    (Client.disconnect T now write c).1 = .ok 0

/-- How far the program has come, and what it has sent. -/
inductive Sent (T : Target) (r : ConnectRequest) (l : Link) : Traffic → Nat → Prop where
  | connecting (hmain : l.main = .connecting) (hwritten : l.written = r.packet) :
      Sent T r l ⟨[r], none⟩ 0
  | connected (hmain : l.main = .connected (Client.requested r.packet))
      (hwritten : l.written = r.packet) : Sent T r l ⟨[r], none⟩ 1
  | finished (now : Int) (hmain : l.main = .finished)
      (hwritten : l.written = r.packet ++ (DisconnectRequest.mk T now).packet) :
      Sent T r l ⟨[r], some ⟨T, now⟩⟩ 2

theorem Sent.written {r : ConnectRequest} {tr : Traffic} {n : Nat} (h : Sent T r l tr n) :
    l.written = tr.bytes := by
  cases h with
  | connecting hmain hwritten => simp [hwritten, Traffic.bytes]
  | connected hmain hwritten => simp [hwritten, Traffic.bytes]
  | finished now hmain hwritten => simp [hwritten, Traffic.bytes]

theorem Sent.requests {r : ConnectRequest} {tr : Traffic} {n : Nat} (h : Sent T r l tr n) :
    tr.requests = [r] := by
  cases h <;> rfl

/-- The program's part does not change with the session. -/
theorem Sent.of_session {r : ConnectRequest} {tr : Traffic} {n : Nat} (h : Sent T r l tr n)
    (c : Conn) : Sent T r { l with session := c } tr n := by
  cases h with
  | connecting hmain hwritten => exact .connecting hmain hwritten
  | connected hmain hwritten => exact .connected hmain hwritten
  | finished now hmain hwritten => exact .finished now hmain hwritten

/-- A session that has not been sent a disconnect is open. -/
theorem open_of_stage {tr : Traffic} {n : Nat} {c : Conn} (hstage : tr.Stage c n) (hc : c.Inv)
    (hdisconnect : tr.disconnect = none) : c.closed = false := by
  have hpending : c.pending ≠ [] := by
    cases hstage with
    | header done rest hrequests hpending hready hreceived hanswered => simp [hpending]
    | body done rest r hrequests hpending hexpects hreceived hanswered => simp [hpending]
    | reply done rest r packet hrequests hpending hready hreceived hanswered => simp [hpending]
    | closing r hsome hpending hexpects hreceived hanswered => simp [hpending]
    | closed r hsome hpending hclosed hreceived hanswered => cases hsome.symm.trans hdisconnect
  exact hc.closed_eq_false hpending

/-- The program's traffic, and the run of the session that receives it. -/
theorem sent_run (hsends : Client.Sends T .init env) (hnew : newSession now uninit = .ok s)
    (hconnected : senv.connected = true)
    (hrun : Run (Carries T T' env) (start T env (.started senv s)) log l) :
    ∃ tr n log', Sent T (Client.connectRequest T env hsends.named) l tr n ∧
      Run (Fed T' tr.bytes) (.started senv s) log' l.session ∧ log.length = log'.length + n := by
  set r := Client.connectRequest T env hsends.named with hr
  induction hrun with
  | nil =>
    refine ⟨_, 0, [], .connecting rfl ?_, .nil, rfl⟩
    rw [start, hsends.connect_run]
    rfl
  | @snoc log t u m hrun hstep ih =>
    obtain ⟨tr, n, log', hsent, hsession, hlength⟩ := ih
    have hspeech := Conn.speech_run hnew (hsession.mono Fed.step)
    have hinv : t.session.Inv := (hsession.mono Fed.step).invariant (.started hnew senv) .step
    obtain ⟨hstage, hexit⟩ := Traffic.stage_run hnew hconnected hsession
    rw [List.length_append, List.length_singleton]
    cases hstep.step with
    | session i c hnext hbytes =>
      rw [hsent.written] at hbytes
      refine ⟨tr, n, _, hsent.of_session c, hsession.snoc ⟨hnext, hstep.complete i rfl, hbytes⟩, ?_⟩
      rw [List.length_append, List.length_singleton]
      omega
    | returns bs hmain harrived hends =>
      cases hsent with
      | connecting _ hwritten =>
        rcases connect_answered hsends hspeech harrived with hthrown | ⟨hok, -⟩
        · -- the session is there
          exfalso
          rcases hends with ⟨code, hcode⟩ | hclosed | hleft
          · cases hthrown.symm.trans hcode
          · exact absurd hclosed (by simp [open_of_stage hstage hinv rfl])
          · exact hleft hexit
        · refine ⟨_, 1, log', .connected ?_ hwritten, hsession, by omega⟩
          rw [Main.after_zero hok, hsends.connect_run]
      | connected hmain' hwritten => cases hmain'.symm.trans hmain
      | finished now hmain' hwritten => cases hmain'.symm.trans hmain
    | disconnects now write c hmain =>
      have hwhole := hstep.whole now write c rfl hmain
      cases hsent with
      | connecting hmain' hwritten => cases hmain'.symm.trans hmain
      | connected hmain' hwritten =>
        cases hmain'.symm.trans hmain
        have hover : Sent T r _ _ 2 := .finished (l := ⟨.finished, _, t.session⟩) now rfl
          (Client.disconnect_whole hwhole)
        have hgrows : (Traffic.mk [r] none).bytes <+: (Traffic.mk [r] (some ⟨T, now⟩)).bytes := by
          simp [Traffic.bytes]
        exact ⟨_, 2, log', hover,
          hsession.mono fun h => ⟨h.step, h.complete, h.sent.trans hgrows⟩, by omega⟩
      | finished now hmain' hwritten => cases hmain'.symm.trans hmain

/-- The client and the session have done with one another. -/
structure Concluded (T' : Target) (env : Connecting) (l : Link) : Prop where
  finished : l.main = .finished
  closed : l.session.closed = true
  returned : l.session.exit = none
  pending : l.session.pending = []
  received : received l.session.trace = l.written
  /-- One report of the names that the client's buffers held, and one response. -/
  spoken : ∃ now, spoken l.session.trace =
    [.connected (charArray 1024 (cString env.computer)) (charArray 1024 (cString env.process)),
      .armed .sendPacket (.write (response T' now))]

/-- What a session has said that has answered one request. -/
theorem spoken_of_answered {r : ConnectRequest} {events : List Event}
    (hanswered : Answered [r] (spoken events)) (hspeech : Speech T' (spoken events)) :
    ∃ now, spoken events = [.connected (charArray 1024 (cString r.clientname))
      (charArray 1024 (cString r.processname)), .armed .sendPacket (.write (response T' now))] := by
  obtain ⟨packet, hspoken⟩ := Client.answered_singleton hanswered
  have hsome : packetsSent (spoken events) ≠ [] := by
    rw [hspoken]
    exact List.cons_ne_nil _ _
  obtain ⟨clientname, clientprocess, now, rest, hspoken'⟩ := hspeech.of_sent hsome
  have hsame := hspoken.symm.trans hspoken'
  simp only [List.cons.injEq, Event.armed.injEq, Op.write.injEq, true_and] at hsame
  refine ⟨now, ?_⟩
  rw [hspoken, hsame.2.1]

/-- Where nothing more can happen, each has done with the other. -/
theorem concluded_of_stuck (hsends : Client.Sends T .init env) (hnew : newSession now uninit = .ok s)
    (hconnected : senv.connected = true)
    (hrun : Run (Carries T T' env) (start T env (.started senv s)) log l)
    (hstuck : ∀ m l', ¬ Carries T T' env l m l') : Concluded T' env l := by
  obtain ⟨tr, n, log', hsent, hsession, -⟩ := sent_run hsends hnew hconnected hrun
  have hspeech := Conn.speech_run hnew (hsession.mono Fed.step)
  have hidle (i : Label) (c : Conn) : ¬ Fed T' tr.bytes l.session i c := by
    intro hnext
    have hbytes := hnext.sent
    rw [← hsent.written] at hbytes
    refine hstuck (.session i) _ ⟨.session i c hnext.step hbytes, ?_, ?_⟩
    · intro j hj
      cases hj
      exact hnext.complete
    · intro now write c hm
      cases hm
  have hserved := Traffic.served_of_stuck hnew hconnected hsession hidle
  have hanswered := hserved.answered
  rw [hsent.requests] at hanswered
  obtain ⟨now', hspoken⟩ := spoken_of_answered hanswered hspeech
  cases hsent with
  | connecting hmain hwritten =>
    -- the response is there
    have hbytes : bytesSent l.session.trace = response T' now' := by
      rw [bytesSent, ← packetsSent_spoken, hspoken]
      exact List.append_nil _
    have hlong : 46 ≤ (bytesSent l.session.trace).length := by rw [hbytes, length_response]
    have harrived : bytesSent l.session.trace <+: response T' now' ++ [] := ⟨[], by rw [hbytes]⟩
    have hwhole := recvPacket_whole (T := T) (env.clock 1) (env.clock 2) harrived hlong
    have hok : (Client.connect T (env.answered (bytesSent l.session.trace)) .init).1 = .ok 0 := by
      rw [hsends.connect_run]
      exact hwhole
    refine absurd ⟨.returns _ hmain (List.prefix_refl _) (.inl ⟨0, hok⟩), ?_, ?_⟩
      (hstuck (.returns (bytesSent l.session.trace)) _)
    · intro i hi
      cases hi
    · intro now write c hm
      cases hm
  | connected hmain hwritten =>
    obtain ⟨write, hwrite⟩ := Client.exists_disconnect T 0
      (Client.connectRequest T env hsends.named).packet
    refine absurd ⟨.disconnects 0 write _ hmain, ?_, ?_⟩ (hstuck (.disconnects 0 write) _)
    · intro i hi
      cases hi
    · intro now write c hm hmain'
      cases hm
      cases hmain.symm.trans hmain'
      exact hwrite
  | finished now hmain hwritten =>
    exact ⟨hmain, hserved.closed, hserved.returned, hserved.pending,
      by rw [hserved.received, hwritten]; simp [Traffic.bytes], now', hspoken⟩

/-- There are at most two steps of the client and five of its session. -/
theorem length_le (hsends : Client.Sends T .init env) (hnew : newSession now uninit = .ok s)
    (hconnected : senv.connected = true)
    (hrun : Run (Carries T T' env) (start T env (.started senv s)) log l) : log.length ≤ 7 := by
  obtain ⟨tr, n, log', hsent, hsession, hlength⟩ := sent_run hsends hnew hconnected hrun
  have hle := (Traffic.stage_run hnew hconnected hsession).1.le
  cases hsent <;> simp [Traffic.completions] at hle <;> omega

/-- Some run comes to where nothing more can happen. -/
theorem exists_stuck (T' : Target) (hsends : Client.Sends T .init env)
    (hnew : newSession now uninit = .ok s) (hconnected : senv.connected = true) :
    ∃ log l, Run (Carries T T' env) (start T env (.started senv s)) log l ∧
      ∀ m l', ¬ Carries T T' env l m l' :=
  Run.exists_stuck fun _ _ hrun => length_le hsends hnew hconnected hrun

/-- **Agreement.** The client's request was written whole, and its reads return all they ask for. Then
however the session's reads and writes complete or fail, a client whose `connect` has returned 0 was
reported by the session and sent a response; and `connect` returns nothing else, unless the session
has ended. -/
theorem agreed (hsends : Client.Sends T .init env) (hnew : newSession now uninit = .ok s)
    (hrun : Run (Step T T' env) (start T env (.started senv s)) log l) : Agreed T' (labels log) l := by
  induction hrun with
  | nil => exact ⟨fun c hmain => (by cases hmain), fun hmain => (by cases hmain)⟩
  | @snoc log t u m hrun hstep ih =>
    obtain ⟨log', hsession⟩ := session_run hrun
    have hinv : t.session.Inv := hsession.invariant (.started hnew senv) .step
    have hspeech := Conn.speech_run hnew hsession
    have hkept (h : t.Greeted T') : u.Greeted T' := h.step hinv hstep
    rw [labels_snoc]
    cases hstep with
    | session i c hstep hsent =>
      refine ⟨fun c' hmain => hkept (ih.connected c' hmain), fun hmain => ?_⟩
      rcases ih.finished hmain with ⟨hgreeted, now, write, hmem⟩ | hclosed | hexit
      · exact .inl ⟨hkept hgreeted, now, write, List.mem_append_left _ hmem⟩
      · have hpending := hinv.closed hclosed
        exact absurd hstep.pending (by simp [hpending])
      · exact absurd hstep.returned hexit
    | returns bs hmain harrived hends =>
      rcases connect_answered hsends hspeech harrived with hthrown | ⟨hok, hgreeted⟩
      · have hafter := Main.after_error hthrown
        have hended := hends.resolve_left fun ⟨code, hcode⟩ => by cases hthrown.symm.trans hcode
        exact ⟨fun c hconnected => (by cases hafter.symm.trans hconnected), fun _ => .inr hended⟩
      · have hafter := Main.after_zero hok
        exact ⟨fun c hconnected => hgreeted, fun hover => (by cases hafter.symm.trans hover)⟩
    | disconnects now write c hmain =>
      exact ⟨fun c' hconnected => (by cases hconnected),
        fun _ => .inl ⟨hkept (ih.connected c hmain), now, write,
          List.mem_append_right _ (List.mem_singleton.mpr rfl)⟩⟩

/-- What a client writes that connects. -/
def firstRequest : List UInt8 :=
  (Client.connect (.build .little) ((Client.connecting []).answered []) .init).2.written

/-- Its session reads the header in two pieces and answers; then a read fails. -/
def brokenRun : List Label :=
  [ ⟨.read 0 32, .received (firstRequest.take 20), ⟨0, true⟩⟩
  , ⟨.read 20 12, .received ((firstRequest.take 32).drop 20), ⟨0, true⟩⟩
  , ⟨.read 0 35, .received (firstRequest.drop 32), ⟨5, true⟩⟩
  , ⟨.write (response (.build .big) 5), .written, ⟨6, true⟩⟩
  , ⟨.read 0 32, .failed, ⟨7, true⟩⟩ ]

/-- `connect` succeeds on what such a session has sent. -/
theorem connect_brokenRun :
    response (.build .big) 5 <+: bytesSent (Conn.fresh.play (.build .big) brokenRun).2.trace ∧
      (Client.connect (.build .little)
        ((Client.connecting []).answered (response (.build .big) 5)) .init).1 = .ok 0 :=
  ⟨by decide +kernel, by decide +kernel⟩

/-- The client disconnects from a session that is gone, and writes ten bytes of its request. -/
theorem agreed_broken : ∃ (log : List (Link × Move)) (l : Link),
    l.main = .finished ∧ l.session.closed = true ∧ Agreed (.build .big) (labels log) l := by
  have hsends := Client.connecting_sends []
  have hnew := newSession_eq 0 fun _ => ⟨0, 0, 0, none, 0⟩
  obtain ⟨harrived, hok⟩ := connect_brokenRun
  obtain ⟨log, hplayed⟩ := (start (.build .little) (Client.connecting []) .fresh).plays
    (.build .little) (.build .big) (Client.connecting [])
    (show Conn.fresh.Playable (.build .big) brokenRun by decide +kernel) (by decide +kernel)
  have hconnected := Main.after_zero hok
  have hreturned := hplayed.snoc
    (.returns (response (.build .big) 5) rfl harrived (.inl ⟨0, hok⟩))
  have hrun := hreturned.snoc (.disconnects 8 (.wrote 10) _ (by
    -- without an evaluation of `connect`
    with_reducible exact hconnected))
  exact ⟨_, _, rfl, by decide +kernel, agreed hsends hnew hrun⟩

/-- **Completion.** When the operations complete whole, the two sides take at most seven steps in any
order; once neither can go on, the client has connected and disconnected, and its session has
reported it once by the names in the client's buffers, answered it once, and closed. -/
theorem completes (hsends : Client.Sends T .init env) (hnew : newSession now uninit = .ok s)
    (hconnected : senv.connected = true)
    (hrun : Run (Carries T T' env) (start T env (.started senv s)) log l) :
    log.length ≤ 7 ∧ ((∀ m l', ¬ Carries T T' env l m l') → Concluded T' env l) :=
  ⟨length_le hsends hnew hconnected hrun, concluded_of_stuck hsends hnew hconnected hrun⟩

theorem completes_once : ∃ (log : List (Link × Move)) (l : Link),
    log.length ≤ 7 ∧ Concluded (.build .big) (Client.connecting []) l := by
  have hsends := Client.connecting_sends []
  have hnew := newSession_eq 0 fun _ => ⟨0, 0, 0, none, 0⟩
  have hconnected : (Env.mk 0 true).connected = true := rfl
  obtain ⟨log, l, hrun, hstuck⟩ := exists_stuck (.build .big) hsends hnew hconnected
  have hcompletes := completes hsends hnew hconnected hrun
  exact ⟨log, l, hcompletes.1, hcompletes.2 hstuck⟩

end Link

end Librtaio

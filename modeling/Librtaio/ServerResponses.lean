import Librtaio.SessionTraffic

/-!
# Everything a session sends

Whatever bytes a session is sent, however they arrive and whatever fails, it
sends nothing but responses that grant a connection, each right behind the
report of the client, and it sends no more than a response for every 32 bytes
it has received.
-/

namespace Librtaio

open Exec Transition MsgTable

/-! ### What is said -/

/-- The response to a request to connect. -/
def response (T : Target) (now : Int) : List UInt8 := ((connectResp now ERR_OK 1).sent T).wire T

/-- Reports of clients, each with the response to the client. -/
inductive Speech (T : Target) : List Event → Prop where
  | nil : Speech T []
  | snoc {events : List Event} (h : Speech T events) (clientname clientprocess : List UInt8)
      (now : Int) :
      Speech T (events ++
        [.connected clientname clientprocess, .armed .sendPacket (.write (response T now))])

/-- The packets that were handed to `async_write`. -/
def packetsSent (events : List Event) : List (List UInt8) :=
  events.filterMap fun
    | .armed _ (.write packet) => some packet
    | _ => none

@[simp] theorem packetsSent_append (evs evs' : List Event) :
    packetsSent (evs ++ evs') = packetsSent evs ++ packetsSent evs' := List.filterMap_append

theorem packetsSent_spoken (events : List Event) : packetsSent (spoken events) = packetsSent events := by
  rw [packetsSent, packetsSent, spoken, List.filterMap_filter]
  apply List.filterMap_congr
  intro e _
  rcases e with _ | _ | _ | _ | _ | _ | _ | ⟨site, op⟩
  all_goals try rfl
  rcases op with _ | _ <;> rfl

/-- All bytes that were sent. -/
def bytesSent (events : List Event) : List UInt8 := (packetsSent events).flatten

theorem length_response (T : Target) (now : Int) : (response T now).length = 46 := by
  have hlength := ((connectResp now ERR_OK 1).sent T).length_wire T
  rw [size_sent, size_connectResp] at hlength
  exact Int.ofNat_inj.mp hlength

namespace Speech

variable {T : Target} {events : List Event}

theorem packetsSent (h : Speech T events) :
    ∃ times : List Int, Librtaio.packetsSent events = times.map (response T) := by
  induction h with
  | nil => exact ⟨[], rfl⟩
  | snoc h clientname clientprocess now ih =>
    obtain ⟨times, htimes⟩ := ih
    refine ⟨times ++ [now], ?_⟩
    rw [packetsSent_append, htimes, List.map_append]
    rfl

/-- A session that has sent something has reported a client and sent it a whole response. -/
theorem of_sent (h : Speech T events) (hsent : Librtaio.packetsSent events ≠ []) :
    ∃ clientname clientprocess now rest, events = .connected clientname clientprocess ::
      .armed .sendPacket (.write (response T now)) :: rest := by
  induction h with
  | nil => exact absurd rfl hsent
  | @snoc events h clientname clientprocess now ih =>
    by_cases hnone : Librtaio.packetsSent events = []
    · cases h with
      | nil => exact ⟨clientname, clientprocess, now, [], rfl⟩
      | snoc h' a b t =>
        rw [packetsSent_append, List.append_eq_nil_iff] at hnone
        cases hnone.2
    · obtain ⟨a, b, t, rest, heq⟩ := ih hnone
      exact ⟨a, b, t, rest ++ _, by rw [heq]; rfl⟩

end Speech

/-! ### What a completion says -/

/-- The events of a completion say nothing, or report a client and answer it. -/
inductive Says (T : Target) (left : Except Exit Unit × Frame) : Prop where
  | nothing (h : spoken left.2.events = [])
  | answer (clientname clientprocess : List UInt8) (now : Int)
      (h : spoken left.2.events =
        [.connected clientname clientprocess, .armed .sendPacket (.write (response T now))])

theorem Dispatched.says {T : Target} {i : Label} {s : Session} {left : Except Exit Unit × Frame}
    (h : Dispatched T i s left) : Says T left := by
  cases h with
  | closed s' evs hends henv => exact .nothing (by cases hends <;> rfl)
  | gone s' evs hends henv => exact .nothing (by cases hends <;> rfl)
  | partly offset length bs s' hop hresult hpos hlt hs' => exact .nothing rfl
  | written packet hop hresult => exact .nothing rfl
  | whole offset length bs s' hop hresult hpos hlen hs' hinspected =>
    cases hinspected with
    | unknown hhead hbody => exact .nothing rfl
    | header hmark hheader => exact .nothing (by cases hheader <;> rfl)
    | body hmark hhandled =>
      cases hhandled with
      | unhandled htable => exact .nothing rfl
      | undecoded fields fields' code htable hdecode hcode => exact .nothing rfl
      | faulted fields fault htable hdecode => exact .nothing rfl
      | disconnected fields fields' hmethod htable hdecode henv => exact .nothing rfl
      | gone fields fields' hmethod htable hdecode henv => exact .nothing rfl
      | replied fields fields' packet hmethod htable hdecode hpacket =>
        refine .answer (dataAt fields' 9) (dataAt fields' 11) i.env.now ?_
        rw [hpacket]
        rfl

/-- Every byte that a response stands for was received: 32 for each, and those of the read in
progress that were still missing are missing from the next 32. -/
structure Conn.Paid (c : Conn) : Prop where
  sent : 32 * (packetsSent c.trace).length ≤ (received c.trace).length
  reading : ∀ offset length, c.pending = [.read offset length] →
    32 * ((packetsSent c.trace).length + 1) ≤ (received c.trace).length + length

namespace Conn

variable {T : Target} {c c' : Conn} {i : Label}

theorem Paid.silent {c : Conn} {left : Except Exit Unit × Frame} (h : c.Paid)
    (hsilent : spoken left.2.events = [])
    (hreading : ∀ offset length, left.2.ops = [.read offset length] →
      32 * ((packetsSent c.trace).length + 1) ≤
        (received c.trace).length + (received left.2.events).length + length) :
    (leave c.trace left).Paid := by
  have hsent : packetsSent (c.trace ++ left.2.events) = packetsSent c.trace := by
    rw [packetsSent_append, ← packetsSent_spoken left.2.events, hsilent]
    exact List.append_nil _
  constructor
  · have hle := h.sent
    rw [leave_trace, hsent, received_append, List.length_append]
    omega
  · intro offset length hpending
    have hle := hreading offset length hpending
    rw [leave_trace, hsent, received_append, List.length_append]
    omega

theorem Paid.step (h : c.Paid) (hc : c.Inv) (hstep : Step T c i c') : c'.Paid := by
  obtain ⟨hpending, left, hdispatched, rfl⟩ := hstep.cases hc
  have hread {offset length : Nat} (hop : i.op = .read offset length) :=
    h.reading offset length (by rw [hpending, hop])
  cases hdispatched with
  | closed s' evs hends henv =>
    exact h.silent (by cases hends <;> rfl) fun offset length hops => by cases hops
  | gone s' evs hends henv =>
    exact h.silent (by cases hends <;> rfl) fun offset length hops => by cases hops
  | written packet hop hresult =>
    refine h.silent rfl fun offset length hops => ?_
    have hpaid := h.sent
    cases hops
    omega
  | partly offset length bs s' hop hresult hpos hlt hs' =>
    refine h.silent rfl fun offset' length' hops => ?_
    have hpaid := hread hop
    cases hops
    change _ ≤ _ + (bs ++ []).length + _
    rw [List.append_nil]
    omega
  | whole offset length bs s' hop hresult hpos hlen hs' hinspected =>
    have hpaid := hread hop
    have hreceived := received_inspected hinspected
    have hbs : received left.2.events = bs := hreceived.trans (List.append_nil bs)
    by_cases hsilent : spoken left.2.events = []
    · refine h.silent hsilent fun offset' length' _ => ?_
      rw [hbs]
      omega
    · -- the only completion that says something answers a connect request
      cases hinspected with
      | unknown hhead hbody => exact absurd rfl hsilent
      | header hmark hheader => cases hheader <;> exact absurd rfl hsilent
      | body hmark hhandled =>
        cases hhandled with
        | unhandled htable => exact absurd rfl hsilent
        | undecoded fields fields' code htable hdecode hcode => exact absurd rfl hsilent
        | faulted fields fault htable hdecode => exact absurd rfl hsilent
        | disconnected fields fields' hmethod htable hdecode henv => exact absurd rfl hsilent
        | gone fields fields' hmethod htable hdecode henv => exact absurd rfl hsilent
        | replied fields fields' packet hmethod htable hdecode hpacket =>
          constructor
          · rw [leave_trace, packetsSent_append, received_append, List.length_append,
              List.length_append, hbs]
            change 32 * (_ + 1) ≤ _
            omega
          · intro offset' length' hops
            cases hops

/-- A session that was started has sent nothing, and reads a header. -/
theorem paid_started {now : Int} {uninit : Fin (FIELD_BMARK + 3) → Field} {s : Session}
    (hnew : newSession now uninit = .ok s) (env : Env) :
    (started env s).Paid ∧ spoken (started env s).trace = [] := by
  rcases started_cases hnew env with h | ⟨w, -, h⟩
  · rw [h]
    exact ⟨⟨Nat.zero_le _, fun _ _ hops => by cases hops⟩, rfl⟩
  · rw [h]
    refine ⟨⟨Nat.zero_le _, ?_⟩, rfl⟩
    intro offset length hops
    cases hops
    exact le_rfl

variable {now : Int} {uninit : Fin (FIELD_BMARK + 3) → Field} {s : Session} {env : Env}
  {log : List (Conn × Label)}

theorem speech_run (hnew : newSession now uninit = .ok s)
    (hrun : Run (Step T) (.started env s) log c) : Speech T (spoken c.trace) := by
  induction hrun with
  | nil =>
    rw [(paid_started hnew env).2]
    exact .nil
  | @snoc log t u i hrun hstep ih =>
    have hinv : t.Inv := hrun.invariant (.started hnew env) .step
    obtain ⟨-, left, hdispatched, rfl⟩ := hstep.cases hinv
    rw [leave_trace, spoken_append]
    cases hdispatched.says with
    | nothing h =>
      rw [h, List.append_nil]
      exact ih
    | answer clientname clientprocess now h =>
      rw [h]
      exact .snoc ih clientname clientprocess now

theorem paid_run (hnew : newSession now uninit = .ok s)
    (hrun : Run (Step T) (.started env s) log c) : c.Paid := by
  induction hrun with
  | nil => exact (paid_started hnew env).1
  | snoc hrun hstep ih => exact ih.step (hrun.invariant (.started hnew env) .step) hstep

/-- **Everything a session sends**, whatever it was sent: it says nothing but reports of clients,
each with a response that every host takes for one that grants the connection, and it sends no more
than 46 bytes for every 32 that it has received. -/
theorem responses (hnew : newSession now uninit = .ok s)
    (hrun : Run (Step T) (.started env s) log c) :
    Speech T (spoken c.trace) ∧ (∀ packet ∈ packetsSent c.trace, Grants packet) ∧
      32 * (bytesSent c.trace).length ≤ 46 * (received c.trace).length := by
  have hspeech := speech_run hnew hrun
  obtain ⟨times, htimes⟩ := hspeech.packetsSent
  rw [packetsSent_spoken] at htimes
  refine ⟨hspeech, ?_, ?_⟩
  · intro packet hpacket
    rw [htimes] at hpacket
    obtain ⟨now, -, rfl⟩ := List.mem_map.mp hpacket
    exact connectResp_grants now T
  · have hpaid := (paid_run hnew hrun).sent
    have hlength : (bytesSent c.trace).length = 46 * (packetsSent c.trace).length := by
      rw [bytesSent, htimes, List.length_flatten, List.map_map, List.length_map]
      have hall : times.map (List.length ∘ response T) = times.map fun _ => 46 :=
        List.map_congr_left fun now _ => length_response T now
      rw [hall]
      simp [Nat.mul_comm]
    rw [hlength]
    omega

/-- A client that connects and disconnects. -/
theorem responses_greeting :
    ∃ log c, Run (Step (.build .big)) .fresh log c ∧ packetsSent c.trace ≠ [] ∧
      Speech (.build .big) (spoken c.trace) ∧ (∀ packet ∈ packetsSent c.trace, Grants packet) ∧
      32 * (bytesSent c.trace).length ≤ 46 * (received c.trace).length := by
  have hnew := newSession_eq 0 fun _ => ⟨0, 0, 0, none, 0⟩
  obtain ⟨log, c, hfed, hstuck⟩ := Traffic.greeting.exists_stuck (.build .big) hnew
    (show (Env.mk 0 true).connected = true from rfl)
  have hanswered := (Traffic.served_of_stuck hnew rfl hfed hstuck).answered
  have hrun := hfed.mono Fed.step
  refine ⟨log, c, hrun, ?_, responses hnew hrun⟩
  rw [← packetsSent_spoken]
  generalize hrequests : Traffic.greeting.requests = requests at hanswered
  generalize spoken c.trace = events at hanswered
  cases hanswered with
  | nil => cases hrequests
  | snoc h r packet hgrants =>
    rw [packetsSent_append]
    exact List.append_ne_nil_of_right_ne_nil _ (List.cons_ne_nil _ _)

end Conn

end Librtaio

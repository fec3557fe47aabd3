import Librtaio.SessionTraffic

/-!
# A session whose operations fail

The reads of a session are split, its operations fail, and its peer is lost, at any time. What it
has said is one report and one granting response for each of the first requests it was sent, in
their order: no request is answered twice, and nothing is answered that was not asked.
-/

namespace Librtaio

open Exec Handler Transition

/-! ### A lost peer -/

namespace Handler

variable {α β : Type} {x y : Handler α}

/-- The first does what the second does, or an exception leaves it where the second has closed the
session. -/
def Cut (x y : Handler α) : Prop :=
  ∀ f : Frame, x f = y f ∨ ((y f).2.closed = true ∧ (x f).1 = .error .exception ∧
    (x f).2.ops = (y f).2.ops ∧ (x f).2.events = (y f).2.events)

namespace Cut

theorem refl (x : Handler α) : Cut x x := fun _ => .inl rfl

theorem bind (x : Handler α) {k k' : α → Handler β} (hk : ∀ a, Cut (k a) (k' a)) :
    Cut (x >>= k) (x >>= k') := by
  intro f
  rcases hrun : x f with ⟨exit | a, f'⟩
  · rw [bind_of_error hrun, bind_of_error hrun]
    exact .inl rfl
  · rw [bind_of_ok hrun, bind_of_ok hrun]
    exact hk a f'

/-- After a close, only a value is returned. -/
theorem returns (h : Cut x y) (b : β) : Cut (x >>= fun _ => pure b) (y >>= fun _ => pure b) := by
  intro f
  rcases h f with hsame | ⟨hclosed, hthrown, hops, hevents⟩
  · left
    rcases hrun : y f with ⟨exit | a, f'⟩
    · rw [bind_of_error hrun, bind_of_error (hsame.trans hrun)]
    · rw [bind_of_ok hrun, bind_of_ok (hsame.trans hrun)]
  · right
    have hx : x f = (.error .exception, (x f).2) := by rw [← hthrown]
    rw [bind_of_error hx]
    rcases hrun : y f with ⟨exit | a, f'⟩
    · rw [bind_of_error hrun]
      rw [hrun] at hclosed hops hevents
      exact ⟨hclosed, rfl, hops, hevents⟩
    · rw [bind_of_ok hrun]
      rw [hrun] at hclosed hops hevents
      exact ⟨hclosed, rfl, hops, hevents⟩

theorem ite {p : Prop} [Decidable p] {x' y' : Handler α} (h : Cut x y) (h' : Cut x' y') :
    Cut (if p then x else x') (if p then y else y') := by
  split
  · exact h
  · exact h'

end Cut

end Handler

theorem cut_close (now : Int) : Cut (close ⟨now, false⟩) (close ⟨now, true⟩) := by
  intro f
  have hgone : close ⟨now, false⟩ f = (.error .exception, f) := close_gone rfl
  have hrun : close ⟨now, true⟩ f = (.ok (), { f with closed := true }) := close_run rfl
  right
  rw [hgone, hrun]
  exact ⟨rfl, rfl, rfl, rfl⟩

theorem cut_handlePacketBody (T : Target) (now : Int) :
    Cut (handlePacketBody T ⟨now, false⟩) (handlePacketBody T ⟨now, true⟩) := by
  refine .bind _ fun _ => .bind _ fun _ => .bind _ fun _ => .ite (.refl _) (.ite ?_ (.refl _))
  exact .bind _ fun _ => .ite (.refl _) ((cut_close now).returns _)

theorem cut_handleRead (T : Target) (now : Int) (error : Bool) (bytesTransferred wantBytes : Nat) :
    Cut (handleRead T ⟨now, false⟩ error bytesTransferred wantBytes)
      (handleRead T ⟨now, true⟩ error bytesTransferred wantBytes) := by
  refine .ite (.ite (cut_close now) (.ite (.refl _) ?_)) (cut_close now)
  refine .bind _ fun _ => .bind _ fun _ => .bind _ fun _ => .ite (.refl _) (.ite ?_ (.refl _))
  exact (cut_handlePacketBody T now).returns _

/-- A lost peer only cuts a handler short where it closes the session. -/
theorem cut_dispatch (T : Target) (now : Int) (op : Op) (result : Completion) :
    Cut (dispatch T ⟨now, false⟩ op result) (dispatch T ⟨now, true⟩ op result) := by
  rcases op with ⟨offset, length⟩ | packet
  · rcases result with bs | _ | _
    · exact .bind _ fun _ => .bind _ fun _ => .bind _ fun _ => .bind _ fun _ =>
        cut_handleRead T now false _ _
    · exact cut_handleRead T now true 0 length
    · exact cut_handleRead T now true 0 length
  · rcases result with bs | _ | _
    · exact cut_close now
    · exact .refl _
    · exact cut_close now

/-! ### Progress -/

namespace Traffic

variable {tr : Traffic} {T : Target} {c c' d : Conn} {i : Label} {n : Nat}

/-- What a session has said is one report and one granting response for each of some first requests,
which it has received. -/
def Answers (tr : Traffic) (c : Conn) : Prop :=
  ∃ done, done <+: tr.requests ∧ packets done <+: received c.trace ∧ Answered done (spoken c.trace)

/-- A session has come as far as one that nothing has failed or was split for, but for a piece that
it has read ahead; or nothing is pending any more. -/
inductive Progress (tr : Traffic) (c : Conn) : Prop where
  | going (n : Nat) (d : Conn) (p : List UInt8) (hstage : tr.Stage d n) (hinv : d.Inv)
      (hexit : d.exit = none) (hahead : Conn.Ahead p c d)
      (hreceived : received c.trace = received d.trace ++ p)
      (hspoken : spoken c.trace = spoken d.trace) : Progress tr c
  | ended (hpending : c.pending = []) (hanswers : tr.Answers c) : Progress tr c

theorem Stage.answers (h : tr.Stage d n) : tr.Answers d := by
  cases h with
  | header done rest hrequests hpending hready hreceived hanswered =>
    exact ⟨done, ⟨rest, hrequests.symm⟩, ⟨[], by rw [List.append_nil, hreceived]⟩, hanswered⟩
  | body done rest r hrequests hpending hexpects hreceived hanswered =>
    exact ⟨done, ⟨r :: rest, hrequests.symm⟩, by rw [hreceived]; exact List.prefix_append _ _,
      hanswered⟩
  | reply done rest r packet hrequests hpending hready hreceived hanswered =>
    exact ⟨done ++ [r], ⟨rest, by rw [hrequests, List.append_assoc]; rfl⟩,
      ⟨[], by rw [List.append_nil, hreceived]⟩, hanswered⟩
  | closing r hdisconnect hpending hexpects hreceived hanswered =>
    exact ⟨tr.requests, List.prefix_refl _, by rw [hreceived]; exact List.prefix_append _ _,
      hanswered⟩
  | closed r hdisconnect hpending hclosed hreceived hanswered =>
    exact ⟨tr.requests, List.prefix_refl _, by rw [hreceived]; exact List.prefix_append _ _,
      hanswered⟩

/-- More that was received, and nothing that was said. -/
theorem Answers.later (h : tr.Answers c) (hreceived : received c.trace <+: received c'.trace)
    (hspoken : spoken c'.trace = spoken c.trace) : tr.Answers c' := by
  obtain ⟨done, hdone, hasked, hanswered⟩ := h
  exact ⟨done, hdone, hasked.trans hreceived, by rwa [hspoken]⟩

theorem Progress.answers (h : tr.Progress c) : tr.Answers c := by
  cases h with
  | going n d p hstage hinv hexit hahead hreceived hspoken =>
    exact hstage.answers.later (by rw [hreceived]; exact List.prefix_append _ _) hspoken
  | ended hpending hanswers => exact hanswers

/-- Nothing was read ahead between two operations. -/
theorem Stage.ahead (h : tr.Stage d n) (hpending : c.pending = d.pending)
    (hsession : c.session = d.session) : Conn.Ahead [] c d := by
  have hstored : d.session.Stored 0 [] c.session := by
    rw [hsession]
    exact .nil _
  cases h with
  | header done rest hrequests hd hready hreceived hanswered =>
    exact .reading 32 (.inl rfl) (hpending.trans hd) hd hstored
  | body done rest r hrequests hd hexpects hreceived hanswered =>
    exact .reading _ (.inl rfl) (hpending.trans hd) hd hstored
  | reply done rest r packet hrequests hd hready hreceived hanswered =>
    exact .writing packet rfl (hpending.trans hd) hd hsession
  | closing r hdisconnect hd hexpects hreceived hanswered =>
    exact .reading _ (.inl rfl) (hpending.trans hd) hd hstored
  | closed r hdisconnect hd hclosed hreceived hanswered => exact .ended (hpending.trans hd) hd

namespace Progress

/-- A failure ends it. -/
theorem fails (h : tr.Progress c) (hc : c.Inv) (hstep : Step T c i c')
    (hfailed : i.result = .failed) : tr.Progress c' := by
  obtain ⟨-, left, hdispatched, hleave⟩ := hstep.cases hc
  have hover {evs : List Event} (hends : i.Ends evs) (htrace : c'.trace = c.trace ++ evs) :
      tr.Answers c' := by
    cases hends with
    | failed =>
      rw [List.append_nil] at htrace
      exact h.answers.later ⟨[], by rw [List.append_nil, htrace]⟩ (by rw [htrace])
    | nothing offset hop hnothing => cases hnothing.symm.trans hfailed
  cases hdispatched with
  | closed s' evs hends henv => exact .ended (by rw [hleave]; rfl) (hover hends (by rw [hleave]; rfl))
  | gone s' evs hends henv => exact .ended (by rw [hleave]; rfl) (hover hends (by rw [hleave]; rfl))
  | partly offset length bs s' hop hresult hpos hlt hs' => cases hresult.symm.trans hfailed
  | whole offset length bs s' hop hresult hpos hlen hs' hinspected =>
    cases hresult.symm.trans hfailed
  | written packet hop hresult => cases hresult.symm.trans hfailed

/-- The same handler was run on both. -/
theorem meet (hstage : tr.Stage d n) (hinv : d.Inv) {j : Label} (hj : Step T d j (d.complete T j))
    (hcomplete : j.Complete) (hpending : c'.pending = (d.complete T j).pending)
    (hsession : c'.session = (d.complete T j).session)
    (hreceived : received c'.trace = received (d.complete T j).trace)
    (hspoken : spoken c'.trace = spoken (d.complete T j).trace)
    (hsent : received c'.trace <+: tr.bytes) : tr.Progress c' := by
  have hnext : Fed T tr.bytes d j (d.complete T j) := ⟨hj, hcomplete, by rwa [← hreceived]⟩
  obtain ⟨hstage', hexit'⟩ := hstage.next hinv hnext
  exact .going (n + 1) _ [] hstage' (hinv.step hj) hexit' (hstage'.ahead hpending hsession)
    (by rw [hreceived, List.append_nil]) hspoken

/-- A write that completes. -/
theorem writes (hstage : tr.Stage d n) (hinv : d.Inv) (hexit : d.exit = none) (hc : c.Inv)
    {packet : List UInt8} {env : Env} (hstep : Step T c ⟨.write packet, .written, env⟩ c')
    (hconnected : env.connected = true) (hd : d.pending = [.write packet])
    (hs : c.session = d.session) (hreceived : received c.trace = received d.trace)
    (hspoken : spoken c.trace = spoken d.trace) (hsent : received c'.trace <+: tr.bytes) :
    tr.Progress c' := by
  have hj : Step T d ⟨.write packet, .written, env⟩ (d.complete T ⟨.write packet, .written, env⟩) :=
    ⟨hexit, by rw [hd]; exact List.mem_singleton.mpr rfl, hstep.valid, rfl⟩
  have hcomplete : Label.Complete ⟨.write packet, .written, env⟩ :=
    ⟨fun _ _ _ hop => (by cases hop), fun hresult => (by cases hresult), hconnected⟩
  have hleave := (hstep.eq_leave hc).2
  have hleave' := (hj.eq_leave hinv).2
  rw [← hs] at hleave'
  refine meet hstage hinv hj hcomplete ?_ ?_ ?_ ?_ hsent
  · rw [hleave, hleave']
    rfl
  · rw [hleave, hleave']
    rfl
  · rw [hleave, hleave', Conn.leave_trace, Conn.leave_trace, received_append, received_append,
      hreceived]
  · rw [hleave, hleave', Conn.leave_trace, Conn.leave_trace, spoken_append, spoken_append, hspoken]

/-- A piece that leaves the header or body incomplete is the first of it. -/
theorem reads_first (hstage : tr.Stage d n) (hinv : d.Inv) (hexit : d.exit = none) (hc : c.Inv)
    {want : Nat} {bs : List UInt8} {env : Env} (hstep : Step T c ⟨.read 0 want, .received bs, env⟩ c')
    (hd : d.pending = [.read 0 want]) (hs : d.session.Stored 0 [] c.session)
    (hreceived : received c.trace = received d.trace) (hspoken : spoken c.trace = spoken d.trace)
    (hlt : bs.length < want) : tr.Progress c' := by
  obtain ⟨-, left, hdispatched, rfl⟩ := hstep.cases hc
  cases hdispatched with
  | closed s' evs hends henv => exact absurd hlt (hends.not_lt rfl rfl)
  | gone s' evs hends henv => exact absurd hlt (hends.not_lt rfl rfl)
  | whole offset length bs' s' hread hresult hpos hlen hs' hinspected =>
    cases hread
    cases hresult
    exact absurd hlen hlt.ne
  | written packet hwrite hresult => cases hwrite
  | partly offset length bs' s' hread hresult hpos hlt' hs' =>
    cases hread
    cases hresult
    refine .going n d bs hstage hinv hexit (.reading want (.inr hlt) rfl hd (hs.join hs')) ?_ ?_
    · rw [Conn.leave_trace, received_append, hreceived, received_cons]
      exact congrArg _ (List.append_nil bs)
    · rw [Conn.leave_trace, spoken_append, hspoken]
      exact List.append_nil _

/-- The last piece, or all of it at once. -/
theorem reads_last (hstage : tr.Stage d n) (hinv : d.Inv) (hexit : d.exit = none) (hc : c.Inv)
    {want : Nat} {p bs : List UInt8} {env : Env}
    (hstep : Step T c ⟨.read p.length (want - p.length), .received bs, env⟩ c')
    (hconnected : env.connected = true) (hd : d.pending = [.read 0 want])
    (hs : d.session.Stored 0 p c.session) (hreceived : received c.trace = received d.trace ++ p)
    (hspoken : spoken c.trace = spoken d.trace) (hp : p = [] ∨ p.length < want)
    (hlen : bs.length = want - p.length) (hsent : received c'.trace <+: tr.bytes) :
    tr.Progress c' := by
  have hlen' : (p ++ bs).length = want := by
    rw [List.length_append]
    rcases hp with rfl | hp
    · simpa using hlen
    · omega
  obtain ⟨s', hs'⟩ : ∃ s', c.session.Stored p.length bs s' := by
    have hreading := hc.reading _ _ (hstep.eq_leave hc).1
    have hwithin := hreading.within
    have hstorage := hreading.storage
    apply c.session.exists_stored
    omega
  have hj : Step T d ⟨.read 0 want, .received (p ++ bs), env⟩
      (d.complete T ⟨.read 0 want, .received (p ++ bs), env⟩) :=
    ⟨hexit, by rw [hd]; exact List.mem_singleton.mpr rfl,
      ⟨hlen'.le, fun hnil => by simpa [hnil] using hlen'.symm⟩, rfl⟩
  have hcomplete : Label.Complete ⟨.read 0 want, .received (p ++ bs), env⟩ := by
    refine ⟨?_, fun hresult => (by cases hresult), hconnected⟩
    rintro offset length bs' hread hresult
    cases hread
    cases hresult
    exact hlen'
  have hsame : handleRead T env false want want =
      handleRead T env false (want - p.length) (want - p.length) := by
    rcases hp with rfl | hp
    · rfl
    · rw [handleRead_eq (by omega : 0 < want), handleRead_eq (by omega : 0 < want - p.length)]
  have hleave := (hstep.eq_leave hc).2
  have hleave' := (hj.eq_leave hinv).2
  rw [dispatch_whole (T := T) env hs' hlen] at hleave
  rw [dispatch_whole (T := T) env (hs.join hs') hlen', hsame] at hleave'
  refine meet hstage hinv hj hcomplete ?_ ?_ ?_ ?_ hsent
  · rw [hleave, hleave']
    rfl
  · rw [hleave, hleave']
    rfl
  · rw [hleave, hleave']
    simp [hreceived]
  · rw [hleave, hleave']
    simp only [Conn.leave_trace, spoken_append, hspoken]
    rfl

/-- A step while the peer is there. -/
theorem step_connected (h : tr.Progress c) (hc : c.Inv) (hstep : Step T c i c') (hguard : i.Unbroken)
    (hconnected : i.env.connected = true) (hsent : received c'.trace <+: tr.bytes) :
    tr.Progress c' := by
  obtain ⟨op, result, env⟩ := i
  obtain ⟨hop, -⟩ := hstep.eq_leave hc
  by_cases hfailed : result = .failed
  · exact h.fails hc hstep hfailed
  cases h with
  | ended hpending hanswers => exact absurd hstep.pending (by simp [hpending])
  | going n d p hstage hinv hexit hahead hreceived hspoken =>
    cases hahead with
    | ended hcp hdp => exact absurd hstep.pending (by simp [hcp])
    | writing packet hp hcp hdp hs =>
      obtain rfl : op = .write packet := by simpa [hcp] using hop.symm
      rw [hp, List.append_nil] at hreceived
      cases result with
      | received bs => exact hstep.valid.elim
      | failed => exact absurd rfl hfailed
      | written => exact writes hstage hinv hexit hc hstep hconnected hdp hs hreceived hspoken hsent
    | reading want hp hcp hdp hs =>
      obtain rfl : op = .read p.length (want - p.length) := by simpa [hcp] using hop.symm
      cases result with
      | written => exact hstep.valid.elim
      | failed => exact absurd rfl hfailed
      | received bs =>
        have hle : bs.length ≤ want - p.length := hstep.valid.1
        rcases hle.lt_or_eq with hlt | hlen
        · obtain rfl : p = [] := List.length_eq_zero_iff.mp (hguard _ _ bs rfl rfl hlt)
          rw [List.append_nil] at hreceived
          exact reads_first hstage hinv hexit hc hstep hdp hs hreceived hspoken hlt
        · exact reads_last hstage hinv hexit hc hstep hconnected hdp hs hreceived hspoken hp hlen hsent

/-- **One completion**, whatever its outcome. -/
theorem step (h : tr.Progress c) (hc : c.Inv) (hstep : Step T c i c') (hguard : i.Unbroken)
    (hsent : received c'.trace <+: tr.bytes) : tr.Progress c' := by
  obtain ⟨op, result, now, connected⟩ := i
  cases connected with
  | true => exact h.step_connected hc hstep hguard rfl hsent
  | false =>
    -- the same completion with the peer there
    have hstep' : Step T c ⟨op, result, now, true⟩ (c.complete T ⟨op, result, now, true⟩) :=
      ⟨hstep.returned, hstep.pending, hstep.valid, rfl⟩
    have hleave := (hstep.eq_leave hc).2
    have hleave' := (hstep'.eq_leave hc).2
    have hinv' := hc.step hstep'
    have hprogress (hevents : received c'.trace =
        received (c.complete T ⟨op, result, now, true⟩).trace) :=
      h.step_connected hc hstep' hguard rfl (by rwa [← hevents])
    rcases cut_dispatch T now op result (.init c.session) with hsame | ⟨hclosed, -, hops, hevents⟩
    · have hc' : c' = c.complete T ⟨op, result, now, true⟩ := by rw [hleave, hleave', hsame]
      rw [hc']
      exact hprogress (by rw [hc'])
    · have htrace : c'.trace = (c.complete T ⟨op, result, now, true⟩).trace := by
        rw [hleave, hleave', Conn.leave_trace, Conn.leave_trace, hevents]
      have hanswers := (hprogress (by rw [htrace])).answers
      refine .ended ?_ (hanswers.later ⟨[], by rw [List.append_nil, htrace]⟩ (by rw [htrace]))
      rw [hleave'] at hinv'
      rw [hleave, Conn.leave_pending, hops]
      exact hinv'.closed hclosed

end Progress

end Traffic

/-! ### Runs -/

section Runs

variable {tr : Traffic} {T : Target} {now : Int} {uninit : Fin (FIELD_BMARK + 3) → Field} {s : Session}
  {env : Env} {c c' : Conn} {i : Label} {log : List (Conn × Label)}

theorem Label.Whole.unbroken (h : i.Whole) : i.Unbroken :=
  fun offset length bs hop hresult hlt => absurd (h offset length bs hop hresult) hlt.ne

theorem Traffic.progress_started (tr : Traffic) (hnew : newSession now uninit = .ok s) (env : Env) :
    tr.Progress (.started env s) := by
  cases hconnected : env.connected with
  | true =>
    obtain ⟨hstage, hexit⟩ := tr.stage_started hnew hconnected
    exact .going 0 _ [] hstage (.started hnew env) hexit (hstage.ahead rfl rfl)
      (List.append_nil _).symm rfl
  | false =>
    rw [Conn.started, start_gone hconnected]
    exact .ended rfl ⟨[], List.nil_prefix, List.nil_prefix, .nil⟩

theorem Traffic.progress_run (hnew : newSession now uninit = .ok s)
    (hrun : Run (Step T) (.started env s) log c) (hunbroken : Meets (fun _ i => i.Unbroken) log)
    (hsent : received c.trace <+: tr.bytes) : tr.Progress c := by
  induction hrun with
  | nil => exact tr.progress_started hnew env
  | @snoc log t u i hrun hstep ih =>
    rw [meets_append, meets_singleton] at hunbroken
    have hinv : t.Inv := hrun.invariant (.started hnew env) .step
    have hbefore := hstep.received_grows.trans hsent
    exact (ih hunbroken.1 hbefore).step hinv hstep hunbroken.2 hsent

/-- **Answers under failures.** Whatever part of the traffic a session has received, however its
operations were split or failed, and wherever its peer was lost: it has reported and answered some
first requests, which it has received, each once and in their order, and has said nothing else. -/
theorem Traffic.answers_first (hnew : newSession now uninit = .ok s)
    (hrun : Run (Step T) (.started env s) log c) (hunbroken : Meets (fun _ i => i.Unbroken) log)
    (hsent : received c.trace <+: tr.bytes) : tr.Answers c :=
  (progress_run hnew hrun hunbroken hsent).answers

/-- A header in two pieces and a body, and a reply that fails with its peer lost. -/
def lostRun : List Label :=
  [ ⟨.read 0 32, .received (Traffic.greeting.bytes.take 20), ⟨0, true⟩⟩
  , ⟨.read 20 12, .received ((Traffic.greeting.bytes.take 32).drop 20), ⟨0, true⟩⟩
  , ⟨.read 0 34, .received ((Traffic.greeting.bytes.drop 32).take 34), ⟨5, true⟩⟩
  , ⟨.write (((MsgTable.connectResp 5 ERR_OK 1).sent (.build .big)).wire (.build .big)), .failed,
      ⟨6, false⟩⟩ ]

theorem Traffic.answers_first_lostRun :
    greeting.Answers (Conn.fresh.play (.build .big) lostRun).2 := by
  have hplay : Conn.fresh.Playable (.build .big) lostRun := by decide +kernel
  have hnew := newSession_eq 0 fun _ => ⟨0, 0, 0, none, 0⟩
  have hunbroken := (Conn.reassembled_of_unbroken hnew hplay.run).1.mp (by decide +kernel)
  exact answers_first hnew hplay.run hunbroken (by decide +kernel)

end Runs

end Librtaio

import Librtaio.SessionInvariants

/-!
# Reassembly of the stream

A header or a body may arrive in several pieces. The read for the second piece
asks for its bytes at the right place, behind those of the first, because
`handle_read` takes the place from the completion before; from the third piece
on that place is wrong. A run in which no header and no body needs a third piece
is simulated by one in which every read completes whole: the buffers that
`handle_read` looks at are the same.
-/

namespace Librtaio

open Exec Handler Transition

/-! ### Handlers and the events before them -/

namespace Handler

/-- The computation adds its events to those of the past and does not look at them. -/
def Blind {α : Type} (x : Handler α) : Prop :=
  ∀ (f : Frame) (evs : List Event), x { f with events := evs ++ f.events } =
    ((x f).1, { (x f).2 with events := evs ++ (x f).2.events })

namespace Blind

variable {α β : Type}

theorem pure (a : α) : Blind (Pure.pure a : Handler α) := fun _ _ => rfl

theorem bind {x : Handler α} {k : α → Handler β} (hx : x.Blind) (hk : ∀ a, (k a).Blind) :
    (x >>= k).Blind := by
  intro f evs
  rcases hrun : x f with ⟨exit | a, f'⟩
  · rw [bind_of_error hrun, bind_of_error (by rw [hx, hrun])]
  · rw [bind_of_ok hrun, bind_of_ok (by rw [hx, hrun])]
    exact hk a f' evs

theorem get : Blind Handler.get := fun _ _ => rfl

theorem set (s : Session) : Blind (Handler.set s) := fun _ _ => rfl

theorem setClosed : Blind Handler.setClosed := fun _ _ => rfl

theorem lift (x : Except Exit α) : Blind (Exec.lift x) := fun _ _ => rfl

theorem emit (e : Event) : Blind (Handler.emit e) := fun f evs => by
  simp only [Handler.emit, List.append_assoc]

theorem window (offset length : Nat) : Blind (Handler.window offset length) := fun f evs => by
  simp only [Handler.window, List.append_assoc]

theorem arm (site : Site) (op : Op) : Blind (Handler.arm site op) := fun f evs => by
  simp only [Handler.arm, List.append_assoc]

theorem ite {p : Prop} [Decidable p] {x y : Handler α} (hx : x.Blind) (hy : y.Blind) :
    (if p then x else y).Blind := by
  split
  · exact hx
  · exact hy

end Blind

end Handler

section Handlers

variable (T : Target) (env : Env)

theorem blind_close : (close env).Blind :=
  .bind (.ite (.pure ()) (.lift _)) fun _ => .setClosed

theorem blind_asyncReadSome (site : Site) (offset length : Nat) :
    (asyncReadSome site offset length).Blind :=
  .bind (.window _ _) fun _ => .arm _ _

theorem blind_readPacketHeader : (readPacketHeader T).Blind :=
  .bind .get fun _ => .bind (.window _ _) fun _ => .bind (.lift _) fun _ =>
    .bind (.set _) fun _ => .pure _

theorem blind_handlePacketHeader : (handlePacketHeader T env).Blind := by
  refine .bind (.emit _) fun _ => .bind .get fun _ => .bind (.lift _) fun _ =>
    .bind (.set _) fun _ => .bind (blind_readPacketHeader T) fun _ => .ite ?_ (.pure _)
  exact .bind .get fun _ => .bind (.lift _) fun _ => .bind (.emit _) fun _ =>
    .bind (.lift _) fun _ => .bind (.set _) fun _ =>
      .bind (blind_asyncReadSome _ _ _) fun _ => .pure _

theorem blind_readPacketBody (fields : List Field) (len : Int) :
    (readPacketBody T fields len).Blind :=
  .bind .get fun _ => .bind (.lift _) fun _ => .bind (.lift _) fun _ => .bind (.window _ _) fun _ =>
    .bind (.lift _) fun _ => .pure _

theorem blind_sendPacket (fields : List Field) (len : Int) : (sendPacket T fields len).Blind :=
  .bind (.lift _) fun _ => .bind .get fun _ => .bind (.set _) fun _ =>
    .ite (.bind (.arm _ _) fun _ => .pure _) (.pure _)

theorem blind_handlePacketBody : (handlePacketBody T env).Blind := by
  refine .bind (.emit _) fun _ => .bind .get fun _ => .bind (.lift _) fun _ => .ite ?_ (.ite ?_ (.pure _))
  · exact .bind (blind_readPacketBody T _ _) fun _ => .ite (.pure _)
      (.bind (.emit _) fun _ => blind_sendPacket T _ _)
  · exact .bind (blind_readPacketBody T _ _) fun _ => .ite (.pure _)
      (.bind (blind_close env) fun _ => .pure _)

theorem blind_readMark : (readMark T).Blind :=
  .bind .get fun _ => .bind (.window _ _) fun _ => .ite (.lift _) (.pure _)

theorem blind_handleRead (error : Bool) (bytesTransferred wantBytes : Nat) :
    (handleRead T env error bytesTransferred wantBytes).Blind := by
  refine .ite (.ite (blind_close env) (.ite (blind_asyncReadSome _ _ _) ?_)) (blind_close env)
  refine .bind .get fun _ => .bind (.emit _) fun _ => .bind (blind_readMark T) fun _ =>
    .ite ?_ (.ite ?_ (.pure _))
  · exact .bind (blind_handlePacketHeader T env) fun _ => .pure _
  · exact .bind (blind_handlePacketBody T env) fun _ => .pure _

end Handlers

theorem dispatch_whole {T : Target} (env : Env) {s s' : Session} {offset n : Nat} {bs : List UInt8}
    (hs' : s.Stored offset bs s') (hn : bs.length = n) :
    dispatch T env (.read offset n) (.received bs) (.init s) =
      ((handleRead T env false n n (.init s')).1, { (handleRead T env false n n (.init s')).2 with
        events := [.received bs] ++ (handleRead T env false n n (.init s')).2.events }) := by
  rw [dispatch_received hs', hn]
  exact blind_handleRead T env false n n (.init s') [.received bs]

theorem handleRead_eq {T : Target} {env : Env} {n : Nat} (hn : 0 < n) :
    handleRead T env false n n = handleRead T env false 1 1 := by
  simp only [handleRead, Nat.lt_irrefl, if_false, if_neg (show ¬ n = 0 by omega), Nat.one_ne_zero]

/-! ### Storing in pieces -/

namespace Session

variable {s s' s'' : Session} {p bs : List UInt8}

theorem Stored.nil (s : Session) : s.Stored 0 [] s := by
  refine ⟨s.recvBuffer, ?_, rfl⟩
  rw [CharVector.store, dif_pos (by simp)]
  rfl

theorem exists_stored (s : Session) (offset : Nat) (bs : List UInt8)
    (h : offset + bs.length ≤ s.memory.length) :
    ∃ s', s.Stored offset bs s' := by
  obtain ⟨w, hstore, -⟩ := s.recvBuffer.store_fit _ _ h
  exact ⟨_, w, hstore, rfl⟩

/-- Two pieces, one behind the other, are stored like the whole. -/
theorem Stored.join (h : s.Stored 0 p s') (h' : s'.Stored p.length bs s'') :
    s.Stored 0 (p ++ bs) s'' := by
  have hfit := h.fit
  have hfit' := h'.fit
  have hmemory := h.memory
  have hmemory' := h'.memory
  have hlength : s'.memory.length = s.memory.length := by
    rw [hmemory]
    simp only [List.length_append, List.length_take, List.length_drop]
    omega
  have hsize : s''.recvBuffer.size = s.recvBuffer.size := h'.size.trans h.size
  obtain ⟨w, hstore, hwsize, hwstorage, -⟩ := s.recvBuffer.store_fit 0 (p ++ bs)
    (by rw [List.length_append]; change _ ≤ s.memory.length; omega)
  refine ⟨w, hstore, ?_⟩
  obtain ⟨w₁, -, rfl⟩ := h
  obtain ⟨w₂, -, rfl⟩ := h'
  suffices hw : w₂ = w by rw [hw]
  refine CharVector.ext ?_ (hsize.trans hwsize.symm)
  change w₁.storage = _ at hmemory
  change w₂.storage = w₁.storage.take p.length ++ bs ++ w₁.storage.drop (p.length + bs.length)
    at hmemory'
  rw [hmemory', hmemory, hwstorage]
  simp [List.drop_append, Session.memory]

end Session

/-! ### The place of a piece -/

/-- A piece that leaves its header or body incomplete is the first of it. -/
def Label.Unbroken (i : Label) : Prop :=
  ∀ offset length bs, i.op = .read offset length → i.result = .received bs →
    bs.length < length → offset = 0

theorem Label.Ends.not_lt {i : Label} {evs : List Event} (h : i.Ends evs) {offset length : Nat}
    {bs : List UInt8} (hread : i.op = .read offset length) (hresult : i.result = .received bs) :
    ¬ bs.length < length := by
  cases h with
  | failed hfailed => cases hfailed.symm.trans hresult
  | nothing offset' hread' hnothing =>
    cases hread'.symm.trans hread
    exact Nat.not_lt_zero _

theorem Label.Ends.unbroken {i : Label} {evs : List Event} (h : i.Ends evs) : i.Unbroken :=
  fun _ _ _ hread hresult hlt => absurd hlt (h.not_lt hread hresult)

/-- What a handler starts that does not continue a read. -/
inductive Fresh : List Op → Prop where
  | nothing : Fresh []
  | write (packet : List UInt8) : Fresh [.write packet]
  | read (n : Nat) : Fresh [.read 0 n]

theorem fresh_inspected {T : Target} {env : Env} {f : Frame} {left : Except Exit Unit × Frame}
    (h : Inspected T env f left) (hf : f.ops = []) : Fresh left.2.ops := by
  have hnothing : Fresh f.ops := by rw [hf]; exact .nothing
  cases h with
  | unknown hhead hbody => exact hnothing
  | header hmark hheader =>
    cases hheader with
    | rejected ret packetHeader hreject hlength => exact hnothing
    | negative s' haccept hneg => exact hnothing
    | accepted n s' haccept hn hready hsize hbsize =>
      rw [dropCode_snd]
      change Fresh (f.ops ++ _)
      rw [hf]
      exact .read n
  | body hmark hbody =>
    cases hbody with
    | unhandled htable => exact hnothing
    | undecoded fields fields' code htable hdecode hcode => exact hnothing
    | faulted fields fault htable hdecode => exact hnothing
    | replied fields fields' packet hmethod htable hdecode hpacket =>
      rw [dropCode_snd]
      change Fresh (f.ops ++ _)
      rw [hf]
      exact .write packet
    | disconnected fields fields' hmethod htable hdecode henv => exact hnothing
    | gone fields fields' hmethod htable hdecode henv => exact hnothing

/-- The nested handlers neither continue a read nor look at the buffer's reassembly. -/
theorem track_inspected {T : Target} {env : Env} {f : Frame} {left : Except Exit Unit × Frame}
    (h : Inspected T env f left) (t : Track) :
    (t.run left.2.events).placed = (t.run f.events).placed ∧
      (t.run left.2.events).assembled = (t.run f.events).assembled := by
  cases h with
  | unknown hhead hbody => exact ⟨rfl, rfl⟩
  | header hmark hheader =>
    cases hheader <;> rw [dropCode_snd, Track.run_append] <;> exact ⟨rfl, rfl⟩
  | body hmark hbody =>
    cases hbody <;> rw [dropCode_snd, Track.run_append] <;> exact ⟨rfl, rfl⟩

namespace Conn

variable {T : Target} {c c' : Conn} {i : Label} {log : List (Conn × Label)}

/-- A read that continues another asks for the right bytes exactly if that was the first. -/
theorem placed_step (hc : c.Inv) (h : Step T c i c') :
    c'.track.placed = true ↔ c.track.placed = true ∧ i.Unbroken := by
  obtain ⟨hop, left, hleft, rfl⟩ := h.cases hc
  rw [track_leave]
  cases hleft with
  | closed s' evs hends henv =>
    have hguard := hends.unbroken
    cases hends <;> exact (and_iff_left hguard).symm
  | gone s' evs hends henv =>
    have hguard := hends.unbroken
    cases hends <;> exact (and_iff_left hguard).symm
  | partly offset length bs s' hread hresult hpos hlt hs' =>
    have hreading := hc.reading offset length (by rw [hop, hread])
    have hguard : i.Unbroken ↔ c.track.got = [] := by
      rw [← hreading.first]
      constructor
      · exact fun h => h offset length bs hread hresult hlt
      · rintro hzero offset' length' bs' hread' hresult' -
        cases hread.symm.trans hread'
        exact hzero
    rw [hguard]
    change (c.track.placed && decide (bs.length = (c.track.got ++ bs).length)) = true ↔ _
    simp
  | written packet hwrite hresult =>
    have hguard : i.Unbroken := fun offset length bs hread => by cases hwrite.symm.trans hread
    exact (and_iff_left hguard).symm
  | whole offset length bs s' hread hresult hpos hlen hs' hinspected =>
    have hguard : i.Unbroken := by
      rintro offset' length' bs' hread' hresult' hlt
      cases hread.symm.trans hread'
      cases hresult.symm.trans hresult'
      exact absurd hlen hlt.ne
    change (c.track.run _).placed = true ↔ _
    rw [(track_inspected hinspected c.track).1]
    exact (and_iff_left hguard).symm

/-- The bytes of the header or body in progress are at the front of the buffer, the next one goes
behind them, and so it was whenever `handle_read` looked at one. -/
structure InPlace (c : Conn) : Prop where
  assembled : c.track.assembled = true
  memory : ∀ offset length, c.pending = [.read offset length] →
    offset = c.track.got.length ∧ c.session.memory.take offset = c.track.got

theorem InPlace.of_fresh (hc : c.Inv) (hassembled : c.track.assembled = true)
    (hfresh : Fresh c.pending) : c.InPlace := by
  refine ⟨hassembled, ?_⟩
  intro offset length hread
  have hgot := (hc.reading offset length hread).first
  rw [hread] at hfresh
  cases hfresh
  rw [hgot.mp rfl]
  exact ⟨rfl, List.take_zero⟩

theorem InPlace.step (hc : c.Inv) (hplace : c.InPlace) (hguard : i.Unbroken) (h : Step T c i c') :
    c'.InPlace := by
  have hc' := hc.step h
  have hassembled := hplace.assembled
  obtain ⟨hop, left, hleft, rfl⟩ := h.cases hc
  cases hleft with
  | closed s' evs hends henv =>
    refine .of_fresh hc' ?_ .nothing
    rw [track_leave]
    cases hends <;> exact hassembled
  | gone s' evs hends henv =>
    refine .of_fresh hc' ?_ .nothing
    rw [track_leave]
    cases hends <;> exact hassembled
  | partly offset length bs s' hread hresult hpos hlt hs' =>
    obtain rfl := hguard offset length bs hread hresult hlt
    have hgot := (hc.reading 0 length (by rw [hop, hread])).first.mp rfl
    have htrack : ((Track.init.run c.trace).run [.received bs,
        .window bs.length (length - bs.length) s'.recvBuffer.size,
        .armed .handleRead (.read bs.length (length - bs.length))]).got = bs := by
      change c.track.got ++ bs = bs
      rw [hgot, List.nil_append]
    refine ⟨by rw [track_leave]; exact hassembled, ?_⟩
    intro offset' length' hread'
    cases hread'
    rw [track_leave, htrack]
    refine ⟨rfl, ?_⟩
    rw [leave_session, hs'.memory]
    simp
  | written packet hwrite hresult =>
    refine .of_fresh hc' ?_ (.read 32)
    rw [track_leave]
    exact hassembled
  | whole offset length bs s' hread hresult hpos hlen hs' hinspected =>
    obtain ⟨hoffset, hmemory⟩ := hplace.memory offset length (by rw [hop, hread])
    refine .of_fresh hc' ?_ (fresh_inspected hinspected rfl)
    rw [track_leave, (track_inspected hinspected _).2]
    change (c.track.assembled && decide (s'.memory.take (c.track.got ++ bs).length =
      c.track.got ++ bs)) = true
    have htake : s'.memory.take (c.track.got ++ bs).length = c.track.got ++ bs := by
      rw [hs'.memory, hmemory]
      exact List.take_left
    rw [hassembled, htake]
    simp

end Conn

/-! ### Whole reads -/

/-- Every read that completes brings all the bytes it wanted. -/
def Label.Whole (i : Label) : Prop :=
  ∀ offset length bs, i.op = .read offset length → i.result = .received bs → bs.length = length

/-- The steps of a connection on which nothing is split. -/
def WholeStep (T : Target) (c : Conn) (i : Label) (c' : Conn) : Prop := Step T c i c' ∧ i.Whole

def received (events : List Event) : List UInt8 :=
  events.flatMap fun
    | .received bs => bs
    | _ => []

def inspected (events : List Event) : List (List UInt8) :=
  events.filterMap fun
    | .inspected memory => some memory
    | _ => none

@[simp] theorem received_append (evs evs' : List Event) :
    received (evs ++ evs') = received evs ++ received evs' := List.flatMap_append

@[simp] theorem received_nil : received [] = [] := rfl

@[simp] theorem received_cons (bs : List UInt8) (evs : List Event) :
    received (.received bs :: evs) = bs ++ received evs := rfl

@[simp] theorem inspected_append (evs evs' : List Event) :
    inspected (evs ++ evs') = inspected evs ++ inspected evs' := List.filterMap_append

theorem Dispatched.fresh {T : Target} {i : Label} {s : Session} {left : Except Exit Unit × Frame}
    (h : Dispatched T i s left) (hwhole : i.Whole) : Fresh left.2.ops := by
  cases h with
  | closed s' evs hends henv => exact .nothing
  | gone s' evs hends henv => exact .nothing
  | partly offset length bs s' hread hresult hpos hlt hs' =>
    exact absurd (hwhole offset length bs hread hresult) hlt.ne
  | written packet hwrite hresult => exact .read 32
  | whole offset length bs s' hread hresult hpos hlen hs' hinspected =>
    exact fresh_inspected hinspected rfl

namespace Conn

variable {T : Target} {c c' d : Conn} {i : Label} {log : List (Conn × Label)}

/-- What two connections wait for, when the second has not received the piece `p` that the first
has received of the header or body in progress. -/
inductive Ahead (p : List UInt8) (c d : Conn) : Prop where
  | ended (hc : c.pending = []) (hd : d.pending = [])
  | writing (packet : List UInt8) (hp : p = []) (hc : c.pending = [.write packet])
      (hd : d.pending = [.write packet]) (hs : c.session = d.session)
  | reading (want : Nat) (hp : p = [] ∨ p.length < want)
      (hc : c.pending = [.read p.length (want - p.length)]) (hd : d.pending = [.read 0 want])
      (hs : d.session.Stored 0 p c.session)

/-- A connection and one on which nothing is split, on the same stream. -/
structure Follows (c d : Conn) : Prop where
  inv : c.Inv
  invWhole : d.Inv
  closed : c.closed = d.closed
  exit : c.exit = d.exit
  buffers : inspected c.trace = inspected d.trace
  ahead : ∃ p, received c.trace = received d.trace ++ p ∧ Ahead p c d

/-- The same handler was run to its end on both. -/
theorem Follows.of_leave {trace trace' : List Event} {left left' : Except Exit Unit × Frame}
    (hc : (leave trace left).Inv) (hd : (leave trace' left').Inv) (hexit : left.1 = left'.1)
    (hclosed : left.2.closed = left'.2.closed) (hops : left.2.ops = left'.2.ops)
    (hfresh : Fresh left.2.ops) (hsession : left.2.ops ≠ [] → left.2.session = left'.2.session)
    (hinspected : inspected (trace ++ left.2.events) = inspected (trace' ++ left'.2.events))
    {p : List UInt8}
    (hreceived : received (trace ++ left.2.events) = received (trace' ++ left'.2.events) ++ p)
    (hp : left.2.ops ≠ [] → p = []) :
    (leave trace left).Follows (leave trace' left') where
  inv := hc
  invWhole := hd
  closed := hclosed
  exit := by
    obtain ⟨r, f⟩ := left
    obtain ⟨r', f'⟩ := left'
    cases hexit
    rfl
  buffers := hinspected
  ahead := by
    refine ⟨p, hreceived, ?_⟩
    cases hleft : left.2.ops with
    | nil => exact .ended hleft (hops.symm.trans hleft)
    | cons op ops =>
      have hne : left.2.ops ≠ [] := by simp [hleft]
      obtain rfl := hp hne
      have hs := hsession hne
      generalize hfreshOps : left.2.ops = started at hfresh
      cases hfresh with
      | nothing => exact absurd hfreshOps hne
      | write packet => exact .writing packet rfl hfreshOps (hops.symm.trans hfreshOps) hs
      | read n =>
        refine .reading n (.inl rfl) hfreshOps (hops.symm.trans hfreshOps) ?_
        rw [leave_session, leave_session, hs]
        exact .nil _

theorem Follows.step_same (h : c.Follows d) {j : Label} (hstep : Step T c i c')
    (hj : j.op ∈ d.pending) (hvalid : j.op.CanComplete j.result) (hwhole : j.Whole)
    {left left' : Except Exit Unit × Frame}
    (hleft : dispatch T i.env i.op i.result (.init c.session) = left)
    (hleft' : dispatch T j.env j.op j.result (.init d.session) = left')
    (hexit : left.1 = left'.1) (hclosed : left.2.closed = left'.2.closed)
    (hops : left.2.ops = left'.2.ops) (hfresh : Fresh left.2.ops)
    (hsession : left.2.ops ≠ [] → left.2.session = left'.2.session)
    (hinspected : inspected left.2.events = inspected left'.2.events) {p : List UInt8}
    (hreceived : received c.trace ++ received left.2.events =
      received d.trace ++ received left'.2.events ++ p) (hp : left.2.ops ≠ [] → p = []) :
    ∃ log d', Run (WholeStep T) d log d' ∧ c'.Follows d' := by
  have hstep' : Step T d j (d.complete T j) := ⟨h.exit.symm.trans hstep.returned, hj, hvalid, rfl⟩
  have hc' := h.inv.step hstep
  have hd' := h.invWhole.step hstep'
  refine ⟨_, _, .single ⟨hstep', hwhole⟩, ?_⟩
  rw [(hstep'.eq_leave h.invWhole).2, hleft'] at hd' ⊢
  rw [(hstep.eq_leave h.inv).2, hleft] at hc' ⊢
  exact .of_leave hc' hd' hexit hclosed hops hfresh hsession
    (by rw [inspected_append, inspected_append, h.buffers, hinspected])
    (by rw [received_append, received_append, hreceived]) hp

theorem Follows.step_failed (h : c.Follows d) {offset length want : Nat} {env : Env}
    (hstep : Step T c ⟨.read offset length, .failed, env⟩ c') (hd : d.pending = [.read 0 want])
    {p : List UInt8} (hreceived : received c.trace = received d.trace ++ p) :
    ∃ log d', Run (WholeStep T) d log d' ∧ c'.Follows d' := by
  have hwhole : Label.Whole ⟨.read 0 want, .failed, env⟩ := by
    intro offset length bs _ hresult
    cases hresult
  cases henv : env.connected with
  | true =>
    exact h.step_same hstep (j := ⟨.read 0 want, .failed, env⟩) (by simp [hd]) trivial hwhole
      (close_run henv) (close_run henv) rfl rfl rfl .nothing (fun hne => absurd rfl hne) rfl
      (by simpa [Frame.init] using hreceived) fun hne => absurd rfl hne
  | false =>
    exact h.step_same hstep (j := ⟨.read 0 want, .failed, env⟩) (by simp [hd]) trivial hwhole
      (close_gone henv) (close_gone henv) rfl rfl rfl .nothing (fun hne => absurd rfl hne) rfl
      (by simpa [Frame.init] using hreceived) fun hne => absurd rfl hne

/-- The first piece of a header or body: the other connection goes on waiting. -/
theorem Follows.step_first (h : c.Follows d) {want : Nat} {bs : List UInt8} {env : Env}
    (hstep : Step T c ⟨.read 0 want, .received bs, env⟩ c') (hd : d.pending = [.read 0 want])
    (hs : d.session.Stored 0 [] c.session) (hreceived : received c.trace = received d.trace)
    (hlt : bs.length < want) : c'.Follows d := by
  have hc' := h.inv.step hstep
  obtain ⟨-, heq⟩ := hstep.eq_leave h.inv
  have hleft := hstep.dispatched h.inv
  generalize dispatch T env _ _ (.init c.session) = left at hleft heq
  cases hleft with
  | closed s' evs hends henv => exact absurd hlt (hends.not_lt rfl rfl)
  | gone s' evs hends henv => exact absurd hlt (hends.not_lt rfl rfl)
  | whole offset length bs' s' hread hresult hpos hlen hs' hinspected =>
    cases hread
    cases hresult
    exact absurd hlen hlt.ne
  | written packet hwrite hresult => cases hwrite
  | partly offset length bs' s' hread hresult hpos hlt' hs' =>
    cases hread
    cases hresult
    subst heq
    exact
      { inv := hc'
        invWhole := h.invWhole
        closed := (h.invWhole.closed_eq_false (by simp [hd])).symm
        exit := (h.exit.symm.trans hstep.returned).symm
        buffers := by simpa [leave, inspected] using h.buffers
        ahead := ⟨bs, by simpa [leave, received] using hreceived,
          .reading want (.inr hlt) rfl hd (hs.join hs')⟩ }

/-- The last piece: the other connection receives it with the first. -/
theorem Follows.step_last (h : c.Follows d) {want : Nat} {p bs : List UInt8} {env : Env}
    (hstep : Step T c ⟨.read p.length (want - p.length), .received bs, env⟩ c')
    (hd : d.pending = [.read 0 want]) (hs : d.session.Stored 0 p c.session)
    (hreceived : received c.trace = received d.trace ++ p) (hp : p = [] ∨ p.length < want)
    (hlen : bs.length = want - p.length) :
    ∃ log d', Run (WholeStep T) d log d' ∧ c'.Follows d' := by
  have hlen' : (p ++ bs).length = want := by
    rw [List.length_append]
    rcases hp with rfl | hp
    · simpa using hlen
    · omega
  obtain ⟨s', hs'⟩ : ∃ s', c.session.Stored p.length bs s' := by
    have hreading := h.inv.reading _ _ (hstep.eq_leave h.inv).1
    have hwithin := hreading.within
    have hstorage := hreading.storage
    apply c.session.exists_stored
    omega
  have hwhole : Label.Whole ⟨.read p.length (want - p.length), .received bs, env⟩ := by
    rintro offset length bs' hread hresult
    cases hread
    cases hresult
    exact hlen
  have hwhole' : Label.Whole ⟨.read 0 want, .received (p ++ bs), env⟩ := by
    rintro offset length bs' hread hresult
    cases hread
    cases hresult
    exact hlen'
  have hsame : handleRead T env false want want =
      handleRead T env false (want - p.length) (want - p.length) := by
    rcases hp with rfl | hp
    · rfl
    · rw [handleRead_eq (by omega : 0 < want), handleRead_eq (by omega : 0 < want - p.length)]
  have hleft := dispatch_whole (T := T) env hs' hlen
  have hleft' := dispatch_whole (T := T) env (hs.join hs') hlen'
  rw [hsame] at hleft'
  have hfresh := (hstep.dispatched h.inv).fresh hwhole
  rw [hleft] at hfresh
  have hvalid : Op.CanComplete (.read 0 want) (.received (p ++ bs)) :=
    ⟨hlen'.le, fun hnil => by simpa [hnil] using hlen'.symm⟩
  exact h.step_same hstep (j := ⟨.read 0 want, .received (p ++ bs), env⟩) (by simp [hd]) hvalid
    hwhole' hleft hleft' rfl rfl rfl hfresh (fun _ => rfl) rfl (p := []) (by simp [hreceived])
    fun _ => rfl

/-- **One piece.** A piece that completes a read is matched by the whole read; one that does not
is matched by waiting. -/
theorem Follows.step (h : c.Follows d) (hguard : i.Unbroken) (hstep : Step T c i c') :
    ∃ log d', Run (WholeStep T) d log d' ∧ c'.Follows d' := by
  obtain ⟨hop, -⟩ := hstep.eq_leave h.inv
  obtain ⟨op, result, env⟩ := i
  obtain ⟨p, hreceived, hahead⟩ := h.ahead
  cases hahead with
  | ended hc hd => exact absurd hstep.pending (by simp [hc])
  | writing packet hp hc hd hs =>
    obtain rfl : op = .write packet := by simpa [hc] using hop.symm
    have hwhole : Label.Whole ⟨.write packet, result, env⟩ := by
      intro offset length bs hread
      cases hread
    refine h.step_same hstep (by simp [hd]) hstep.valid hwhole rfl (by rw [← hs]) rfl rfl rfl
      ((hstep.dispatched h.inv).fresh hwhole) (fun _ => rfl) rfl (p := []) ?_ fun _ => rfl
    rw [hreceived, hp, List.append_nil, List.append_nil]
  | reading want hp hc hd hs =>
    obtain rfl : op = .read p.length (want - p.length) := by simpa [hc] using hop.symm
    cases result with
    | written => exact hstep.valid.elim
    | failed => exact h.step_failed hstep hd hreceived
    | received bs =>
      have hle : bs.length ≤ want - p.length := hstep.valid.1
      rcases hle.lt_or_eq with hlt | hlen
      · obtain rfl : p = [] := List.length_eq_zero_iff.mp (hguard _ _ bs rfl rfl hlt)
        exact ⟨[], d, .nil, h.step_first hstep hd hs (by simpa using hreceived) hlt⟩
      · exact h.step_last hstep hd hs hreceived hp hlen

/-- What the splitting of the stream must not change. -/
structure Reassembled (T : Target) (start c : Conn) : Prop where
  /-- Reads that all complete whole leave the same buffers to look at. -/
  whole : ∃ log d, Run (WholeStep T) start log d ∧ c.Follows d
  /-- The bytes received for a header or body are at their place in the buffer. -/
  inPlace : c.InPlace

section Start

variable {now : Int} {uninit : Fin (FIELD_BMARK + 3) → Field} {env : Env} {s : Session}

theorem placed_started (hnew : newSession now uninit = .ok s) :
    (Conn.started env s).track.placed = true := by
  rcases started_cases hnew env with hgone | ⟨w, -, hreading⟩
  · rw [hgone]
    rfl
  · rw [hreading]
    rfl

theorem InPlace.started (hnew : newSession now uninit = .ok s) : (Conn.started env s).InPlace := by
  have hinv := Inv.started hnew env
  rcases started_cases hnew env with hgone | ⟨w, -, hreading⟩
  · rw [hgone] at hinv ⊢
    exact .of_fresh hinv rfl .nothing
  · rw [hreading] at hinv ⊢
    exact .of_fresh hinv rfl (.read 32)

theorem Follows.started (hnew : newSession now uninit = .ok s) :
    (Conn.started env s).Follows (.started env s) where
  inv := .started hnew env
  invWhole := .started hnew env
  closed := rfl
  exit := rfl
  buffers := rfl
  ahead := by
    refine ⟨[], (List.append_nil _).symm, ?_⟩
    rcases started_cases hnew env with hgone | ⟨w, -, hreading⟩
    · rw [hgone]
      exact .ended rfl rfl
    · rw [hreading]
      exact .reading 32 (.inl rfl) rfl rfl (.nil _)

/-- **Reassembly.** In a run every piece is read to its place exactly if no header and no body
takes a third piece, and then the run does not depend on how its stream is split. -/
theorem reassembled_of_unbroken (hnew : newSession now uninit = .ok s)
    (hrun : Run (Step T) (.started env s) log c) :
    (c.track.placed = true ↔ Meets (fun _ i => i.Unbroken) log) ∧
      (Meets (fun _ i => i.Unbroken) log → Reassembled T (.started env s) c) := by
  refine ⟨hrun.good_iff (.started hnew env)
    (placed_started hnew) .step placed_step, fun hguard => ⟨?_, ?_⟩⟩
  · exact hrun.simulates (Follows.started hnew) hguard fun h => h.step
  · have hkept := hrun.guarded (fun c => c.Inv ∧ c.InPlace) ⟨.started hnew env, .started hnew⟩
      hguard fun ⟨hinv, hplace⟩ hunbroken hstep =>
        ⟨hinv.step hstep, hplace.step hinv hunbroken hstep⟩
    exact hkept.2

end Start

def splitRun : List Label :=
  [ ⟨.read 0 32, .received (connectPacket.take 20), ⟨0, true⟩⟩
  , ⟨.read 20 12, .received ((connectPacket.take 32).drop 20), ⟨0, true⟩⟩ ]

theorem reassembled_splitRun :
    Reassembled (.build .little) fresh
      (fresh.play (.build .little) splitRun).2 := by
  have hplay : fresh.Playable (.build .little) splitRun := by decide +kernel
  have hboth := reassembled_of_unbroken (newSession_eq 0 _) hplay.run
  exact hboth.2 (hboth.1.mp (by decide +kernel))

/-- The third piece of a header goes to the place of the second. -/
theorem third_piece_misplaced :
    ¬ ∀ (T : Target) (now : Int) (uninit : Fin (FIELD_BMARK + 3) → Field) (env : Env) (s : Session)
        (log : List (Conn × Label)) (c : Conn), newSession now uninit = .ok s →
      Run (Step T) (.started env s) log c → Reassembled T (.started env s) c := by
  intro h
  have hplay : fresh.Playable (.build .little)
      [ ⟨.read 0 32, .received (connectPacket.take 1), ⟨0, true⟩⟩
      , ⟨.read 1 31, .received ((connectPacket.take 2).drop 1), ⟨0, true⟩⟩
      , ⟨.read 1 30, .received ((connectPacket.take 32).drop 2), ⟨0, true⟩⟩ ] := by decide +kernel
  have hplace := (h _ 0 _ _ _ _ _ (newSession_eq 0 _) hplay.run).inPlace.assembled
  exact absurd hplace (by decide +kernel)

end Conn

end Librtaio

import Librtaio.SessionSteps
import Librtaio.Transition

/-!
# Invariants of a session

A session keeps no record of what it waits for: it takes the phase from the
first word it received. The record is kept here, from the events of the past
(`Track`), and an invariant of every run ties the session's data to it. Three
properties hold of some runs only, and for each it is shown of which: that the
handlers run in order, that the session is never left without an operation, and
that it stays within its receive buffer.
-/

namespace Librtaio

open Exec Handler Transition

/-! ### What a session waits for -/

inductive Phase where
  | idle
  | header    -- a header is being read
  | accepted  -- a header was just accepted
  | body      -- a body is being read
deriving DecidableEq

/-- What the past says of the read in progress. -/
structure Track where
  phase : Phase
  want : Nat
  /-- The bytes of it that were received. -/
  got : List UInt8
  /-- The body size of the last accepted header. -/
  announced : Option Int
  /-- `handle_packet_header` was entered after reads of a whole header only, and
  `handle_packet_body` after reads of the whole body an accepted header announced. -/
  orderly : Bool
  /-- Every read that continued another asked for its bytes at their place. -/
  placed : Bool
  /-- Whenever `handle_read` looked at the buffer, the bytes received were at their place. -/
  assembled : Bool
deriving DecidableEq

namespace Track

def init : Track := ⟨.idle, 0, [], none, true, true, true⟩

def next (t : Track) : Event → Track
  | .armed .start (.read _ n) => { t with phase := .header, want := n, got := [] }
  | .armed .handleWrite (.read _ n) => { t with phase := .header, want := n, got := [] }
  | .armed .handlePacketHeader (.read _ n) =>
    { t with
      phase := .body
      want := n
      got := []
      orderly := t.orderly && decide (t.phase = .accepted ∧ t.announced = some n) }
  | .armed .handleRead (.read offset _) =>
    { t with placed := t.placed && decide (offset = t.got.length) }
  | .received bs => { t with got := t.got ++ bs }
  | .inspected memory =>
    { t with assembled := t.assembled && decide (memory.take t.got.length = t.got) }
  | .enteredHeader =>
    { t with
      phase := .idle
      orderly := t.orderly && decide (t.phase = .header ∧ t.want = 32 ∧ t.got.length = 32) }
  | .acceptedHeader n => { t with phase := .accepted, announced := some n }
  | .enteredBody =>
    { t with
      phase := .idle
      orderly := t.orderly && decide (t.phase = .body ∧ t.got.length = t.want) }
  | _ => t

/-- The record after some events. -/
def run (t : Track) (events : List Event) : Track := events.foldl next t

theorem run_append (t : Track) (evs evs' : List Event) :
    t.run (evs ++ evs') = (t.run evs).run evs' := List.foldl_append

@[simp] theorem run_nil (t : Track) : t.run [] = t := rfl

@[simp] theorem run_cons (t : Track) (e : Event) (evs : List Event) :
    t.run (e :: evs) = (t.next e).run evs := rfl

end Track

namespace Conn

def track (c : Conn) : Track := Track.init.run c.trace

/-- The size `m_recv_buffer` was last given: that of the last accepted header's body, or a
header's. -/
def announced (c : Conn) : Int := c.track.announced.getD 32

end Conn

/-! ### The invariant of every run -/

/-- A read in progress: it is the part that is missing of a header or of the body that was
announced, and its window was checked against the buffer as it still is. -/
structure Conn.Reading (c : Conn) (offset length : Nat) : Prop where
  phase : c.track.phase = .header ∧ c.track.want = 32 ∨
    c.track.phase = .body ∧ c.track.announced = some ↑c.track.want
  got : c.track.got.length + length = c.track.want
  first : offset = 0 ↔ c.track.got = []
  within : offset + length ≤ c.track.want
  storage : c.track.want ≤ c.session.memory.length
  window : .window offset length c.session.recvBuffer.size ∈ c.trace

/-- What holds in every run. -/
structure Conn.Inv (c : Conn) : Prop where
  /-- No handler left an operation behind when it did not return. -/
  left : c.exit ≠ none → c.pending = []
  closed : c.closed = true → c.pending = []
  single : c.pending ≠ [] → ∃ op, c.pending = [op]
  ready : c.pending ≠ [] → c.session.Ready
  size : c.pending ≠ [] → c.session.recvBuffer.size = c.announced
  size_lt : c.pending ≠ [] → c.session.recvBuffer.size < 2 ^ 31
  /-- The header table still holds the last accepted header. -/
  bsize : c.pending ≠ [] → ∀ n, c.track.announced = some n → c.session.headerInt FIELD_BSIZE = n
  reading : ∀ offset length, c.pending = [.read offset length] → c.Reading offset length

/-- The connection a handler leaves that was entered with nothing else in flight. -/
def Conn.leave (trace : List Event) (left : Except Exit Unit × Frame) : Conn where
  session := left.2.session
  pending := left.2.ops
  closed := left.2.closed
  exit := raised left.1
  trace := trace ++ left.2.events

theorem Conn.Inv.closed_eq_false {c : Conn} (hc : c.Inv) (hne : c.pending ≠ []) :
    c.closed = false := by
  by_contra hclosed
  exact hne (hc.closed (by simpa using hclosed))

/-- The handler of a step was entered with nothing else in flight. -/
theorem Step.eq_leave {T : Target} {c c' : Conn} {i : Label} (h : Step T c i c') (hc : c.Inv) :
    c.pending = [i.op] ∧ c' = .leave c.trace (dispatch T i.env i.op i.result (.init c.session)) := by
  have hne : c.pending ≠ [] := List.ne_nil_of_mem h.pending
  obtain ⟨op, hop⟩ := hc.single hne
  obtain rfl : i.op = op := by simpa [hop] using h.pending
  have herase : c.pending.erase i.op = [] := by rw [hop, List.erase_cons_head]
  refine ⟨hop, h.eq.trans ?_⟩
  simp [Conn.complete, Conn.after, Conn.leave, herase, hc.closed_eq_false hne]

theorem Step.dispatched {T : Target} {c c' : Conn} {i : Label} (h : Step T c i c') (hc : c.Inv) :
    Dispatched T i c.session (dispatch T i.env i.op i.result (.init c.session)) := by
  obtain ⟨hop, -⟩ := h.eq_leave hc
  refine dispatch_cases (hc.ready (by simp [hop])) h.valid ?_
  intro offset length hread
  rw [hread] at hop
  have hreading := hc.reading offset length hop
  exact le_trans hreading.within hreading.storage

/-- **The steps of a connection.** -/
theorem Step.cases {T : Target} {c c' : Conn} {i : Label} (h : Step T c i c') (hc : c.Inv) :
    c.pending = [i.op] ∧ ∃ left, Dispatched T i c.session left ∧ c' = .leave c.trace left :=
  ⟨(h.eq_leave hc).1, _, h.dispatched hc, (h.eq_leave hc).2⟩

namespace Conn

variable {trace : List Event} {left : Except Exit Unit × Frame}

@[simp] theorem leave_session : (leave trace left).session = left.2.session := rfl

@[simp] theorem leave_pending : (leave trace left).pending = left.2.ops := rfl

@[simp] theorem leave_closed : (leave trace left).closed = left.2.closed := rfl

@[simp] theorem leave_trace : (leave trace left).trace = trace ++ left.2.events := rfl

theorem track_leave : (leave trace left).track = (Track.init.run trace).run left.2.events :=
  Track.run_append _ _ _

theorem Inv.of_nil {c : Conn} (h : c.pending = []) : c.Inv where
  left := fun _ => h
  closed := fun _ => h
  single := fun hne => absurd h hne
  ready := fun hne => absurd h hne
  size := fun hne => absurd h hne
  size_lt := fun hne => absurd h hne
  bsize := fun hne => absurd h hne
  reading := fun _ _ hread => absurd (h.symm.trans hread) (by simp)

theorem Inv.of_single {s : Session} {op : Op} {evs : List Event} (hready : s.Ready)
    (hsize : s.recvBuffer.size = (leave trace (.ok (), ⟨s, [op], false, evs⟩)).announced)
    (hlt : s.recvBuffer.size < 2 ^ 31)
    (hbsize : ∀ n, ((Track.init.run trace).run evs).announced = some n →
      s.headerInt FIELD_BSIZE = n)
    (hreading : ∀ offset length, op = .read offset length →
      (leave trace (.ok (), ⟨s, [op], false, evs⟩)).Reading offset length) :
    (leave trace (.ok (), ⟨s, [op], false, evs⟩)).Inv where
  left := fun h => absurd rfl h
  closed := fun h => absurd h (by simp [leave])
  single := fun _ => ⟨op, rfl⟩
  ready := fun _ => hready
  size := fun _ => hsize
  size_lt := fun _ => hlt
  bsize := fun _ n hn => hbsize n (by rwa [track_leave] at hn)
  reading := fun offset length h => hreading offset length (by simpa [leave] using h)

/-- A read that continues no other. -/
theorem Reading.of_start {c : Conn} {n : Nat}
    (hphase : c.track.phase = .header ∧ c.track.want = 32 ∨
      c.track.phase = .body ∧ c.track.announced = some ↑c.track.want)
    (hwant : c.track.want = n) (hgot : c.track.got = []) (hstorage : n ≤ c.session.memory.length)
    (hwindow : .window 0 n c.session.recvBuffer.size ∈ c.trace) : c.Reading 0 n where
  phase := hphase
  got := by rw [hgot, hwant]; exact Nat.zero_add n
  first := iff_of_true rfl hgot
  within := by rw [hwant, Nat.zero_add]
  storage := by rw [hwant]; exact hstorage
  window := hwindow

section Kept

variable {c : Conn} {offset length : Nat} {bs : List UInt8} {s' : Session}

/-- A piece of a header or body, and the read for the rest. -/
theorem Inv.partly (hc : c.Inv) (hread : c.pending = [.read offset length])
    (hpos : 0 < bs.length) (hshort : bs.length < length) (hs' : c.session.Stored offset bs s') :
    (leave c.trace (.ok (), ⟨s', [.read bs.length (length - bs.length)], false,
      [.received bs, .window bs.length (length - bs.length) s'.recvBuffer.size,
        .armed .handleRead (.read bs.length (length - bs.length))]⟩)).Inv := by
  have hne : c.pending ≠ [] := by simp [hread]
  have hreading := hc.reading offset length hread
  have hgot := hreading.got
  have hwithin := hreading.within
  have hmemory : s'.memory.length = c.session.memory.length := by
    have hfit := hs'.fit
    rw [hs'.memory]
    simp only [List.length_append, List.length_take, List.length_drop]
    omega
  refine .of_single (hs'.ready (hc.ready hne)) ?_ (by rw [hs'.size]; exact hc.size_lt hne) ?_ ?_
  · rw [hs'.size, hc.size hne, announced, announced, track_leave]
    rfl
  · intro n hn
    rw [hs'.headerInt]
    exact hc.bsize hne n hn
  · intro offset' length' hread'
    cases hread'
    constructor
    case window => simp [leave]
    all_goals rw [track_leave]
    case phase => exact hreading.phase
    case got =>
      change (c.track.got ++ bs).length + (length - bs.length) = c.track.want
      rw [List.length_append]
      omega
    case first =>
      change bs.length = 0 ↔ c.track.got ++ bs = []
      rw [List.append_eq_nil_iff, ← List.length_eq_zero_iff (l := bs)]
      omega
    case within =>
      change bs.length + (length - bs.length) ≤ c.track.want
      omega
    case storage =>
      change c.track.want ≤ s'.memory.length
      rw [hmemory]
      exact hreading.storage

/-- The reply was written, and the next header is read. -/
theorem Inv.written (hc : c.Inv) (hne : c.pending ≠ []) :
    (leave c.trace (.ok (), ⟨c.session, [.read 0 32], false,
      [.window 0 32 c.session.recvBuffer.size, .armed .handleWrite (.read 0 32)]⟩)).Inv := by
  refine .of_single (hc.ready hne) ?_ (hc.size_lt hne) ?_ ?_
  · rw [hc.size hne, announced, announced, track_leave]
    rfl
  · intro n hn
    exact hc.bsize hne n hn
  · intro offset' length' hread'
    cases hread'
    refine .of_start ?_ ?_ ?_ (hc.ready hne).storage (by simp [leave]) <;> rw [track_leave]
    · exact .inl ⟨rfl, rfl⟩
    · rfl
    · rfl

theorem Inv.header {evs : List Event} {left : Except Exit Int × Frame}
    (h : HeaderHandled ⟨s', [], false, evs⟩ left) : (leave trace (dropCode left)).Inv := by
  cases h with
  | rejected ret packetHeader hreject hlength => exact .of_nil rfl
  | negative s'' haccept hneg => exact .of_nil rfl
  | accepted n s'' haccept hn hready hsize hbsize =>
    have hn31 : (n : Int) < 2 ^ 31 := by
      rw [← hn]
      exact BitVec.toInt_lt
    refine .of_single hready ?_ (by omega) ?_ ?_
    · rw [hsize, announced, track_leave, Track.run_append]
      rfl
    · intro m hm
      rw [Track.run_append] at hm
      cases hm
      exact hbsize
    · intro offset' length' hread'
      cases hread'
      refine .of_start ?_ ?_ ?_ (hsize.symm.trans_le s''.recvBuffer.size_le)
        (by simp [leave, hsize]) <;> rw [track_leave, Track.run_append]
      · exact .inr ⟨rfl, rfl⟩
      · rfl
      · rfl

theorem Inv.body {T : Target} {env : Env} {evs : List Event} {left : Except Exit Int × Frame}
    (hc : c.Inv) (hne : c.pending ≠ []) (hs' : c.session.Stored offset bs s')
    (hevs : (c.track.run evs).announced = c.track.announced)
    (h : BodyHandled T env ⟨s', [], false, evs⟩ left) : (leave c.trace (dropCode left)).Inv := by
  cases h with
  | unhandled htable => exact .of_nil rfl
  | undecoded fields fields' code htable hdecode hcode => exact .of_nil rfl
  | faulted fields fault htable hdecode => exact .of_nil rfl
  | disconnected fields fields' hmethod htable hdecode henv => exact .of_nil rfl
  | gone fields fields' hmethod htable hdecode henv => exact .of_nil rfl
  | replied fields fields' packet hmethod htable hdecode hpacket =>
    have hready := hs'.ready (hc.ready hne)
    refine .of_single ⟨hready.headerSize, hready.packetHeader, hready.storage⟩ ?_
      (hs'.size.trans_lt (hc.size_lt hne)) ?_ ?_
    · have hsize : (s'.recvBuffer.size : Int) = ((c.track.run evs).announced).getD 32 := by
        rw [hs'.size, hevs]
        exact hc.size hne
      rw [announced, track_leave, Track.run_append]
      exact hsize
    · intro n hn
      rw [Track.run_append] at hn
      exact (hs'.headerInt FIELD_BSIZE).trans (hc.bsize hne n (hevs.symm.trans hn))
    · intro offset' length' hread'
      cases hread'

end Kept

/-- **Every step keeps the invariant.** -/
theorem Inv.step {T : Target} {c c' : Conn} {i : Label} (hc : c.Inv) (h : Step T c i c') :
    c'.Inv := by
  obtain ⟨hop, left, hleft, rfl⟩ := h.cases hc
  have hne : c.pending ≠ [] := by simp [hop]
  cases hleft with
  | closed s' evs hends henv => exact .of_nil rfl
  | gone s' evs hends henv => exact .of_nil rfl
  | partly offset length bs s' hread hresult hpos hshort hs' =>
    exact hc.partly (by rw [hop, hread]) hpos hshort hs'
  | written packet hwrite hresult => exact hc.written hne
  | whole offset length bs s' hread hresult hpos hlen hs' hinspected =>
    cases hinspected with
    | unknown hhead hbody => exact .of_nil rfl
    | header hmark hheader => exact .header hheader
    | body hmark hbody => exact hc.body hne hs' rfl hbody

end Conn

/-! ### Every reachable state -/

theorem newSession_eq (now : Int) (uninit : Fin (FIELD_BMARK + 3) → Field) :
    newSession now uninit = .ok ⟨32, List.ofFn uninit, .empty, .empty⟩ := by
  have hfields : (MsgTable.ofBody now MSG_COMMON 0 1 [] (.singleton _)).fields =
      msgCommonReqFields now MSG_COMMON := rfl
  have hsizes := (MsgTable.ofBody now MSG_COMMON 0 1 [] (.singleton _)).fieldsSize_fields
    (show 44 < 2 ^ 31 by decide)
    ⟨none, some 0, none, none⟩
  rw [hfields] at hsizes
  rw [newSession, hsizes]
  rfl

theorem start_run {env : Env} {s : Session} (hsize : s.headerSize = 32)
    (hconnected : env.connected = true) :
    ∃ w, w.size = 32 ∧ start env (.init s) = (.ok (), ⟨{ s with recvBuffer := w }, [.read 0 32], false,
      [.window 0 32 32, .armed .start (.read 0 32)]⟩) := by
  obtain ⟨w, hresize, hwsize, -⟩ := s.recvBuffer.resize_clear (n := 32) (by decide)
  have hremote : remoteEndpoint env (.init s) = (.ok (), .init s) := by
    rw [remoteEndpoint, if_pos hconnected]
    rfl
  have hsize' : w.size = 32 := by exact_mod_cast hwsize
  refine ⟨w, hsize', ?_⟩
  rw [start, bind_of_ok hremote]
  simp only [get_bind, Frame.init, hsize, hresize, lift_ok_bind, set_bind, asyncReadSome_run, hsize',
    List.nil_append]
  rfl

theorem start_gone {env : Env} {s : Session} (hconnected : env.connected = false) :
    start env (.init s) = (.error .exception, .init s) := by
  have hremote : remoteEndpoint env (.init s) = (.error .exception, .init s) := by
    rw [remoteEndpoint, if_neg (by simp [hconnected])]
    rfl
  exact bind_of_error hremote _

/-- A connection starts with the read of a header, if the peer is still there. -/
theorem Conn.started_cases {now : Int} {uninit : Fin (FIELD_BMARK + 3) → Field} {s : Session}
    (hnew : newSession now uninit = .ok s) (env : Env) :
    Conn.started env s = .leave [] (.error .exception, .init s) ∨
      ∃ w, w.size = 32 ∧ Conn.started env s = .leave []
        (.ok (), ⟨⟨32, List.ofFn uninit, w, .empty⟩, [.read 0 32], false,
          [.window 0 32 32, .armed .start (.read 0 32)]⟩) := by
  rw [newSession_eq] at hnew
  cases hnew
  cases hconnected : env.connected with
  | false =>
    left
    rw [Conn.started, start_gone hconnected]
    rfl
  | true =>
    obtain ⟨w, hsize, hstart⟩ :=
      start_run (s := ⟨32, List.ofFn uninit, .empty, .empty⟩) rfl hconnected
    right
    refine ⟨w, hsize, ?_⟩
    rw [Conn.started, hstart]
    rfl

theorem Conn.Inv.started {now : Int} {uninit : Fin (FIELD_BMARK + 3) → Field} {s : Session}
    (hnew : newSession now uninit = .ok s) (env : Env) : (Conn.started env s).Inv := by
  rcases Conn.started_cases hnew env with h | ⟨w, hsize, h⟩ <;> rw [h]
  · exact .of_nil rfl
  · have hstorage : 32 ≤ w.storage.length := hsize.symm.trans_le w.size_le
    refine .of_single ⟨rfl, List.length_ofFn, hstorage⟩ ?_ (by rw [hsize]; decide) ?_ ?_
    · rw [hsize, Conn.announced, Conn.track_leave]
      rfl
    · intro n hn
      cases hn
    · intro offset length hread
      cases hread
      refine .of_start ?_ ?_ ?_ hstorage (by simp [Conn.leave, hsize]) <;> rw [Conn.track_leave]
      · exact .inl ⟨rfl, rfl⟩
      · rfl
      · rfl

/-- A connection reaches `c` from its accept on, by the completions in the log. -/
def Conn.Reaches (c : Conn) (T : Target) (log : List (Conn × Label)) : Prop :=
  ∃ now uninit env s, newSession now uninit = .ok s ∧ Run (Step T) (.started env s) log c

namespace Conn

variable {T : Target} {c : Conn} {log : List (Conn × Label)}

/-- **The invariant holds in every reachable state.** -/
theorem Reaches.inv (h : c.Reaches T log) : c.Inv := by
  obtain ⟨now, uninit, env, s, hnew, hrun⟩ := h
  exact hrun.invariant (.started hnew env) .step

/-- The completions can happen one after the other. -/
def Playable (T : Target) : Conn → List Label → Prop
  | _, [] => True
  | c, i :: is => c.exit = none ∧ i.op ∈ c.pending ∧ i.op.CanComplete i.result ∧
    Playable T (c.complete T i) is

def play (T : Target) : Conn → List Label → List (Conn × Label) × Conn
  | c, [] => ([], c)
  | c, i :: is => ((c, i) :: ((c.complete T i).play T is).1, ((c.complete T i).play T is).2)

instance decidablePlayable (T : Target) (c : Conn) (is : List Label) :
    Decidable (c.Playable T is) :=
  match is with
  | [] => .isTrue trivial
  | i :: is =>
    have := decidablePlayable T (c.complete T i) is
    inferInstanceAs (Decidable (_ ∧ _ ∧ _ ∧ _))

theorem Playable.run {is : List Label} (h : c.Playable T is) :
    Run (Step T) c (c.play T is).1 (c.play T is).2 := by
  induction is generalizing c with
  | nil => exact .nil
  | cons i is ih =>
    obtain ⟨hexit, hpending, hvalid, hrest⟩ := h
    exact (Run.single ⟨hexit, hpending, hvalid, rfl⟩).trans (ih hrest)

/-- A connection whose header table holds nothing of use yet. -/
def fresh : Conn :=
  .started ⟨0, true⟩ ⟨32, List.ofFn (n := FIELD_BMARK + 3) fun _ => ⟨0, 0, 0, none, 0⟩, .empty, .empty⟩

theorem Playable.reaches {is : List Label} (h : fresh.Playable T is) :
    (fresh.play T is).2.Reaches T (fresh.play T is).1 :=
  ⟨0, fun _ => ⟨0, 0, 0, none, 0⟩, ⟨0, true⟩, _, newSession_eq _ _, h.run⟩

/-- The packet of a client named `"a"`, process `"bc"`, that connects. -/
def connectPacket : List UInt8 :=
  ((MsgTable.connectReq 7 [0x61, 0] [0x62, 0x63, 0] (by decide) (by decide)).sent
    (.build .little)).wire (.build .little)

end Conn

end Librtaio

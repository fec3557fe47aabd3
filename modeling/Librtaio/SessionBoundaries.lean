import Librtaio.SessionInvariants

/-!
# Packet boundaries

`start`, `handle_write` and `handle_packet_header` each ask for the bytes of one
header or one body; a completion with fewer makes `handle_read` ask for the rest,
and the count of what is missing is all it keeps. The bytes are metered here, from
the events of the past: between two looks at the buffer exactly one read is
started, and exactly its bytes are taken from the connection.
-/

namespace Librtaio

open Exec Handler Transition

/-- What was read since `handle_read` last looked at the buffer. -/
structure Meter where
  /-- The reads that were started, with the functions that started them; those that continue
  another one do not count. -/
  reads : List (Site × Nat)
  /-- The bytes that were received. -/
  taken : Nat
  /-- The body size of the last accepted header. -/
  accepted : Option Int
deriving DecidableEq

namespace Meter

def init : Meter := ⟨[], 0, none⟩

def next (m : Meter) : Event → Meter
  | .inspected _ => { m with reads := [], taken := 0 }
  | .received bs => { m with taken := m.taken + bs.length }
  | .acceptedHeader n => { m with accepted := some n }
  | .armed .handleRead (.read _ _) => m
  | .armed site (.read _ n) => { m with reads := m.reads ++ [(site, n)] }
  | _ => m

def run (m : Meter) (events : List Event) : Meter := events.foldl next m

theorem run_append (m : Meter) (evs evs' : List Event) :
    m.run (evs ++ evs') = (m.run evs).run evs' := List.foldl_append

/-- The read in progress is one of `n` bytes: a header's, or those of the body that was announced. -/
inductive Armed (m : Meter) : Nat → Prop where
  | header (site : Site) (hreads : m.reads = [(site, 32)])
      (hsite : site = .start ∨ site = .handleWrite) : m.Armed 32
  | body (n : Nat) (hreads : m.reads = [(.handlePacketHeader, n)]) (haccepted : m.accepted = some ↑n) :
      m.Armed n

/-- What the bytes read so far allow to happen next. -/
def Allows (m : Meter) : Event → Prop
  | .received bs => ∃ n, m.Armed n ∧ m.taken + bs.length ≤ n
  | .inspected _ => ∃ n, m.Armed n ∧ m.taken = n ∧ 1 ≤ n
  | .armed .handleRead (.read _ missing) => ∃ n, m.Armed n ∧ m.taken + missing = n ∧ 1 ≤ missing
  | .armed _ (.read _ _) => m.reads = [] ∧ m.taken = 0
  | _ => True

/-- Every event is one that those before it allow. -/
def Bounded (m : Meter) : List Event → Prop
  | [] => True
  | e :: evs => m.Allows e ∧ (m.next e).Bounded evs

theorem bounded_append {m : Meter} {evs evs' : List Event} :
    m.Bounded (evs ++ evs') ↔ m.Bounded evs ∧ (m.run evs).Bounded evs' := by
  induction evs generalizing m with
  | nil => exact (and_iff_right trivial).symm
  | cons e evs ih =>
    rw [List.cons_append, Bounded, Bounded, ih, and_assoc]
    exact Iff.rfl

theorem Bounded.allows {m : Meter} {evs evs' : List Event} {e : Event}
    (h : m.Bounded (evs ++ e :: evs')) : (m.run evs).Allows e :=
  (bounded_append.mp h).2.1

variable {m : Meter} {n : Nat}

/-- More bytes of the read in progress leave it in progress. -/
theorem Armed.received (h : m.Armed n) (bs : List UInt8) : (m.next (.received bs)).Armed n := by
  cases h with
  | header site hreads hsite => exact .header site hreads hsite
  | body n hreads haccepted => exact .body n hreads haccepted

end Meter

/-! ### The meter of a run -/

namespace Conn

variable {T : Target} {c c' : Conn} {i : Label} {log : List (Conn × Label)}

def meter (c : Conn) : Meter := Meter.init.run c.trace

/-- What the meter says in every run: of a read in flight just the missing bytes are asked for. -/
structure Metered (c : Conn) : Prop where
  bounded : Meter.init.Bounded c.trace
  reading : ∀ offset length, c.pending = [.read offset length] →
    ∃ n, c.meter.Armed n ∧ c.meter.taken + length = n
  writing : ∀ packet, c.pending = [.write packet] → c.meter.reads = [] ∧ c.meter.taken = 0

section Kept

variable {trace : List Event} {left : Except Exit Unit × Frame}

theorem meter_leave : (leave trace left).meter = (Meter.init.run trace).run left.2.events :=
  Meter.run_append _ _ _

theorem Metered.of_nil (hpending : left.2.ops = []) (hpast : Meter.init.Bounded trace)
    (hevents : (Meter.init.run trace).Bounded left.2.events) : (leave trace left).Metered where
  bounded := Meter.bounded_append.mpr ⟨hpast, hevents⟩
  reading := fun _ _ h => by cases hpending.symm.trans h
  writing := fun _ h => by cases hpending.symm.trans h

/-- A header that was looked at: nothing is in flight after it, or the read of its body. -/
theorem Metered.header {evs : List Event} {s : Session} {left : Except Exit Int × Frame}
    (h : HeaderHandled ⟨s, [], false, evs⟩ left) (hpast : Meter.init.Bounded trace)
    (hevents : (Meter.init.run trace).Bounded evs)
    (hfresh : ((Meter.init.run trace).run evs).reads = [] ∧
      ((Meter.init.run trace).run evs).taken = 0) :
    (leave trace (dropCode left)).Metered := by
  cases h with
  | rejected ret packetHeader hreject hlength =>
    refine .of_nil rfl hpast (Meter.bounded_append.mpr ⟨hevents, ?_⟩)
    exact ⟨trivial, trivial, trivial⟩
  | negative s' haccept hneg =>
    refine .of_nil rfl hpast (Meter.bounded_append.mpr ⟨hevents, ?_⟩)
    exact ⟨trivial, trivial, trivial, trivial⟩
  | accepted n s' haccept hn hready hsize hbsize =>
    constructor
    case bounded =>
      refine Meter.bounded_append.mpr ⟨hpast, Meter.bounded_append.mpr ⟨hevents, ?_⟩⟩
      exact ⟨trivial, trivial, trivial, trivial, hfresh, trivial⟩
    case reading =>
      intro offset length hread
      cases hread
      refine ⟨n, ?_, ?_⟩ <;> rw [meter_leave, dropCode_snd, Meter.run_append]
      · exact .body n (congrArg (· ++ [(Site.handlePacketHeader, n)]) hfresh.1) rfl
      · change ((Meter.init.run trace).run evs).taken + n = n
        rw [hfresh.2, Nat.zero_add]
    case writing =>
      intro packet hwrite
      cases hwrite

theorem Metered.body {env : Env} {evs : List Event} {s : Session}
    {left : Except Exit Int × Frame} (h : BodyHandled T env ⟨s, [], false, evs⟩ left)
    (hpast : Meter.init.Bounded trace) (hevents : (Meter.init.run trace).Bounded evs)
    (hfresh : ((Meter.init.run trace).run evs).reads = [] ∧
      ((Meter.init.run trace).run evs).taken = 0) :
    (leave trace (dropCode left)).Metered := by
  -- nothing that a body's handler does is metered
  have hquiet : ((Meter.init.run trace).run evs).Bounded [.enteredBody, s.bodyWindow] :=
    ⟨trivial, trivial, trivial⟩
  cases h with
  | unhandled htable =>
    exact .of_nil rfl hpast (Meter.bounded_append.mpr ⟨hevents, trivial, trivial⟩)
  | undecoded fields fields' code htable hdecode hcode =>
    exact .of_nil rfl hpast (Meter.bounded_append.mpr ⟨hevents, hquiet⟩)
  | faulted fields fault htable hdecode =>
    exact .of_nil rfl hpast (Meter.bounded_append.mpr ⟨hevents, hquiet⟩)
  | disconnected fields fields' hmethod htable hdecode henv =>
    exact .of_nil rfl hpast (Meter.bounded_append.mpr ⟨hevents, hquiet⟩)
  | gone fields fields' hmethod htable hdecode henv =>
    exact .of_nil rfl hpast (Meter.bounded_append.mpr ⟨hevents, hquiet⟩)
  | replied fields fields' packet hmethod htable hdecode hpacket =>
    constructor
    case bounded =>
      refine Meter.bounded_append.mpr ⟨hpast, Meter.bounded_append.mpr ⟨hevents, ?_⟩⟩
      exact ⟨trivial, trivial, trivial, trivial, trivial⟩
    case reading =>
      intro offset length hread
      cases hread
    case writing =>
      intro packet' hwrite
      rw [meter_leave, dropCode_snd, Meter.run_append]
      exact hfresh

end Kept

theorem Metered.step (hmetered : c.Metered) (hc : c.Inv) (h : Step T c i c') : c'.Metered := by
  obtain ⟨hop, left, hleft, rfl⟩ := h.cases hc
  have hpast := hmetered.bounded
  have hended {evs : List Event} (hends : i.Ends evs) : c.meter.Bounded evs := by
    cases hends with
    | failed hresult => trivial
    | nothing offset hread hresult =>
      obtain ⟨n, harmed, htaken⟩ := hmetered.reading offset 0 (by rw [hop, hread])
      exact ⟨⟨n, harmed, htaken.le⟩, trivial⟩
  cases hleft with
  | closed s' evs hends henv => exact .of_nil rfl hpast (hended hends)
  | gone s' evs hends henv => exact .of_nil rfl hpast (hended hends)
  | partly offset length bs s' hread hresult hpos hlt hs' =>
    obtain ⟨n, harmed, htaken⟩ := hmetered.reading offset length (by rw [hop, hread])
    have hroom : c.meter.taken + bs.length ≤ n := by omega
    have hmissing : c.meter.taken + bs.length + (length - bs.length) = n := by omega
    constructor
    case bounded =>
      refine Meter.bounded_append.mpr ⟨hpast, ⟨n, harmed, hroom⟩, trivial, ?_, trivial⟩
      exact ⟨n, harmed.received bs, hmissing, by omega⟩
    case reading =>
      intro offset' length' hread'
      cases hread'
      rw [meter_leave]
      exact ⟨n, harmed.received bs, hmissing⟩
    case writing =>
      intro packet hwrite
      cases hwrite
  | written packet hwrite hresult =>
    obtain ⟨hreads, htaken⟩ := hmetered.writing packet (by rw [hop, hwrite])
    constructor
    case bounded =>
      exact Meter.bounded_append.mpr ⟨hpast, trivial, ⟨hreads, htaken⟩, trivial⟩
    case reading =>
      intro offset length hread
      cases hread
      refine ⟨32, ?_, ?_⟩ <;> rw [meter_leave]
      · exact .header .handleWrite (congrArg (· ++ [(Site.handleWrite, 32)]) hreads) (.inr rfl)
      · change c.meter.taken + 32 = 32
        rw [htaken]
    case writing =>
      intro packet' hwrite'
      cases hwrite'
  | whole offset length bs s' hread hresult hpos hlen hs' hinspected =>
    obtain ⟨n, harmed, htaken⟩ := hmetered.reading offset length (by rw [hop, hread])
    have hall : c.meter.taken + bs.length = n := by rw [hlen, htaken]
    have hlooked : c.meter.Bounded [.received bs, .inspected s'.memory,
        .window 0 4 s'.recvBuffer.size] :=
      ⟨⟨n, harmed, hall.le⟩, ⟨n, harmed.received bs, hall, by omega⟩, trivial, trivial⟩
    have hfresh : (c.meter.run [.received bs, .inspected s'.memory,
          .window 0 4 s'.recvBuffer.size]).reads = [] ∧
        (c.meter.run [.received bs, .inspected s'.memory,
          .window 0 4 s'.recvBuffer.size]).taken = 0 := ⟨rfl, rfl⟩
    cases hinspected with
    | unknown hhead hbody => exact .of_nil rfl hpast hlooked
    | header hmark hheader => exact .header hheader hpast hlooked hfresh
    | body hmark hbody => exact .body hbody hpast hlooked hfresh

theorem Metered.started {now : Int} {uninit : Fin (FIELD_BMARK + 3) → Field} {s : Session}
    (hnew : newSession now uninit = .ok s) (env : Env) : (Conn.started env s).Metered := by
  rcases started_cases hnew env with hgone | ⟨w, -, hreading⟩
  · rw [hgone]
    exact .of_nil rfl trivial trivial
  · rw [hreading]
    constructor
    case bounded => exact ⟨trivial, ⟨rfl, rfl⟩, trivial⟩
    case reading =>
      intro offset length hread
      cases hread
      exact ⟨32, .header .start rfl (.inl rfl), rfl⟩
    case writing =>
      intro packet hwrite
      cases hwrite

theorem Reaches.metered (h : c.Reaches T log) : c.Metered := by
  obtain ⟨now, uninit, env, s, hnew, hrun⟩ := h
  induction hrun with
  | nil => exact .started hnew env
  | snoc hrun hstep ih =>
    have hinv := hrun.invariant (.started hnew env) Inv.step
    exact ih.step hinv hstep

/-- **Packet boundaries.** In every run, whenever `handle_read` looks at the buffer the session has
taken exactly the bytes of the header or the body it asked for; no completion takes more, and what
it asks for again is what is missing. -/
theorem reads_bounded (h : c.Reaches T log) :
    ∀ before e after, c.trace = before ++ e :: after → (Meter.init.run before).Allows e := by
  intro before e after htrace
  have hbounded := h.metered.bounded
  rw [htrace] at hbounded
  exact hbounded.allows

/-- A header read whole, and its body in three pieces. -/
def piecesRun : List Label :=
  [ ⟨.read 0 32, .received (connectPacket.take 32), ⟨0, true⟩⟩
  , ⟨.read 0 21, .received ((connectPacket.drop 32).take 4), ⟨0, true⟩⟩
  , ⟨.read 4 17, .received ((connectPacket.drop 36).take 1), ⟨0, true⟩⟩
  , ⟨.read 1 16, .received (connectPacket.drop 37), ⟨0, true⟩⟩ ]

/-- After two pieces `handle_read` asks for the 16 bytes that are missing. -/
theorem reads_bounded_pieces :
    (Meter.init.run ((fresh.play (.build .little) piecesRun).2.trace.take 15)).Allows
      (.armed .handleRead (.read 1 16)) := by
  have hplay : fresh.Playable (.build .little) piecesRun := by decide +kernel
  have htrace : (fresh.play (.build .little) piecesRun).2.trace =
      (fresh.play (.build .little) piecesRun).2.trace.take 15 ++
        .armed .handleRead (.read 1 16) ::
          (fresh.play (.build .little) piecesRun).2.trace.drop 16 := by decide +kernel
  exact reads_bounded hplay.reaches _ _ _ htrace

end Conn

end Librtaio

import Librtaio.SessionInvariants

/-!
# Which runs of a session go wrong

Three properties a session is meant to have in every run, and the runs that
have them. The handlers run in order exactly if no peer puts the other packet's
mark where one is expected; the session is never left without an operation
exactly if every buffer it looks at is answered; it stays within its buffer
exactly if the body sizes the peer announces leave room for what comes next.
-/

namespace Librtaio

open Exec Handler Transition

namespace Conn

variable {T : Target} {c c' : Conn} {i : Label} {log : List (Conn × Label)}

/-! ### What a completed read leaves to look at -/

/-- The read in progress gets all the bytes it wanted, and `handle_read` looks at `s'`. -/
def Fills (c : Conn) (i : Label) (s' : Session) : Prop :=
  ∃ offset length bs, i.op = .read offset length ∧ i.result = .received bs ∧ 0 < bs.length ∧
    bs.length = length ∧ c.session.Stored offset bs s'

theorem Fills.unique {s s' : Session} (h : c.Fills i s) (h' : c.Fills i s') : s = s' := by
  obtain ⟨offset, length, bs, hop, hresult, -, -, w, hstore, rfl⟩ := h
  obtain ⟨offset', length', bs', hop', hresult', -, -, w', hstore', rfl⟩ := h'
  cases hop.symm.trans hop'
  cases hresult.symm.trans hresult'
  cases hstore.symm.trans hstore'
  rfl

theorem Fills.forall_iff {s : Session} (h : c.Fills i s) {P : Session → Prop} :
    (∀ s', c.Fills i s' → P s') ↔ P s :=
  ⟨fun hall => hall s h, fun hs _ hs' => h.unique hs' ▸ hs⟩

theorem head_ne_body : HEAD_MARK ≠ BODY_MARK := by decide

theorem not_fills_of_ends {evs : List Event} (h : i.Ends evs) (s' : Session) : ¬ c.Fills i s' := by
  rintro ⟨offset, length, bs, hop, hresult, hpos, -⟩
  cases h with
  | failed hfailed => cases hfailed.symm.trans hresult
  | nothing offset' hread hnothing =>
    cases hnothing.symm.trans hresult
    exact absurd hpos (by decide)

theorem ne_written_of_ends {evs : List Event} (h : i.Ends evs) : i.result ≠ .written := by
  cases h with
  | failed hfailed => simp [hfailed]
  | nothing offset hread hnothing => simp [hnothing]

theorem not_fills_of_lt {offset length : Nat} {bs : List UInt8} (hop : i.op = .read offset length)
    (hresult : i.result = .received bs) (hlt : bs.length < length) (s' : Session) :
    ¬ c.Fills i s' := by
  rintro ⟨offset', length', bs', hop', hresult', -, hlen, -⟩
  cases hop.symm.trans hop'
  cases hresult.symm.trans hresult'
  omega

theorem not_fills_of_write {packet : List UInt8} (hop : i.op = .write packet) (s' : Session) :
    ¬ c.Fills i s' := by
  rintro ⟨offset, length, bs, hop', -⟩
  cases hop.symm.trans hop'

/-! ### The order of the handlers -/

/-- Neither mark stands where the other one is expected. -/
def InPhase (T : Target) (c : Conn) (i : Label) : Prop :=
  ∀ s', c.Fills i s' →
    (c.track.phase = .header → s'.mark T ≠ BODY_MARK) ∧
      (c.track.phase = .body → s'.mark T ≠ HEAD_MARK)

theorem orderly_header {f : Frame} {left : Except Exit Int × Frame} (h : HeaderHandled f left)
    (t : Track) :
    (t.run left.2.events).orderly = ((t.run f.events).orderly &&
      decide ((t.run f.events).phase = .header ∧ (t.run f.events).want = 32 ∧
        (t.run f.events).got.length = 32)) := by
  cases h with
  | rejected ret packetHeader hreject hlength =>
    rw [Track.run_append]
    rfl
  | negative s' haccept hneg =>
    rw [Track.run_append]
    rfl
  | accepted n s' haccept hn hready hsize hbsize =>
    rw [Track.run_append]
    simp [Track.next]

theorem orderly_body {env : Env} {f : Frame} {left : Except Exit Int × Frame}
    (h : BodyHandled T env f left) (t : Track) :
    (t.run left.2.events).orderly = ((t.run f.events).orderly &&
      decide ((t.run f.events).phase = .body ∧ (t.run f.events).got.length = (t.run f.events).want)) := by
  cases h <;> rw [Track.run_append] <;> rfl

theorem orderly_step (hc : c.Inv) (h : Step T c i c') :
    c'.track.orderly = true ↔ c.track.orderly = true ∧ InPhase T c i := by
  obtain ⟨hop, left, hleft, rfl⟩ := h.cases hc
  rw [track_leave]
  cases hleft with
  | closed s' evs hends henv =>
    have hguard : InPhase T c i := fun s' hs' => absurd hs' (not_fills_of_ends hends s')
    cases hends <;> exact (and_iff_left hguard).symm
  | gone s' evs hends henv =>
    have hguard : InPhase T c i := fun s' hs' => absurd hs' (not_fills_of_ends hends s')
    cases hends <;> exact (and_iff_left hguard).symm
  | partly offset length bs s' hread hresult hpos hlt hs' =>
    have hguard : InPhase T c i := fun s' hs' => absurd hs' (not_fills_of_lt hread hresult hlt s')
    exact (and_iff_left hguard).symm
  | written packet hwrite hresult =>
    have hguard : InPhase T c i := fun s' hs' => absurd hs' (not_fills_of_write hwrite s')
    exact (and_iff_left hguard).symm
  | whole offset length bs s' hread hresult hpos hlen hs' hinspected =>
    have hfills : c.Fills i s' := ⟨offset, length, bs, hread, hresult, hpos, hlen, hs'⟩
    have hreading := hc.reading offset length (by rw [hop, hread])
    have hgot : (c.track.got ++ bs).length = c.track.want := by
      rw [List.length_append, hlen, hreading.got]
    rw [InPhase, hfills.forall_iff]
    cases hinspected with
    | unknown hhead hbody => exact (and_iff_left ⟨fun _ => hbody, fun _ => hhead⟩).symm
    | header hmark hheader =>
      have hentered := orderly_header hheader c.track
      have hwhole : c.track.phase ≠ .body ↔
          c.track.phase = .header ∧ c.track.want = 32 ∧ (c.track.got ++ bs).length = 32 := by
        rcases hreading.phase with ⟨hphase, hwant⟩ | ⟨hphase, -⟩
        · exact iff_of_true (by rw [hphase]; decide) ⟨hphase, hwant, by rw [hgot]; exact hwant⟩
        · exact iff_of_false (not_not_intro hphase) fun h => by cases hphase.symm.trans h.1
      change (c.track.run _).orderly = true ↔ _
      rw [dropCode_snd, hentered, Bool.and_eq_true, decide_eq_true_iff]
      change c.track.orderly = true ∧ (c.track.phase = .header ∧ c.track.want = 32 ∧
        (c.track.got ++ bs).length = 32) ↔ _
      rw [← hwhole]
      exact and_congr_right fun _ =>
        ⟨fun h => ⟨fun _ => by rw [hmark]; decide, fun hbody => absurd hbody h⟩,
          fun h hbody => h.2 hbody hmark⟩
    | body hmark hbody =>
      have hentered := orderly_body hbody c.track
      have hwhole : c.track.phase ≠ .header ↔
          c.track.phase = .body ∧ (c.track.got ++ bs).length = c.track.want := by
        rcases hreading.phase with ⟨hphase, -⟩ | ⟨hphase, -⟩
        · exact iff_of_false (not_not_intro hphase) fun h => by cases hphase.symm.trans h.1
        · exact iff_of_true (by rw [hphase]; decide) ⟨hphase, hgot⟩
      change (c.track.run _).orderly = true ↔ _
      rw [dropCode_snd, hentered, Bool.and_eq_true, decide_eq_true_iff]
      change c.track.orderly = true ∧ (c.track.phase = .body ∧
        (c.track.got ++ bs).length = c.track.want) ↔ _
      rw [← hwhole]
      exact and_congr_right fun _ =>
        ⟨fun h => ⟨fun hheader => absurd hheader h, fun _ => by rw [hmark]; decide⟩,
          fun h hheader => h.1 hheader hmark⟩

/-- **Order of the handlers.** In a run they are entered in order, each body after the header it
belongs to, exactly if no read brought the mark of the other kind of packet. -/
theorem orderly_iff_inPhase (h : c.Reaches T log) :
    c.track.orderly = true ↔ Meets (InPhase T) log := by
  obtain ⟨now, uninit, env, s, hnew, hrun⟩ := h
  have hstart : (Conn.started env s).track.orderly = true := by
    rcases started_cases hnew env with hgone | ⟨w, -, hreading⟩
    · rw [hgone]
      rfl
    · rw [hreading]
      rfl
  exact hrun.good_iff (.started hnew env) hstart .step
    orderly_step

/-- A header and a body, each read whole, and the reply written. -/
def connectRun : List Label :=
  [ ⟨.read 0 32, .received (connectPacket.take 32), ⟨0, true⟩⟩
  , ⟨.read 0 21, .received (connectPacket.drop 32), ⟨0, true⟩⟩
  , ⟨.write (((MsgTable.connectResp 0 ERR_OK 1).sent (.build .little)).wire
      (.build .little)), .written, ⟨0, true⟩⟩ ]

theorem playable_connectRun :
    fresh.Playable (.build .little) connectRun := by decide +kernel

theorem inPhase_connectRun :
    Meets (InPhase (.build .little))
      (fresh.play (.build .little) connectRun).1 :=
  (orderly_iff_inPhase playable_connectRun.reaches).mp (by decide +kernel)

/-- The first 32 bytes start with the mark of a body: `handle_packet_body` is entered with a
header table that holds no header. -/
theorem body_before_header :
    ¬ ∀ (T : Target) (log : List (Conn × Label)) (c : Conn),
      c.Reaches T log → c.track.orderly = true := by
  intro h
  have hplay : fresh.Playable (.build .little)
      [⟨.read 0 32, .received (List.replicate 32 0x22), ⟨0, true⟩⟩] := by decide +kernel
  exact absurd (h _ _ _ hplay.reaches) (by decide +kernel)

/-! ### The operations in flight -/

/-- After a handler returned, the session is closed or waits for exactly one operation. -/
def Attended (c : Conn) : Prop :=
  c.exit = none → c.closed = true ∧ c.pending = [] ∨ c.closed = false ∧ ∃ op, c.pending = [op]

/-- What is looked at is a header that is accepted or a body that is decoded. -/
def Answerable (T : Target) (c : Conn) (i : Label) : Prop :=
  ∀ s', c.Fills i s' →
    s'.mark T = HEAD_MARK ∧ HeaderAccepted true s'.memory ∨
      s'.mark T = BODY_MARK ∧ ∃ fields, s'.bodyTable i.env.now = some fields ∧
        ∀ code fields', s'.decodeBody T fields = .ok (code, fields') → code = ERR_OK

theorem not_attended {trace evs : List Event} {s : Session} :
    ¬ (leave trace (.ok (), ⟨s, [], false, evs⟩)).Attended := by
  intro h
  rcases h rfl with ⟨hclosed, -⟩ | ⟨-, op, hop⟩
  · cases hclosed
  · cases hop

theorem attended_header {trace evs : List Event} {s : Session} {left : Except Exit Int × Frame}
    (h : HeaderHandled ⟨s, [], false, evs⟩ left) :
    (leave trace (dropCode left)).Attended ↔ HeaderAccepted true s.memory := by
  cases h with
  | rejected ret packetHeader hreject hlength => exact iff_of_false not_attended hreject
  | negative s' haccept hneg => exact iff_of_true (fun hexit => by cases hexit) haccept
  | accepted n s' haccept hn hready hsize hbsize =>
    exact iff_of_true (fun _ => .inr ⟨rfl, _, rfl⟩) haccept

theorem decoded_ok {s : Session} {now : Int} {fields fields' : List Field}
    (htable : s.bodyTable now = some fields)
    (hdecode : s.decodeBody T fields = .ok (ERR_OK, fields')) :
    ∃ fields, s.bodyTable now = some fields ∧
      ∀ code fields', s.decodeBody T fields = .ok (code, fields') → code = ERR_OK := by
  refine ⟨fields, htable, ?_⟩
  intro code fields'' hok
  cases hdecode.symm.trans hok
  rfl

theorem attended_body {trace evs : List Event} {s : Session} {env : Env}
    {left : Except Exit Int × Frame} (h : BodyHandled T env ⟨s, [], false, evs⟩ left) :
    (leave trace (dropCode left)).Attended ↔ ∃ fields, s.bodyTable env.now = some fields ∧
      ∀ code fields', s.decodeBody T fields = .ok (code, fields') → code = ERR_OK := by
  cases h with
  | unhandled htable =>
    refine iff_of_false not_attended ?_
    rintro ⟨fields, hfields, -⟩
    cases htable.symm.trans hfields
  | undecoded fields fields' code htable hdecode hcode =>
    refine iff_of_false not_attended ?_
    rintro ⟨fields'', hfields, hdecodes⟩
    cases htable.symm.trans hfields
    exact hcode (hdecodes code fields' hdecode)
  | faulted fields fault htable hdecode =>
    refine iff_of_true (fun hexit => by cases hexit) ⟨fields, htable, ?_⟩
    intro code fields' hok
    cases hdecode.symm.trans hok
  | replied fields fields' packet hmethod htable hdecode hpacket =>
    exact iff_of_true (fun _ => .inr ⟨rfl, _, rfl⟩) (decoded_ok htable hdecode)
  | disconnected fields fields' hmethod htable hdecode henv =>
    exact iff_of_true (fun _ => .inl ⟨rfl, rfl⟩) (decoded_ok htable hdecode)
  | gone fields fields' hmethod htable hdecode henv =>
    exact iff_of_true (fun hexit => by cases hexit) (decoded_ok htable hdecode)

theorem attended_step (hc : c.Inv) (h : Step T c i c') :
    c'.Attended ↔ c.Attended ∧ Answerable T c i := by
  obtain ⟨hop, left, hleft, rfl⟩ := h.cases hc
  have hopen : c.closed = false := hc.closed_eq_false (by simp [hop])
  have hattended : c.Attended := fun _ => .inr ⟨hopen, i.op, hop⟩
  rw [and_iff_right hattended]
  cases hleft with
  | closed s' evs hends henv =>
    exact iff_of_true (fun _ => .inl ⟨rfl, rfl⟩) fun s' hs' =>
      absurd hs' (not_fills_of_ends hends s')
  | gone s' evs hends henv =>
    exact iff_of_true (fun hexit => by cases hexit) fun s' hs' =>
      absurd hs' (not_fills_of_ends hends s')
  | partly offset length bs s' hread hresult hpos hlt hs' =>
    exact iff_of_true (fun _ => .inr ⟨rfl, _, rfl⟩) fun s' hs' =>
      absurd hs' (not_fills_of_lt hread hresult hlt s')
  | written packet hwrite hresult =>
    exact iff_of_true (fun _ => .inr ⟨rfl, _, rfl⟩) fun s' hs' =>
      absurd hs' (not_fills_of_write hwrite s')
  | whole offset length bs s' hread hresult hpos hlen hs' hinspected =>
    have hfills : c.Fills i s' := ⟨offset, length, bs, hread, hresult, hpos, hlen, hs'⟩
    rw [Answerable, hfills.forall_iff]
    cases hinspected with
    | unknown hhead hbody =>
      exact iff_of_false not_attended fun h => h.elim (fun h => hhead h.1) fun h => hbody h.1
    | header hmark hheader =>
      rw [or_iff_left fun h => absurd (hmark.symm.trans h.1) (by decide), and_iff_right hmark]
      exact attended_header hheader
    | body hmark hbody =>
      rw [or_iff_right fun h => absurd (h.1.symm.trans hmark) (by decide), and_iff_right hmark]
      exact attended_body hbody

/-- **No session left dangling.** In a run every handler that returns leaves a closed session or
one operation exactly if every buffer that was looked at was an accepted header or a body that a
handler decodes. -/
theorem attended_iff_answerable (h : c.Reaches T log) :
    c.Attended ↔ Meets (Answerable T) log := by
  obtain ⟨now, uninit, env, s, hnew, hrun⟩ := h
  have hstart : (Conn.started env s).Attended := by
    rcases started_cases hnew env with hgone | ⟨w, -, hreading⟩
    · rw [hgone]
      exact fun hexit => by cases hexit
    · rw [hreading]
      exact fun _ => .inr ⟨rfl, _, rfl⟩
  exact hrun.good_iff (.started hnew env) hstart .step attended_step

theorem answerable_connectRun :
    Meets (Answerable (.build .little))
      (fresh.play (.build .little) connectRun).1 :=
  (attended_iff_answerable playable_connectRun.reaches).mp
    fun _ => .inr ⟨by decide +kernel, .read 0 32, by decide +kernel⟩

/-- 32 bytes that start with neither mark leave the session without an operation. -/
theorem left_dangling :
    ¬ ∀ (T : Target) (log : List (Conn × Label)) (c : Conn), c.Reaches T log → c.Attended := by
  intro h
  have hplay : fresh.Playable (.build .little)
      [⟨.read 0 32, .received (List.replicate 32 0), ⟨0, true⟩⟩] := by decide +kernel
  rcases h _ _ _ hplay.reaches (by decide +kernel) with ⟨hclosed, -⟩ | ⟨-, op, hop⟩
  · exact absurd hclosed (by decide +kernel)
  · have hnone : (fresh.play (.build .little)
        [⟨.read 0 32, .received (List.replicate 32 0), ⟨0, true⟩⟩]).2.pending = [] := by
      decide +kernel
    cases hnone.symm.trans hop

end Conn

/-! ### The receive buffer -/

/-- Every window that was used lay within the buffer. -/
def InBuffer (events : List Event) : Prop :=
  ∀ offset length size, .window offset length size ∈ events → offset + length ≤ size

@[simp] theorem inBuffer_nil : InBuffer [] := fun _ _ _ h => absurd h List.not_mem_nil

@[simp] theorem inBuffer_append (evs evs' : List Event) :
    InBuffer (evs ++ evs') ↔ InBuffer evs ∧ InBuffer evs' := by
  simp only [InBuffer, List.mem_append]
  exact ⟨fun h => ⟨fun o l n hmem => h o l n (.inl hmem), fun o l n hmem => h o l n (.inr hmem)⟩,
    fun h o l n hmem => hmem.elim (h.1 o l n) (h.2 o l n)⟩

@[simp] theorem inBuffer_cons_window (offset length size : Nat) (evs : List Event) :
    InBuffer (.window offset length size :: evs) ↔ offset + length ≤ size ∧ InBuffer evs := by
  constructor
  · exact fun h => ⟨h _ _ _ List.mem_cons_self, fun o l n hmem => h o l n (List.mem_cons_of_mem _ hmem)⟩
  · rintro ⟨hfit, h⟩ o l n hmem
    cases hmem with
    | head => exact hfit
    | tail _ hmem => exact h o l n hmem

theorem inBuffer_of_all {evs : List Event}
    (h : evs.all (fun | .window offset length size => offset + length ≤ size | _ => true)) :
    InBuffer evs := by
  intro offset length size hmem
  simpa using List.all_eq_true.mp h _ hmem

theorem inBuffer_cons {e : Event} (he : ∀ offset length size, .window offset length size ≠ e)
    (evs : List Event) : InBuffer (e :: evs) ↔ InBuffer evs := by
  simp [InBuffer, he]

theorem Label.Ends.inBuffer {i : Label} {evs : List Event} (h : i.Ends evs) : InBuffer evs := by
  cases h <;> simp [inBuffer_cons]

theorem toSizeT_toInt32_le {z : Int} {size : Nat} (hsize : size < 2 ^ 31) :
    toSizeT (toInt32 z) ≤ size ↔ 0 ≤ toInt32 z ∧ toInt32 z ≤ size := by
  have hlo : -2 ^ 31 ≤ toInt32 z := BitVec.le_toInt _
  have hhi : toInt32 z < 2 ^ 31 := BitVec.toInt_lt
  by_cases hneg : toInt32 z < 0
  · have hwrap : toSizeT (toInt32 z) = (toInt32 z + 2 ^ 64).toNat := by
      rw [toSizeT, BitVec.toNat_ofInt]
      omega
    omega
  · rw [toSizeT_eq (by omega) hhi]
    omega

theorem inBuffer_header {f : Frame} {left : Except Exit Int × Frame} (h : HeaderHandled f left) :
    InBuffer left.2.events ↔ InBuffer f.events ∧ 32 ≤ f.session.recvBuffer.size := by
  cases h <;> simp [inBuffer_cons]

theorem inBuffer_bodyWindow {s : Session} (hsize : s.recvBuffer.size < 2 ^ 31) :
    InBuffer [s.bodyWindow] ↔
      0 ≤ s.headerInt FIELD_BSIZE ∧ s.headerInt FIELD_BSIZE ≤ s.recvBuffer.size := by
  rw [Session.bodyWindow, inBuffer_cons_window, and_iff_left inBuffer_nil, Nat.zero_add]
  exact toSizeT_toInt32_le hsize

theorem inBuffer_body {T : Target} {env : Env} {f : Frame} {left : Except Exit Int × Frame}
    (h : BodyHandled T env f left) (hsize : f.session.recvBuffer.size < 2 ^ 31) :
    InBuffer left.2.events ↔ InBuffer f.events ∧
      ((f.session.bodyTable env.now).isSome → 0 ≤ f.session.headerInt FIELD_BSIZE ∧
        f.session.headerInt FIELD_BSIZE ≤ f.session.recvBuffer.size) := by
  rw [← inBuffer_bodyWindow hsize]
  cases h with
  | unhandled htable => simp [inBuffer_cons, htable]
  | undecoded fields fields' code htable hdecode hcode =>
    simp [inBuffer_cons, Session.bodyWindow, htable]
  | faulted fields fault htable hdecode => simp [inBuffer_cons, Session.bodyWindow, htable]
  | replied fields fields' packet hmethod htable hdecode hpacket =>
    simp [inBuffer_cons, Session.bodyWindow, htable]
  | disconnected fields fields' hmethod htable hdecode henv =>
    simp [inBuffer_cons, Session.bodyWindow, htable]
  | gone fields fields' hmethod htable hdecode henv =>
    simp [inBuffer_cons, Session.bodyWindow, htable]

namespace Conn

variable {T : Target} {c c' : Conn} {i : Label} {log : List (Conn × Label)}

/-- Every window of the receive buffer that was used lay within it, and so does that of the read
in progress. -/
def InBounds (c : Conn) : Prop :=
  InBuffer c.trace ∧
    ∀ offset length, .read offset length ∈ c.pending →
      offset + length ≤ c.session.recvBuffer.size

/-- The body size announced last leaves room for what is read next. -/
def Roomy (T : Target) (c : Conn) (i : Label) : Prop :=
  (i.result = .written → 32 ≤ c.announced) ∧
    ∀ s', c.Fills i s' → 4 ≤ c.announced ∧ (s'.mark T = HEAD_MARK → 32 ≤ c.announced) ∧
      (s'.mark T = BODY_MARK → (s'.bodyTable i.env.now).isSome →
        0 ≤ s'.headerInt FIELD_BSIZE ∧ s'.headerInt FIELD_BSIZE ≤ c.announced)

/-- A read in progress was checked when it was started. -/
theorem Inv.inBounds_iff (hc : c.Inv) : c.InBounds ↔ InBuffer c.trace := by
  refine and_iff_left_of_imp ?_
  intro htrace offset length hread
  obtain ⟨op, hop⟩ := hc.single (List.ne_nil_of_mem hread)
  obtain rfl : Op.read offset length = op := by simpa [hop] using hread
  exact htrace _ _ _ (hc.reading offset length hop).window

theorem inBounds_step (hc : c.Inv) (h : Step T c i c') :
    c'.InBounds ↔ c.InBounds ∧ Roomy T c i := by
  rw [(hc.step h).inBounds_iff, hc.inBounds_iff]
  obtain ⟨hop, left, hleft, rfl⟩ := h.cases hc
  have hne : c.pending ≠ [] := by simp [hop]
  have hsize := hc.size hne
  rw [leave_trace, inBuffer_append]
  refine and_congr_right ?_
  intro htrace
  cases hleft with
  | closed s' evs hends henv =>
    exact iff_of_true hends.inBuffer ⟨fun h => absurd h (ne_written_of_ends hends),
      fun s' hs' => absurd hs' (not_fills_of_ends hends s')⟩
  | gone s' evs hends henv =>
    exact iff_of_true hends.inBuffer ⟨fun h => absurd h (ne_written_of_ends hends),
      fun s' hs' => absurd hs' (not_fills_of_ends hends s')⟩
  | partly offset length bs s' hread hresult hpos hlt hs' =>
    have hfit := htrace _ _ _ (hc.reading offset length (by rw [hop, hread])).window
    refine iff_of_true ?_ ⟨fun hwritten => absurd hwritten (by simp [hresult]), fun s' hs' =>
      absurd hs' (not_fills_of_lt hread hresult hlt s')⟩
    simp only [inBuffer_cons, inBuffer_cons_window, ne_eq, reduceCtorEq, not_false_iff, implies_true,
      inBuffer_nil, and_true, hs'.size]
    omega
  | written packet hwrite hresult =>
    have hfills : ∀ s', ¬ c.Fills i s' := not_fills_of_write hwrite
    simp [Roomy, hresult, hfills, inBuffer_cons, ← hsize]
  | whole offset length bs s' hread hresult hpos hlen hs' hinspected =>
    have hfills : c.Fills i s' := ⟨offset, length, bs, hread, hresult, hpos, hlen, hs'⟩
    have hwritten : i.result ≠ .written := by simp [hresult]
    rw [Roomy, hfills.forall_iff, and_iff_right fun h => absurd h hwritten, ← hsize, ← hs'.size]
    cases hinspected with
    | unknown hhead hbody =>
      have hhead' : s'.mark T ≠ HEAD_MARK := hhead
      have hbody' : s'.mark T ≠ BODY_MARK := hbody
      simp [inBuffer_cons, hhead', hbody']
    | header hmark hheader =>
      have hmark' : s'.mark T = HEAD_MARK := hmark
      rw [dropCode_snd, inBuffer_header hheader]
      simp [inBuffer_cons, hmark', head_ne_body]
    | body hmark hbody =>
      have hmark' : s'.mark T = BODY_MARK := hmark
      rw [dropCode_snd, inBuffer_body hbody (hs'.size.trans_lt (hc.size_lt hne))]
      simp [inBuffer_cons, hmark', head_ne_body.symm]

/-- **Bounds of the receive buffer.** In a run every window lies within the buffer exactly if
the body size announced last always left room for what was read next. -/
theorem inBounds_iff_roomy (h : c.Reaches T log) : c.InBounds ↔ Meets (Roomy T) log := by
  obtain ⟨now, uninit, env, s, hnew, hrun⟩ := h
  have hinv := Inv.started hnew env
  have hstart : (Conn.started env s).InBounds := by
    rw [hinv.inBounds_iff]
    rcases started_cases hnew env with hgone | ⟨w, -, hreading⟩
    · rw [hgone]
      exact inBuffer_nil
    · rw [hreading, leave_trace]
      simp [inBuffer_cons]
  exact hrun.good_iff hinv hstart .step inBounds_step

theorem roomy_connectRun :
    Meets (Roomy (.build .little))
      (fresh.play (.build .little) (connectRun.take 2)).1 := by
  have hplay : fresh.Playable (.build .little) (connectRun.take 2) := by
    decide +kernel
  refine (inBounds_iff_roomy hplay.reaches).mp (hplay.reaches.inv.inBounds_iff.mpr ?_)
  exact inBuffer_of_all (by decide +kernel)

/-- After the reply to the connect request a header is read into the 21 bytes of its body. -/
theorem overrun_after_reply :
    ¬ ∀ (T : Target) (log : List (Conn × Label)) (c : Conn), c.Reaches T log → c.InBounds := by
  intro h
  have hbounds := (h _ _ _ playable_connectRun.reaches).2 0 32 (by decide +kernel)
  exact absurd hbounds (by decide +kernel)

end Conn

end Librtaio

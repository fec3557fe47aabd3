import Librtaio.SessionInvariants

/-!
# The header table before the first header

The constructor leaves `m_packet_header` unwritten. `handle_packet_header`
copies a fresh header over its first entries before it reads into them, and
nothing looks at those behind, so that what the memory held does not show,
unless the first word a session is sent is that of a body. Two sessions
are run side by side that differ in their header tables only.
-/

namespace Librtaio

open Exec Handler Transition

/-! ### The codec's loops over a header -/

section Loops

variable {T : Target} {compareCrc : Bool} {rest rest' : List Field}

/-- What the two loops return: the same, and the same entries before what follows. -/
def SameEntries (rest rest' : List Field) (k : Nat) (a b : Int × InputStream × List Field) : Prop :=
  a.1 = b.1 ∧ a.2.1 = b.2.1 ∧ ∃ hs, hs.length = k ∧ a.2.2 = hs ++ rest ∧ b.2.2 = hs ++ rest'

/-- The loop of `unserialize_header_packet` ends at `FIELD_HCRC`, whatever follows. -/
theorem unserializeHeaderLoop_agree (hs : List Field) {n : Nat} (hn : n ≤ FIELD_HCRC)
    (hlength : n + hs.length = FIELD_BMARK) (crc : BitVec 32) (v : Locals) (s : InputStream) :
    Agree (SameEntries rest rest' hs.length)
      (unserializeHeaderLoop T compareCrc n crc v s (hs ++ rest))
      (unserializeHeaderLoop T compareCrc n crc v s (hs ++ rest')) := by
  induction hs generalizing n crc v s with
  | nil =>
    simp only [List.length_nil, FIELD_BMARK, FIELD_HCRC] at hlength hn
    omega
  | cons p hs ih =>
    -- the loop returns here, with the entry as it is
    have hreturn (code : Int) (s : InputStream) (p' : Field) :
        Agree (SameEntries rest rest' (p :: hs).length)
          (.ok (code, s, p' :: (hs ++ rest)) : Except Fault (Int × InputStream × List Field))
          (.ok (code, s, p' :: (hs ++ rest'))) :=
      .ok ⟨rfl, rfl, p' :: hs, rfl, rfl, rfl⟩
    rw [List.cons_append, List.cons_append, unserializeHeaderLoop, unserializeHeaderLoop]
    split
    · exact hreturn _ _ _
    · dsimp only
      generalize (if n = FIELD_HCRC ∧ toInt32 s.consumed.length > 0 ∧ compareCrc then
        Crc32.crc32 (s.consumed.take (toInt32 s.consumed.length).toNat) else crc) = crc
      -- the entry is read or left, and checked
      cases p.data
      all_goals
        apply (Agree.refl _).bind
        rintro ⟨s, v, p'⟩ _ rfl
        dsimp only
        split
        · exact hreturn _ _ _
        split
        · split
          · exact hreturn _ _ _
          · exact hreturn _ _ _
        split
        · exact hreturn _ _ _
        · next hhcrc _ =>
          rw [List.length_cons] at hlength
          apply (ih (n := n + 1) (by omega) (by omega) _ v s).bind
          rintro ⟨code, s', _⟩ ⟨_, _, _⟩ ⟨rfl, rfl, hs', hlength', rfl, rfl⟩
          exact .ok ⟨rfl, rfl, p' :: hs', congrArg (· + 1) hlength', rfl, rfl⟩

/-- `copy_fields` of a header stops behind it. -/
theorem copyLoop_agree (hs : List Field) {n : Nat} (hn : n ≤ FIELD_HCRC)
    (hlength : n + hs.length = FIELD_BMARK) (dest : List Field) :
    copyLoop true n (hs ++ rest) dest = copyLoop true n (hs ++ rest') dest := by
  induction hs generalizing n dest with
  | nil =>
    simp only [List.length_nil, FIELD_BMARK, FIELD_HCRC] at hlength hn
    omega
  | cons p hs ih =>
    simp only [List.cons_append, copyLoop]
    split
    · rfl
    split
    · split
      · rfl
      · next hlast =>
        have hne : n ≠ FIELD_BMARK - 1 := fun h => hlast ⟨trivial, h⟩
        simp only [FIELD_BMARK, FIELD_HCRC] at hn hne hlength ih
        exact ih (by omega) (by rw [List.length_cons] at hlength; omega) _
    · rfl

end Loops

/-! ### Sessions that differ in their header tables -/

/-- The sessions are the same but for their header tables, whose first `n` entries are. -/
structure Session.Alike (n : Nat) (s s' : Session) : Prop where
  headerSize : s.headerSize = s'.headerSize
  recvBuffer : s.recvBuffer = s'.recvBuffer
  sendBuffer : s.sendBuffer = s'.sendBuffer
  length : s.packetHeader.length = FIELD_BMARK + 3
  length' : s'.packetHeader.length = FIELD_BMARK + 3
  header : s.packetHeader.take n = s'.packetHeader.take n

/-- And so are the frames of their handlers. -/
structure Frame.Alike (n : Nat) (f f' : Frame) : Prop where
  session : f.session.Alike n f'.session
  ops : f.ops = f'.ops
  closed : f.closed = f'.closed
  events : f.events = f'.events

namespace Session.Alike

variable {n : Nat} {s s' : Session}

theorem zero (h : s.Alike n s') : s.Alike 0 s' :=
  ⟨h.headerSize, h.recvBuffer, h.sendBuffer, h.length, h.length', rfl⟩

theorem ready (h : s.Alike n s') (hs : s.Ready) : s'.Ready :=
  ⟨h.headerSize ▸ hs.headerSize, h.length', h.recvBuffer ▸ hs.storage⟩

theorem withRecvBuffer (h : s.Alike n s') (w : CharVector) :
    Session.Alike n { s with recvBuffer := w } { s' with recvBuffer := w } :=
  ⟨h.headerSize, rfl, h.sendBuffer, h.length, h.length', h.header⟩

theorem withSendBuffer (h : s.Alike n s') (w : CharVector) :
    Session.Alike n { s with sendBuffer := w } { s' with sendBuffer := w } :=
  ⟨h.headerSize, h.recvBuffer, rfl, h.length, h.length', h.header⟩

/-- The header entries, and what is behind them. -/
theorem split (h : s.Alike FIELD_BMARK s') :
    ∃ hs rest rest', hs.length = FIELD_BMARK ∧ s.packetHeader = hs ++ rest ∧
      s'.packetHeader = hs ++ rest' := by
  refine ⟨s.packetHeader.take FIELD_BMARK, _, s'.packetHeader.drop FIELD_BMARK, ?_,
    (List.take_append_drop _ _).symm, ?_⟩
  · rw [List.length_take, h.length]
    rfl
  · rw [h.header, List.take_append_drop]

theorem fieldAt (h : s.Alike FIELD_BMARK s') {i : Nat} (hi : i < FIELD_BMARK) :
    fieldAt s.packetHeader i = Librtaio.fieldAt s'.packetHeader i := by
  obtain ⟨hs, rest, rest', hlength, hhs, hhs'⟩ := h.split
  rw [hhs, hhs', Librtaio.fieldAt, Librtaio.fieldAt, List.getElem?_append_left (by omega),
    List.getElem?_append_left (by omega)]

theorem copyFields (h : s.Alike FIELD_BMARK s') (dest : List Field) :
    copyFields dest s.packetHeader true = Librtaio.copyFields dest s'.packetHeader true := by
  obtain ⟨hs, rest, rest', hlength, hhs, hhs'⟩ := h.split
  rw [hhs, hhs', Librtaio.copyFields, Librtaio.copyFields]
  have hloop : copyLoop true 0 (hs ++ rest) dest = copyLoop true 0 (hs ++ rest') dest :=
    copyLoop_agree hs (Nat.zero_le _) (by omega) dest
  rw [hloop]

end Session.Alike

/-! ### Handlers side by side -/

section Coupled

variable {n : Nat} {T : Target} {env : Env} {α : Type}

/-- The sessions are looked at by their members. -/
theorem coupled_get_bind {k k' : Session → Handler α}
    (h : ∀ size fields fields' recv send,
      Session.Alike n ⟨size, fields, recv, send⟩ ⟨size, fields', recv, send⟩ →
        Coupled (Frame.Alike n) (k ⟨size, fields, recv, send⟩) (k' ⟨size, fields', recv, send⟩)) :
    Coupled (Frame.Alike n) (get >>= k) (get >>= k') := by
  rintro ⟨⟨size, fields, recv, send⟩, ops, closed, events⟩
    ⟨⟨size', fields', recv', send'⟩, ops', closed', events'⟩ hf
  obtain rfl : size = size' := hf.session.headerSize
  obtain rfl : recv = recv' := hf.session.recvBuffer
  obtain rfl : send = send' := hf.session.sendBuffer
  exact h size fields fields' recv send hf.session _ _ hf

theorem coupled_set {s s' : Session} (h : s.Alike n s') :
    Coupled (Frame.Alike n) (set s) (set s') := fun _ _ hf => ⟨rfl, h, hf.ops, hf.closed, hf.events⟩

theorem coupled_emit (e : Event) : Coupled (Frame.Alike n) (emit e) (emit e) := by
  intro f f' hf
  exact ⟨rfl, hf.session, hf.ops, hf.closed, congrArg (· ++ [e]) hf.events⟩

theorem coupled_setClosed : Coupled (Frame.Alike n) setClosed setClosed :=
  fun _ _ hf => ⟨rfl, hf.session, hf.ops, rfl, hf.events⟩

theorem coupled_window (offset length : Nat) :
    Coupled (Frame.Alike n) (window offset length) (window offset length) := by
  intro f f' hf
  refine ⟨rfl, hf.session, hf.ops, hf.closed, ?_⟩
  change f.events ++ [.window offset length f.session.recvBuffer.size] =
    f'.events ++ [.window offset length f'.session.recvBuffer.size]
  rw [hf.events, hf.session.recvBuffer]

theorem coupled_arm (site : Site) (op : Op) : Coupled (Frame.Alike n) (arm site op) (arm site op) := by
  intro f f' hf
  exact ⟨rfl, hf.session, congrArg (· ++ [op]) hf.ops, hf.closed,
    congrArg (· ++ [Event.armed site op]) hf.events⟩

theorem coupled_asyncReadSome (site : Site) (offset length : Nat) :
    Coupled (Frame.Alike n) (asyncReadSome site offset length) (asyncReadSome site offset length) := by
  apply (coupled_window offset length).bind
  intro
  exact coupled_arm site _

theorem coupled_remoteEndpoint : Coupled (Frame.Alike n) (remoteEndpoint env) (remoteEndpoint env) :=
  .ite (.pure ()) (.lift _)

theorem coupled_close : Coupled (Frame.Alike n) (close env) (close env) := by
  apply coupled_remoteEndpoint.bind
  intro
  exact coupled_setClosed

theorem coupled_start : Coupled (Frame.Alike n) (start env) (start env) := by
  apply coupled_remoteEndpoint.bind
  intro
  apply coupled_get_bind
  intro size fields fields' recv send hs
  apply (Coupled.lift _).bind
  intro recvBuffer
  apply (coupled_set (hs.withRecvBuffer recvBuffer)).bind
  intro
  exact coupled_asyncReadSome _ _ _

theorem coupled_handleWrite (error : Bool) :
    Coupled (Frame.Alike n) (handleWrite env error) (handleWrite env error) := by
  refine .ite ?_ coupled_close
  apply coupled_get_bind
  intro size fields fields' recv send hs
  exact coupled_asyncReadSome _ _ _

/-! From the first header on, all handlers agree. -/

theorem coupled_readPacketHeader :
    Coupled (Frame.Alike FIELD_BMARK) (readPacketHeader T) (readPacketHeader T) := by
  apply coupled_get_bind
  intro size fields fields' recv send hs
  apply (coupled_window _ _).bind
  intro
  obtain ⟨hfs, rest, rest', hlength, hhs, hhs'⟩ := hs.split
  have hagree (stream : InputStream) : Agree (SameEntries rest rest' hfs.length)
      (unserializeHeaderLoop T true 0 0 .zero stream (hfs ++ rest))
      (unserializeHeaderLoop T true 0 0 .zero stream (hfs ++ rest')) :=
    unserializeHeaderLoop_agree hfs (Nat.zero_le _) (by omega) 0 .zero stream
  specialize hagree (InputStream.ofBuffer recv.storage (toSizeT size))
  have hlong := hs.length
  have hlong' := hs.length'
  rw [hhs, List.length_append] at hlong
  rw [hhs', List.length_append] at hlong'
  dsimp only at hhs hhs' ⊢
  rw [hhs, hhs']
  refine Coupled.lift_bind (Q := fun a b => a.1 = b.1 ∧ ∃ hs', hs'.length = hfs.length ∧
    a.2.2 = hs' ++ rest ∧ b.2.2 = hs' ++ rest') ?_ ?_
  · rw [unserializeHeaderPacket, unserializeHeaderPacket]
    generalize unserializeHeaderLoop T true 0 0 .zero _ (hfs ++ rest) = x at hagree
    generalize unserializeHeaderLoop T true 0 0 .zero _ (hfs ++ rest') = y at hagree
    cases hagree with
    | error e => exact .error _
    | ok h => exact .ok ⟨h.1, h.2.2⟩
  · rintro ⟨ret, -, packetHeader⟩ ⟨_, -, packetHeader'⟩ ⟨rfl, hs', hlength', rfl, rfl⟩
    have htake (l : List Field) : (hs' ++ l).take FIELD_BMARK = hs' :=
      List.take_left' (hlength'.trans hlength)
    have hread : Session.Alike FIELD_BMARK ⟨size, hs' ++ rest, recv, send⟩
        ⟨size, hs' ++ rest', recv, send⟩ := by
      refine ⟨rfl, rfl, rfl, ?_, ?_, ?_⟩
      · exact (List.length_append.trans (by rw [hlength'])).trans hlong
      · exact (List.length_append.trans (by rw [hlength'])).trans hlong'
      · exact (htake rest).trans (htake rest').symm
    apply (coupled_set hread).bind
    intro
    exact .pure _

/-- `handle_packet_header`, once the table is a fresh header. -/
def headerCopied (T : Target) : Handler Int := do
  let ret ← readPacketHeader T
  if ret = 0 then do
    let s ← get
    let bsize ← lift (orFault (fieldAt s.packetHeader FIELD_BSIZE))
    let bodySize := toInt32 bsize.ivalue
    emit (.acceptedHeader bodySize)
    let recvBuffer ← lift (s.recvBuffer.clear.resize bodySize)
    set { s with recvBuffer }
    asyncReadSome .handlePacketHeader 0 (toSizeT bodySize)
    pure ret
  else pure ret

theorem coupled_headerCopied : Coupled (Frame.Alike FIELD_BMARK) (headerCopied T) (headerCopied T) := by
  apply coupled_readPacketHeader.bind
  intro ret
  refine .ite ?_ (.pure _)
  apply coupled_get_bind
  intro size fields fields' recv send hs
  have hbsize := hs.fieldAt (i := FIELD_BSIZE) (by decide)
  dsimp only at hbsize ⊢
  rw [hbsize]
  apply (Coupled.lift _).bind
  intro bsize
  apply (coupled_emit _).bind
  intro
  apply (Coupled.lift _).bind
  intro recvBuffer
  apply (coupled_set (hs.withRecvBuffer recvBuffer)).bind
  intro
  apply (coupled_asyncReadSome _ _ _).bind
  intro
  exact .pure _

/-- **A header** makes the tables agree, whatever they held. -/
theorem handlePacketHeader_alike (T : Target) (env : Env) {f f' : Frame} (h : f.Alike n f') :
    (handlePacketHeader T env f).1 = (handlePacketHeader T env f').1 ∧
      (handlePacketHeader T env f).2.Alike FIELD_BMARK (handlePacketHeader T env f').2 := by
  have hsplit : msgCommonReqFields env.now MSG_COMMON =
      (msgHeader env.now MSG_COMMON 0 1).take FIELD_BMARK ++
        (scalarField .long BODY_MARK.toInt :: msgTail) := rfl
  have hcopied (f : Frame) (hlength : f.session.packetHeader.length = FIELD_BMARK + 3) :
      handlePacketHeader T env f = headerCopied T
        { f with
          session := { f.session with
            packetHeader := (msgHeader env.now MSG_COMMON 0 1).take FIELD_BMARK ++
              f.session.packetHeader.drop FIELD_BMARK }
          events := f.events ++ [.enteredHeader] } := by
    have hcopy := copyFields_header (isHeader_msgHeader env.now MSG_COMMON 0 1)
      (scalarField .long BODY_MARK.toInt :: msgTail)
      (show FIELD_BMARK ≤ f.session.packetHeader.length by rw [hlength]; decide)
    rw [← hsplit] at hcopy
    simp only [handlePacketHeader, emit_bind, get_bind, hcopy, orFault_ok, lift_ok_bind, set_bind]
    rfl
  have hs := h.session
  have hlength {s : Session} (hlength : s.packetHeader.length = FIELD_BMARK + 3) :
      ((msgHeader env.now MSG_COMMON 0 1).take FIELD_BMARK ++
        s.packetHeader.drop FIELD_BMARK).length = FIELD_BMARK + 3 := by
    rw [List.length_append, List.length_drop, hlength]
    rfl
  rw [hcopied f hs.length, hcopied f' hs.length']
  apply coupled_headerCopied
  refine ⟨⟨hs.headerSize, hs.recvBuffer, hs.sendBuffer, hlength hs.length, hlength hs.length', rfl⟩,
    h.ops, h.closed, congrArg (· ++ [.enteredHeader]) h.events⟩

theorem coupled_readPacketBody (fields₀ : List Field) (len : Int) :
    Coupled (Frame.Alike FIELD_BMARK) (readPacketBody T fields₀ len) (readPacketBody T fields₀ len) := by
  apply coupled_get_bind
  intro size fields fields' recv send hs
  have hbsize := hs.fieldAt (i := FIELD_BSIZE) (by decide)
  have hcopy := hs.copyFields fields₀
  dsimp only at hbsize hcopy ⊢
  rw [hcopy, hbsize]
  apply (Coupled.lift _).bind
  intro r
  apply (Coupled.lift _).bind
  intro bsize
  apply (coupled_window _ _).bind
  intro
  apply (Coupled.lift _).bind
  intro r
  exact .pure _

theorem coupled_sendPacket (fields : List Field) (len : Int) :
    Coupled (Frame.Alike n) (sendPacket T fields len) (sendPacket T fields len) := by
  apply (Coupled.lift _).bind
  intro r
  apply coupled_get_bind
  intro size fields fields' recv send hs
  apply (coupled_set (hs.withSendBuffer _)).bind
  intro
  refine .ite ?_ (.pure _)
  apply (coupled_arm _ _).bind
  intro
  exact .pure _

theorem coupled_handlePacketBody :
    Coupled (Frame.Alike FIELD_BMARK) (handlePacketBody T env) (handlePacketBody T env) := by
  apply (coupled_emit _).bind
  intro
  apply coupled_get_bind
  intro size fields fields' recv send hs
  have hmethod := hs.fieldAt (i := FIELD_METHOD) (by decide)
  dsimp only at hmethod ⊢
  rw [hmethod]
  apply (Coupled.lift _).bind
  intro method
  refine .ite ?_ (.ite ?_ (.pure _))
  · apply (coupled_readPacketBody _ _).bind
    intro r
    refine .ite (.pure _) ?_
    apply (coupled_emit _).bind
    intro
    exact coupled_sendPacket _ _
  · apply (coupled_readPacketBody _ _).bind
    intro r
    refine .ite (.pure _) ?_
    apply coupled_close.bind
    intro
    exact .pure _

end Coupled

/-! ### A completion side by side -/

/-- The outcomes agree, and from the first header on so do the header tables. -/
structure Shadows (n : Nat) (left left' : Except Exit Unit × Frame) : Prop where
  result : left.1 = left'.1
  alike : left.2.Alike 0 left'.2
  written : n = FIELD_BMARK ∨ .enteredHeader ∈ left.2.events → left.2.Alike FIELD_BMARK left'.2

section Shadows

variable {n : Nat} {T : Target} {env : Env} {f f' : Frame}

theorem Frame.Alike.zero (h : f.Alike n f') : f.Alike 0 f' :=
  ⟨h.session.zero, h.ops, h.closed, h.events⟩

/-- A part that handles no header. -/
theorem Coupled.shadows {x y : Handler Unit} (h : Coupled (Frame.Alike n) x y) (hf : f.Alike n f')
    (hquiet : .enteredHeader ∉ (x f).2.events) : Shadows n (x f) (y f') := by
  obtain ⟨hresult, halike⟩ := h f f' hf
  refine ⟨hresult, halike.zero, ?_⟩
  rintro (rfl | hentered)
  · exact halike
  · exact absurd hentered hquiet

theorem shadows_close (hf : f.Alike n f') (hquiet : .enteredHeader ∉ f.events) :
    Shadows n (close env f) (close env f') := by
  apply Coupled.shadows coupled_close hf
  cases henv : env.connected with
  | true =>
    rw [close_run henv]
    exact hquiet
  | false =>
    rw [close_gone henv]
    exact hquiet

theorem handleRead_shadows (hf : f.Alike n f') (hready : f.session.Ready)
    (hquiet : .enteredHeader ∉ f.events) (bytesTransferred wantBytes : Nat)
    (hbody : .enteredBody ∈ (handleRead T env false bytesTransferred wantBytes f).2.events →
      n = FIELD_BMARK) :
    Shadows n (handleRead T env false bytesTransferred wantBytes f)
      (handleRead T env false bytesTransferred wantBytes f') := by
  by_cases hzero : bytesTransferred = 0
  · subst hzero
    exact shadows_close hf hquiet
  by_cases hlt : bytesTransferred < wantBytes
  · simp only [handleRead, Bool.not_false, if_true, if_neg hzero, if_pos hlt]
    apply Coupled.shadows (coupled_asyncReadSome _ _ _) hf
    simpa using hquiet
  have hready' := hf.session.ready hready
  have hmark : f'.session.mark T = f.session.mark T := by
    rw [Session.mark, Session.mark, Session.memory, Session.memory, hf.session.recvBuffer]
  have hlooked : f.looked.Alike n f'.looked := by
    refine ⟨hf.session, hf.ops, hf.closed, ?_⟩
    rw [Frame.looked, Frame.looked, hf.events, Session.memory, Session.memory, hf.session.recvBuffer]
  have hquiet' : .enteredHeader ∉ f.looked.events := by
    simp [Frame.looked, hquiet]
  rw [handleRead_run hready (by omega) (by omega)] at hbody ⊢
  rw [handleRead_run hready' (by omega) (by omega), hmark]
  by_cases hhead : HEAD_MARK = f.session.mark T
  · rw [if_pos hhead, if_pos hhead]
    obtain ⟨hresult, halike⟩ := handlePacketHeader_alike T env hlooked
    exact ⟨congrArg (Except.map fun _ => ()) hresult, halike.zero, fun _ => halike⟩
  rw [if_neg hhead] at hbody ⊢
  rw [if_neg hhead]
  by_cases hbodyMark : BODY_MARK = f.session.mark T
  · rw [if_pos hbodyMark] at hbody ⊢
    rw [if_pos hbodyMark]
    -- whatever a body leads to, its handler was entered
    have hready₁ : f.looked.session.Ready := hready
    have hhandled : BodyHandled T env f.looked (handlePacketBody T env f.looked) :=
      handlePacketBody_handled hready₁
    have hentered : .enteredBody ∈ (handlePacketBody T env f.looked).2.events := by
      generalize handlePacketBody T env f.looked = left at hhandled
      cases hhandled <;> simp
    obtain rfl := hbody hentered
    have hcoupled : Coupled (Frame.Alike FIELD_BMARK) (handlePacketBody T env)
        (handlePacketBody T env) := coupled_handlePacketBody
    obtain ⟨hresult, halike⟩ := hcoupled _ _ hlooked
    exact ⟨congrArg (Except.map fun _ => ()) hresult, halike.zero, fun _ => halike⟩
  · rw [if_neg hbodyMark, if_neg hbodyMark]
    refine ⟨rfl, hlooked.zero, ?_⟩
    rintro (rfl | hentered)
    · exact hlooked
    · exact absurd hentered hquiet'

theorem dispatch_shadows {s s' : Session} (hs : s.Alike n s') (hready : s.Ready) (op : Op)
    (result : Completion)
    (hbody : .enteredBody ∈ (dispatch T env op result (.init s)).2.events → n = FIELD_BMARK) :
    Shadows n (dispatch T env op result (.init s)) (dispatch T env op result (.init s')) := by
  have hinit : Frame.Alike n (.init s) (.init s') := ⟨hs, rfl, rfl, rfl⟩
  have hquiet : Event.enteredHeader ∉ (Frame.init s).events := List.not_mem_nil
  cases op with
  | read offset length =>
    cases result with
    | received bs =>
      cases hstore : s.recvBuffer.store offset bs with
      | error fault =>
        have hleft {s : Session} (h : s.recvBuffer.store offset bs = .error fault) :
            dispatch T env (.read offset length) (.received bs) (.init s) =
              (.error (.fault fault), .init s) := by
          simp only [dispatch, get_bind, Frame.init, h, orFault_error, lift_error_bind]
        rw [hleft hstore, hleft (by rw [← hs.recvBuffer]; exact hstore)]
        refine ⟨rfl, hinit.zero, ?_⟩
        rintro (rfl | hentered)
        · exact hinit
        · exact absurd hentered hquiet
      | ok w =>
        have hs₁ : s.Stored offset bs { s with recvBuffer := w } := ⟨w, hstore, rfl⟩
        have hs₁' : s'.Stored offset bs { s' with recvBuffer := w } :=
          ⟨w, by rw [← hs.recvBuffer]; exact hstore, rfl⟩
        rw [dispatch_received hs₁] at hbody ⊢
        rw [dispatch_received hs₁']
        have halike : Frame.Alike n ⟨{ s with recvBuffer := w }, [], false, [.received bs]⟩
            ⟨{ s' with recvBuffer := w }, [], false, [.received bs]⟩ :=
          ⟨hs.withRecvBuffer w, rfl, rfl, rfl⟩
        exact handleRead_shadows halike (hs₁.ready hready) (by simp) _ _ hbody
    | written => exact shadows_close hinit hquiet
    | failed => exact shadows_close hinit hquiet
  | write packet =>
    cases result with
    | received bs => exact shadows_close hinit hquiet
    | written =>
      apply Coupled.shadows (coupled_handleWrite false) hinit
      rw [show handleWrite env false (.init s) = _ from dispatch_written (T := T) hready packet]
      simp
    | failed => exact shadows_close hinit hquiet

end Shadows

/-- No completion enters both handlers. -/
theorem Dispatched.not_both {T : Target} {i : Label} {s : Session} {left : Except Exit Unit × Frame}
    (h : Dispatched T i s left) (hbody : .enteredBody ∈ left.2.events) :
    .enteredHeader ∉ left.2.events := by
  cases h with
  | closed s' evs hends henv => cases hends <;> simp
  | gone s' evs hends henv => cases hends <;> simp
  | partly offset length bs s' hop hresult hpos hlt hs' => simp
  | written packet hop hresult => simp
  | whole offset length bs s' hop hresult hpos hlen hs' hinspected =>
    cases hinspected with
    | unknown hhead hbody => simp
    | header hmark hheader => cases hheader <;> simp [dropCode] at hbody
    | body hmark hhandled => cases hhandled <;> simp [dropCode, Session.bodyWindow]

/-! ### Runs side by side -/

/-- A body is handled behind a header only. -/
def HeaderFirst (events : List Event) : Prop :=
  ∀ before after, events = before ++ .enteredBody :: after → .enteredHeader ∈ before

/-- The connections are the same but for what the header tables still hold from before. -/
structure Conn.Alike (c c' : Conn) : Prop where
  session : c.session.Alike 0 c'.session
  written : .enteredHeader ∈ c.trace → c.session.Alike FIELD_BMARK c'.session
  pending : c.pending = c'.pending
  closed : c.closed = c'.closed
  exit : c.exit = c'.exit
  trace : c.trace = c'.trace

theorem HeaderFirst.before {events later : List Event} (h : HeaderFirst (events ++ later)) :
    HeaderFirst events := by
  intro before after heq
  exact h before (after ++ later) (by rw [heq, List.append_assoc]; rfl)

/-- Of the two, the header was handled first. -/
theorem HeaderFirst.of_takeWhile {events : List Event}
    (h : .enteredHeader ∈ events.takeWhile (· ≠ .enteredBody)) : HeaderFirst events := by
  rintro before after rfl
  rw [List.takeWhile_append] at h
  split at h
  · simpa using h
  · exact (List.takeWhile_prefix _).subset h

theorem Conn.Alike.started {now now' : Int} {uninit uninit' : Fin (FIELD_BMARK + 3) → Field}
    {s s' : Session} (hnew : newSession now uninit = .ok s) (hnew' : newSession now' uninit' = .ok s')
    (env : Env) : (Conn.started env s).Alike (.started env s') := by
  rw [newSession_eq] at hnew hnew'
  cases hnew
  cases hnew'
  have hinit : Frame.Alike 0 (.init ⟨32, List.ofFn uninit, .empty, .empty⟩)
      (.init ⟨32, List.ofFn uninit', .empty, .empty⟩) :=
    ⟨⟨rfl, rfl, rfl, List.length_ofFn, List.length_ofFn, rfl⟩, rfl, rfl, rfl⟩
  have hcoupled : Coupled (Frame.Alike 0) (start env) (start env) := coupled_start
  obtain ⟨hresult, halike⟩ := hcoupled _ _ hinit
  have hquiet : Event.enteredHeader ∉
      (start env (.init ⟨32, List.ofFn uninit, .empty, .empty⟩)).2.events := by
    cases henv : env.connected with
    | true =>
      obtain ⟨w, -, hstart⟩ := start_run (s := ⟨32, List.ofFn uninit, .empty, .empty⟩) rfl henv
      rw [hstart]
      simp
    | false =>
      rw [start_gone henv]
      exact List.not_mem_nil
  exact ⟨halike.session, fun hentered => absurd hentered hquiet, halike.ops, halike.closed,
    congrArg raised hresult, halike.events⟩

/-- **One completion**: what a session can do the other can, and they stay alike. -/
theorem Conn.Alike.step {T : Target} {c c' u : Conn} {i : Label} (h : c.Alike c') (hc : c.Inv)
    (hstep : Step T c i u) (hfirst : HeaderFirst u.trace) :
    Step T c' i (c'.complete T i) ∧ u.Alike (c'.complete T i) := by
  obtain ⟨hpending, hleave⟩ := hstep.eq_leave hc
  have hready := hc.ready (by rw [hpending]; exact List.cons_ne_nil _ _)
  have hstep' : Step T c' i (c'.complete T i) :=
    ⟨h.exit ▸ hstep.returned, h.pending ▸ hstep.pending, hstep.valid, rfl⟩
  refine ⟨hstep', ?_⟩
  -- the header tables agree if a header was handled before
  obtain ⟨n, hs, hn⟩ : ∃ n, c.session.Alike n c'.session ∧
      (.enteredHeader ∈ c.trace → n = FIELD_BMARK) := by
    by_cases hentered : .enteredHeader ∈ c.trace
    · exact ⟨FIELD_BMARK, h.written hentered, fun _ => rfl⟩
    · exact ⟨0, h.session, fun h => absurd h hentered⟩
  have hshadows : Shadows n (dispatch T i.env i.op i.result (.init c.session))
      (dispatch T i.env i.op i.result (.init c'.session)) := by
    apply dispatch_shadows hs hready
    intro hbody
    obtain ⟨before, after, hevents⟩ := List.append_of_mem hbody
    have hheader := hfirst (c.trace ++ before) after
      (by rw [hleave, Conn.leave_trace, hevents, List.append_assoc])
    rcases List.mem_append.mp hheader with hpast | hnow
    · exact hn hpast
    · refine absurd ?_ ((hstep.dispatched hc).not_both hbody)
      rw [hevents]
      exact List.mem_append_left _ hnow
  have hclosed : c'.closed = false := by
    rw [← h.closed]
    exact hc.closed_eq_false (by rw [hpending]; exact List.cons_ne_nil _ _)
  have hleave' : c'.complete T i = .leave c'.trace (dispatch T i.env i.op i.result (.init c'.session)) := by
    simp [Conn.complete, Conn.after, Conn.leave, ← h.pending, hpending, hclosed]
  rw [hleave, hleave']
  refine ⟨hshadows.alike.session, ?_, hshadows.alike.ops, hshadows.alike.closed,
    congrArg raised hshadows.result, ?_⟩
  · intro hentered
    rw [Conn.leave_trace, List.mem_append] at hentered
    exact (hshadows.written (hentered.imp_left hn)).session
  · rw [Conn.leave_trace, Conn.leave_trace, h.trace, hshadows.alike.events]

/-- The memory of the header table shows if the first word a session is sent is that of a body: of
the same completions, one session answers nothing, and the other decodes a connect request. -/
theorem uninit_shows :
    ∃ (uninit uninit' : Fin (FIELD_BMARK + 3) → Field) (s s' : Session) (i : Label),
      newSession 0 uninit = .ok s ∧ newSession 0 uninit' = .ok s' ∧
        Step (.build .little) (.started ⟨0, true⟩ s) i
          ((Conn.started ⟨0, true⟩ s).complete (.build .little) i) ∧
        Step (.build .little) (.started ⟨0, true⟩ s') i
          ((Conn.started ⟨0, true⟩ s').complete (.build .little) i) ∧
        ((Conn.started ⟨0, true⟩ s).complete (.build .little) i).trace ≠
          ((Conn.started ⟨0, true⟩ s').complete (.build .little) i).trace := by
  refine ⟨fun _ => ⟨0, 0, 0, none, 0⟩, fun _ => ⟨3, MSG_CONNECT, 0, none, 0⟩, _, _,
    ⟨.read 0 32, .received (Bytes.beBytes 4 BODY_MARK.toNat ++ List.replicate 28 0), ⟨0, true⟩⟩,
    newSession_eq 0 _, newSession_eq 0 _, ?_, ?_, ?_⟩
  · exact ⟨by decide +kernel, by decide +kernel, by decide +kernel, rfl⟩
  · exact ⟨by decide +kernel, by decide +kernel, by decide +kernel, rfl⟩
  · decide +kernel

end Librtaio

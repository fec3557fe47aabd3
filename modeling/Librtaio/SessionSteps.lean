import Librtaio.FieldsSize
import Librtaio.SessionHandler
import Librtaio.UnserializeSpec

/-!
# What a completion can do to a session

One lemma for each handler, and from them `dispatch_cases`: everything the
completion of an operation can do, with the session, the operations and the
events it leaves. The invariants of a session are derived from it and from
nothing else.
-/

namespace Librtaio

open Bytes Exec Handler

/-! ### `copy_fields` of a header -/

/-- Entry by entry, the whole header is copied. -/
theorem copyFields_header {hs dest : List Field} (hhs : IsHeader hs) (rest : List Field)
    (hdest : FIELD_BMARK ≤ dest.length) :
    copyFields dest (hs ++ rest) true = .ok (6, hs ++ dest.drop FIELD_BMARK) := by
  rcases hhs with _ | ⟨h0, _ | ⟨h1, _ | ⟨h2, _ | ⟨h3, _ | ⟨h4, _ | ⟨h5, _ | ⟨h6, _ | _⟩⟩⟩⟩⟩⟩⟩
  obtain ⟨d0, d1, d2, d3, d4, d5, d6, ds, rfl⟩ :
      ∃ d0 d1 d2 d3 d4 d5 d6 ds, dest = d0 :: d1 :: d2 :: d3 :: d4 :: d5 :: d6 :: ds := by
    match dest, hdest with
    | d0 :: d1 :: d2 :: d3 :: d4 :: d5 :: d6 :: ds, _ =>
      exact ⟨d0, d1, d2, d3, d4, d5, d6, ds, rfl⟩
  have long : ¬ ¬ DataType.long.code > 0 := by decide
  have llong : ¬ ¬ DataType.llong.code > 0 := by decide
  simp [copyFields, copyLoop, h0.type, h1.type, h2.type, h3.type, h4.type, h5.type, h6.type,
    long, llong, FIELD_BMARK]

/-- Whatever the source holds, the copy of its header stays within both tables' headers. -/
theorem copyFields_returns {dest src : List Field} (hsrc : FIELD_BMARK ≤ src.length)
    (hdest : FIELD_BMARK ≤ dest.length) :
    ∃ n fields, copyFields dest src true = .ok (n, fields) ∧ fields.length = dest.length ∧
      fields.drop FIELD_BMARK = dest.drop FIELD_BMARK := by
  have hloop : ∀ (src dest : List Field) (n : Nat), n < FIELD_BMARK → FIELD_BMARK ≤ n + src.length →
      FIELD_BMARK ≤ dest.length →
      ∃ m fields, copyLoop true n src dest = .ok (m, fields) ∧ fields.length = dest.length ∧
        fields.drop FIELD_BMARK = dest.drop FIELD_BMARK := by
    intro src
    induction src with
    | nil => intro dest n hn hsrc; simp at hsrc; omega
    | cons p src ih =>
      intro dest n hn hsrc hdest
      have hdrop : (dest.set n p).drop FIELD_BMARK = dest.drop FIELD_BMARK := List.drop_set_of_lt hn
      rw [copyLoop]
      by_cases htype : p.type > 0
      · rw [if_neg (not_not_intro htype), if_pos (by omega)]
        by_cases hlast : n = FIELD_BMARK - 1
        · exact ⟨_, _, if_pos ⟨rfl, hlast⟩, List.length_set, hdrop⟩
        · obtain ⟨m, fields, hcopy, hlength, hrest⟩ := ih (dest.set n p) (n + 1)
            (by simp only [FIELD_BMARK] at hn hlast ⊢; omega)
            (by rw [List.length_cons] at hsrc; omega) (by rw [List.length_set]; exact hdest)
          refine ⟨m, fields, ?_, by rw [hlength, List.length_set], hrest.trans hdrop⟩
          rw [if_neg (fun h => hlast h.2)]
          exact hcopy
      · exact ⟨n, dest, if_pos htype, rfl, rfl⟩
  obtain ⟨n, fields, hcopy, hkept⟩ := hloop src dest 0 (by decide) (by omega) hdest
  exact ⟨n, fields, by rw [copyFields, hcopy, ok_bind]; rfl, hkept⟩

/-! ### The session's data -/

namespace Session

/-- What every handler finds: the header size, the header table and a header's worth of
storage. -/
structure Ready (s : Session) : Prop where
  headerSize : s.headerSize = 32
  packetHeader : s.packetHeader.length = FIELD_BMARK + 3
  storage : 32 ≤ s.recvBuffer.storage.length

def memory (s : Session) : List UInt8 := s.recvBuffer.storage

/-- The first word of the receive buffer. -/
def mark (s : Session) (T : Target) : BitVec 32 := BitVec.ofNat 32 (T.order.load (s.memory.take 4))

/-- The `int` an entry of `m_packet_header` holds. -/
def headerInt (s : Session) (i : Nat) : Int := toInt32 (s.packetHeader[i]?.elim 0 (·.ivalue))

/-- The table a handler decodes the body into. -/
def bodyTable (s : Session) (now : Int) : Option (List Field) :=
  if s.headerInt FIELD_METHOD = MSG_CONNECT then
    some (msgConnectFields now nameBuffer nameBuffer)
  else if s.headerInt FIELD_METHOD = MSG_DISCONNECT then some (msgDisconnectFields now)
  else none

/-- What `read_packet_body` decodes: its code and the table as it leaves it. -/
def decodeBody (s : Session) (T : Target) (fields : List Field) : Except Fault (Int × List Field) := do
  let (_, copied) ← copyFields fields s.packetHeader true
  let rd := InputStream.ofBuffer s.memory (toSizeT (s.headerInt FIELD_BSIZE))
  let (ret, _, fields) ← unserializeBodyPacket T rd copied (fieldsLen fields) true
  .ok (ret, fields)

end Session

/-! ### The words of a header -/

/-- The number the bytes of a header spell at the place of an entry. -/
def headerWord (bs : List UInt8) (i : Nat) : Int :=
  (BitVec.ofNat 32 (ofBeBytes ((bs.drop (4 * i)).take 4))).toInt

/-- The body size a header announces. -/
def announcedSize (bs : List UInt8) : Int :=
  (BitVec.ofNat 32 (ofBeBytes ((bs.drop 8).take 4))).toInt

theorem headerWord_bsize (bs : List UInt8) : headerWord bs FIELD_BSIZE = announcedSize bs := rfl

theorem toInt32_headerWord (bs : List UInt8) (i : Nat) :
    toInt32 (headerWord bs i) = headerWord bs i :=
  toInt32_eq (BitVec.le_toInt _) BitVec.toInt_lt

theorem toInt32_announcedSize (bs : List UInt8) : toInt32 (announcedSize bs) = announcedSize bs :=
  toInt32_headerWord bs FIELD_BSIZE

theorem headerWord_take {i : Nat} (hi : i < FIELD_HCRC) (bs : List UInt8) :
    headerWord (bs.take 32) i = headerWord bs i := by
  have hroom : 4 ≤ 32 - 4 * i := by
    simp only [FIELD_HCRC] at hi
    omega
  rw [headerWord, List.drop_take, List.take_take, Nat.min_eq_left hroom]
  rfl

/-- The entries a header is read into hold its words. -/
theorem word_scalarsRead {hs : List Field} (hhs : IsHeader hs) (bs : List UInt8) (rest : List Field)
    {i : Nat} (hi : i < FIELD_HCRC) :
    ∃ p, fieldAt (scalarsRead hs headerTypes bs ++ rest) i = .ok p ∧ p.ivalue = headerWord bs i := by
  rcases hhs with _ | ⟨h0, _ | ⟨h1, _ | ⟨h2, _ | ⟨h3, _ | ⟨h4, _ | ⟨h5, _⟩⟩⟩⟩⟩⟩
  simp only [FIELD_HCRC] at hi
  obtain rfl | rfl | rfl | rfl | rfl | rfl : i = 0 ∨ i = 1 ∨ i = 2 ∨ i = 3 ∨ i = 4 ∨ i = 5 := by
    omega
  all_goals
    exact ⟨_, rfl, by simp [DataType.width, Field.scalarRead, headerWord, List.drop_drop]⟩

theorem bsize_scalarsRead {hs : List Field} (hhs : IsHeader hs) (bs : List UInt8) (rest : List Field) :
    ∃ p, fieldAt (scalarsRead hs headerTypes bs ++ rest) FIELD_BSIZE = .ok p ∧
      p.ivalue = announcedSize bs :=
  word_scalarsRead hhs bs rest (by decide)

theorem headerInt_of_fieldAt {s : Session} {i : Nat} {p : Field}
    (h : fieldAt s.packetHeader i = .ok p) : s.headerInt i = toInt32 p.ivalue := by
  unfold fieldAt at h
  cases hp : s.packetHeader[i]? with
  | none => rw [hp] at h; cases h
  | some q =>
    rw [hp] at h
    cases h
    simp [Session.headerInt, hp]

theorem Session.Ready.fieldAt {s : Session} (h : s.Ready) {i : Nat} (hi : i < FIELD_BMARK + 3) :
    ∃ p, fieldAt s.packetHeader i = .ok p ∧ toInt32 p.ivalue = s.headerInt i := by
  have hlt : i < s.packetHeader.length := by rw [h.packetHeader]; exact hi
  have hfield : Librtaio.fieldAt s.packetHeader i = .ok s.packetHeader[i] := by
    rw [Librtaio.fieldAt, List.getElem?_eq_getElem hlt]
  exact ⟨_, hfield, (headerInt_of_fieldAt hfield).symm⟩

/-! ### The receive buffer -/

namespace Session

/-- The session after the socket stored `bs` at `offset`. -/
def Stored (s : Session) (offset : Nat) (bs : List UInt8) (s' : Session) : Prop :=
  ∃ w, s.recvBuffer.store offset bs = .ok w ∧ s' = { s with recvBuffer := w }

variable {s s' : Session} {offset : Nat} {bs : List UInt8}

theorem Stored.fit (h : s.Stored offset bs s') : offset + bs.length ≤ s.memory.length := by
  obtain ⟨w, hstore, -⟩ := h
  change offset + bs.length ≤ s.recvBuffer.storage.length
  by_contra hlt
  rw [CharVector.store, dif_neg hlt] at hstore
  cases hstore

theorem Stored.memory (h : s.Stored offset bs s') :
    s'.memory = s.memory.take offset ++ bs ++ s.memory.drop (offset + bs.length) := by
  obtain ⟨w', hw', -, hmemory, -⟩ := CharVector.store_fit _ _ _ h.fit
  obtain ⟨w, hstore, rfl⟩ := h
  cases hw'.symm.trans hstore
  exact hmemory

theorem Stored.size (h : s.Stored offset bs s') : s'.recvBuffer.size = s.recvBuffer.size := by
  obtain ⟨w', hw', hsize, -⟩ := CharVector.store_fit _ _ _ h.fit
  obtain ⟨w, hstore, rfl⟩ := h
  cases hw'.symm.trans hstore
  exact hsize

theorem Stored.packetHeader (h : s.Stored offset bs s') : s'.packetHeader = s.packetHeader := by
  obtain ⟨w, -, rfl⟩ := h
  rfl

theorem Stored.headerInt (h : s.Stored offset bs s') (i : Nat) : s'.headerInt i = s.headerInt i := by
  rw [Session.headerInt, Session.headerInt, h.packetHeader]

theorem Stored.ready (h : s.Stored offset bs s') (hs : s.Ready) : s'.Ready := by
  obtain ⟨w', hw', -, -, hlength⟩ := CharVector.store_fit _ _ _ h.fit
  obtain ⟨w, hstore, rfl⟩ := h
  cases hw'.symm.trans hstore
  exact ⟨hs.headerSize, hs.packetHeader, by rw [hlength]; exact hs.storage⟩

end Session

/-! ### The header -/

theorem headerAccepted_take (compareCrc : Bool) (bs : List UInt8) :
    HeaderAccepted compareCrc (bs.take 32) ↔ HeaderAccepted compareCrc bs := by
  simp only [HeaderAccepted, List.take_take, List.drop_take]
  rfl

theorem announcedSize_take (bs : List UInt8) : announcedSize (bs.take 32) = announcedSize bs := by
  simp only [announcedSize, List.take_take, List.drop_take]
  rfl

section Header

variable {T : Target} {env : Env} {f : Frame}

theorem readPacketHeader_run {hs rest : List Field} (hready : f.session.Ready) (hhs : IsHeader hs)
    (hheader : f.session.packetHeader = hs ++ rest) :
    ∃ ret hs', IsHeader hs' ∧ (ret = ERR_OK ↔ HeaderAccepted true f.session.memory) ∧
      (ret = ERR_OK → hs' = scalarsRead hs headerTypes (f.session.memory.take 32)) ∧
      readPacketHeader T f = (.ok ret, { f with
        session := { f.session with packetHeader := hs' ++ rest }
        events := f.events ++ [.window 0 32 f.session.recvBuffer.size] }) := by
  have hsize : toSizeT f.session.headerSize = 32 := by rw [hready.headerSize]; rfl
  have hrest : (InputStream.ofBuffer f.session.recvBuffer.storage 32).rest =
      f.session.memory.take 32 := rfl
  have hlength : 32 ≤ (InputStream.ofBuffer f.session.recvBuffer.storage 32).rest.length := by
    have hstorage := hready.storage
    rw [hrest, List.length_take]
    exact le_min (le_refl _) hstorage
  have hdecode := unserializeHeaderPacket_fields (T := T) true rest hhs
    (s := .ofBuffer f.session.recvBuffer.storage 32) rfl rfl hlength
  rw [hrest, headerAccepted_take] at hdecode
  rcases hdecode with ⟨haccept, hpacket⟩ | ⟨hreject, ret, s', hs', hpacket, hret, hhs'⟩
  · refine ⟨ERR_OK, scalarsRead hs headerTypes (f.session.memory.take 32),
      isScalar_scalarsRead hhs _, iff_of_true rfl haccept, fun _ => rfl, ?_⟩
    simp only [readPacketHeader, get_bind, hsize, window_bind, hheader, hpacket, orFault_ok,
      lift_ok_bind, set_bind, pure_run]
  · refine ⟨ret, hs', hhs', iff_of_false hret hreject, fun h => absurd h hret, ?_⟩
    simp only [readPacketHeader, get_bind, hsize, window_bind, hheader, hpacket, orFault_ok,
      lift_ok_bind, set_bind, pure_run]

/-- What `handle_packet_header` leaves, for the three kinds of header. -/
inductive HeaderHandled (f : Frame) : Except Exit Int × Frame → Prop where
  | rejected (ret : Int) (packetHeader : List Field)
      (hreject : ¬ HeaderAccepted true f.session.memory)
      (hlength : packetHeader.length = FIELD_BMARK + 3) :
      HeaderHandled f (.ok ret, { f with
        session := { f.session with packetHeader }
        events := f.events ++ [.enteredHeader, .window 0 32 f.session.recvBuffer.size] })
  | negative (s' : Session) (haccept : HeaderAccepted true f.session.memory)
      (hneg : announcedSize f.session.memory < 0) :
      HeaderHandled f (.error .exception, { f with
        session := s'
        events := f.events ++ [.enteredHeader, .window 0 32 f.session.recvBuffer.size,
          .acceptedHeader (announcedSize f.session.memory)] })
  | accepted (n : Nat) (s' : Session) (haccept : HeaderAccepted true f.session.memory)
      (hn : announcedSize f.session.memory = n) (hready : s'.Ready)
      (hsize : s'.recvBuffer.size = n) (hbsize : s'.headerInt FIELD_BSIZE = n) :
      HeaderHandled f (.ok 0,
        { session := s'
          ops := f.ops ++ [.read 0 n]
          closed := f.closed
          events := f.events ++ [.enteredHeader, .window 0 32 f.session.recvBuffer.size,
            .acceptedHeader n, .window 0 n n, .armed .handlePacketHeader (.read 0 n)] })

/-- The table of an accepted header holds its words. -/
theorem handlePacketHeader_run (hready : f.session.Ready) :
    HeaderHandled f (handlePacketHeader T env f) ∧
      (HeaderAccepted true f.session.memory →
        (handlePacketHeader T env f).2.session.packetHeader =
          scalarsRead ((msgHeader env.now MSG_COMMON 0 1).take FIELD_BMARK) headerTypes
            (f.session.memory.take 32) ++ f.session.packetHeader.drop FIELD_BMARK) := by
  -- the table the header is read into starts as that of a common request
  have hsplit : msgCommonReqFields env.now MSG_COMMON =
      (msgHeader env.now MSG_COMMON 0 1).take FIELD_BMARK ++
        (scalarField .long BODY_MARK.toInt :: msgTail) := rfl
  have hcopy := copyFields_header (isHeader_msgHeader env.now MSG_COMMON 0 1)
    (scalarField .long BODY_MARK.toInt :: msgTail)
    (by rw [hready.packetHeader]; decide)
  rw [← hsplit] at hcopy
  have hdrop : (f.session.packetHeader.drop FIELD_BMARK).length = 3 := by
    rw [List.length_drop, hready.packetHeader]
    rfl
  set f₁ : Frame := { f with
    session := { f.session with packetHeader := (msgHeader env.now MSG_COMMON 0 1).take FIELD_BMARK ++
      f.session.packetHeader.drop FIELD_BMARK }
    events := f.events ++ [.enteredHeader] } with hf₁
  have hready₁ : f₁.session.Ready := by
    refine ⟨hready.headerSize, ?_, hready.storage⟩
    rw [hf₁, List.length_append, hdrop]
    rfl
  obtain ⟨ret, hs', hhs', hret, hread, hrun⟩ := readPacketHeader_run (T := T) hready₁
    (isHeader_msgHeader env.now MSG_COMMON 0 1) rfl
  have hlength : (hs' ++ f.session.packetHeader.drop FIELD_BMARK).length = FIELD_BMARK + 3 := by
    rw [List.length_append, hdrop, hhs'.length_eq]
    rfl
  have hmemory : f₁.session.memory = f.session.memory := rfl
  rw [hmemory] at hret hread
  simp only [handlePacketHeader, emit_bind, get_bind, hcopy, orFault_ok, lift_ok_bind, set_bind]
  rw [bind_of_ok hrun]
  by_cases hzero : ret = 0
  · have haccept := hret.mp hzero
    obtain ⟨p, hp, hvalue⟩ := bsize_scalarsRead (isHeader_msgHeader env.now MSG_COMMON 0 1)
      (f.session.memory.take 32) (f.session.packetHeader.drop FIELD_BMARK)
    rw [← hread hzero] at hp
    rw [announcedSize_take] at hvalue
    have hint := toInt32_announcedSize f.session.memory
    simp only [if_pos hzero, get_bind, hp, orFault_ok, lift_ok_bind, emit_bind, hvalue, hint]
    by_cases hneg : announcedSize f.session.memory < 0
    · rw [CharVector.resize_neg hneg, lift_error_bind]
      simp only [hf₁, List.append_assoc, List.cons_append, List.nil_append]
      exact ⟨.negative _ haccept hneg, fun _ => by rw [hread hzero]⟩
    · obtain ⟨n, hn⟩ : ∃ n : Nat, announcedSize f.session.memory = n :=
        ⟨_, (Int.toNat_of_nonneg (by omega)).symm⟩
      obtain ⟨w, hresize, hsize, hstorage⟩ := f.session.recvBuffer.resize_clear (n := n) (by omega)
      have hn31 : (n : Int) < 2 ^ 31 := by
        rw [← hn]
        exact BitVec.toInt_lt
      have hwant : toSizeT n = n := (toSizeT_eq (by omega) hn31).trans (Int.toNat_natCast n)
      have hwsize : w.size = n := Int.ofNat_inj.mp hsize
      rw [hn, hresize, hwant]
      simp only [lift_ok_bind, set_bind, asyncReadSome_bind, pure_run, hf₁, hwsize, hzero,
        List.append_assoc, List.cons_append, List.nil_append]
      refine ⟨.accepted n _ haccept hn ⟨hready.headerSize, hlength, ?_⟩ hwsize ?_,
        fun _ => by rw [hread hzero]⟩
      · exact le_trans hready.storage hstorage
      · rw [headerInt_of_fieldAt hp, hvalue, hint, hn]
  · rw [if_neg hzero, pure_run]
    simp only [hf₁, List.append_assoc, List.cons_append, List.nil_append]
    exact ⟨.rejected ret _ (fun h => hzero (hret.mpr h)) hlength, fun h => absurd (hret.mpr h) hzero⟩

theorem handlePacketHeader_handled (hready : f.session.Ready) :
    HeaderHandled f (handlePacketHeader T env f) := (handlePacketHeader_run hready).1

end Header

/-! ### The body -/

section Body

variable {T : Target} {env : Env} {f : Frame}

def Session.bodyWindow (s : Session) : Event :=
  .window 0 (toSizeT (s.headerInt FIELD_BSIZE)) s.recvBuffer.size

theorem readPacketBody_run (hready : f.session.Ready) (fields : List Field)
    (hfields : FIELD_BMARK ≤ fields.length) :
    readPacketBody T fields (fieldsLen fields) f =
      (orFault (f.session.decodeBody T fields),
        { f with events := f.events ++ [f.session.bodyWindow] }) := by
  obtain ⟨p, hp, hbsize⟩ := hready.fieldAt (i := FIELD_BSIZE) (by decide)
  obtain ⟨n, copied, hcopy, -⟩ := copyFields_returns
    (by rw [hready.packetHeader]; decide) hfields
  simp only [readPacketBody, get_bind, hcopy, hp, orFault_ok, lift_ok_bind, window_bind, hbsize,
    Session.decodeBody, ok_bind, Session.bodyWindow, Session.memory]
  cases unserializeBodyPacket T (InputStream.ofBuffer f.session.recvBuffer.storage
    (toSizeT (f.session.headerInt FIELD_BSIZE))) copied (fieldsLen fields) true <;> rfl

/-- The response to a connect request is always encoded. -/
theorem sendPacket_run (now : Int) :
    ∃ packet, sendPacket T (msgConnectRespFields now ERR_OK 1)
        (fieldsLen (msgConnectRespFields now ERR_OK 1)) f =
      (.ok ERR_OK,
        { session := { f.session with sendBuffer := ⟨packet, packet.length, le_refl _⟩ }
          ops := f.ops ++ [.write packet]
          closed := f.closed
          events := f.events ++ [.armed .sendPacket (.write packet)] }) ∧
      packet = ((MsgTable.connectResp now ERR_OK 1).sent T).wire T := by
  have hencode := (MsgTable.connectResp now ERR_OK 1).encodePacket_fields T
    (by rw [MsgTable.size_connectResp]; decide)
  rw [MsgTable.fields_connectResp, ← MsgTable.fieldsLen_fields, MsgTable.fields_connectResp]
    at hencode
  refine ⟨_, ?_, rfl⟩
  rw [sendPacket, hencode]
  rfl

/-- What `handle_packet_body` leaves. -/
inductive BodyHandled (T : Target) (env : Env) (f : Frame) : Except Exit Int × Frame → Prop where
  | unhandled (htable : f.session.bodyTable env.now = none) :
      BodyHandled T env f (.ok (-1), { f with events := f.events ++ [.enteredBody] })
  | undecoded (fields fields' : List Field) (code : Int)
      (htable : f.session.bodyTable env.now = some fields)
      (hdecode : f.session.decodeBody T fields = .ok (code, fields')) (hcode : code ≠ ERR_OK) :
      BodyHandled T env f (.ok code,
        { f with events := f.events ++ [.enteredBody, f.session.bodyWindow] })
  | faulted (fields : List Field) (fault : Fault)
      (htable : f.session.bodyTable env.now = some fields)
      (hdecode : f.session.decodeBody T fields = .error fault) :
      BodyHandled T env f (.error (.fault fault),
        { f with events := f.events ++ [.enteredBody, f.session.bodyWindow] })
  | replied (fields fields' : List Field) (packet : List UInt8)
      (hmethod : f.session.headerInt FIELD_METHOD = MSG_CONNECT)
      (htable : f.session.bodyTable env.now = some fields)
      (hdecode : f.session.decodeBody T fields = .ok (ERR_OK, fields'))
      (hpacket : packet = ((MsgTable.connectResp env.now ERR_OK 1).sent T).wire T) :
      BodyHandled T env f (.ok ERR_OK,
        { session := { f.session with sendBuffer := ⟨packet, packet.length, le_refl _⟩ }
          ops := f.ops ++ [.write packet]
          closed := f.closed
          events := f.events ++ [.enteredBody, f.session.bodyWindow,
            .connected (dataAt fields' 9) (dataAt fields' 11), .armed .sendPacket (.write packet)] })
  | disconnected (fields fields' : List Field)
      (hmethod : f.session.headerInt FIELD_METHOD = MSG_DISCONNECT)
      (htable : f.session.bodyTable env.now = some fields)
      (hdecode : f.session.decodeBody T fields = .ok (ERR_OK, fields'))
      (henv : env.connected = true) :
      BodyHandled T env f (.ok 0, { f with
        closed := true
        events := f.events ++ [.enteredBody, f.session.bodyWindow] })
  | gone (fields fields' : List Field)
      (hmethod : f.session.headerInt FIELD_METHOD = MSG_DISCONNECT)
      (htable : f.session.bodyTable env.now = some fields)
      (hdecode : f.session.decodeBody T fields = .ok (ERR_OK, fields'))
      (henv : env.connected = false) :
      BodyHandled T env f (.error .exception,
        { f with events := f.events ++ [.enteredBody, f.session.bodyWindow] })

theorem close_run (hconnected : env.connected = true) :
    close env f = (.ok (), { f with closed := true }) := by
  have hremote : remoteEndpoint env f = (.ok (), f) := by rw [remoteEndpoint, if_pos hconnected]; rfl
  exact bind_of_ok hremote _

theorem close_gone (hconnected : env.connected = false) : close env f = (.error .exception, f) := by
  have hremote : remoteEndpoint env f = (.error .exception, f) := by
    rw [remoteEndpoint, if_neg (by simp [hconnected])]
    rfl
  exact bind_of_error hremote _

theorem msgConnect_handled (hready : f.session.Ready)
    (hmethod : f.session.headerInt FIELD_METHOD = MSG_CONNECT) :
    BodyHandled T env f (msgConnect T env { f with events := f.events ++ [.enteredBody] }) := by
  have htable : f.session.bodyTable env.now = some (msgConnectFields env.now nameBuffer nameBuffer) :=
    if_pos hmethod
  have hread := readPacketBody_run (T := T) (f := { f with events := f.events ++ [.enteredBody] })
    hready (msgConnectFields env.now nameBuffer nameBuffer)
    (by simp [msgConnectFields, msgHeader, msgTail, FIELD_BMARK])
  rw [msgConnect]
  cases hdecode : f.session.decodeBody T (msgConnectFields env.now nameBuffer nameBuffer) with
  | error fault =>
    rw [hdecode] at hread
    rw [bind_of_error hread]
    simp only [List.append_assoc, List.cons_append, List.nil_append]
    exact .faulted _ _ htable hdecode
  | ok r =>
    obtain ⟨code, fields'⟩ := r
    rw [hdecode] at hread
    rw [bind_of_ok hread]
    by_cases hcode : code = ERR_OK
    · subst hcode
      obtain ⟨packet, hsend, hpacket⟩ := sendPacket_run (T := T) env.now
        (f := { f with events := f.events ++ [.enteredBody] ++ [f.session.bodyWindow] ++
          [.connected (dataAt fields' 9) (dataAt fields' 11)] })
      simp only [ne_eq, not_true, if_false, emit_bind]
      rw [hsend]
      simp only [List.append_assoc, List.cons_append, List.nil_append]
      exact .replied _ fields' packet hmethod htable hdecode hpacket
    · simp only [ne_eq, hcode, not_false_iff, if_true, pure_run, List.append_assoc,
        List.cons_append, List.nil_append]
      exact .undecoded _ fields' code htable hdecode hcode

theorem msgDisconnect_handled (hready : f.session.Ready)
    (hmethod : f.session.headerInt FIELD_METHOD = MSG_DISCONNECT) :
    BodyHandled T env f (msgDisconnect T env { f with events := f.events ++ [.enteredBody] }) := by
  have htable : f.session.bodyTable env.now = some (msgDisconnectFields env.now) := by
    rw [Session.bodyTable, if_neg (by rw [hmethod]; decide), if_pos hmethod]
  have hread := readPacketBody_run (T := T) (f := { f with events := f.events ++ [.enteredBody] })
    hready (msgDisconnectFields env.now)
    (by simp [msgDisconnectFields, msgHeader, msgTail, FIELD_BMARK])
  rw [msgDisconnect]
  cases hdecode : f.session.decodeBody T (msgDisconnectFields env.now) with
  | error fault =>
    rw [hdecode] at hread
    rw [bind_of_error hread]
    simp only [List.append_assoc, List.cons_append, List.nil_append]
    exact .faulted _ _ htable hdecode
  | ok r =>
    obtain ⟨code, fields'⟩ := r
    rw [hdecode] at hread
    rw [bind_of_ok hread]
    by_cases hcode : code = ERR_OK
    · subst hcode
      simp only [ne_eq, not_true, if_false]
      cases henv : env.connected with
      | true =>
        rw [bind_of_ok (close_run henv)]
        simp only [pure_run, List.append_assoc, List.cons_append, List.nil_append]
        exact .disconnected _ fields' hmethod htable hdecode henv
      | false =>
        rw [bind_of_error (close_gone henv)]
        simp only [List.append_assoc, List.cons_append, List.nil_append]
        exact .gone _ fields' hmethod htable hdecode henv
    · simp only [ne_eq, hcode, not_false_iff, if_true, pure_run, List.append_assoc,
        List.cons_append, List.nil_append]
      exact .undecoded _ fields' code htable hdecode hcode

theorem handlePacketBody_handled (hready : f.session.Ready) :
    BodyHandled T env f (handlePacketBody T env f) := by
  obtain ⟨p, hp, hmethod⟩ := hready.fieldAt (i := FIELD_METHOD) (by decide)
  simp only [handlePacketBody, emit_bind, get_bind, hp, orFault_ok, lift_ok_bind, hmethod]
  by_cases hconnect : f.session.headerInt FIELD_METHOD = MSG_CONNECT
  · rw [if_pos hconnect]
    exact msgConnect_handled hready hconnect
  by_cases hdisconnect : f.session.headerInt FIELD_METHOD = MSG_DISCONNECT
  · rw [if_neg hconnect, if_pos hdisconnect]
    exact msgDisconnect_handled hready hdisconnect
  · rw [if_neg hconnect, if_neg hdisconnect]
    exact .unhandled (by rw [Session.bodyTable, if_neg hconnect, if_neg hdisconnect])

end Body

/-! ### A completion -/

/-- The return codes of the nested handlers are dropped. -/
def dropCode (left : Except Exit Int × Frame) : Except Exit Unit × Frame :=
  (left.1.map fun _ => (), left.2)

theorem dropCode_snd (left : Except Exit Int × Frame) : (dropCode left).2 = left.2 := rfl

/-- What `handle_read` leaves once it looks at a read of all the bytes it wanted. -/
inductive Inspected (T : Target) (env : Env) (f : Frame) : Except Exit Unit × Frame → Prop where
  | unknown (hhead : f.session.mark T ≠ HEAD_MARK) (hbody : f.session.mark T ≠ BODY_MARK) :
      Inspected T env f (.ok (), f)
  | header (hmark : f.session.mark T = HEAD_MARK) {left : Except Exit Int × Frame}
      (h : HeaderHandled f left) : Inspected T env f (dropCode left)
  | body (hmark : f.session.mark T = BODY_MARK) {left : Except Exit Int × Frame}
      (h : BodyHandled T env f left) : Inspected T env f (dropCode left)

/-- The completions that make a handler close the session: errors, and reads of nothing. -/
inductive Label.Ends (i : Label) : List Event → Prop where
  | failed (hresult : i.result = .failed) : i.Ends []
  | nothing (offset : Nat) (hop : i.op = .read offset 0) (hresult : i.result = .received []) :
      i.Ends [.received []]

/-- Everything the completion of an operation can do. -/
inductive Dispatched (T : Target) (i : Label) (s : Session) : Except Exit Unit × Frame → Prop where
  | closed (s' : Session) (evs : List Event) (hends : i.Ends evs) (henv : i.env.connected = true) :
      Dispatched T i s (.ok (), ⟨s', [], true, evs⟩)
  | gone (s' : Session) (evs : List Event) (hends : i.Ends evs) (henv : i.env.connected = false) :
      Dispatched T i s (.error .exception, ⟨s', [], false, evs⟩)
  | partly (offset length : Nat) (bs : List UInt8) (s' : Session)
      (hop : i.op = .read offset length) (hresult : i.result = .received bs)
      (hpos : 0 < bs.length) (hlt : bs.length < length) (hs' : s.Stored offset bs s') :
      Dispatched T i s (.ok (), ⟨s', [.read bs.length (length - bs.length)], false,
        [.received bs, .window bs.length (length - bs.length) s'.recvBuffer.size,
          .armed .handleRead (.read bs.length (length - bs.length))]⟩)
  | whole (offset length : Nat) (bs : List UInt8) (s' : Session)
      (hop : i.op = .read offset length) (hresult : i.result = .received bs)
      (hpos : 0 < bs.length) (hlen : bs.length = length) (hs' : s.Stored offset bs s')
      {left : Except Exit Unit × Frame}
      (h : Inspected T i.env ⟨s', [], false, [.received bs,
        .inspected s'.memory, .window 0 4 s'.recvBuffer.size]⟩ left) :
      Dispatched T i s left
  | written (packet : List UInt8) (hop : i.op = .write packet) (hresult : i.result = .written) :
      Dispatched T i s (.ok (), ⟨s, [.read 0 32], false,
        [.window 0 32 s.recvBuffer.size, .armed .handleWrite (.read 0 32)]⟩)

section Dispatch

variable {T : Target} {env : Env} {f : Frame}

/-- What `handle_read` goes on with once it has looked at the buffer. -/
def Frame.looked (f : Frame) : Frame :=
  { f with events := f.events ++ [.inspected f.session.memory, .window 0 4 f.session.recvBuffer.size] }

theorem bind_dropCode (x : Handler Int) (f : Frame) :
    (x >>= fun _ => pure ()) f = dropCode (x f) := by
  rcases hx : x f with ⟨_ | a, f'⟩
  · exact bind_of_error hx _
  · exact bind_of_ok hx _

/-- Of a read of all the bytes it wanted, `handle_read` looks at the first word. -/
theorem handleRead_run (hready : f.session.Ready) {n want : Nat} (hpos : 0 < n) (hn : want ≤ n) :
    handleRead T env false n want f =
      if HEAD_MARK = f.session.mark T then dropCode (handlePacketHeader T env f.looked)
      else if BODY_MARK = f.session.mark T then dropCode (handlePacketBody T env f.looked)
      else (.ok (), f.looked) := by
  have hstorage := hready.storage
  have hshort : ¬ f.session.recvBuffer.storage.length < 4 := by omega
  have hmark : readMark T { f with events := f.events ++ [.inspected f.session.memory] } =
      (.ok (f.session.mark T), f.looked) := by
    simp only [readMark, get_bind, window_bind, if_neg hshort, pure_run, Frame.looked,
      List.append_assoc, List.cons_append, List.nil_append]
    rfl
  simp only [handleRead, Bool.not_false, if_true, if_neg (show ¬ n = 0 by omega),
    if_neg (show ¬ n < want by omega), get_bind, emit_bind]
  refine (bind_of_ok hmark _).trans ?_
  split
  · exact bind_dropCode _ _
  · split
    · exact bind_dropCode _ _
    · rfl

theorem handleRead_whole (hready : f.session.Ready) {n want : Nat} (hpos : 0 < n) (hn : want ≤ n) :
    Inspected T env f.looked (handleRead T env false n want f) := by
  have hready₁ : f.looked.session.Ready := hready
  have hmark₁ : f.looked.session.mark T = f.session.mark T := rfl
  rw [handleRead_run hready hpos hn]
  by_cases hhead : HEAD_MARK = f.session.mark T
  · rw [if_pos hhead]
    exact .header (hmark₁.trans hhead.symm) (handlePacketHeader_handled hready₁)
  by_cases hbody : BODY_MARK = f.session.mark T
  · rw [if_neg hhead, if_pos hbody]
    exact .body (hmark₁.trans hbody.symm) (handlePacketBody_handled hready₁)
  · rw [if_neg hhead, if_neg hbody]
    exact .unknown (Ne.symm hhead) (Ne.symm hbody)

theorem dispatch_received {s s' : Session} {offset n : Nat} {bs : List UInt8}
    (hs' : s.Stored offset bs s') :
    dispatch T env (.read offset n) (.received bs) (.init s) =
      handleRead T env false bs.length n ⟨s', [], false, [.received bs]⟩ := by
  obtain ⟨w, hstore, rfl⟩ := hs'
  simp only [dispatch, get_bind, Frame.init, hstore, orFault_ok, lift_ok_bind, set_bind, emit_bind,
    List.nil_append]

/-- A packet that was written is followed by the read of a header. -/
theorem dispatch_written {s : Session} (hready : s.Ready) (packet : List UInt8) :
    dispatch T env (.write packet) .written (.init s) =
      (.ok (), ⟨s, [.read 0 32], false,
        [.window 0 32 s.recvBuffer.size, .armed .handleWrite (.read 0 32)]⟩) := by
  have hsize : toSizeT s.headerSize = 32 := by rw [hready.headerSize]; rfl
  simp only [dispatch, handleWrite, Bool.not_false, if_true, get_bind, Frame.init, hsize,
    asyncReadSome_run, List.nil_append]

theorem Label.Ends.close {i : Label} {s s' : Session} {evs : List Event} (hends : i.Ends evs) :
    Dispatched T i s (close i.env ⟨s', [], false, evs⟩) := by
  cases henv : i.env.connected with
  | true =>
    rw [close_run henv]
    exact .closed s' evs hends henv
  | false =>
    rw [close_gone henv]
    exact .gone s' evs hends henv

/-- **Everything a completion can do.** -/
theorem dispatch_cases {i : Label} {s : Session} (hready : s.Ready)
    (hvalid : i.op.CanComplete i.result)
    (hfit : ∀ offset length, i.op = .read offset length → offset + length ≤ s.memory.length) :
    Dispatched T i s (dispatch T i.env i.op i.result (.init s)) := by
  obtain ⟨op, result, env⟩ := i
  cases op with
  | read offset length =>
    cases result with
    | received bs =>
      obtain ⟨hle, hnil⟩ := hvalid
      have hroom := hfit offset length rfl
      obtain ⟨w, hstore, -⟩ := s.recvBuffer.store_fit offset bs
        (show _ ≤ s.memory.length by omega)
      have hs' : s.Stored offset bs { s with recvBuffer := w } := ⟨w, hstore, rfl⟩
      rw [dispatch_received hs']
      by_cases hzero : bs = []
      · subst hzero
        obtain rfl : length = 0 := hnil rfl
        exact Label.Ends.close (.nothing offset rfl rfl)
      have hpos : 0 < bs.length := List.length_pos_iff.mpr hzero
      by_cases hlt : bs.length < length
      · simp only [handleRead, Bool.not_false, if_true, if_neg (show ¬ bs.length = 0 by omega),
          if_pos hlt, asyncReadSome_run, List.nil_append, List.cons_append]
        exact .partly offset length bs _ rfl rfl hpos hlt hs'
      · have hwhole : Inspected T env _ (handleRead T env false bs.length length
            ⟨{ s with recvBuffer := w }, [], false, [.received bs]⟩) :=
          handleRead_whole (hs'.ready hready) hpos (by omega)
        exact .whole offset length bs _ rfl rfl hpos (by omega) hs' hwhole
    | written => exact hvalid.elim
    | failed => exact Label.Ends.close (.failed rfl)
  | write packet =>
    cases result with
    | received bs => exact hvalid.elim
    | written =>
      rw [dispatch_written hready]
      exact .written packet rfl rfl
    | failed => exact Label.Ends.close (.failed rfl)

end Dispatch

end Librtaio

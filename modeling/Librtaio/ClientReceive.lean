import Librtaio.ClientSteps

/-!
# Receiving what was sent

The client reads a packet in as many pieces as it comes in, and decodes it into
the caller's table. Two properties of the call hold for some packets and some
ways to split them only, and for each it is shown of which: that it does not
matter how the packet is split, and that the call gives the caller what the
server has sent.
-/

namespace Librtaio

open Bytes Exec Receive

namespace MsgTable

variable {t : MsgTable} {T T' : Target}

/-! ### The header -/

/-- A word of a run of LONG entries is the value of its entry. -/
theorem headerWord_wires {cnt : Int} {prev p : Field} {es : List Field} {i : Nat}
    (hes : ∀ q ∈ es.take (i + 1), q.IsScalar .long) (hp : es[i]? = some p) (tail : List UInt8) :
    headerWord (wires T cnt prev es ++ tail) i = toInt32 p.ivalue := by
  induction i generalizing prev es with
  | zero =>
    obtain ⟨es', rfl⟩ : ∃ es', es = p :: es' := by
      cases es with
      | nil => cases hp
      | cons q es' => exact ⟨es', by rw [Option.some.inj hp]⟩
    have hlength : (p.scalarWire T .long).length = 4 := Field.length_scalarWire _ _ _
    have hvalue : BitVec.ofNat 32 (ofBeBytes (p.scalarWire T .long)) = BitVec.ofInt 32 p.ivalue := by
      apply BitVec.eq_of_toNat_eq
      have hlt := (BitVec.ofInt 32 p.ivalue).isLt
      rw [Field.scalarWire, ofBeBytes_beBytes, BitVec.toNat_ofNat]
      omega
    rw [headerWord, wires, (hes p (by simp)).wire_eq, Nat.mul_zero, List.drop_zero,
      List.append_assoc, List.take_left' hlength, hvalue, toInt32]
  | succ i ih =>
    obtain ⟨q, es', rfl⟩ : ∃ q es', es = q :: es' := by
      cases es with
      | nil => cases hp
      | cons q es' => exact ⟨q, es', rfl⟩
    have hlength : (q.wire T cnt prev).length = 4 := by
      rw [(hes q (by simp)).wire_eq]
      exact Field.length_scalarWire _ _ _
    have hnext : headerWord (wires T cnt q es' ++ tail) i = toInt32 p.ivalue :=
      ih (fun r hr => hes r (by simp [hr])) hp
    rw [← hnext, headerWord, headerWord, wires, List.append_assoc,
      show 4 * (i + 1) = 4 + 4 * i by omega, ← List.drop_drop, List.drop_left' hlength]

/-- The words of a header are the values of its entries. -/
theorem headerWord_headerWire (t : MsgTable) (T : Target) {i : Nat} (hi : i < FIELD_HCRC) {p : Field}
    (hp : t.head[i]? = some p) (tail : List UInt8) :
    headerWord (t.headerWire T ++ tail) i = toInt32 p.ivalue := by
  rw [headerWire_eq]
  refine headerWord_wires (fun q hq => ?_) hp tail
  have hlongs : ∀ q ∈ t.head.take FIELD_HCRC, q.IsScalar .long := by
    simp only [head, plain, FIELD_HCRC, List.cons_append, List.nil_append, List.take_succ_cons,
      List.take_zero, List.forall_mem_cons, List.not_mem_nil, false_imp_iff, implies_true, and_true]
    exact ⟨t.hmark_long, t.method_long, t.bsize_long, t.ret_long, t.time_long, t.count_long⟩
  exact hlongs q (List.take_subset_take_left _ hi hq)

theorem announcedSize_headerWire (t : MsgTable) (hsize : t.size < 2 ^ 31) (T : Target) :
    announcedSize ((t.sent T).headerWire T) = t.bodySize := by
  have hbody := t.bodySize_ge
  have htotal : t.size = 32 + t.bodySize := rfl
  have hword := (t.sent T).headerWord_headerWire T (i := FIELD_BSIZE) (by decide) rfl []
  rw [List.append_nil, headerWord_bsize] at hword
  exact hword.trans (toInt32_eq (by change _ ≤ t.bodySize; omega) (by change t.bodySize < _; omega))

def commonTail : List Field := scalarField .long BODY_MARK.toInt :: msgTail

/-- The header as the call decodes it: into the table of a common request. -/
def decodedHeader (t : MsgTable) (T : Target) (now : Int) : List Field :=
  scalarsRead ((msgHeader now MSG_COMMON 0 1).take FIELD_BMARK) headerTypes ((t.sent T).headerWire T)

theorem isHeader_decodedHeader (now : Int) : IsHeader (t.decodedHeader T now) :=
  isScalar_scalarsRead (isHeader_msgHeader now MSG_COMMON 0 1) _

theorem method_decodedHeader (t : MsgTable) (T : Target) (now : Int) :
    ∃ p, fieldAt (t.decodedHeader T now ++ commonTail) FIELD_METHOD = .ok p ∧
      toInt32 p.ivalue = toInt32 t.method.ivalue := by
  obtain ⟨p, hp, hvalue⟩ := word_scalarsRead (isHeader_msgHeader now MSG_COMMON 0 1)
    ((t.sent T).headerWire T) commonTail (i := FIELD_METHOD) (by decide)
  have hword := (t.sent T).headerWord_headerWire T (i := FIELD_METHOD) (by decide) rfl []
  rw [List.append_nil] at hword
  refine ⟨p, hp, ?_⟩
  rw [hvalue, toInt32_headerWord, hword]
  rfl

theorem Decodable.decodedHeader_restored (h : t.Decodable) (hsize : t.size < 2 ^ 31) (T' : Target)
    (now : Int) :
    Along (SameValue T T' t.cnt) t.hmark (t.sent T).head (t.decodedHeader T now) := by
  have hsame : Along (SameValue T T' t.cnt) t.hmark (t.sent T).head _ :=
    (h.setBsize t.bodySize).header_restored (setBsize_inRange hsize)
      (isHeader_msgHeader now MSG_COMMON 0 1) []
  rwa [List.append_nil] at hsame

/-- The header of a packet is accepted, and the call goes on to the body. -/
theorem Marked.parseHeader_sent (h : t.Marked) (hsize : t.size < 2 ^ 31) (now len : Int)
    {header : CharVector} (hstorage : header.storage = (t.sent T).headerWire T) (socket : Socket)
    (fields : List Field) (seen : List Seen) :
    parseHeader T' now 32 len header ⟨socket, fields, seen⟩ =
      recvBody T' 32 len (t.decodedHeader T now ++ commonTail) t.bodySize
        ⟨socket, fields, seen ++ [.header ((t.sent T).headerWire T)]⟩ := by
  have hheader := (t.sent T).length_headerWire T
  have hrest : (InputStream.ofBuffer ((t.sent T).headerWire T) 32).rest =
      (t.sent T).headerWire T := List.take_of_length_le hheader.le
  have hdecode : unserializeHeaderPacket T' (.ofBuffer ((t.sent T).headerWire T) 32) _ true = _ :=
    (h.setBsize t.bodySize).header_decoded (isHeader_msgHeader now MSG_COMMON 0 1) commonTail rfl rfl
      (hrest.trans (List.append_nil _).symm)
  rw [hrest] at hdecode
  have htable : msgCommonReqFields now MSG_COMMON =
      (msgHeader now MSG_COMMON 0 1).take FIELD_BMARK ++ commonTail := rfl
  rw [← htable] at hdecode
  -- the size that was decoded is the sender's
  obtain ⟨bsize, hbsize, hvalue⟩ := bsize_scalarsRead (isHeader_msgHeader now MSG_COMMON 0 1)
    ((t.sent T).headerWire T) commonTail
  rw [t.announcedSize_headerWire hsize T] at hvalue
  have hint : toInt32 t.bodySize = t.bodySize := by
    rw [← t.announcedSize_headerWire hsize T, toInt32_announcedSize]
  have hmark : markAt T' header = .ok HEAD_MARK := h.markAt_header hstorage
  have hsizeT : toSizeT 32 = 32 := rfl
  have hzero : ERR_OK = 0 := rfl
  simp only [parseHeader, see_bind, hmark, lift_ok_bind, hstorage, hsizeT, hdecode, orFault_ok,
    hbsize, hvalue, hint, hzero, ne_eq, not_true, if_false, decodedHeader]

theorem Marked.recvPacket_sent (h : t.Marked) (hsize : t.size < 2 ^ 31) (u : MsgTable)
    (husize : u.size < 2 ^ 31) (T' : Target) (now len : Int) (tail : List UInt8) {sizes : List Nat}
    (hone : OnePiece sizes 32) :
    recvPacket T' now len (.init ⟨(t.sent T).wire T ++ tail, sizes⟩ u.fields) =
      recvBody T' 32 len (t.decodedHeader T now ++ commonTail) t.bodySize
        ⟨⟨(t.sent T).bodyWire T ++ tail, sizes.tail⟩, u.fields,
          [.header ((t.sent T).headerWire T)]⟩ := by
  have hheader := (t.sent T).length_headerWire T
  have hsplit : (t.sent T).wire T ++ tail =
      (t.sent T).headerWire T ++ ((t.sent T).bodyWire T ++ tail) := List.append_assoc _ _ _
  have hlong : 32 ≤ ((t.sent T).wire T ++ tail).length := by
    rw [hsplit, List.length_append]
    omega
  obtain ⟨w, hw, hread⟩ := readBuffer_one (n := 32) (by decide) hlong
  rw [hsplit, List.take_left' hheader] at hw
  rw [recvPacket, getFields_bind, Receiver.init]
  simp only [u.fieldsSize_fields husize, orFault_ok, lift_ok_bind, Option.map_some, Option.getD_some]
  have hread32 : readBuffer 32 ⟨⟨(t.sent T).wire T ++ tail, sizes⟩, u.fields, []⟩ = _ :=
    hread sizes u.fields [] hone
  rw [bind_of_ok hread32, h.parseHeader_sent hsize now len hw, hsplit, List.drop_left' hheader]
  rfl

/-! ### How the packet is split -/

/-- Two calls that decode the same buffers, return the same and leave the same table. -/
def SameRun (x y : Except Exit Int × Receiver) : Prop :=
  x.1 = y.1 ∧ x.2.fields = y.2.fields ∧ x.2.seen = y.2.seen

theorem first_of_take {bs : List UInt8} {b : UInt8} (h : bs.take 4 = [b, b, b, b])
    (tail : List UInt8) : (bs ++ tail)[0]? = some b := by
  rcases bs with _ | ⟨c, bs⟩
  · cases h
  · exact congrArg some (List.cons.inj h).1

/-- A header in more than one piece is not the one that was sent. -/
theorem Marked.recvPacket_split (h : t.Marked) (u : MsgTable)
    (husize : u.size < 2 ^ 31) (now : Int) (tail : List UInt8) {sizes : List Nat} (len : Int)
    (hsplit : ¬ OnePiece sizes 32) :
    ∃ header, header ≠ (t.sent T).headerWire T ∧ [.header header] <+:
      (recvPacket T' now len (.init ⟨(t.sent T).wire T ++ tail, sizes⟩ u.fields)).2.seen := by
  have hheader := (t.sent T).length_headerWire T
  have hwire : (t.sent T).wire T ++ tail =
      (t.sent T).headerWire T ++ ((t.sent T).bodyWire T ++ tail) := List.append_assoc _ _ _
  have hfirst : ((t.sent T).wire T ++ tail)[0]? = some 0x11 := by
    rw [hwire]
    exact first_of_take h.take_headerWire _
  obtain ⟨w, sizes', hw, hread⟩ := readBuffer_split (n := 32) (by decide)
    (by rw [hwire, List.length_append]; omega) hfirst (by decide) hsplit u.fields []
  rw [hwire, List.take_left' hheader] at hw
  refine ⟨w.storage, hw, ?_⟩
  have hread32 : readBuffer 32 ⟨⟨(t.sent T).wire T ++ tail, sizes⟩, u.fields, []⟩ = _ := hread
  rw [recvPacket, getFields_bind, Receiver.init]
  simp only [u.fieldsSize_fields husize, orFault_ok, lift_ok_bind, Option.map_some, Option.getD_some]
  rw [bind_of_ok hread32]
  exact parseHeader_seen T' now 32 len w
    ⟨⟨((t.sent T).wire T ++ tail).drop 32, sizes'⟩, u.fields, []⟩

theorem sent_packet (hsize : t.size < 2 ^ 31) {packet : List UInt8} {code : Int} {sent : List Field}
    (hsent : encodePacket T t.fields t.len = .ok (code, packet, sent)) :
    packet = (t.sent T).wire T := by
  rw [t.encodePacket_fields T hsize] at hsent
  exact (congrArg (fun r => r.2.1) (Except.ok.inj hsent)).symm

section Packet

variable {packet : List UInt8} {sent : List Field}

/-- **Splitting.** However the packet is split, the call decodes the same buffers, returns the same
code and leaves the same values exactly if the header comes in one piece, and so does the body
unless its method is not the caller's: then the body is dropped. -/
theorem recvPacket_sameRun_iff (h : t.Marked) (hsize : t.size < 2 ^ 31)
    (hsent : encodePacket T t.fields t.len = .ok (ERR_OK, packet, sent)) (u : MsgTable)
    (husize : u.size < 2 ^ 31) (T' : Target) (now len : Int) (tail : List UInt8) (sizes : List Nat) :
    SameRun (recvPacket T' now len (.init ⟨packet ++ tail, sizes⟩ u.fields))
        (recvPacket T' now len (.init ⟨packet ++ tail, []⟩ u.fields)) ↔
      OnePiece sizes 32 ∧ (toInt32 t.method.ivalue = toInt32 u.method.ivalue →
        OnePiece sizes.tail (packet.length - 32)) := by
  obtain rfl := t.sent_packet hsize hsent
  have hrun {sizes : List Nat} (hone : OnePiece sizes 32) :=
    h.recvPacket_sent (T := T) hsize u husize T' now len tail hone
  have hn : t.bodySize = ((t.sent T).bodyWire T).length := ((t.sent T).length_bodyWire T).symm
  have hpacket : ((t.sent T).wire T).length - 32 = ((t.sent T).bodyWire T).length := by
    rw [wire, List.length_append, length_headerWire, Nat.add_sub_cancel_left]
  rw [hpacket]
  by_cases hheader : OnePiece sizes 32
  · have htotal : t.size = 32 + t.bodySize := rfl
    have hfields : FIELD_BMARK ≤ u.fields.length := by simp [fields, plain, FIELD_BMARK]
    have hn31 : ((t.sent T).bodyWire T).length < 2 ^ 31 := by omega
    have hstream : ((t.sent T).bodyWire T).length ≤ ((t.sent T).bodyWire T ++ tail).length := by
      rw [List.length_append]
      omega
    have hfirst : ((t.sent T).bodyWire T ++ tail)[0]? = some 0x22 := first_of_take h.take_bodyWire tail
    have hhs := t.isHeader_decodedHeader now (T := T)
    obtain ⟨method, hp, hvalue⟩ := t.method_decodedHeader T now
    have hown : fieldAt u.fields FIELD_METHOD = .ok u.method := rfl
    rw [hrun hheader, hrun (by decide), hn, show ([] : List Nat).tail = [] from rfl]
    by_cases hmethod : toInt32 t.method.ivalue = toInt32 u.method.ivalue
    · have hmatch := matchMethod_same hhs commonTail hfields hp hown (hvalue.trans hmethod)
      obtain ⟨code, fields', seen', hone⟩ := recvBody_one T' 32 len hmatch hn31 hstream
      rw [hone [] _ (le_max_right 1 _)]
      by_cases hbody : OnePiece sizes.tail ((t.sent T).bodyWire T).length
      · refine iff_of_true ?_ ⟨hheader, fun _ => hbody⟩
        rw [hone _ _ hbody]
        exact ⟨rfl, rfl, rfl⟩
      · refine iff_of_false (fun hsame => ?_) fun hboth => hbody (hboth.2 hmethod)
        obtain ⟨body, seen'', hne, hseen⟩ := recvBody_split T' 32 len hmatch hn31 hstream hfirst
          (by decide) hbody [.header ((t.sent T).headerWire T)]
        have hbuffers := hseen.symm.trans hsame.2.2
        simp only [List.append_cancel_left_eq, List.cons.injEq, Seen.body.injEq] at hbuffers
        exact hne hbuffers.1
    · -- the body is not parsed, in the split call and in the whole one
      refine iff_of_true ?_ ⟨hheader, fun hsame => absurd hsame hmethod⟩
      obtain ⟨ret, hmatch⟩ := matchMethod_unparsed hhs commonTail hp hown
        (fun hsame => hmethod (hvalue.symm.trans hsame))
      have hdropped := recvBody_unparsed T' 32 len hmatch hn31 hstream hfirst (by decide)
      obtain ⟨socket, hsplit⟩ := hdropped sizes.tail [.header ((t.sent T).headerWire T)]
      obtain ⟨socket', hwhole⟩ := hdropped [] [.header ((t.sent T).headerWire T)]
      rw [hsplit, hwhole]
      exact ⟨rfl, rfl, rfl⟩
  · refine iff_of_false (fun hsame => ?_) fun hboth => hheader hboth.1
    obtain ⟨header, hne, seen, hseen⟩ := h.recvPacket_split (T := T) u husize now tail
      len hheader
    obtain ⟨seen', hseen'⟩ : [.header ((t.sent T).headerWire T)] <+:
        (recvPacket T' now len (.init ⟨(t.sent T).wire T ++ tail, []⟩ u.fields)).2.seen := by
      rw [hrun (by decide)]
      exact grows_recvBody T' 32 len (t.decodedHeader T now ++ commonTail) t.bodySize
        ⟨⟨(t.sent T).bodyWire T ++ tail, []⟩, u.fields, [.header ((t.sent T).headerWire T)]⟩
    have hbuffers := hseen.trans (hsame.2.2.trans hseen'.symm)
    simp only [List.cons_append, List.nil_append, List.cons.injEq, Seen.header.injEq] at hbuffers
    exact hne hbuffers.1

/-- A connect response whose header and body are each read in one piece. -/
theorem recvPacket_twoReads :
    ∃ packet sent, encodePacket (.build .little) (msgConnectRespFields 7 ERR_OK 1) 10 =
        .ok (ERR_OK, packet, sent) ∧
      SameRun
        (recvPacket (.build .big) 5 10 (.init ⟨packet ++ [], [32, 14]⟩ (msgConnectRespFields 5 0 0)))
        (recvPacket (.build .big) 5 10 (.init ⟨packet ++ [], []⟩ (msgConnectRespFields 5 0 0))) := by
  have hsent := (connectResp 7 ERR_OK 1).encodePacket_fields (.build .little) (by decide)
  exact ⟨_, _, hsent, (recvPacket_sameRun_iff (t := connectResp 7 ERR_OK 1) ⟨rfl, rfl⟩ (by decide)
    hsent (connectResp 5 0 0) (by decide) (.build .big) 5 10 [] [32, 14]).mpr
    ⟨by decide, fun _ => by decide +kernel⟩⟩

/-- One whose header is read in two pieces: the second one is stored over the first. -/
theorem recvPacket_twoPieces :
    ∃ packet sent, encodePacket (.build .little) (msgConnectRespFields 7 ERR_OK 1) 10 =
        .ok (ERR_OK, packet, sent) ∧
      ¬ SameRun
        (recvPacket (.build .big) 5 10 (.init ⟨packet, [16]⟩ (msgConnectRespFields 5 0 0)))
        (recvPacket (.build .big) 5 10 (.init ⟨packet, []⟩ (msgConnectRespFields 5 0 0))) :=
  ⟨_, _, (connectResp 7 ERR_OK 1).encodePacket_fields (.build .little) (by decide),
    fun h => absurd h.1 (by decide +kernel)⟩

end Packet

/-! ### What the caller gets -/

/-- A call gives the caller what was sent: it returns `ERR_OK`, the table has the sender's values,
and the stream the body was decoded from is the body. -/
structure Received (t : MsgTable) (T T' : Target) (body : List UInt8)
    (run : Except Exit Int × Receiver) : Prop where
  code : run.1 = .ok ERR_OK
  values : (t.sent T).RestoredIn T T' run.2.fields
  spans : .stream (.ofBuffer body body.length) ∈ run.2.seen

def destOf (t u : MsgTable) (hslots : Along (Slot t.cnt) t.bmark t.body u.body) : t.Dest where
  header := u.head
  bmark := u.bmark
  body := u.body
  bcrc := u.bcrc
  terminator := u.terminator
  isHeader := u.isHeader_head
  bmark_long := u.bmark_long
  slots := hslots
  bcrc_llong := u.bcrc_llong
  terminator_neg := u.terminator_neg

section Caller

variable {u : MsgTable} {packet : List UInt8} {sent : List Field}

theorem Decodable.recvPacket_parse (h : t.Decodable) (hsize : t.size < 2 ^ 31)
    (husize : u.size < 2 ^ 31) (hmethod : u.method.ivalue = t.method.ivalue)
    (hslots : Along (Slot t.cnt) t.bmark t.body u.body) (now len : Int) (tail : List UInt8) :
    ∃ body, body.storage = (t.sent T).bodyWire T ∧
      recvPacket T' now len (.init ⟨(t.sent T).wire T ++ tail, []⟩ u.fields) =
        parseBody T' 32 len 0 true body ⟨⟨tail, []⟩, t.decodedHeader T now ++ (t.destOf u hslots).tail,
          [.header ((t.sent T).headerWire T)]⟩ := by
  have hlength := (t.sent T).length_bodyWire T
  have htotal : t.size = 32 + t.bodySize := rfl
  rw [bodySize_sent] at hlength
  obtain ⟨body, hbody, hread⟩ := readBuffer_one (n := ((t.sent T).bodyWire T).length) (by omega)
    (show _ ≤ ((t.sent T).bodyWire T ++ tail).length by rw [List.length_append]; omega)
  rw [List.take_left] at hbody
  refine ⟨body, hbody, ?_⟩
  have hhs := t.isHeader_decodedHeader now (T := T)
  obtain ⟨⟨method, hp, hvalue⟩, -⟩ :=
    (t.sent T).header_values (h.decodedHeader_restored (T := T) hsize T' now)
  have hmatch := matchMethod_same hhs commonTail (q := u.method)
    (show FIELD_BMARK ≤ u.fields.length by simp [fields, plain, FIELD_BMARK])
    (by rw [fieldAt, List.getElem?_append_left (by rw [hhs.length_eq]; decide)]; exact hp) rfl
    (by rw [hvalue, hmethod]; rfl) ⟨(t.sent T).bodyWire T ++ tail, []⟩
    [.header ((t.sent T).headerWire T)]
  rw [h.recvPacket_sent hsize u husize T' now len tail (by decide),
    show ([] : List Nat).tail = [] from rfl, recvBody_matched hmatch, ← hlength,
    bind_of_ok (hread [] _ _ (le_max_right 1 _)), List.drop_left]
  rfl

/-- A body that is not longer than a header is decoded. -/
theorem Decodable.recvPacket_short (h : t.Decodable) (hsize : t.size < 2 ^ 31)
    (husize : u.size < 2 ^ 31) (hmethod : u.method.ivalue = t.method.ivalue)
    (hslots : Along (Slot t.cnt) t.bmark t.body u.body) (now : Int) (tail : List UInt8)
    (hshort : t.bodySize ≤ 32) :
    ∃ r, recvPacket T' now u.len (.init ⟨(t.sent T).wire T ++ tail, []⟩ u.fields) = (.ok ERR_OK, r) ∧
      (t.sent T).RestoredIn T T' r.fields := by
  obtain ⟨body, hbody, hrun⟩ := h.recvPacket_parse (T := T) hsize husize hmethod hslots
    now u.len tail
  have hlength := (t.sent T).length_bodyWire T
  rw [bodySize_sent] at hlength
  have hfits : ((t.sent T).bodyWire T).length ≤ toSizeT 32 := by
    have hsizeT : toSizeT 32 = 32 := rfl
    omega
  obtain ⟨fields, hdecode, hrestored⟩ := h.sent_restored T
    (s := .ofBuffer ((t.sent T).bodyWire T) (toSizeT 32)) hsize (t.destOf u hslots)
    (t.isHeader_decodedHeader now) (h.decodedHeader_restored hsize T' now) rfl
    (by rw [List.append_nil]; exact List.take_of_length_le hfits)
  have hlen : u.len = t.len := by rw [len, len, hslots.length_eq]
  rw [← hbody, ← hlen] at hdecode
  exact ⟨_, hrun.trans (parseBody_ok 0 (h.markAt_body hbody) hdecode _ _), hrestored⟩

/-- **Receiving.** The call gives the caller what the server has sent exactly if the body has the
size of a header. -/
theorem recvPacket_received_iff (h : t.Decodable) (hsize : t.size < 2 ^ 31)
    (hsent : encodePacket T t.fields t.len = .ok (ERR_OK, packet, sent)) (husize : u.size < 2 ^ 31)
    (hmethod : u.method.ivalue = t.method.ivalue)
    (hslots : Along (Slot t.cnt) t.bmark t.body u.body) (T' : Target) (now : Int)
    (tail : List UInt8) :
    Received t T T' (packet.drop 32)
        (recvPacket T' now u.len (.init ⟨packet ++ tail, []⟩ u.fields)) ↔ t.bodySize = 32 := by
  obtain rfl := t.sent_packet hsize hsent
  have hlength := (t.sent T).length_bodyWire T
  have hdrop : ((t.sent T).wire T).drop 32 = (t.sent T).bodyWire T :=
    List.drop_left' ((t.sent T).length_headerWire T)
  rw [bodySize_sent] at hlength
  rw [hdrop]
  obtain ⟨body, hbody, hrun⟩ := h.recvPacket_parse (T := T) hsize husize hmethod hslots
    now u.len tail
  -- the stream is the only one the call makes
  have hseen : (recvPacket T' now u.len (.init ⟨(t.sent T).wire T ++ tail, []⟩ u.fields)).2.seen =
      [.header ((t.sent T).headerWire T), .body ((t.sent T).bodyWire T),
        .stream (.ofBuffer ((t.sent T).bodyWire T) 32)] := by
    rw [hrun, parseBody_seen 0 (h.markAt_body hbody), hbody]
    rfl
  have hspans : .stream (.ofBuffer ((t.sent T).bodyWire T) ((t.sent T).bodyWire T).length) ∈
      (recvPacket T' now u.len (.init ⟨(t.sent T).wire T ++ tail, []⟩ u.fields)).2.seen ↔
        t.bodySize = 32 := by
    rw [hseen]
    simp only [List.mem_cons, List.not_mem_nil, or_false, reduceCtorEq, false_or, Seen.stream.injEq,
      InputStream.ofBuffer_inj]
    omega
  constructor
  · exact fun hreceived => hspans.mp hreceived.spans
  · intro hfull
    obtain ⟨r, hok, hrestored⟩ := h.recvPacket_short (T := T) hsize husize hmethod hslots
      now tail hfull.le
    exact ⟨by rw [hok], by rw [hok]; exact hrestored, hspans.mpr hfull⟩

end Caller

theorem entries_longs (cnt : Int) (prev : Field) (values : List Int) :
    Entries cnt prev (values.map (scalarField .long)) := by
  induction values generalizing prev with
  | nil => exact entries_nil
  | cons value values ih =>
    exact entries_cons.mpr ⟨.scalar _ (isScalar_scalarField _ _), ih _⟩

/-- A response of LONG scalars. -/
def longsResp (now : Int) (values : List Int) : MsgTable :=
  ofBody now MSG_CONNECT ERR_OK 1 (values.map (scalarField .long)) (entries_longs _ _ _)

theorem longsResp_decodable {now : Int} {values : List Int} (hnow : IsInt now)
    (hvalues : ∀ value ∈ values, IsInt value) : (longsResp now values).Decodable := by
  refine ofBody_decodable _ hnow (by decide) (by decide) (by decide) ?_
  intro p hp
  obtain ⟨value, hvalue, rfl⟩ := List.mem_map.mp hp
  exact inRange_scalarField (by decide) (by decide) (hvalues _ hvalue).1 (hvalues _ hvalue).2

theorem slots_longs {cnt : Int} {prev : Field} {values values' : List Int}
    (h : values.length = values'.length) :
    Along (Slot cnt) prev (values.map (scalarField .long)) (values'.map (scalarField .long)) := by
  induction values generalizing prev values' with
  | nil =>
    obtain rfl := List.eq_nil_of_length_eq_zero h.symm
    exact .nil
  | cons value values ih =>
    rcases values' with _ | ⟨value', values'⟩
    · cases h
    exact .cons (slot_scalarField _ _ _) (ih (Nat.succ.inj h))

/-- Five scalars are received: their body has 32 bytes. -/
theorem recvPacket_fiveLongs :
    ∃ packet sent, encodePacket (.build .little) (longsResp 7 [1, -2, 3, -4, 5]).fields 14 =
        .ok (ERR_OK, packet, sent) ∧
      Received (longsResp 7 [1, -2, 3, -4, 5]) (.build .little) (.build .big) (packet.drop 32)
        (recvPacket (.build .big) 5 14
          (.init ⟨packet ++ [], []⟩ (longsResp 5 [0, 0, 0, 0, 0]).fields)) := by
  have hsent := (longsResp 7 [1, -2, 3, -4, 5]).encodePacket_fields (.build .little) (by decide)
  exact ⟨_, _, hsent, (recvPacket_received_iff (longsResp_decodable (by decide) (by decide))
    (by decide) hsent (u := longsResp 5 [0, 0, 0, 0, 0]) (by decide) rfl (slots_longs rfl)
    (.build .big) 5 []).mpr (by decide)⟩

/-- Six are not: the client reads their body of 36 bytes as 32 and aborts. -/
theorem recvPacket_sixLongs :
    ∃ packet sent, encodePacket (.build .little) (longsResp 7 [1, -2, 3, -4, 5, -6]).fields 15 =
        .ok (ERR_OK, packet, sent) ∧
      (recvPacket (.build .big) 5 15
        (.init ⟨packet, []⟩ (longsResp 5 [0, 0, 0, 0, 0, 0]).fields)).1 =
          .error (.fault .assertion) ∧
      ¬ Received (longsResp 7 [1, -2, 3, -4, 5, -6]) (.build .little) (.build .big) (packet.drop 32)
        (recvPacket (.build .big) 5 15
          (.init ⟨packet, []⟩ (longsResp 5 [0, 0, 0, 0, 0, 0]).fields)) := by
  refine ⟨_, _, (longsResp 7 [1, -2, 3, -4, 5, -6]).encodePacket_fields (.build .little) (by decide),
    ?_, fun h => absurd h.code ?_⟩
  · decide +kernel
  · decide +kernel

end MsgTable

end Librtaio

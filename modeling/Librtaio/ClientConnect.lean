import Librtaio.ClientCalls
import Librtaio.ClientReceive
import Librtaio.CorruptionDetected

/-!
# What `connect` takes for a connect response

`recv_packet` tells three kinds of header apart by their method. For one of
the caller's method it parses the body and does not look at the return code;
for `MSG_COMMON` it takes the return code and does not look at the body; for any
other it fails. `connect` reports success when it gets the code 0, whichever
way it came about. It is shown for which answers of the server that is right.
-/

namespace Librtaio

open Bytes Exec Receive MsgTable

/-! ### Marks -/

theorem load_replicate (o : ByteOrder) (n : Nat) (b : UInt8) :
    o.load (List.replicate n b) = ofBeBytes (List.replicate n b) := by
  cases o <;> simp [ByteOrder.load, ofBeBytes]

/-- A word of equal bytes is the same on every host. -/
theorem load_eq_iff (o : ByteOrder) {bs : List UInt8} (hbs : bs.length = 4) (b : UInt8) :
    BitVec.ofNat 32 (o.load bs) = BitVec.ofNat 32 (ofBeBytes (List.replicate 4 b)) ↔
      bs = List.replicate 4 b := by
  constructor
  · intro h
    have hlt := o.load_lt bs
    have hlt' := ofBeBytes_lt (List.replicate 4 b)
    rw [hbs] at hlt
    rw [List.length_replicate] at hlt'
    have hload : o.load bs = o.load (List.replicate 4 b) := by
      have hnat := congrArg BitVec.toNat h
      rw [BitVec.toNat_ofNat, BitVec.toNat_ofNat,
        Nat.mod_eq_of_lt (show o.load bs < 2 ^ 32 from hlt),
        Nat.mod_eq_of_lt (show ofBeBytes (List.replicate 4 b) < 2 ^ 32 from hlt')] at hnat
      rw [load_replicate, hnat]
    calc
      bs = o.store 4 (o.load bs) := by rw [← hbs, o.store_load]
      _ = o.store (List.replicate 4 b).length (o.load (List.replicate 4 b)) := by
        rw [hload, List.length_replicate]
      _ = List.replicate 4 b := o.store_load _
  · rintro rfl
    rw [load_replicate]

theorem headMark_eq : HEAD_MARK = BitVec.ofNat 32 (ofBeBytes (List.replicate 4 0x11)) := by decide

theorem bodyMark_eq : BODY_MARK = BitVec.ofNat 32 (ofBeBytes (List.replicate 4 0x22)) := by decide

/-- A mark that is read from memory is the one that the bytes spell. -/
theorem markAt_eq {T : Target} {buffer : CharVector} (hlong : 4 ≤ buffer.storage.length) :
    markAt T buffer = .ok (BitVec.ofNat 32 (T.order.load (buffer.storage.take 4))) :=
  if_neg (by omega)

theorem headMark_iff (o : ByteOrder) {bs : List UInt8} (hlong : 4 ≤ bs.length) :
    BitVec.ofNat 32 (o.load (bs.take 4)) = HEAD_MARK ↔
      BitVec.ofNat 32 (ofBeBytes (bs.take 4)) = HEAD_MARK := by
  have hlength : (bs.take 4).length = 4 := by rw [List.length_take]; omega
  rw [headMark_eq, load_eq_iff o hlength]
  exact (load_eq_iff .big hlength _).symm

theorem bodyMark_iff (o : ByteOrder) {bs : List UInt8} (hlong : 4 ≤ bs.length) :
    BitVec.ofNat 32 (o.load (bs.take 4)) = BODY_MARK ↔
      BitVec.ofNat 32 (ofBeBytes (bs.take 4)) = BODY_MARK := by
  have hlength : (bs.take 4).length = 4 := by rw [List.length_take]; omega
  rw [bodyMark_eq, load_eq_iff o hlength]
  exact (load_eq_iff .big hlength _).symm

/-! ### The body of a response -/

/-- The body decoder's check of a response's body, and the mark that `recv_packet` looks at. -/
structure ResponseBody (body : List UInt8) : Prop where
  length : 14 ≤ body.length
  mark : BitVec.ofNat 32 (ofBeBytes (body.take 4)) = BODY_MARK
  checked : Checked 6 body

section Response

variable {T : Target} {s : InputStream} {hs : List Field} {bmark perm bcrc terminator : Field}

/-- **The decoder of a response's body**: a mark, the permission and the checksum. -/
theorem response_decoded (hhs : IsHeader hs) (hbmark : bmark.IsScalar .long)
    (hperm : perm.IsScalar .short) (hbcrc : bcrc.IsScalar .llong) (hterm : terminator.type < 0)
    (hconsumed : s.consumed = []) (hgood : s.good = true) (hrest : 14 ≤ s.rest.length) :
    ∃ code s' fields, unserializeBodyPacket T s (hs ++ [bmark, perm, bcrc, terminator]) 10 true =
      .ok (code, s', fields) ∧ (code = ERR_OK ↔ Checked 6 s.rest) := by
  obtain ⟨count, hcrc, -, -, hpacket⟩ := unserializeBodyPacket_header (T := T) 10 true hhs
  have hwidth : DataType.long.width = 4 ∧ DataType.short.width = 2 := ⟨rfl, rfl⟩
  obtain ⟨v₁, hread₁⟩ := unserializeField_scalar (T := T) (toInt32 count.ivalue) (some hcrc) .zero
    hbmark hgood (by rw [hwidth.1]; omega)
  rw [hwidth.1] at hread₁
  obtain ⟨v₂, hread₂⟩ := unserializeField_scalar (T := T) (s := s.advance 4) (toInt32 count.ivalue)
    (some (bmark.scalarRead .long (s.rest.take 4))) v₁ hperm hgood
    (by rw [hwidth.2, InputStream.advance_rest, List.length_drop]; omega)
  rw [hwidth.2, InputStream.advance_advance] at hread₂
  have hlast : unserializeBodyLoop T 10 true (toInt32 count.ivalue) 0 (FIELD_BMARK + 1 + 1) 0 v₂
      (some (perm.scalarRead .short ((s.advance 4).rest.take 2))) (s.advance (4 + 2))
      [bcrc, terminator] = _ :=
    unserializeBodyLoop_bcrc v₂ hbcrc rfl hterm hgood
      (by rw [InputStream.advance_rest, List.length_drop]; omega)
  have hconsumed₆ : (s.advance (4 + 2)).consumed = s.rest.take 6 := by
    rw [InputStream.advance_consumed, hconsumed]
    rfl
  have hrest₆ : (s.advance (4 + 2)).rest = s.rest.drop 6 := rfl
  have hlength : toInt32 ((s.rest.take 6).length - (0 : Nat)) = 6 := by
    rw [List.length_take, Nat.min_eq_left (by omega)]
    rfl
  have hcovered : ((s.rest.take 6).drop 0).take (6 : Int).toNat = s.rest.take 6 :=
    List.take_of_length_le (List.length_take_le _ _)
  rw [hconsumed₆, hrest₆, hlength, hcovered, if_pos (show (6 : Int) > 0 by decide)] at hlast
  rw [hpacket, hconsumed, List.length_nil,
    unserializeBodyLoop_step hbmark.type_nonneg (by decide) hread₁,
    unserializeBodyLoop_step hperm.type_nonneg (by decide) hread₂, hlast]
  refine ⟨_, _, _, rfl, ?_⟩
  rw [Checked]
  split
  · next h => exact iff_of_true rfl (h rfl).symm
  · next h =>
    have hcode : ERR_CHECK_CRC_ERROR ≠ ERR_OK := by decide
    exact iff_of_false hcode fun hchecked => h fun _ => hchecked.symm

/-- A word that the memory does not have all bytes of. -/
theorem readWord_outside {w : Nat} {swap : BitVec (8 * w) → BitVec (8 * w)} (hgood : s.good = true)
    (hbeyond : 0 < s.beyond) (hrest : s.rest.length < w) (x : BitVec (8 * w)) :
    InputStream.readWord T w swap s x = .error .outOfBounds := by
  have hneg : ¬ (w : Int) < 0 := by omega
  have hread (buffer : List UInt8) : s.read T buffer w = .error .outOfBounds := by
    simp [InputStream.read, InputStream.xsgetn, hgood, hneg, hrest, hbeyond]
  rw [InputStream.readWord, hread, error_bind]

theorem getScalar_outside {p : Field} {ty : DataType} (hp : p.IsScalar ty) (hgood : s.good = true)
    (hbeyond : 0 < s.beyond) (hrest : s.rest.length < ty.width) (v : Locals) :
    getScalar T s v p = .error .outOfBounds := by
  rw [getScalar, hp.ofCode]
  have hword {w : Nat} (swap : BitVec (8 * w) → BitVec (8 * w)) (hw : s.rest.length < w)
      (x : BitVec (8 * w)) : InputStream.readWord T w swap s x = .error .outOfBounds :=
    readWord_outside hgood hbeyond hw x
  cases ty
  · have hread : s.readChar T v.cVal = _ := hword (w := 1) id hrest v.cVal
    rw [hread]
    rfl
  · have hread : s.readChar T v.cVal = _ := hword (w := 1) id hrest v.cVal
    rw [hread]
    rfl
  · have hread : s.readShort T v.sVal = _ := hword (w := 2) (swap2 T.order) hrest v.sVal
    rw [hread]
    rfl
  · have hread : s.readLong T v.lVal = _ := hword (w := 4) (swap4 T.order) hrest v.lVal
    rw [hread]
    rfl
  · have hread : s.readLlong T v.llVal = _ := hword (w := 8) (swap8 T.order) hrest v.llVal
    rw [hread]
    rfl
  · have hread : s.readFloat T v.fVal = _ := hword (w := 4) (swap4 T.order) hrest v.fVal
    rw [hread]
    rfl
  · have hread : s.readDouble T v.dVal = _ := hword (w := 8) (swap8 T.order) hrest v.dVal
    rw [hread]
    rfl

/-- Scalars, up to the checksum, that the memory does not have all bytes of. -/
theorem unserializeBodyLoop_outside {ps : List Field} {tys : List DataType}
    (hps : List.Forall₂ Field.IsScalar ps tys) {len : Int} {compareCrc : Bool} {cnt : Int}
    {base n : Nat} {crc : BitVec 32} (hn : (n : Int) + ps.length ≤ len) (hgood : s.good = true)
    (hbeyond : 0 < s.beyond) (hrest : s.rest.length < widths tys) (v : Locals) (prev : Option Field)
    (tail : List Field) :
    unserializeBodyLoop T len compareCrc cnt base n crc v prev s (ps ++ tail) =
      .error .outOfBounds := by
  induction hps generalizing s n v prev with
  | nil => simp [widths] at hrest
  | @cons p ty ps tys hp hps ih =>
    by_cases hword : s.rest.length < ty.width
    · have hfield : unserializeField T cnt prev v s p = .error .outOfBounds := by
        simp only [unserializeField, hp.data, getScalar_outside hp hgood hbeyond hword v, error_bind]
      rw [List.cons_append, unserializeBodyLoop, if_neg hp.type_nonneg.not_gt, hfield, error_bind]
    · obtain ⟨v', hfield⟩ := unserializeField_scalar (T := T) cnt prev v hp hgood
        (Nat.le_of_not_lt hword)
      have hwidths : widths (ty :: tys) = ty.width + widths tys := List.sum_cons
      -- an entry that has another one behind it is not the checksum
      have hpos : 0 < ps.length := by
        cases hps with
        | nil => simp [widths] at hrest; omega
        | cons => simp
      rw [List.length_cons] at hn
      have hnext := ih (s := s.advance ty.width) (n := n + 1) (by push_cast at hn ⊢; omega) hgood
        hbeyond (by rw [InputStream.advance_rest, List.length_drop]; omega) v'
        (some (p.scalarRead ty (s.rest.take ty.width)))
      rw [List.cons_append, unserializeBodyLoop_step hp.type_nonneg (by omega) hfield, hnext,
        error_bind]

theorem response_outside (hhs : IsHeader hs) (hbmark : bmark.IsScalar .long)
    (hperm : perm.IsScalar .short) (hbcrc : bcrc.IsScalar .llong) (terminator : Field)
    (hgood : s.good = true) (hbeyond : 0 < s.beyond) (hrest : s.rest.length < 14) :
    unserializeBodyPacket T s (hs ++ [bmark, perm, bcrc, terminator]) 10 true =
      .error .outOfBounds := by
  obtain ⟨count, hcrc, -, -, hpacket⟩ := unserializeBodyPacket_header (T := T) 10 true hhs
  have hscalars : List.Forall₂ Field.IsScalar [bmark, perm, bcrc] [.long, .short, .llong] :=
    .cons hbmark (.cons hperm (.cons hbcrc .nil))
  have hloop : unserializeBodyLoop T 10 true (toInt32 count.ivalue) s.consumed.length FIELD_BMARK 0
      .zero (some hcrc) s ([bmark, perm, bcrc] ++ [terminator]) = .error .outOfBounds :=
    unserializeBodyLoop_outside hscalars (by simp [FIELD_BMARK]) hgood hbeyond hrest _ _ _
  rw [hpacket, show [bmark, perm, bcrc, terminator] = [bmark, perm, bcrc] ++ [terminator] from rfl,
    hloop, error_bind]

/-- `recv_packet` gets the code 0 from a response's body exactly if it is one. -/
theorem parseBody_response (hhs : IsHeader hs) (now retcode priv ret : Int) (body : CharVector)
    (socket : Socket) (seen : List Seen) :
    (parseBody T 32 10 ret true body ⟨socket,
        hs ++ (msgConnectRespFields now retcode priv).drop FIELD_BMARK, seen⟩).1 = .ok 0 ↔
      ResponseBody body.storage := by
  have htail : (msgConnectRespFields now retcode priv).drop FIELD_BMARK =
      [scalarField .long BODY_MARK.toInt, scalarField .short priv, scalarField .llong 0,
        ⟨-1, 0, 0, none, 0⟩] := rfl
  have hshort : (scalarField .short priv).IsScalar .short := MsgTable.isScalar_scalarField _ _
  have hdecodeError : ERR_DECODE_ERROE ≠ 0 := by decide
  rw [htail]
  by_cases hword : body.storage.length < 4
  · have hmark : markAt T body = .error (.fault .outOfBounds) := if_pos hword
    refine iff_of_false ?_ fun h => absurd h.length (by omega)
    simp [parseBody, hmark]
  have hmark := markAt_eq (T := T) (Nat.le_of_not_lt hword)
  by_cases hbody : BitVec.ofNat 32 (T.order.load (body.storage.take 4)) = BODY_MARK
  · rw [hbody] at hmark
    have hmark' := (bodyMark_iff T.order (Nat.le_of_not_lt hword)).mp hbody
    by_cases hlong : 14 ≤ body.storage.length
    · have hrest : (InputStream.ofBuffer body.storage (toSizeT 32)).rest = body.storage.take 32 := rfl
      obtain ⟨code, s', fields, hdecode, hcode⟩ := response_decoded (T := T)
        (s := .ofBuffer body.storage (toSizeT 32)) hhs MsgTable.long_bmark hshort MsgTable.llong_crc
        MsgTable.neg_terminator rfl rfl (by rw [hrest, List.length_take]; omega)
      have hchecked : Checked 6 (body.storage.take 32) ↔ Checked 6 body.storage := by
        simp only [Checked, List.take_take, List.drop_take]
        rfl
      rw [parseBody_ok ret hmark hdecode, ← show ERR_OK = 0 from rfl, Except.ok.injEq, hcode, hrest,
        hchecked]
      exact ⟨fun h => ⟨hlong, hmark', h⟩, fun h => h.checked⟩
    · have hrest : (InputStream.ofBuffer body.storage (toSizeT 32)).rest.length < 14 := by
        have hle : (InputStream.ofBuffer body.storage (toSizeT 32)).rest.length ≤ body.storage.length :=
          List.length_take_le' _ _
        omega
      have hbeyond : 0 < (InputStream.ofBuffer body.storage (toSizeT 32)).beyond := by
        change 0 < 32 - body.storage.length
        omega
      have hdecode := response_outside (T := T) hhs MsgTable.long_bmark hshort MsgTable.llong_crc
        ⟨-1, 0, 0, none, 0⟩ rfl hbeyond hrest
      rw [parseBody_fault ret hmark hdecode]
      exact iff_of_false (fun h => by cases h) fun h => hlong h.length
  · refine iff_of_false ?_ fun h => hbody ((bodyMark_iff T.order (Nat.le_of_not_lt hword)).mpr h.mark)
    simp [parseBody, hmark, hbody, hdecodeError]

end Response

/-! ### The answer -/

/-- The body behind the header of an answer. -/
def answerBody (bs : List UInt8) : List UInt8 := (bs.drop 32).take (announcedSize bs).toNat

/-- An answer starts with an accepted header, and the whole body it announces is there. -/
structure WholeAnswer (bs : List UInt8) : Prop where
  length : 32 ≤ bs.length
  header : HeaderAccepted true bs
  size : 0 ≤ announcedSize bs
  body : 32 + announcedSize bs ≤ bs.length

/-- A connect response that reports success. -/
structure GenuineResponse (bs : List UInt8) : Prop extends WholeAnswer bs where
  method : headerWord bs FIELD_METHOD = MSG_CONNECT
  ret : headerWord bs FIELD_RETURN = ERR_OK
  response : ResponseBody (answerBody bs)

/-- What `connect` must not get for its success to mean one: a connect response that reports a
failure, or a common one that does not. -/
structure Misleading (bs : List UInt8) : Prop extends WholeAnswer bs where
  kind : headerWord bs FIELD_METHOD = MSG_CONNECT ∧ headerWord bs FIELD_RETURN ≠ ERR_OK ∧
      ResponseBody (answerBody bs) ∨
    headerWord bs FIELD_METHOD = MSG_COMMON ∧ headerWord bs FIELD_RETURN = ERR_OK

section Receive

variable {T : Target} {bs : List UInt8}

/-- A read of some bytes in one piece, with nothing else to decide. -/
theorem readBuffer_cases {n : Int} (hn : n < 2 ^ 31) (stream : List UInt8) (fields : List Field)
    (seen : List Seen) :
    (0 ≤ n ∧ n ≤ stream.length ∧ ∃ w, w.storage = stream.take n.toNat ∧
        readBuffer n ⟨⟨stream, []⟩, fields, seen⟩ =
          (.ok w, ⟨⟨stream.drop n.toNat, []⟩, fields, seen⟩)) ∨
      (¬ (0 ≤ n ∧ n ≤ stream.length) ∧
        ∃ r, readBuffer n ⟨⟨stream, []⟩, fields, seen⟩ = (.error .exception, r)) := by
  by_cases hneg : n < 0
  · refine .inr ⟨by omega, ⟨⟨stream, []⟩, fields, seen⟩, ?_⟩
    rw [readBuffer, CharVector.resize_neg hneg, lift_error_bind]
  obtain ⟨m, rfl⟩ := Int.eq_ofNat_of_zero_le (show 0 ≤ n by omega)
  by_cases hlong : m ≤ stream.length
  · obtain ⟨w, hw, hread⟩ := readBuffer_one (n := m) (by omega) hlong
    refine .inl ⟨by omega, by omega, w, hw, ?_⟩
    exact hread [] fields seen (le_max_right 1 _)
  · refine .inr ⟨by omega, ⟨⟨stream, []⟩, fields, seen⟩, ?_⟩
    obtain ⟨v, hresize, -⟩ := resize_empty m
    have hwant : toSizeT m = m :=
      (toSizeT_eq (by omega) (by exact_mod_cast hn)).trans (Int.toNat_natCast m)
    rw [readBuffer, hresize, lift_ok_bind, getSocket_bind, hwant, readLoop, if_neg hlong,
      lift_error_bind]

/-- `recv_packet` behind the header of an answer to a connect request. -/
theorem recvBody_connect {hs rest : List Field} {p q : Field} {size : Int} (hhs : IsHeader hs)
    (hp : fieldAt (hs ++ rest) FIELD_METHOD = .ok p) (hq : fieldAt (hs ++ rest) FIELD_RETURN = .ok q)
    (hsize : size < 2 ^ 31) (now : Int) (stream : List UInt8) (seen : List Seen) :
    (recvBody T 32 10 (hs ++ rest) size ⟨⟨stream, []⟩, msgConnectRespFields now 0 0, seen⟩).1 =
        .ok 0 ↔
      (0 ≤ size ∧ size ≤ stream.length) ∧
        (toInt32 p.ivalue = MSG_CONNECT ∧ ResponseBody (stream.take size.toNat) ∨
          toInt32 p.ivalue = MSG_COMMON ∧ toInt32 q.ivalue = ERR_OK) := by
  have hmethod : fieldAt (msgConnectRespFields now 0 0) FIELD_METHOD =
      .ok (scalarField .long MSG_CONNECT) := rfl
  have hcaller : toInt32 (scalarField .long MSG_CONNECT).ivalue = MSG_CONNECT := rfl
  have hdistinct : MSG_COMMON ≠ MSG_CONNECT := by decide
  have hunexpected : ERR_UNEXPECTIED_METHOD ≠ 0 := by decide
  -- where the body is not parsed, the code was there before it is read
  have hunparsed {ret : Int} (fields : List Field)
      (hmatch : matchMethod (hs ++ rest) ⟨⟨stream, []⟩, msgConnectRespFields now 0 0, seen⟩ =
        (.ok (ret, false), ⟨⟨stream, []⟩, fields, seen⟩)) :
      (recvBody T 32 10 (hs ++ rest) size ⟨⟨stream, []⟩, msgConnectRespFields now 0 0, seen⟩).1 =
          .ok 0 ↔ (0 ≤ size ∧ size ≤ stream.length) ∧ ret = 0 := by
    rw [recvBody_matched hmatch]
    rcases readBuffer_cases hsize stream fields seen with ⟨hlo, hhi, w, -, hread⟩ | ⟨hshort, r, hread⟩
    · rw [bind_of_ok hread]
      simp [parseBody, hlo, hhi]
    · rw [bind_of_error hread]
      exact iff_of_false (fun h => by cases h) fun h => hshort h.1
  by_cases hconnect : toInt32 p.ivalue = MSG_CONNECT
  · have hlength : FIELD_BMARK ≤ (msgConnectRespFields now 0 0).length := by
      simp [msgConnectRespFields, msgHeader, msgTail, FIELD_BMARK]
    have hmatch := matchMethod_same hhs rest hlength hp hmethod (hconnect.trans hcaller.symm)
      ⟨stream, []⟩ seen
    have hkind : (toInt32 p.ivalue = MSG_CONNECT ∧ ResponseBody (stream.take size.toNat) ∨
        toInt32 p.ivalue = MSG_COMMON ∧ toInt32 q.ivalue = ERR_OK) ↔
          ResponseBody (stream.take size.toNat) := by
      rw [hconnect]
      simp [hdistinct.symm]
    rw [hkind, recvBody_matched hmatch]
    rcases readBuffer_cases hsize stream (hs ++ (msgConnectRespFields now 0 0).drop FIELD_BMARK) seen
      with ⟨hlo, hhi, w, hw, hread⟩ | ⟨hshort, r, hread⟩
    · rw [bind_of_ok hread, parseBody_response hhs, hw]
      simp [hlo, hhi]
    · rw [bind_of_error hread]
      exact iff_of_false (fun h => by cases h) fun h => hshort h.1
  by_cases hcommon : MSG_COMMON = toInt32 p.ivalue
  · rw [hunparsed _ (matchMethod_common hp hmethod hconnect hcommon hq _ _), ← hcommon]
    simp [hdistinct, ERR_OK]
  · rw [hunparsed _ (matchMethod_other hp hmethod hconnect hcommon _ _)]
    simp [hconnect, Ne.symm hcommon, hunexpected]

/-- The header of an answer: the call goes on to the body with the header's numbers, or returns an
error. -/
theorem parseHeader_cases (now len : Int) {header : CharVector} (hlong : 32 ≤ bs.length)
    (hheader : header.storage = bs.take 32) (r : Receiver) :
    (HeaderAccepted true bs ∧ ∃ hs rest p q, IsHeader hs ∧
        fieldAt (hs ++ rest) FIELD_METHOD = .ok p ∧
        toInt32 p.ivalue = headerWord bs FIELD_METHOD ∧
        fieldAt (hs ++ rest) FIELD_RETURN = .ok q ∧
        toInt32 q.ivalue = headerWord bs FIELD_RETURN ∧
        parseHeader T now 32 len header r = recvBody T 32 len (hs ++ rest) (announcedSize bs)
          { r with seen := r.seen ++ [.header header.storage] }) ∨
      (¬ HeaderAccepted true bs ∧ ∃ code, code ≠ 0 ∧
        (parseHeader T now 32 len header r).1 = .ok code) := by
  have hlength : header.storage.length = 32 := by rw [hheader, List.length_take]; omega
  have hfour : 4 ≤ header.storage.length := by omega
  have hmark := markAt_eq (T := T) hfour
  have hiff := headMark_iff T.order hfour
  have hrest : (InputStream.ofBuffer header.storage 32).rest = bs.take 32 := by
    change header.storage.take 32 = _
    rw [hheader, List.take_take, Nat.min_self]
  have htable : msgCommonReqFields now MSG_COMMON =
      (msgHeader now MSG_COMMON 0 1).take FIELD_BMARK ++ commonTail := rfl
  have hsizeT : toSizeT 32 = 32 := rfl
  have haccepted : HeaderAccepted true (bs.take 32) ↔ HeaderAccepted true bs :=
    headerAccepted_take true bs
  by_cases hhead : BitVec.ofNat 32 (T.order.load (header.storage.take 4)) = HEAD_MARK
  · rw [hhead] at hmark
    have hdecode := unserializeHeaderPacket_fields (T := T) true commonTail
      (isHeader_msgHeader now MSG_COMMON 0 1) (s := .ofBuffer header.storage 32) rfl rfl
      (by rw [hrest, List.length_take]; omega)
    rw [hrest, haccepted, ← htable] at hdecode
    rcases hdecode with ⟨haccept, hpacket⟩ | ⟨hreject, code, s', hs', hpacket, hcode, -⟩
    · have hhs := isScalar_scalarsRead (isHeader_msgHeader now MSG_COMMON 0 1) (bs.take 32)
      have hword {i : Nat} (hi : i < FIELD_HCRC) :=
        word_scalarsRead (isHeader_msgHeader now MSG_COMMON 0 1) (bs.take 32) commonTail hi
      obtain ⟨p, hp, hmethod⟩ := hword (i := FIELD_METHOD) (by decide)
      obtain ⟨q, hq, hret⟩ := hword (i := FIELD_RETURN) (by decide)
      obtain ⟨size, hsize, hbsize⟩ := hword (i := FIELD_BSIZE) (by decide)
      rw [headerWord_take (by decide)] at hmethod hret hbsize
      have hint := toInt32_announcedSize bs
      refine .inl ⟨haccept, _, commonTail, p, q, hhs, hp, ?_, hq, ?_, ?_⟩
      · rw [hmethod, toInt32_headerWord]
      · rw [hret, toInt32_headerWord]
      · rw [headerWord_bsize] at hbsize
        have hzero : ERR_OK = 0 := rfl
        simp only [parseHeader, see_bind, hmark, lift_ok_bind, hsizeT, hpacket, orFault_ok, hsize,
          hbsize, hint, hzero, ne_eq, not_true, if_false]
    · refine .inr ⟨hreject, code, hcode, ?_⟩
      have hnonzero : code ≠ 0 := hcode
      simp only [parseHeader, see_bind, hmark, lift_ok_bind, hsizeT, hpacket, orFault_ok, ne_eq,
        hnonzero, not_true, not_false_iff, if_true, if_false, pure_run]
  · refine .inr ⟨?_, ERR_DECODE_ERROE, by decide, ?_⟩
    · rw [← haccepted, ← hheader]
      exact fun haccept => hhead (hiff.mpr haccept.1)
    · simp only [parseHeader, see_bind, hmark, lift_ok_bind, ne_eq, Ne.symm hhead, not_false_iff,
        if_true, pure_run]

/-- **When `recv_packet` gets the code 0** for an answer to a connect request. -/
theorem recvPacket_connect_iff (now now' : Int) (bs : List UInt8) :
    (recvPacket T now' 10 (.init ⟨bs, []⟩ (msgConnectRespFields now 0 0))).1 = .ok 0 ↔
      WholeAnswer bs ∧ (headerWord bs FIELD_METHOD = MSG_CONNECT ∧ ResponseBody (answerBody bs) ∨
        headerWord bs FIELD_METHOD = MSG_COMMON ∧ headerWord bs FIELD_RETURN = ERR_OK) := by
  have hsize := (MsgTable.connectResp now 0 0).fieldsSize_fields
    (by rw [MsgTable.size_connectResp]; decide) ⟨none, some 0, none, none⟩
  rw [MsgTable.fields_connectResp] at hsize
  rw [recvPacket, Receiver.init, getFields_bind]
  simp only [hsize, orFault_ok, lift_ok_bind, Option.map_some, Option.getD_some]
  rcases readBuffer_cases (n := 32) (by decide) bs (msgConnectRespFields now 0 0) [] with
    ⟨-, hlong, w, hw, hread⟩ | ⟨hshort, r, hread⟩
  · have hlong : 32 ≤ bs.length := by exact_mod_cast hlong
    rw [bind_of_ok hread]
    rcases parseHeader_cases (T := T) now' 10 hlong hw
        ⟨⟨bs.drop 32, []⟩, msgConnectRespFields now 0 0, []⟩ with
      ⟨haccept, hs, rest, p, q, hhs, hp, hmethod, hq, hret, hrun⟩ | ⟨hreject, code, hcode, hrun⟩
    · have hint : announcedSize bs < 2 ^ 31 := BitVec.toInt_lt
      have hbody := recvBody_connect (T := T) hhs hp hq hint now (bs.drop 32)
        ([] ++ [.header w.storage])
      have hwhole : (0 ≤ announcedSize bs ∧ announcedSize bs ≤ (bs.drop 32).length) ↔
          WholeAnswer bs := by
        rw [List.length_drop]
        exact ⟨fun h => ⟨hlong, haccept, h.1, by omega⟩, fun h => ⟨h.size, by have := h.body; omega⟩⟩
      rw [hwhole, hmethod, hret] at hbody
      exact (iff_of_eq (congrArg (fun x => x.1 = .ok 0) hrun)).trans hbody
    · refine iff_of_false ?_ fun h => hreject h.1.header
      intro h
      exact hcode (Except.ok.inj (hrun.symm.trans h))
  · rw [bind_of_error hread]
    exact iff_of_false (fun h => by cases h) fun h => hshort ⟨by decide, by exact_mod_cast h.1.length⟩

end Receive

/-! ### `connect` -/

namespace Client

/-- A call of `connect` gets as far as to have sent its request. -/
structure Sends (T : Target) (c : Client) (env : Connecting) : Prop where
  opens : c.opened = false ∧ env.opens = true
  reached : env.reached = true
  named : Named env
  whole : env.write.part (((request env named).sent T).wire T) = ((request env named).sent T).wire T

theorem Sends.connect_eq {T : Target} {c : Client} {env : Connecting} (h : Sends T c env) :
    (connect T env c).1 =
      (recvPacket T (env.clock 2) 10 (.init env.answer (msgConnectRespFields (env.clock 1) 0 0))).1 := by
  have hrun := connect_run T env c
  generalize connect T env c = left at hrun
  cases hrun with
  | thrown hclosed => exact absurd h.opens hclosed
  | unreached hopens hreached => cases hreached.symm.trans h.reached
  | unnamed hopens hreached hnamed => exact absurd h.named hnamed
  | short hopens hreached hnamed packet hpacket hshort =>
    subst hpacket
    exact absurd h.whole hshort
  | sent hopens hreached hnamed packet hpacket hwhole => rfl

/-- **A reported success** means one exactly if the server's answer is neither a connect response
that reports a failure nor a common one that does not. -/
theorem connect_genuine_iff {T : Target} {c : Client} {env : Connecting} {bs : List UInt8}
    (hsends : Sends T c env) (hanswer : env.answer = ⟨bs, []⟩) :
    ((connect T env c).1 = .ok 0 → GenuineResponse bs) ↔ ¬ Misleading bs := by
  have hdistinct : MSG_COMMON ≠ MSG_CONNECT := by decide
  rw [hsends.connect_eq, hanswer, recvPacket_connect_iff]
  constructor
  · rintro hgenuine ⟨hwhole, hconnect | hcommon⟩
    · have hresponse := hgenuine ⟨hwhole, .inl ⟨hconnect.1, hconnect.2.2⟩⟩
      exact hconnect.2.1 hresponse.ret
    · have hresponse := hgenuine ⟨hwhole, .inr hcommon⟩
      exact hdistinct (hcommon.1.symm.trans hresponse.method)
  · rintro hnot ⟨hwhole, hconnect | hcommon⟩
    · by_cases hret : headerWord bs FIELD_RETURN = ERR_OK
      · exact ⟨hwhole, hconnect.1, hret, hconnect.2⟩
      · exact absurd ⟨hwhole, .inl ⟨hconnect.1, hret, hconnect.2⟩⟩ hnot
    · exact absurd ⟨hwhole, .inr hcommon⟩ hnot

/-- A call on host `"a"` of a client at `"/opt/rtdb/client"`. -/
def connecting (answer : List UInt8) : Connecting where
  opens := true
  reached := true
  clock := fun _ => 7
  hostname := some [0x61]
  exe := some [0x2f, 0x6f, 0x70, 0x74, 0x2f, 0x72, 0x74, 0x64, 0x62, 0x2f, 0x63, 0x6c, 0x69, 0x65,
    0x6e, 0x74]
  write := .wrote 4096
  answer := ⟨answer, []⟩

theorem connecting_named (answer : List UInt8) : Named (connecting answer) where
  computer := (strlen_lt_iff _).mpr <| by
    change 0 ∈ gethostname (some [0x61]) (charArray 1024 defaultComputer)
    decide +kernel
  process := (strlen_lt_iff _).mpr <| by
    change 0 ∈ readlink (connecting []).exe (charArray 1024 defaultProcess)
    decide +kernel

theorem connecting_sends (answer : List UInt8) : Sends (.build .little) .init (connecting answer) where
  opens := ⟨rfl, rfl⟩
  reached := rfl
  named := connecting_named answer
  whole := part_request _ _ _ (by decide)

/-- The response to a request that was granted. -/
def granted : List UInt8 := ((MsgTable.connectResp 9 ERR_OK 1).sent (.build .big)).wire (.build .big)

/-- The response to one that was refused, with a return code. -/
def refused : List UInt8 := ((MsgTable.connectResp 9 (-5) 0).sent (.build .big)).wire (.build .big)

theorem connect_granted : GenuineResponse granted := by
  have hnot : ¬ Misleading granted := by
    rintro ⟨-, ⟨-, hret, -⟩ | ⟨hmethod, -⟩⟩
    · exact hret (by decide +kernel)
    · exact absurd hmethod (by decide +kernel)
  exact (connect_genuine_iff (connecting_sends granted) rfl).mpr hnot (by decide +kernel)

/-- `connect` takes a refusal for a success. -/
theorem connect_refused :
    Sends (.build .little) .init (connecting refused) ∧
      (connect (.build .little) (connecting refused) .init).1 = .ok 0 ∧
        headerWord refused FIELD_RETURN = -5 ∧ ¬ GenuineResponse refused := by
  refine ⟨connecting_sends refused, by decide +kernel, by decide +kernel, ?_⟩
  intro h
  exact absurd h.ret (by decide +kernel)

end Client

end Librtaio

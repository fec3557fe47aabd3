import Librtaio.ClientConnect

/-!
# Replies of an unexpected method

The method of a reply is compared before its body is read, and the body is read
whatever the comparison says: a reply that is not parsed takes its bytes from the
connection like any other. Behind an accepted header `recv_packet` leaves the
connection at the next packet, however the body arrives, and it leaves the
caller's table alone if the method is not the caller's.
-/

namespace Librtaio

open Bytes Exec Receive MsgTable

/-! ### Reading a body in pieces -/

section Read

variable {buffer : CharVector} {next : Nat} {stream : List UInt8} {sizes : List Nat}

/-- A stream that ends before the last byte makes the loop throw. -/
theorem readLoop_ended (hend : stream.length < next) (hfit : next ≤ buffer.storage.length) :
    readLoop sizes buffer next stream = .error .exception := by
  induction sizes generalizing buffer next stream with
  | nil => rw [readLoop, if_neg (by omega)]
  | cons size sizes ih =>
    by_cases hempty : stream = []
    · rw [readLoop, readSome, if_neg (by omega), if_pos hempty, error_bind]
    · have hpos : 0 < stream.length := List.length_pos_of_ne_nil hempty
      obtain ⟨n, hn⟩ : ∃ n, n = min next (max 1 size) := ⟨_, rfl⟩
      have hread : readSome size next stream = .ok (stream.take n, stream.drop n) := by
        rw [readSome, if_neg (by omega), if_neg hempty, hn]
      have hlength : (stream.take n).length = min n stream.length := List.length_take
      obtain ⟨w, hstore, -, -, hsame⟩ := buffer.store_fit 0 (stream.take n) (by omega)
      have hrest : readLoop sizes w (next - (stream.take n).length) (stream.drop n) =
          .error .exception := by
        refine ih ?_ ?_
        · rw [List.length_drop]
          omega
        · omega
      rw [readLoop, hread, ok_bind]
      simp only [hstore, orFault_ok, ok_bind]
      rw [if_pos (by omega), hrest]

/-- However they arrive, the bytes are taken from the connection, or the connection ended. -/
theorem readBuffer_drains (hpos : 0 < next) (hnext : next < 2 ^ 31) (stream : List UInt8)
    (sizes : List Nat) (fields : List Field) (seen : List Seen) :
    (next ≤ stream.length ∧ ∃ w sizes', readBuffer next ⟨⟨stream, sizes⟩, fields, seen⟩ =
        (.ok w, ⟨⟨stream.drop next, sizes'⟩, fields, seen⟩)) ∨
      (stream.length < next ∧ readBuffer next ⟨⟨stream, sizes⟩, fields, seen⟩ =
        (.error .exception, ⟨⟨stream, sizes⟩, fields, seen⟩)) := by
  have hwant : toSizeT next = next :=
    (toSizeT_eq (by omega) (by exact_mod_cast hnext)).trans (Int.toNat_natCast next)
  obtain ⟨v, hresize, hstorage⟩ := resize_empty next
  have hlength : v.storage.length = next := by rw [hstorage, List.length_replicate]
  by_cases hstream : next ≤ stream.length
  · obtain ⟨w, sizes', hloop, -⟩ := @readLoop_returns v next stream sizes hpos hstream hlength.ge
    refine .inl ⟨hstream, w, sizes', ?_⟩
    rw [readBuffer, hresize, lift_ok_bind, getSocket_bind, hwant, hloop]
    rfl
  · have hloop := @readLoop_ended v next stream sizes (Nat.lt_of_not_le hstream) hlength.ge
    refine .inr ⟨Nat.lt_of_not_le hstream, ?_⟩
    rw [readBuffer, hresize, lift_ok_bind, getSocket_bind, hwant, hloop, lift_error_bind]

end Read

/-! ### Behind an accepted header -/

/-- The caller's table: `fields_size` finds a header of 32 bytes in it, and it expects a method. -/
structure Caller (fields : List Field) (method : Int) : Prop where
  long : FIELD_BMARK ≤ fields.length
  size : fieldsSize fields ⟨none, some 0, none, none⟩ = .ok ⟨none, some 32, none, none⟩
  method : ∃ q, fieldAt fields FIELD_METHOD = .ok q ∧ toInt32 q.ivalue = method

theorem MsgTable.caller (u : MsgTable) (husize : u.size < 2 ^ 31) :
    Caller u.fields (toInt32 u.method.ivalue) where
  long := by simp [fields, plain, FIELD_BMARK]
  size := u.fieldsSize_fields husize _
  method := ⟨u.method, rfl, rfl⟩

/-- What a reply of another method than the caller's stands for. -/
def unexpectedCode (bs : List UInt8) : Int :=
  if headerWord bs FIELD_METHOD = MSG_COMMON then headerWord bs FIELD_RETURN
  else ERR_UNEXPECTIED_METHOD

/-- A call that ended has taken a header and the body it announced from the stream `bs` if it
returns; on a method that is not the caller's it returns that method's code if the body is there,
and its table is the caller's. -/
structure Aligned (bs : List UInt8) (fields : List Field) (method : Int)
    (run : Except Exit Int × Receiver) : Prop where
  consumed : ∀ code, run.1 = .ok code → 32 + announcedSize bs ≤ bs.length ∧
    run.2.socket.stream = bs.drop (32 + (announcedSize bs).toNat)
  code : headerWord bs FIELD_METHOD ≠ method → 32 + announcedSize bs ≤ bs.length →
    run.1 = .ok (unexpectedCode bs)
  unchanged : headerWord bs FIELD_METHOD ≠ method → run.2.fields = fields

section Reply

variable {T : Target} {fields : List Field} {method : Int} {bs : List UInt8} {sizes : List Nat}

/-- The body is read whether it is parsed or not. -/
theorem readBuffer_parseBody (len ret : Int) (parsePacket : Bool) (hlong : 32 ≤ bs.length)
    (hsize : 0 < announcedSize bs) (fields : List Field) (sizes : List Nat) (seen : List Seen) :
    ∃ run, (readBuffer (announcedSize bs) >>= parseBody T 32 len ret parsePacket)
        ⟨⟨bs.drop 32, sizes⟩, fields, seen⟩ = run ∧
      (∀ code, run.1 = .ok code → 32 + announcedSize bs ≤ bs.length ∧
        run.2.socket.stream = bs.drop (32 + (announcedSize bs).toNat)) ∧
      (parsePacket = false → 32 + announcedSize bs ≤ bs.length → run.1 = .ok ret) ∧
      (parsePacket = false → run.2.fields = fields) := by
  refine ⟨_, rfl, ?_⟩
  obtain ⟨n, hn⟩ := Int.eq_ofNat_of_zero_le hsize.le
  have hint : announcedSize bs < 2 ^ 31 := BitVec.toInt_lt
  have hlength : (bs.drop 32).length = bs.length - 32 := List.length_drop
  rw [hn, Int.toNat_natCast]
  rcases @readBuffer_drains n (by omega) (by omega) (bs.drop 32) sizes fields seen with
    ⟨hall, w, sizes', hread⟩ | ⟨hend, hread⟩
  · rw [bind_of_ok hread, List.drop_drop]
    refine ⟨fun code hcode => ⟨by omega, ?_⟩, fun hskip _ => ?_, fun hskip => ?_⟩
    · cases parsePacket with
      | false => rw [parseBody_unparsed]
      | true =>
        obtain ⟨code', fields', seen', hparse⟩ := parseBody_run T 32 len ret w fields
        rw [hparse]
    · rw [hskip, parseBody_unparsed]
    · rw [hskip, parseBody_unparsed]
  · rw [bind_of_error hread]
    exact ⟨fun code hcode => (by cases hcode), fun _ hall => (by omega), fun _ => rfl⟩

theorem recvBody_aligned {hs rest : List Field} {p q : Field} (len : Int) (hcaller : Caller fields method)
    (hhs : IsHeader hs) (hp : fieldAt (hs ++ rest) FIELD_METHOD = .ok p)
    (hmethod : toInt32 p.ivalue = headerWord bs FIELD_METHOD)
    (hq : fieldAt (hs ++ rest) FIELD_RETURN = .ok q)
    (hret : toInt32 q.ivalue = headerWord bs FIELD_RETURN) (hlong : 32 ≤ bs.length)
    (hsize : 0 < announcedSize bs) (sizes : List Nat) (seen : List Seen) :
    Aligned bs fields method (recvBody T 32 len (hs ++ rest) (announcedSize bs)
      ⟨⟨bs.drop 32, sizes⟩, fields, seen⟩) := by
  obtain ⟨own, hown, hexpected⟩ := hcaller.method
  by_cases hsame : toInt32 p.ivalue = toInt32 own.ivalue
  · have hmatched : headerWord bs FIELD_METHOD = method := by rw [← hmethod, hsame, hexpected]
    rw [recvBody_matched (matchMethod_same hhs rest hcaller.long hp hown hsame _ seen)]
    obtain ⟨run, hrun, hconsumed, -⟩ := readBuffer_parseBody (T := T) len 0 true hlong hsize
      (hs ++ fields.drop FIELD_BMARK) sizes seen
    rw [hrun]
    exact ⟨hconsumed, fun h => absurd hmatched h, fun h => absurd hmatched h⟩
  · have hskipped {ret : Int} (hcode : ret = unexpectedCode bs)
        (hmatch : matchMethod (hs ++ rest) ⟨⟨bs.drop 32, sizes⟩, fields, seen⟩ =
          (.ok (ret, false), ⟨⟨bs.drop 32, sizes⟩, fields, seen⟩)) :
        Aligned bs fields method (recvBody T 32 len (hs ++ rest) (announcedSize bs)
          ⟨⟨bs.drop 32, sizes⟩, fields, seen⟩) := by
      rw [recvBody_matched hmatch, hcode]
      obtain ⟨run, hrun, hconsumed, hreturns, hkept⟩ := readBuffer_parseBody (T := T) len
        (unexpectedCode bs) false hlong hsize fields sizes seen
      rw [hrun]
      exact ⟨hconsumed, fun _ => hreturns rfl, fun _ => hkept rfl⟩
    by_cases hcommon : MSG_COMMON = toInt32 p.ivalue
    · refine hskipped ?_ (matchMethod_common hp hown hsame hcommon hq _ seen)
      rw [unexpectedCode, if_pos (hmethod.symm.trans hcommon.symm), hret]
    · refine hskipped ?_ (matchMethod_other hp hown hsame hcommon _ seen)
      rw [unexpectedCode, if_neg (fun h => hcommon (h.symm.trans hmethod.symm))]

/-- **Alignment.** A reply whose header comes in one read and is accepted leaves the connection at
the next packet, however its body arrives; if it is not of the caller's method, the call returns
what the reply stands for and does not touch the caller's table. -/
theorem recvPacket_aligned (hcaller : Caller fields method) (hlong : 32 ≤ bs.length)
    (hone : OnePiece sizes 32) (haccept : HeaderAccepted true bs) (hsize : 4 ≤ announcedSize bs)
    (T : Target) (now len : Int) :
    Aligned bs fields method (recvPacket T now len (.init ⟨bs, sizes⟩ fields)) := by
  obtain ⟨w, hw, hread⟩ := readBuffer_one (n := 32) (by decide) hlong
  have hread32 : readBuffer 32 ⟨⟨bs, sizes⟩, fields, []⟩ = _ := hread sizes fields [] hone
  rw [recvPacket, getFields_bind, Receiver.init]
  simp only [hcaller.size, orFault_ok, lift_ok_bind, Option.getD_some]
  rw [bind_of_ok hread32]
  rcases parseHeader_cases (T := T) now len hlong hw ⟨⟨bs.drop 32, sizes.tail⟩, fields, []⟩ with
    ⟨-, hs, rest, p, q, hhs, hp, hmethod, hq, hret, hrun⟩ | ⟨hreject, -⟩
  · rw [hrun]
    exact recvBody_aligned len hcaller hhs hp hmethod hq hret hlong (by omega) sizes.tail _
  · exact absurd haccept hreject

theorem commonReply_entries : Entries 1 (scalarField .long BODY_MARK.toInt) [] := entries_nil

/-- A common reply with the code -5, and the first bytes of what follows it. -/
def commonReply : List UInt8 :=
  ((ofBody 9 MSG_COMMON (-5) 1 [] commonReply_entries).sent (.build .big)).wire (.build .big) ++
    [0x11, 0x11]

/-- A client that waits for a connect response, and gets the reply's body in three pieces. -/
theorem recvPacket_commonReply :
    Aligned commonReply (msgConnectRespFields 5 0 0) MSG_CONNECT
      (recvPacket (.build .little) 5 10
        (.init ⟨commonReply, [32, 5, 6]⟩ (msgConnectRespFields 5 0 0))) :=
  recvPacket_aligned (MsgTable.caller (connectResp 5 0 0) (by decide)) (by decide) (by decide)
    (by decide +kernel) (by decide +kernel) _ _ _

end Reply

end Librtaio

import Librtaio.ClientImpl
import Librtaio.FieldsSize
import Librtaio.RoundTrip
import Librtaio.SessionSteps
import Mathlib.Data.Nat.Find

/-!
# What a call of `recv_packet` does

The read loop, the comparison of the methods and the parse of a body, each with
what it leaves, and from them the run of a call on a packet that was sent.
-/

namespace Librtaio

open Bytes Exec Receive

/-! ### The read loop -/

theorem readSome_eq {size asked : Nat} {stream : List UInt8} (hpos : 0 < asked)
    (hstream : asked ≤ stream.length) :
    readSome size asked stream =
      .ok (stream.take (min asked (max 1 size)), stream.drop (min asked (max 1 size))) := by
  have hne : stream ≠ [] := List.ne_nil_of_length_pos (by omega)
  rw [readSome, if_neg (by omega), if_neg hne]

/-- The first call for `n` bytes returns all of them. -/
def OnePiece (sizes : List Nat) (n : Nat) : Prop := n ≤ max 1 (sizes.headD n)

instance (sizes : List Nat) (n : Nat) : Decidable (OnePiece sizes n) :=
  inferInstanceAs (Decidable (_ ≤ _))

variable {buffer : CharVector} {next : Nat} {stream : List UInt8} {sizes : List Nat}

theorem readLoop_one (hone : OnePiece sizes next) (hstream : next ≤ stream.length)
    (hfit : next ≤ buffer.storage.length) :
    ∃ w, buffer.store 0 (stream.take next) = .ok w ∧
      readLoop sizes buffer next stream = .ok (w, ⟨stream.drop next, sizes.tail⟩) := by
  have hlength : (stream.take next).length = next := by
    rw [List.length_take]
    omega
  obtain ⟨w, hstore, -⟩ := buffer.store_fit 0 (stream.take next) (by omega)
  refine ⟨w, hstore, ?_⟩
  cases sizes with
  | nil => simp [readLoop, hstream, hstore]
  | cons size sizes =>
    by_cases hzero : next = 0
    · subst hzero
      rw [List.take_zero] at hstore
      simp [readLoop, readSome, hstore]
    · have hall : min next (max 1 size) = next := by
        have hle : next ≤ max 1 size := hone
        omega
      rw [readLoop, readSome_eq (by omega) hstream, hall]
      simp [hstore, hlength]

theorem store_front {n : Nat} (hstream : n ≤ stream.length) (hfit : n ≤ buffer.storage.length) :
    ∃ w, buffer.store 0 (stream.take n) = .ok w ∧ w.storage.length = buffer.storage.length ∧
      ∀ x, w.storage[x]? = if x < n then stream[x]? else buffer.storage[x]? := by
  have hlength : (stream.take n).length = n := by
    rw [List.length_take]
    omega
  obtain ⟨w, hstore, -, hstorage, hsame⟩ := buffer.store_fit 0 (stream.take n) (by omega)
  refine ⟨w, hstore, hsame, ?_⟩
  intro x
  rw [hstorage, List.take_zero, List.nil_append, Nat.zero_add, hlength, List.getElem?_append, hlength]
  split
  · rw [List.getElem?_take, if_pos (by assumption)]
  · rw [List.getElem?_drop, Nat.add_sub_cancel' (by omega)]

theorem readLoop_cons {size n : Nat} (hn : n = min next (max 1 size)) (hpos : 0 < next)
    (hstream : next ≤ stream.length) (hfit : next ≤ buffer.storage.length) :
    ∃ w, w.storage.length = buffer.storage.length ∧
      (∀ x, w.storage[x]? = if x < n then stream[x]? else buffer.storage[x]?) ∧
      readLoop (size :: sizes) buffer next stream =
        if next - n > 0 then readLoop sizes w (next - n) (stream.drop n)
        else .ok (w, ⟨stream.drop n, sizes⟩) := by
  obtain ⟨w, hstore, hlength, hbytes⟩ := store_front
    (show n ≤ stream.length by omega) (show n ≤ buffer.storage.length by omega)
  have htake : (stream.take n).length = n := by
    rw [List.length_take]
    omega
  refine ⟨w, hlength, hbytes, ?_⟩
  rw [readLoop, readSome_eq hpos hstream, ← hn]
  simp [hstore, htake]

theorem length_drop_le {n : Nat} (hstream : next ≤ stream.length) (hn : n ≤ next) :
    next - n ≤ (stream.drop n).length := by
  rw [List.length_drop]
  omega

/-- However the bytes arrive, the loop ends with all of them received; each byte of the buffer is
one it held or a byte of the stream at least as far on, and the first one is from the stream. -/
theorem readLoop_returns (hpos : 0 < next) (hstream : next ≤ stream.length)
    (hfit : next ≤ buffer.storage.length) :
    ∃ w sizes', readLoop sizes buffer next stream = .ok (w, ⟨stream.drop next, sizes'⟩) ∧
      w.storage.length = buffer.storage.length ∧
      (∀ x, w.storage[x]? = buffer.storage[x]? ∨
        ∃ y, x ≤ y ∧ y < next ∧ w.storage[x]? = stream[y]?) ∧
      ∃ y, y < next ∧ w.storage[0]? = stream[y]? := by
  induction sizes generalizing buffer next stream with
  | nil =>
    obtain ⟨w, hstore, hlength, hbytes⟩ := store_front hstream hfit
    refine ⟨w, [], by simp [readLoop, hstream, hstore], hlength, fun x => ?_, 0, hpos, ?_⟩
    · by_cases hx : x < next
      · exact .inr ⟨x, le_refl x, hx, by rw [hbytes, if_pos hx]⟩
      · exact .inl (by rw [hbytes, if_neg hx])
    · rw [hbytes, if_pos hpos]
  | cons size sizes ih =>
    obtain ⟨n, hn⟩ : ∃ n, n = min next (max 1 size) := ⟨_, rfl⟩
    obtain ⟨w, hlength, hbytes, hloop⟩ := readLoop_cons hn hpos hstream hfit
    by_cases hlast : n = next
    · subst hlast
      refine ⟨w, sizes, by rw [hloop, if_neg (by omega)], hlength, fun x => ?_, 0, hpos, ?_⟩
      · by_cases hx : x < n
        · exact .inr ⟨x, le_refl x, hx, by rw [hbytes, if_pos hx]⟩
        · exact .inl (by rw [hbytes, if_neg hx])
      · rw [hbytes, if_pos hpos]
    · obtain ⟨w', sizes', hrest, hlength', hbytes', y₀, hy₀, hfirst⟩ := ih
        (show 0 < next - n by omega) (length_drop_le hstream (by omega))
        (show next - n ≤ w.storage.length by omega)
      refine ⟨w', sizes', ?_, hlength'.trans hlength, fun x => ?_, n + y₀, by omega, ?_⟩
      · rw [hloop, if_pos (by omega), hrest, List.drop_drop, Nat.add_sub_cancel' (by omega)]
      · rcases hbytes' x with hold | ⟨y, hxy, hy, hnew⟩
        · by_cases hx : x < n
          · exact .inr ⟨x, le_refl x, by omega, by rw [hold, hbytes, if_pos hx]⟩
          · exact .inl (by rw [hold, hbytes, if_neg hx])
        · exact .inr ⟨n + y, by omega, by omega, by rw [hnew, List.getElem?_drop]⟩
      · rw [hfirst, List.getElem?_drop]

/-- In more than one piece the bytes do not all get to their places: the last one that is not zero
would have to come with the first piece, and then the last piece puts a zero to the front. -/
theorem readLoop_split (hsplit : ¬ OnePiece sizes next) (hstream : next ≤ stream.length)
    (hzero : ∀ b ∈ buffer.storage, b = 0) (hfit : buffer.storage.length = next) {first : UInt8}
    (hfirst : stream[0]? = some first) (hne : first ≠ 0) :
    ∃ w sizes', readLoop sizes buffer next stream = .ok (w, ⟨stream.drop next, sizes'⟩) ∧
      w.storage ≠ stream.take next := by
  rcases sizes with _ | ⟨size, sizes⟩
  · exact absurd (le_max_right 1 next) hsplit
  have hlt : max 1 size < next := Nat.lt_of_not_le hsplit
  obtain ⟨n, hn⟩ : ∃ n, n = min next (max 1 size) := ⟨_, rfl⟩
  obtain ⟨w₁, hlength₁, hbytes₁, hloop⟩ := readLoop_cons hn (by omega) hstream hfit.ge
  obtain ⟨w, sizes', hrest, -, hbytes, y₀, hy₀, hfront⟩ := readLoop_returns (show 0 < next - n by omega)
    (length_drop_le hstream (by omega)) (show next - n ≤ w₁.storage.length by omega)
  refine ⟨w, sizes', ?_, fun hsame => ?_⟩
  · rw [hloop, if_pos (by omega), hrest, List.drop_drop, Nat.add_sub_cancel' (by omega)]
  have hplace {x : Nat} (hx : x < next) : w.storage[x]? = stream[x]? := by
    rw [hsame, List.getElem?_take, if_pos hx]
  -- the last byte that is not zero
  obtain ⟨z, hzmax⟩ : ∃ z, z = Nat.findGreatest (fun x => stream[x]? ≠ some 0) (next - 1) := ⟨_, rfl⟩
  have hz : stream[z]? ≠ some 0 := hzmax ▸ Nat.findGreatest_spec (P := fun x => stream[x]? ≠ some 0)
    (Nat.zero_le _) (by rw [hfirst]; simpa using hne)
  have hzlt : z < next := by
    have hle : z ≤ next - 1 := hzmax ▸ Nat.findGreatest_le _
    omega
  have hafter (x : Nat) (hzx : z < x) (hx : x < next) : stream[x]? = some 0 := by
    by_contra h
    exact Nat.findGreatest_is_greatest (hzmax ▸ hzx) (by omega) h
  have hzn : z < n := by
    rcases hbytes z with hold | ⟨y, hzy, hy, hnew⟩
    · by_contra hle
      obtain ⟨b, hb⟩ : ∃ b, buffer.storage[z]? = some b :=
        ⟨_, List.getElem?_eq_getElem (by omega)⟩
      rw [hplace hzlt, hbytes₁, if_neg hle, hb, hzero b (List.mem_of_getElem? hb)] at hold
      exact hz hold
    · rw [hplace hzlt, List.getElem?_drop, hafter (n + y) (by omega) (by omega)] at hnew
      exact absurd hnew hz
  rw [hplace (by omega), List.getElem?_drop, hafter (n + y₀) (by omega) (by omega), hfirst] at hfront
  exact hne (Option.some_inj.mp hfront)

theorem resize_empty (n : Nat) :
    ∃ v, CharVector.empty.resize n = .ok v ∧ v.storage = List.replicate n 0 := by
  refine ⟨_, if_neg (by omega), ?_⟩
  simp [CharVector.empty]

section ReadBuffer

variable {n : Nat} {stream : List UInt8}

theorem readBuffer_one (hn : n < 2 ^ 31) (hstream : n ≤ stream.length) :
    ∃ w, w.storage = stream.take n ∧ ∀ sizes fields seen, OnePiece sizes n →
      readBuffer n ⟨⟨stream, sizes⟩, fields, seen⟩ =
        (.ok w, ⟨⟨stream.drop n, sizes.tail⟩, fields, seen⟩) := by
  have hwant : toSizeT n = n :=
    (toSizeT_eq (by omega) (by exact_mod_cast hn)).trans (Int.toNat_natCast n)
  obtain ⟨v, hresize, hstorage⟩ := resize_empty n
  have hlength : v.storage.length = n := by rw [hstorage, List.length_replicate]
  obtain ⟨w, hstore, -, hbytes, -⟩ := v.store_fit 0 (stream.take n)
    (by rw [List.length_take]; omega)
  refine ⟨w, ?_, fun sizes fields seen hone => ?_⟩
  · rw [hbytes, List.take_zero, List.nil_append, List.length_take, Nat.min_eq_left hstream,
      Nat.zero_add, List.drop_of_length_le hlength.le, List.append_nil]
  · obtain ⟨w', hstore', hloop⟩ := readLoop_one hone hstream hlength.ge
    cases hstore.symm.trans hstore'
    rw [readBuffer, hresize, lift_ok_bind, getSocket_bind, hwant, hloop]
    rfl

theorem readBuffer_split (hn : n < 2 ^ 31) (hstream : n ≤ stream.length) {first : UInt8}
    (hfirst : stream[0]? = some first) (hne : first ≠ 0) {sizes : List Nat}
    (hsplit : ¬ OnePiece sizes n) (fields : List Field) (seen : List Seen) :
    ∃ w sizes', w.storage ≠ stream.take n ∧ readBuffer n ⟨⟨stream, sizes⟩, fields, seen⟩ =
      (.ok w, ⟨⟨stream.drop n, sizes'⟩, fields, seen⟩) := by
  have hwant : toSizeT n = n :=
    (toSizeT_eq (by omega) (by exact_mod_cast hn)).trans (Int.toNat_natCast n)
  obtain ⟨v, hresize, hstorage⟩ := resize_empty n
  obtain ⟨w, sizes', hloop, hother⟩ := readLoop_split hsplit hstream
    (fun b hb => List.eq_of_mem_replicate (hstorage ▸ hb))
    (by rw [hstorage, List.length_replicate]) hfirst hne
  refine ⟨w, sizes', hother, ?_⟩
  rw [readBuffer, hresize, lift_ok_bind, getSocket_bind, hwant, hloop]
  rfl

end ReadBuffer

/-! ### The method and the body -/

theorem fieldAt_of_lt {fields : List Field} {i : Nat} (h : i < fields.length) :
    ∃ p, fieldAt fields i = .ok p :=
  ⟨fields[i], by rw [fieldAt, List.getElem?_eq_getElem h]⟩

section MatchMethod

variable {hs fields : List Field} {p q : Field}

/-- A header of the caller's method is copied into the caller's table. -/
theorem matchMethod_same (hhs : IsHeader hs) (rest : List Field)
    (hfields : FIELD_BMARK ≤ fields.length) (hp : fieldAt (hs ++ rest) FIELD_METHOD = .ok p)
    (hq : fieldAt fields FIELD_METHOD = .ok q) (hsame : toInt32 p.ivalue = toInt32 q.ivalue)
    (socket : Socket) (seen : List Seen) :
    matchMethod (hs ++ rest) ⟨socket, fields, seen⟩ =
      (.ok (0, true), ⟨socket, hs ++ fields.drop FIELD_BMARK, seen⟩) := by
  simp only [matchMethod, hp, hq, orFault_ok, lift_ok_bind, getFields_bind, if_pos hsame,
    copyFields_header hhs rest hfields, setFields_bind, pure_run]

/-- Of a common header the return code is taken. -/
theorem matchMethod_common {rest : List Field} {ret : Field} (hp : fieldAt (hs ++ rest) FIELD_METHOD = .ok p)
    (hq : fieldAt fields FIELD_METHOD = .ok q) (hother : ¬ toInt32 p.ivalue = toInt32 q.ivalue)
    (hcommon : MSG_COMMON = toInt32 p.ivalue) (hret : fieldAt (hs ++ rest) FIELD_RETURN = .ok ret)
    (socket : Socket) (seen : List Seen) :
    matchMethod (hs ++ rest) ⟨socket, fields, seen⟩ =
      (.ok (toInt32 ret.ivalue, false), ⟨socket, fields, seen⟩) := by
  simp only [matchMethod, hp, hq, hret, orFault_ok, lift_ok_bind, getFields_bind, if_neg hother,
    if_pos hcommon, pure_run]

theorem matchMethod_other {rest : List Field} (hp : fieldAt (hs ++ rest) FIELD_METHOD = .ok p)
    (hq : fieldAt fields FIELD_METHOD = .ok q) (hother : ¬ toInt32 p.ivalue = toInt32 q.ivalue)
    (hcommon : ¬ MSG_COMMON = toInt32 p.ivalue) (socket : Socket) (seen : List Seen) :
    matchMethod (hs ++ rest) ⟨socket, fields, seen⟩ =
      (.ok (ERR_UNEXPECTIED_METHOD, false), ⟨socket, fields, seen⟩) := by
  simp only [matchMethod, hp, hq, orFault_ok, lift_ok_bind, getFields_bind, if_neg hother,
    if_neg hcommon, pure_run]

/-- A header of another method leaves the caller's table, and its body is not parsed. -/
theorem matchMethod_unparsed (hhs : IsHeader hs) (rest : List Field)
    (hp : fieldAt (hs ++ rest) FIELD_METHOD = .ok p) (hq : fieldAt fields FIELD_METHOD = .ok q)
    (hother : ¬ toInt32 p.ivalue = toInt32 q.ivalue) :
    ∃ ret, ∀ socket seen, matchMethod (hs ++ rest) ⟨socket, fields, seen⟩ =
      (.ok (ret, false), ⟨socket, fields, seen⟩) := by
  have hlength : FIELD_BMARK ≤ (hs ++ rest).length := by
    rw [List.length_append, hhs.length_eq]
    exact Nat.le_add_right _ _
  obtain ⟨v, hv⟩ := fieldAt_of_lt (i := FIELD_RETURN) (lt_of_lt_of_le (by decide) hlength)
  by_cases hcommon : MSG_COMMON = toInt32 p.ivalue
  · exact ⟨_, matchMethod_common hp hq hother hcommon hv⟩
  · exact ⟨_, matchMethod_other hp hq hother hcommon⟩

end MatchMethod

section ParseBody

variable {T : Target} {headerSize len : Int} {body : CharVector} {fields : List Field}

theorem parseBody_ok {code : Int} {s : InputStream} {fields' : List Field} (ret : Int)
    (hmark : markAt T body = .ok BODY_MARK)
    (hdecode : unserializeBodyPacket T (.ofBuffer body.storage (toSizeT headerSize)) fields len true =
      .ok (code, s, fields')) (socket : Socket) (seen : List Seen) :
    parseBody T headerSize len ret true body ⟨socket, fields, seen⟩ =
      (.ok code, ⟨socket, fields', seen ++
        [.body body.storage, .stream (.ofBuffer body.storage (toSizeT headerSize))]⟩) := by
  simp only [parseBody, see_bind, if_true, hmark, lift_ok_bind, ne_eq, not_true, if_false,
    getFields_bind, hdecode, orFault_ok, setFields_bind, pure_run, List.append_assoc,
    List.cons_append, List.nil_append]

theorem parseBody_fault {fault : Fault} (ret : Int) (hmark : markAt T body = .ok BODY_MARK)
    (hdecode : unserializeBodyPacket T (.ofBuffer body.storage (toSizeT headerSize)) fields len true =
      .error fault) (socket : Socket) (seen : List Seen) :
    parseBody T headerSize len ret true body ⟨socket, fields, seen⟩ =
      (.error (.fault fault), ⟨socket, fields, seen ++
        [.body body.storage, .stream (.ofBuffer body.storage (toSizeT headerSize))]⟩) := by
  simp only [parseBody, see_bind, if_true, hmark, lift_ok_bind, ne_eq, not_true, if_false,
    getFields_bind, hdecode, orFault_error, lift_error_bind, List.append_assoc, List.cons_append,
    List.nil_append]

theorem parseBody_seen (ret : Int) (hmark : markAt T body = .ok BODY_MARK) (r : Receiver) :
    (parseBody T headerSize len ret true body r).2.seen = r.seen ++
      [.body body.storage, .stream (.ofBuffer body.storage (toSizeT headerSize))] := by
  obtain ⟨socket, fields, seen⟩ := r
  rcases hdecode : unserializeBodyPacket T (.ofBuffer body.storage (toSizeT headerSize)) fields len true
    with fault | ⟨code, s, fields'⟩
  · rw [parseBody_fault ret hmark hdecode]
  · rw [parseBody_ok ret hmark hdecode]

/-- A body that is not parsed is dropped. -/
theorem parseBody_unparsed (T : Target) (headerSize len ret : Int) (body : CharVector) (r : Receiver) :
    parseBody T headerSize len ret false body r = (.ok ret, r) := by
  simp only [parseBody, Bool.false_eq_true, if_false, pure_run]

/-- The parse of a body adds to what was seen, and does not look at the connection. -/
theorem parseBody_run (T : Target) (headerSize len ret : Int) (body : CharVector)
    (fields : List Field) :
    ∃ code fields' seen', ∀ socket seen,
      parseBody T headerSize len ret true body ⟨socket, fields, seen⟩ =
        (code, ⟨socket, fields', seen ++ .body body.storage :: seen'⟩) := by
  rcases hmark : markAt T body with exit | mark
  · refine ⟨.error exit, fields, [], ?_⟩
    intro socket seen
    simp only [parseBody, see_bind, if_true, hmark, lift_error_bind]
  by_cases hbody : mark = BODY_MARK
  · subst hbody
    rcases hdecode : unserializeBodyPacket T (.ofBuffer body.storage (toSizeT headerSize)) fields len
      true with fault | ⟨code, s, fields'⟩
    · exact ⟨_, _, _, parseBody_fault ret hmark hdecode⟩
    · exact ⟨_, _, _, parseBody_ok ret hmark hdecode⟩
  · refine ⟨.ok ERR_DECODE_ERROE, fields, [], ?_⟩
    intro socket seen
    simp only [parseBody, see_bind, if_true, hmark, lift_ok_bind, ne_eq, hbody, not_false_iff,
      pure_run]

end ParseBody

section RecvBody

variable {robj fields fields₁ : List Field} {ret : Int} {n : Nat} {stream : List UInt8}

theorem recvBody_matched {T : Target} {headerSize len bodySize : Int} {parsePacket : Bool}
    {r r' : Receiver} (hmatch : matchMethod robj r = (.ok (ret, parsePacket), r')) :
    recvBody T headerSize len robj bodySize r =
      (readBuffer bodySize >>= parseBody T headerSize len ret parsePacket) r' :=
  bind_of_ok hmatch _

/-- A body in one piece is the one that was sent. -/
theorem recvBody_one (T : Target) (headerSize len : Int)
    (hmatch : ∀ socket seen, matchMethod robj ⟨socket, fields, seen⟩ =
      (.ok (ret, true), ⟨socket, fields₁, seen⟩)) (hn : n < 2 ^ 31) (hstream : n ≤ stream.length) :
    ∃ code fields' seen', ∀ sizes seen, OnePiece sizes n →
      recvBody T headerSize len robj n ⟨⟨stream, sizes⟩, fields, seen⟩ =
        (code, ⟨⟨stream.drop n, sizes.tail⟩, fields', seen ++ .body (stream.take n) :: seen'⟩) := by
  obtain ⟨w, hw, hread⟩ := readBuffer_one hn hstream
  obtain ⟨code, fields₂, seen', hparse⟩ := parseBody_run T headerSize len ret w fields₁
  refine ⟨code, fields₂, seen', ?_⟩
  intro sizes seen hone
  rw [recvBody_matched (hmatch _ seen), bind_of_ok (hread sizes fields₁ seen hone), hparse, hw]

/-- A body in more than one piece is not. -/
theorem recvBody_split (T : Target) (headerSize len : Int)
    (hmatch : ∀ socket seen, matchMethod robj ⟨socket, fields, seen⟩ =
      (.ok (ret, true), ⟨socket, fields₁, seen⟩)) (hn : n < 2 ^ 31) (hstream : n ≤ stream.length)
    {first : UInt8} (hfirst : stream[0]? = some first) (hne : first ≠ 0) {sizes : List Nat}
    (hsplit : ¬ OnePiece sizes n) (seen : List Seen) :
    ∃ body seen', body ≠ stream.take n ∧
      (recvBody T headerSize len robj n ⟨⟨stream, sizes⟩, fields, seen⟩).2.seen =
        seen ++ .body body :: seen' := by
  obtain ⟨w, sizes', hw, hread⟩ := readBuffer_split hn hstream hfirst hne hsplit fields₁ seen
  obtain ⟨code, fields₂, seen', hparse⟩ := parseBody_run T headerSize len ret w fields₁
  refine ⟨w.storage, seen', hw, ?_⟩
  rw [recvBody_matched (hmatch _ seen), bind_of_ok hread, hparse]

/-- A body that is not parsed leaves nothing but the connection changed, however it arrives. -/
theorem recvBody_unparsed (T : Target) (headerSize len : Int)
    (hmatch : ∀ socket seen, matchMethod robj ⟨socket, fields, seen⟩ =
      (.ok (ret, false), ⟨socket, fields₁, seen⟩)) (hn : n < 2 ^ 31) (hstream : n ≤ stream.length)
    {first : UInt8} (hfirst : stream[0]? = some first) (hne : first ≠ 0) (sizes : List Nat)
    (seen : List Seen) :
    ∃ socket, recvBody T headerSize len robj n ⟨⟨stream, sizes⟩, fields, seen⟩ =
      (.ok ret, ⟨socket, fields₁, seen⟩) := by
  have hread : ∃ w socket, readBuffer n ⟨⟨stream, sizes⟩, fields₁, seen⟩ =
      (.ok w, ⟨socket, fields₁, seen⟩) := by
    by_cases hone : OnePiece sizes n
    · obtain ⟨w, -, hread⟩ := readBuffer_one hn hstream
      exact ⟨w, _, hread sizes fields₁ seen hone⟩
    · obtain ⟨w, sizes', -, hread⟩ := readBuffer_split hn hstream hfirst hne hone fields₁ seen
      exact ⟨w, _, hread⟩
  obtain ⟨w, socket, hread⟩ := hread
  refine ⟨socket, ?_⟩
  rw [recvBody_matched (hmatch _ seen), bind_of_ok hread, parseBody_unparsed]

end RecvBody

/-! ### What was seen -/

/-- What a call has looked at stays recorded. -/
def Grows (r r' : Receiver) : Prop := r.seen <+: r'.seen

instance : Std.Refl Grows := ⟨fun _ => List.prefix_refl _⟩

instance : IsTrans Receiver Grows := ⟨fun _ _ _ h h' => h.trans h'⟩

theorem grows_setSocket (socket : Socket) : Keeps Grows (setSocket socket) :=
  fun _ => List.prefix_refl _

theorem grows_setFields (fields : List Field) : Keeps Grows (setFields fields) :=
  fun _ => List.prefix_refl _

theorem grows_see (e : Seen) : Keeps Grows (see e) := fun _ => List.prefix_append _ _

theorem grows_getSocket : Keeps Grows getSocket := fun _ => List.prefix_refl _

theorem grows_getFields : Keeps Grows getFields := fun _ => List.prefix_refl _

theorem grows_readBuffer (n : Int) : Keeps Grows (readBuffer n) :=
  .bind (.lift _) fun _ => .bind grows_getSocket fun _ => .bind (.lift _) fun _ =>
    .bind (grows_setSocket _) fun _ => .pure _

theorem grows_matchMethod (robj : List Field) : Keeps Grows (matchMethod robj) := by
  refine .bind (.lift _) fun _ => .bind grows_getFields fun _ => .bind (.lift _) fun _ =>
    .ite ?_ (.ite ?_ (.pure _))
  · exact .bind (.lift _) fun _ => .bind (grows_setFields _) fun _ => .pure _
  · exact .bind (.lift _) fun _ => .pure _

theorem grows_parseBody (T : Target) (headerSize len ret : Int) (parsePacket : Bool)
    (body : CharVector) : Keeps Grows (parseBody T headerSize len ret parsePacket body) := by
  refine .ite (.bind (grows_see _) fun _ => ?_) (.pure _)
  exact .bind (.lift _) fun _ => .ite (.pure _) (.bind (grows_see _) fun _ =>
    .bind grows_getFields fun _ => .bind (.lift _) fun _ => .bind (grows_setFields _) fun _ => .pure _)

theorem grows_recvBody (T : Target) (headerSize len : Int) (robj : List Field) (bodySize : Int) :
    Keeps Grows (recvBody T headerSize len robj bodySize) :=
  .bind (grows_matchMethod _) fun _ => .bind (grows_readBuffer _) fun _ => grows_parseBody _ _ _ _ _ _

/-- The header is the first thing a call looks at. -/
theorem parseHeader_seen (T : Target) (now headerSize len : Int) (header : CharVector)
    (r : Receiver) :
    r.seen ++ [.header header.storage] <+: (parseHeader T now headerSize len header r).2.seen := by
  rw [parseHeader, see_bind]
  refine Keeps.bind (R := Grows) (.lift _) (fun _ => .ite (.pure _) ?_)
    { r with seen := r.seen ++ [.header header.storage] }
  exact .bind (.lift _) fun _ => .ite (.pure _) (.bind (.lift _) fun _ => grows_recvBody _ _ _ _ _)

/-! ### A packet that was sent -/

namespace MsgTable

variable {t : MsgTable} {T T' : Target}

theorem Marked.take_headerWire (h : t.Marked) :
    ((t.sent T).headerWire T).take 4 = [0x11, 0x11, 0x11, 0x11] := by
  have hword : (t.sent T).hmark.scalarWire T .long =
      beBytes 4 (BitVec.ofInt 32 t.hmark.ivalue).toNat := rfl
  rw [headerWire, headerImage, List.append_assoc, hword, h.hmark]
  rfl

theorem Marked.take_bodyWire (h : t.Marked) :
    ((t.sent T).bodyWire T).take 4 = [0x22, 0x22, 0x22, 0x22] := by
  have hword : (t.sent T).bmark.scalarWire T .long =
      beBytes 4 (BitVec.ofInt 32 t.bmark.ivalue).toNat := rfl
  rw [bodyWire, bodyImage, List.append_assoc, hword, h.bmark]
  rfl

/-- On every host the first word of a header is its mark. -/
theorem Marked.markAt_header (h : t.Marked) {header : CharVector}
    (hheader : header.storage = (t.sent T).headerWire T) : markAt T' header = .ok HEAD_MARK := by
  rw [markAt, if_neg (by rw [hheader, length_headerWire]; decide), hheader, h.take_headerWire]
  cases T'.order <;> rfl

theorem Marked.markAt_body (h : t.Marked) {body : CharVector}
    (hbody : body.storage = (t.sent T).bodyWire T) : markAt T' body = .ok BODY_MARK := by
  have hsize := (t.sent T).length_bodyWire T
  have hlong := (t.sent T).bodySize_ge
  rw [markAt, if_neg (by rw [hbody]; omega), hbody, h.take_bodyWire]
  cases T'.order <;> rfl

end MsgTable

end Librtaio

import Librtaio.BodyTotality
import Librtaio.SessionSteps

/-!
# Whether a decoded body stays in its destinations

The body decoder never learns how large the memory is that an array's `data`
points to: it stores as many elements as the length before the array says and
the body still has. Everything stays in place exactly if these are no more than
the memory takes (`bodyStores`), whether assertions are compiled in or not and
whatever becomes of the checksum, which is only looked at afterwards.
-/

namespace Librtaio

open Bytes Exec Handler

/-! ### Reading past the end -/

/-- What is put together from a returned value fails only with the computation. -/
theorem ok_bind_eq_error {ε α β : Type} {x : Except ε α} {f : α → β} {e : ε} :
    (x >>= fun a => .ok (f a)) = .error e ↔ x = .error e := by
  cases x <;> simp

/-- The computation aborts or leaves a stream that is no longer good. -/
def Drained {α : Type} (stream : α → InputStream) (x : Except Fault α) : Prop :=
  x = .error .assertion ∨ ∃ r, x = .ok r ∧ (stream r).good = false

section Drained

variable {α β : Type} {stream : α → InputStream} {stream' : β → InputStream} {x : Except Fault α}

theorem Drained.ne_outOfBounds (h : Drained stream x) : x ≠ .error .outOfBounds := by
  rintro rfl
  rcases h with h | ⟨r, h, -⟩ <;> cases h

theorem Drained.bind (h : Drained stream x) {f : α → Except Fault β}
    (hf : ∀ r, (stream r).good = false → Drained stream' (f r)) : Drained stream' (x >>= f) := by
  rcases h with rfl | ⟨r, rfl, hbad⟩
  · exact .inl rfl
  · exact hf r hbad

theorem drained_ok {r : α} (hbad : (stream r).good = false) : Drained stream (.ok r) :=
  .inr ⟨r, rfl, hbad⟩

/-- Leaving with such a stream, or going on. -/
theorem Drained.leave {r : α} {c : Prop} [Decidable c] (h : Drained stream x)
    (hbad : (stream r).good = false) : Drained stream (if c then .ok r else x) := by
  split
  · exact drained_ok hbad
  · exact h

end Drained

namespace InputStream

variable {T : Target} {s : InputStream} {x : List UInt8}

theorem read_bad (hbad : s.good = false) (n : Int) : Drained (·.2.2) (s.read T x n) :=
  .inr ⟨(false, x, s), by simp [read, hbad], hbad⟩

/-- A read of more than is left stores what is left, if the destination takes it. -/
theorem read_beyond {n : Nat} (hgood : s.good = true) (hbeyond : s.beyond = 0)
    (hrest : s.rest.length < n) :
    if s.rest.length ≤ x.length then Drained (·.2.2) (s.read T x n)
    else s.read T x n = .error .outOfBounds := by
  have hneg : ¬ (n : Int) < 0 := by omega
  have hgot : s.rest.take n = s.rest := List.take_of_length_le hrest.le
  split
  · rename_i hx
    cases hdebug : T.ndebug with
    | false =>
      refine .inl ?_
      rw [read_short hdebug hgood hbeyond hrest, if_neg (Nat.not_lt.mpr hx)]
    | true =>
      refine .inr ⟨(false, s.rest ++ x.drop s.rest.length, { s.advance n with good := false }), ?_,
        rfl⟩
      simp [read, xsgetn, underflow, hgood, hneg, hbeyond, hgot, Nat.not_lt.mpr hx, hrest, hrest.ne,
        hdebug]
  · rename_i hx
    simp [read, xsgetn, hgood, hneg, hbeyond, hgot, Nat.not_le.mp hx]

/-- The stream has too few bytes for `n` of them. -/
def Short (s : InputStream) (n : Nat) : Prop :=
  s.good = true → s.beyond = 0 ∧ s.rest.length < n

theorem readWord_drained {w : Nat} {swap : BitVec (8 * w) → BitVec (8 * w)} (hshort : s.Short w)
    (v : BitVec (8 * w)) : Drained (·.2.2) (readWord T w swap s v) := by
  have hread : Drained (·.2.2) (s.read T (T.order.store w v.toNat) w) := by
    by_cases hgood : s.good = true
    · obtain ⟨hbeyond, hrest⟩ := hshort hgood
      have hlen := T.order.length_store w v.toNat
      have hbeyond := read_beyond (T := T) (x := T.order.store w v.toNat) hgood hbeyond hrest
      rwa [if_pos (by omega)] at hbeyond
    · exact read_bad (by simpa using hgood) _
  exact hread.bind fun r hbad => drained_ok hbad

theorem readArray_drained {size count : Nat} (hbytes : size * count < 2 ^ 63)
    (hshort : s.Short (size * count)) (hx : s.good = true → s.rest.length ≤ x.length) :
    Drained (·.2.2) (s.readArray T x size count) := by
  have hread : Drained (·.2.2) (s.read T x (size * count : Nat)) := by
    by_cases hgood : s.good = true
    · obtain ⟨hbeyond, hrest⟩ := hshort hgood
      have hbeyond := read_beyond (T := T) (x := x) hgood hbeyond hrest
      rwa [if_pos (hx hgood)] at hbeyond
    · exact read_bad (by simpa using hgood) _
  simp only [readArray, toInt_bytes hbytes]
  refine hread.bind fun r hbad => ?_
  split
  · exact drained_ok hbad
  · exact drained_ok hbad

/-- An array read that stores what there is beyond the end of the destination. -/
theorem readArray_overrun {size count : Nat} (hbytes : size * count < 2 ^ 63)
    (hgood : s.good = true) (hbeyond : s.beyond = 0)
    (hx : x.length < min (size * count) s.rest.length) :
    s.readArray T x size count = .error .outOfBounds := by
  simp only [readArray, toInt_bytes hbytes]
  by_cases hrest : size * count ≤ s.rest.length
  · rw [read_overrun hgood hrest (by omega), error_bind]
  · have hread := read_beyond (T := T) (x := x) hgood hbeyond (Nat.lt_of_not_le hrest)
    rw [if_neg (by omega)] at hread
    rw [hread, error_bind]

end InputStream

section Entries

variable {T : Target} {s : InputStream} {v : Locals} {p : Field} {ty : DataType}
  {memory : List UInt8} {cnt : Int}

theorem getScalar_drained (hp : p.IsScalar ty) (hshort : s.Short ty.width) (v : Locals) :
    Drained (·.1) (getScalar T s v p) := by
  rw [getScalar, hp.ofCode]
  cases ty
  · exact (InputStream.readWord_drained (w := 1) hshort _).bind fun _ hbad => drained_ok hbad
  · exact (InputStream.readWord_drained (w := 1) hshort _).bind fun _ hbad => drained_ok hbad
  · exact (InputStream.readWord_drained (w := 2) hshort _).bind fun _ hbad => drained_ok hbad
  · exact (InputStream.readWord_drained (w := 4) hshort _).bind fun _ hbad => drained_ok hbad
  · exact (InputStream.readWord_drained (w := 8) hshort _).bind fun _ hbad => drained_ok hbad
  · exact (InputStream.readWord_drained (w := 4) hshort _).bind fun _ hbad => drained_ok hbad
  · exact (InputStream.readWord_drained (w := 8) hshort _).bind fun _ hbad => drained_ok hbad

theorem unserializeField_drained (prev : Option Field) (hp : p.IsScalar ty)
    (hshort : s.Short ty.width) (v : Locals) :
    Drained (·.2.1) (unserializeField T cnt prev v s p) := by
  simp only [unserializeField, hp.data]
  exact (getScalar_drained hp hshort v).bind fun _ hbad => drained_ok hbad

/-- Once the stream is not good, no entry stores anything. -/
theorem unserializeField_bad (h : PeerEntry p) (hbad : s.good = false) (prev : Field) (v : Locals) :
    Drained (·.2.1) (unserializeField T cnt (some prev) v s p) := by
  cases h with
  | scalar ty hp => exact unserializeField_drained _ hp (fun hgood => by simp [hbad] at hgood) v
  | array ty memory hp hcount =>
    simp only [unserializeField, hp.data, hcount, if_neg (show ¬ (-1 : Int) ≥ 0 by decide), if_true]
    split
    · exact drained_ok hbad
    · split
      · exact drained_ok hbad
      · split
        · rename_i hpos
          have hn : toInt32 prev.ivalue < 2 ^ 31 := BitVec.toInt_lt
          rw [hp.type, getArray_eq hpos.le hn]
          have hread := InputStream.readArray_drained (T := T) (x := memory)
            (elemWidth_mul_lt ty hpos.le hn) (s := s) (fun hgood => by simp [hbad] at hgood)
            (fun hgood => by simp [hbad] at hgood)
          exact hread.bind fun _ hbad => drained_ok hbad
        · exact drained_ok hbad

section Array

variable {prev : Field} (hp : p.IsArray ty memory) (hcount : p.count = -1) (hprev : prev.IsLength)
  (hlen : toInt32 prev.ivalue = prev.ivalue) (hlt : prev.ivalue < 2 ^ 31)
  (hbeyond : s.beyond = 0)

include hp hcount hprev hlen hlt

/-- An array of at least one element is read by `read_array`. -/
theorem unserializeField_readArray (hpos : prev.ivalue > 0) (v : Locals) :
    unserializeField T cnt (some prev) v s p =
      s.readArray T memory ty.elemWidth prev.ivalue.toNat >>= fun r =>
        .ok (none, r.2.2, v, { p with data := some r.2.1 }) := by
  have htype : ¬ (prev.type ≠ TYPE_SHORT ∧ prev.type ≠ TYPE_LONG) := by
    rcases hprev.type with h | h <;> simp [h]
  rw [← getArray_eq hpos.le hlt, ← hp.type]
  simp only [unserializeField, hp.data, if_neg (show ¬ p.count ≥ 0 by omega), if_neg htype,
    if_pos hcount, hprev.data, ne_eq, not_true, if_false, hlen, if_pos hpos]

include hbeyond

theorem unserializeField_beyond (hrest : s.rest.length < ty.elemWidth * prev.ivalue.toNat)
    (hroom : s.rest.length ≤ memory.length) (v : Locals) :
    Drained (·.2.1) (unserializeField T cnt (some prev) v s p) := by
  have hpos : prev.ivalue > 0 := by
    by_contra hle
    rw [show prev.ivalue.toNat = 0 by omega, Nat.mul_zero] at hrest
    omega
  rw [unserializeField_readArray hp hcount hprev hlen hlt hpos]
  exact (InputStream.readArray_drained (elemWidth_mul_lt ty hpos.le hlt) (fun _ => ⟨hbeyond, hrest⟩)
    fun _ => hroom).bind fun _ hbad => drained_ok hbad

theorem unserializeField_outOfBounds (hgood : s.good = true)
    (hroom : memory.length < min (ty.elemWidth * prev.ivalue.toNat) s.rest.length) (v : Locals) :
    unserializeField T cnt (some prev) v s p = .error .outOfBounds := by
  have hpos : prev.ivalue > 0 := by
    by_contra hle
    rw [show prev.ivalue.toNat = 0 by omega, Nat.mul_zero] at hroom
    omega
  rw [unserializeField_readArray hp hcount hprev hlen hlt hpos,
    InputStream.readArray_overrun (elemWidth_mul_lt ty hpos.le hlt) hgood hbeyond hroom, error_bind]

end Array

end Entries

/-! ### The elements a body stores -/

/-- The elements that the body `bs` has for its arrays are no more than their memory takes,
up to where the body ends or an array has no length before it. -/
def bodyStores : Field → List Field → List UInt8 → Bool
  | _, [], _ => true
  | prev, p :: es, bs =>
    match DataType.ofCode p.type, p.data with
    | none, _ => true
    | some ty, none =>
      if ty.width ≤ bs.length then
        bodyStores (p.scalarRead ty (bs.take ty.width)) es (bs.drop ty.width)
      else true
    | some ty, some memory =>
      if prev.IsLength then
        let size := ty.elemWidth * prev.ivalue.toNat
        min size bs.length ≤ memory.length &&
          (if size ≤ bs.length then bodyStores p es (bs.drop size) else true)
      else true

section Loop

variable {T : Target} {len : Int} {compareCrc : Bool} {cnt : Int} {base : Nat} {n : Nat}
  {crc : BitVec 32} {v : Locals} {s : InputStream} {p terminator : Field} {es rest : List Field}

theorem unserializeBodyLoop_drained {prev : Option Field} (htype : 0 ≤ p.type)
    (hfield : Drained (·.2.1) (unserializeField T cnt prev v s p))
    (hrest : ∀ crc v prev s, s.good = false →
      Drained (·.2.1) (unserializeBodyLoop T len compareCrc cnt base (n + 1) crc v (some prev) s rest)) :
    Drained (·.2.1)
      (unserializeBodyLoop T len compareCrc cnt base n crc v prev s (p :: rest)) := by
  rw [unserializeBodyLoop, if_neg (by omega)]
  refine hfield.bind ?_
  rintro ⟨ret, s', v', p'⟩ hbad
  cases ret with
  | some code => exact drained_ok hbad
  | none =>
    refine Drained.leave ?_ hbad
    exact (hrest _ _ _ _ hbad).bind fun _ hbad => drained_ok hbad

variable {bcrc : Field} (hbcrc : bcrc.IsScalar .llong) (hterm : terminator.type < 0)

include hbcrc hterm

/-- The checksum is not there to be read. -/
theorem unserializeBodyLoop_noCrc (hshort : s.Short DataType.llong.width) (prev : Field) :
    Drained (·.2.1)
      (unserializeBodyLoop T len compareCrc cnt base n crc v (some prev) s [bcrc, terminator]) := by
  refine unserializeBodyLoop_drained hbcrc.type_nonneg (unserializeField_drained _ hbcrc hshort v) ?_
  intro crc v prev s hbad
  rw [unserializeBodyLoop, if_pos hterm]
  exact drained_ok hbad

theorem unserializeBodyLoop_bad (hes : ∀ p ∈ es, PeerEntry p) (prev : Field)
    (hbad : s.good = false) :
    Drained (·.2.1) (unserializeBodyLoop T len compareCrc cnt base n crc v (some prev) s
      (es ++ [bcrc, terminator])) := by
  induction es generalizing n crc v prev s with
  | nil => exact unserializeBodyLoop_noCrc hbcrc hterm (fun hgood => by simp [hbad] at hgood) prev
  | cons p es ih =>
    rw [List.forall_mem_cons] at hes
    exact unserializeBodyLoop_drained hes.1.type_nonneg (unserializeField_bad hes.1 hbad prev v)
      fun _ _ prev _ hbad => ih hes.2 prev hbad

/-- **A run of entries.** The decoder stores beyond the end of some array exactly if the
body has more elements for one than its memory takes. -/
theorem unserializeBodyLoop_inRange_iff (hes : ∀ p ∈ es, PeerEntry p) {prev prev' : Field}
    (hprev : SamePrev prev prev') (hint : IntLength prev) (hlen : (n : Int) + es.length = len - 1)
    (hgood : s.good = true) (hbeyond : s.beyond = 0) :
    unserializeBodyLoop T len compareCrc cnt base n crc v (some prev') s (es ++ [bcrc, terminator]) ≠
      .error .outOfBounds ↔ bodyStores prev es s.rest = true := by
  induction es generalizing n prev prev' s v with
  | nil =>
    have hn : (n : Int) = len - 1 := by simpa using hlen
    simp only [bodyStores, iff_true, List.nil_append]
    by_cases hrest : 8 ≤ s.rest.length
    · rw [unserializeBodyLoop_bcrc v hbcrc hn hterm hgood hrest]
      simp
    · exact (unserializeBodyLoop_noCrc hbcrc hterm
        (fun _ => ⟨hbeyond, Nat.lt_of_not_le hrest⟩) prev').ne_outOfBounds
  | cons p es ih =>
    have hp := hes p (by simp)
    have htype := hp.type_nonneg
    rw [List.forall_mem_cons] at hes
    rw [List.length_cons] at hlen
    have hn : (n : Int) ≠ len - 1 := by omega
    rw [List.cons_append]
    have hstep {s' : InputStream} {v' : Locals} {p' : Field}
        (hread : unserializeField T cnt (some prev') v s p = .ok (none, s', v', p')) :
        unserializeBodyLoop T len compareCrc cnt base n crc v (some prev') s
            (p :: (es ++ [bcrc, terminator])) ≠ .error .outOfBounds ↔
          unserializeBodyLoop T len compareCrc cnt base (n + 1) crc v' (some p') s'
            (es ++ [bcrc, terminator]) ≠ .error .outOfBounds := by
      rw [unserializeBodyLoop_step htype hn hread, ne_eq, ok_bind_eq_error]
    have hdrained (hfield : Drained (·.2.1) (unserializeField T cnt (some prev') v s p)) :
        unserializeBodyLoop T len compareCrc cnt base n crc v (some prev') s
          (p :: (es ++ [bcrc, terminator])) ≠ .error .outOfBounds :=
      (unserializeBodyLoop_drained htype hfield fun _ _ prev _ hbad =>
        unserializeBodyLoop_bad hbcrc hterm hes.2 prev hbad).ne_outOfBounds
    cases hp with
    | scalar ty hp =>
      simp only [bodyStores, hp.ofCode, hp.data]
      by_cases hrest : ty.width ≤ s.rest.length
      · obtain ⟨v', hread⟩ := unserializeField_scalar (T := T) cnt (some prev') v hp hgood hrest
        rw [if_pos hrest, hstep hread]
        exact ih hes.2 (s := s.advance ty.width) (.inl rfl) (intLength_scalarRead hp _) (by omega)
          hgood hbeyond
      · simp only [if_neg hrest, iff_true]
        exact hdrained (unserializeField_drained _ hp
          (fun _ => ⟨hbeyond, Nat.lt_of_not_le hrest⟩) v)
    | array ty memory hp hcount =>
      have hcode : DataType.ofCode p.type = some ty := by rw [hp.type, DataType.ofCode_code]
      simp only [bodyStores, hcode, hp.data]
      by_cases hlength : prev.IsLength
      · -- the length before the array is the one that was read
        obtain rfl : prev' = prev := hprev.resolve_right fun h => h.1 hlength.data
        obtain ⟨hint32, hlt⟩ := hint hlength
        simp only [if_pos hlength, Bool.and_eq_true, decide_eq_true_eq]
        by_cases hroom : min (ty.elemWidth * prev'.ivalue.toNat) s.rest.length ≤ memory.length
        · simp only [hroom, true_and]
          by_cases hrest : ty.elemWidth * prev'.ivalue.toNat ≤ s.rest.length
          · have hread := unserializeField_prefixed (T := T) cnt v hp hcount hlength hint32 hlt hgood
              hrest (by omega)
            have hsome : p.data ≠ none := by simp [hp.data]
            rw [if_pos hrest, hstep hread]
            exact ih hes.2 (s := s.advance (ty.elemWidth * prev'.ivalue.toNat))
              (.inr ⟨hsome, by simp [Field.arrayRead]⟩) (fun h => absurd h.data hsome) (by omega)
              hgood hbeyond
          · simp only [if_neg hrest, iff_true]
            exact hdrained (unserializeField_beyond hp hcount hlength hint32 hlt hbeyond
              (Nat.lt_of_not_le hrest) (by omega) v)
        · simp only [hroom, false_and, iff_false, not_not]
          have hover : unserializeField T cnt (some prev') v s p = .error .outOfBounds :=
            unserializeField_outOfBounds hp hcount hlength hint32 hlt hbeyond hgood (by omega) v
          rw [unserializeBodyLoop, if_neg (by omega), hover, error_bind]
      · have hno : ¬ (prev'.type = TYPE_SHORT ∨ prev'.type = TYPE_LONG) ∨ prev'.data ≠ none := by
          rcases hprev with rfl | h
          · by_contra hboth
            push Not at hboth
            exact hlength (hboth.1.imp (⟨·, hboth.2⟩) (⟨·, hboth.2⟩))
          · exact .inr h.2
        simp only [if_neg hlength, iff_true]
        rw [unserializeBodyLoop, if_neg (by omega), unserializeField_noLength cnt v hp hcount hno]
        simp

end Loop

/-- The body decoder, after whatever header was copied into its table. -/
theorem unserializeBodyPacket_inRange_iff (T : Target) (compareCrc : Bool) {s : InputStream}
    {fields es : List Field} {bmark bcrc terminator : Field}
    (hlength : FIELD_BMARK ≤ fields.length) (hbmark : bmark.IsScalar .long)
    (hes : ∀ p ∈ es, PeerEntry p) (hbcrc : bcrc.IsScalar .llong) (hterm : terminator.type < 0)
    (hdrop : fields.drop FIELD_BMARK = bmark :: es ++ [bcrc, terminator]) (hgood : s.good = true)
    (hbeyond : s.beyond = 0) :
    unserializeBodyPacket T s fields (fieldsLen fields) compareCrc ≠ .error .outOfBounds ↔
      bodyStores bmark (bmark :: es) s.rest = true := by
  have hlen : ((FIELD_BMARK + 1 : Nat) : Int) + es.length = fieldsLen fields - 1 := by
    have htotal := congrArg List.length hdrop
    simp only [List.length_drop, List.length_append, List.length_cons, List.length_nil] at htotal
    rw [fieldsLen]
    omega
  have hcount : ∃ count, fieldAt fields FIELD_COUNT = .ok count := by
    rw [fieldAt, List.getElem?_eq_getElem (show FIELD_COUNT < fields.length by
      simp only [FIELD_COUNT, FIELD_BMARK] at hlength ⊢; omega)]
    exact ⟨_, rfl⟩
  obtain ⟨count, hcount⟩ := hcount
  have hpacket : unserializeBodyPacket T s fields (fieldsLen fields) compareCrc ≠
      .error .outOfBounds ↔ unserializeBodyLoop T (fieldsLen fields) compareCrc
        (toInt32 count.ivalue) s.consumed.length FIELD_BMARK 0 .zero fields[FIELD_BMARK - 1]? s
        (bmark :: (es ++ [bcrc, terminator])) ≠ .error .outOfBounds := by
    rw [unserializeBodyPacket, hcount, ok_bind, hdrop, List.cons_append, ne_eq, ok_bind_eq_error]
  rw [hpacket]
  simp only [bodyStores, hbmark.ofCode, hbmark.data]
  by_cases hrest : DataType.width .long ≤ s.rest.length
  · obtain ⟨v', hread⟩ := unserializeField_scalar (T := T) (toInt32 count.ivalue)
      fields[FIELD_BMARK - 1]? .zero hbmark hgood hrest
    rw [if_pos hrest, unserializeBodyLoop_step hbmark.type_nonneg (by omega) hread, ne_eq,
      ok_bind_eq_error]
    exact unserializeBodyLoop_inRange_iff hbcrc hterm hes (.inl rfl) (intLength_scalarRead hbmark _)
      hlen hgood hbeyond
  · simp only [if_neg hrest, iff_true]
    exact (unserializeBodyLoop_drained hbmark.type_nonneg (unserializeField_drained _ hbmark
      (fun _ => ⟨hbeyond, Nat.lt_of_not_le hrest⟩) _) fun _ _ prev _ hbad =>
        unserializeBodyLoop_bad hbcrc hterm hes prev hbad).ne_outOfBounds

/-! ### The names of a connect request -/

/-- The number of elements that the length at the front of `bs` announces. -/
def announcedLength (bs : List UInt8) : Nat :=
  (BitVec.ofNat 16 (ofBeBytes (bs.take 2))).toInt.toNat

/-- The number of them that are there. -/
def presentLength (bs : List UInt8) : Nat := min (announcedLength bs) (bs.length - 2)

/-- Neither of the two names in the body has more than 1024 elements. -/
def NamesFit (body : List UInt8) : Prop :=
  presentLength (body.drop 4) ≤ 1024 ∧
    presentLength (body.drop (6 + announcedLength (body.drop 4))) ≤ 1024

instance (body : List UInt8) : Decidable (NamesFit body) := inferInstanceAs (Decidable (_ ∧ _))

theorem bodyStores_name {prev p a : Field} {es : List Field} {memory : List UInt8}
    (hp : p.IsScalar .short) (ha : a.IsArray .char memory) (bs : List UInt8) :
    bodyStores prev (p :: a :: es) bs = true ↔ presentLength bs ≤ memory.length ∧
      (2 + announcedLength bs ≤ bs.length →
        bodyStores a es (bs.drop (2 + announcedLength bs)) = true) := by
  have hcode : DataType.ofCode a.type = some .char := by rw [ha.type, DataType.ofCode_code]
  have hlength : (p.scalarRead .short (bs.take 2)).IsLength := .inl (hp.scalarRead _)
  have hvalue : (p.scalarRead .short (bs.take 2)).ivalue.toNat = announcedLength bs := rfl
  simp only [bodyStores, hp.ofCode, hp.data, hcode, ha.data, DataType.width, if_pos hlength, hvalue,
    DataType.elemWidth, Nat.one_mul, List.length_drop, List.drop_drop]
  by_cases htwo : 2 ≤ bs.length
  · rw [if_pos htwo, Bool.and_eq_true, decide_eq_true_eq, presentLength]
    refine and_congr_right fun _ => ?_
    by_cases hall : announcedLength bs ≤ bs.length - 2
    · simp only [if_pos hall, show 2 + announcedLength bs ≤ bs.length by omega, forall_const]
    · simp only [if_neg hall, show ¬ 2 + announcedLength bs ≤ bs.length by omega, false_implies]
  · simp only [if_neg htwo, true_iff, presentLength]
    exact ⟨by omega, fun hall => by omega⟩

namespace PeerTable

theorem bodyStores_connect_iff (now : Int) (body : List UInt8) :
    bodyStores (connect now nameBuffer nameBuffer).bmark
      ((connect now nameBuffer nameBuffer).bmark :: (connect now nameBuffer nameBuffer).body) body =
        true ↔ NamesFit body := by
  have hlength : nameBuffer.length = 1024 := List.length_replicate
  have hshort (z : Int) : (scalarField .short z).IsScalar .short := ⟨rfl, rfl⟩
  have harray : (⟨DataType.char.code, 0, 0, some nameBuffer, -1⟩ : Field).IsArray .char nameBuffer :=
    ⟨rfl, rfl⟩
  have hbmark : (connect now nameBuffer nameBuffer).bmark.IsScalar .long := MsgTable.long_bmark
  have hnames (prev : Field) (bs : List UInt8) :
      bodyStores prev (connect now nameBuffer nameBuffer).body bs = true ↔
        presentLength bs ≤ 1024 ∧ (2 + announcedLength bs ≤ bs.length →
          presentLength (bs.drop (2 + announcedLength bs)) ≤ 1024) := by
    rw [← hlength, connect, bodyStores_name (hshort _) harray, bodyStores_name (hshort _) harray]
    simp only [bodyStores, implies_true, and_true]
  have hnext : (body.drop 4).drop (2 + announcedLength (body.drop 4)) =
      body.drop (6 + announcedLength (body.drop 4)) := by
    rw [List.drop_drop]
    congr 1
    omega
  have hnone {bs : List UInt8} (hbs : bs.length ≤ 2) : presentLength bs = 0 := by
    rw [presentLength]
    omega
  rw [bodyStores, NamesFit]
  simp only [hbmark.ofCode, hbmark.data]
  by_cases hmark : DataType.width .long ≤ body.length
  · rw [if_pos hmark, hnames]
    change 4 ≤ body.length at hmark
    change presentLength (body.drop 4) ≤ 1024 ∧ (2 + announcedLength (body.drop 4) ≤
      (body.drop 4).length →
        presentLength ((body.drop 4).drop (2 + announcedLength (body.drop 4))) ≤ 1024) ↔ _
    rw [hnext, List.length_drop]
    refine and_congr_right fun _ => ⟨fun h => ?_, fun h _ => h⟩
    by_cases hall : 2 + announcedLength (body.drop 4) ≤ body.length - 4
    · exact h hall
    · -- a name that is not all there is the last one
      rw [hnone (by rw [List.length_drop]; omega)]
      exact Nat.zero_le _
  · change ¬ 4 ≤ body.length at hmark
    simp only [if_neg (show ¬ DataType.width .long ≤ body.length from hmark), true_iff]
    rw [hnone (by rw [List.length_drop]; omega), hnone (by rw [List.length_drop]; omega)]
    exact ⟨Nat.zero_le _, Nat.zero_le _⟩

end PeerTable

/-! ### The session -/

namespace Session

/-- The receive buffer holds the body that the header announced. -/
structure HoldsBody (s : Session) (body : List UInt8) : Prop where
  bsize : s.headerInt FIELD_BSIZE = body.length
  memory : s.memory.take body.length = body

section

variable {T : Target} {env : Env} {f : Frame} {body : List UInt8}

theorem msgConnect_outOfBounds_iff (hready : f.session.Ready) :
    (msgConnect T env f).1 = .error (.fault .outOfBounds) ↔
      f.session.decodeBody T (msgConnectFields env.now nameBuffer nameBuffer) =
        .error .outOfBounds := by
  have hread := readPacketBody_run (T := T) hready (msgConnectFields env.now nameBuffer nameBuffer)
    (by simp [msgConnectFields, msgHeader, msgTail, FIELD_BMARK])
  rw [msgConnect]
  cases hdecode : f.session.decodeBody T (msgConnectFields env.now nameBuffer nameBuffer) with
  | error fault =>
    rw [hdecode] at hread
    rw [bind_of_error hread]
    simp
  | ok r =>
    obtain ⟨code, fields⟩ := r
    rw [hdecode] at hread
    rw [bind_of_ok hread]
    by_cases hcode : code = ERR_OK
    · obtain ⟨packet, hsend, -⟩ := sendPacket_run (T := T) env.now
        (f := { f with events := f.events ++ [f.session.bodyWindow] ++
          [.connected (dataAt fields 9) (dataAt fields 11)] })
      simp only [ne_eq, hcode, not_true, if_false, emit_bind]
      rw [hsend]
      simp
    · simp [hcode]

theorem HoldsBody.decodeBody_inRange_iff (hbody : f.session.HoldsBody body)
    (hready : f.session.Ready) :
    f.session.decodeBody T (msgConnectFields env.now nameBuffer nameBuffer) ≠ .error .outOfBounds ↔
      NamesFit body := by
  have hfields : FIELD_BMARK ≤ (msgConnectFields env.now nameBuffer nameBuffer).length := by
    simp [msgConnectFields, msgHeader, msgTail, FIELD_BMARK]
  obtain ⟨n, copied, hcopy, hlength, hdrop⟩ :=
    copyFields_returns (show FIELD_BMARK ≤ f.session.packetHeader.length by
      rw [hready.packetHeader]; decide) hfields
  have hlen : fieldsLen (msgConnectFields env.now nameBuffer nameBuffer) = fieldsLen copied := by
    rw [fieldsLen, fieldsLen, hlength]
  have hlt : (body.length : Int) < 2 ^ 31 := by
    rw [← hbody.bsize]
    exact BitVec.toInt_lt
  have hsize : toSizeT (f.session.headerInt FIELD_BSIZE) = body.length := by
    rw [hbody.bsize, toSizeT_eq (by omega) hlt, Int.toNat_natCast]
  have hroom : body.length ≤ f.session.memory.length := by
    have htake := congrArg List.length hbody.memory
    rw [List.length_take] at htake
    omega
  have hrest : (InputStream.ofBuffer f.session.memory body.length).rest = body := hbody.memory
  have hpacket := unserializeBodyPacket_inRange_iff T true
    (s := .ofBuffer f.session.memory body.length) (by rw [hlength]; exact hfields)
    MsgTable.long_bmark (PeerTable.connect env.now nameBuffer nameBuffer).body_entries
    MsgTable.llong_crc MsgTable.neg_terminator hdrop rfl (Nat.sub_eq_zero_of_le hroom)
  rw [hrest] at hpacket
  rw [← PeerTable.bodyStores_connect_iff env.now body, decodeBody, hcopy, ok_bind, hsize, hlen, ne_eq,
    ok_bind_eq_error]
  exact hpacket

/-- **A decoded connect request fits the two name buffers** exactly if neither name has more
elements in the body than they take. -/
theorem msgConnect_inRange_iff (hready : f.session.Ready) (hbody : f.session.HoldsBody body) :
    (msgConnect T env f).1 ≠ .error (.fault .outOfBounds) ↔ NamesFit body := by
  rw [← hbody.decodeBody_inRange_iff hready, ne_eq, msgConnect_outOfBounds_iff hready]

end

/-- A session that has received a connect request's body. -/
def holding (body : List UInt8) : Session :=
  ⟨32, setIvalue (msgCommonReqFields 0 MSG_CONNECT) FIELD_BSIZE body.length,
    ⟨body, body.length, Nat.le_refl body.length⟩, .empty⟩

theorem holding_ready {body : List UInt8} (h : 32 ≤ body.length) : (holding body).Ready :=
  ⟨rfl, by simp [holding, setIvalue, msgCommonReqFields, msgHeader, msgTail, FIELD_BMARK], h⟩

theorem holding_body {body : List UInt8} (h : (body.length : Int) < 2 ^ 31) :
    (holding body).HoldsBody body :=
  ⟨toInt32_eq (z := body.length) (by omega) h, List.take_length⟩

/-- Two names of one character. -/
theorem msgConnect_shortNames :
    (msgConnect (.build .little) ⟨0, true⟩ (.init (holding
      ([0x22, 0x22, 0x22, 0x22, 0, 2, 0x61, 0, 0, 2, 0x62, 0] ++ List.replicate 20 0)))).1 ≠
        .error (.fault .outOfBounds) :=
  (msgConnect_inRange_iff (holding_ready (by decide)) (holding_body (by decide))).mpr (by decide)

/-- The body of a request whose first name has 1025 elements. -/
def longName : List UInt8 := [0x22, 0x22, 0x22, 0x22, 0x04, 0x01] ++ List.replicate 1025 0x61

/-- It is stored beyond the end of `clientname`. -/
theorem msgConnect_longName :
    (holding longName).Ready ∧ (holding longName).HoldsBody longName ∧
      (msgConnect (.build .little) ⟨0, true⟩ (.init (holding longName))).1 =
        .error (.fault .outOfBounds) := by
  have hlength : longName.length = 1031 := by
    rw [longName, List.length_append, List.length_replicate]
    rfl
  have hready : (holding longName).Ready := holding_ready (by omega)
  have hbody : (holding longName).HoldsBody longName := holding_body (by omega)
  have hannounced : announcedLength (longName.drop 4) = 1025 := rfl
  have hpresent : presentLength (longName.drop 4) = 1025 := by
    rw [presentLength, hannounced, List.length_drop, hlength]
    rfl
  refine ⟨hready, hbody, (msgConnect_outOfBounds_iff hready).mpr ?_⟩
  by_contra hdecode
  have hfit := (hbody.decodeBody_inRange_iff (f := .init (holding longName)) hready).mp hdecode
  rw [NamesFit, hpresent] at hfit
  omega

end Session

end Librtaio

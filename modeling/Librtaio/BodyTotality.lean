import Librtaio.UnserializeSpec

/-!
# When the body decoder returns

`unserialize_body_packet` never looks at the stream's state, so with assertions
it returns exactly when the layout that the table and the body's own lengths
describe ends within the body (`bodyFits`). The bytes come from a peer: a body
of nothing but its mark aborts the server, while the header decoder checks the
stream after every entry.
-/

namespace Librtaio

open Bytes

/-! ### The layout a body describes -/

/-- A body entry whose length, if it is an array, comes from the entry before. -/
inductive PeerEntry (p : Field) : Prop where
  | scalar (ty : DataType) (hp : p.IsScalar ty)
  | array (ty : DataType) (memory : List UInt8) (hp : p.IsArray ty memory) (hcount : p.count = -1)

theorem PeerEntry.type_nonneg {p : Field} (h : PeerEntry p) : 0 ≤ p.type := by
  cases h with
  | scalar ty hp => exact hp.type_nonneg
  | array ty memory hp => exact hp.type_nonneg

instance (p : Field) : Decidable p.IsLength :=
  decidable_of_iff ((p.type = TYPE_SHORT ∨ p.type = TYPE_LONG) ∧ p.data = none)
    ⟨fun h => h.1.imp (⟨·, h.2⟩) (⟨·, h.2⟩), fun h => ⟨h.type, h.data⟩⟩

/-- The entries and the checksum after them end within `bs`, with every array's elements in
its own memory; an array without a length before it ends the layout. -/
def bodyFits : Field → List Field → List UInt8 → Bool
  | _, [], bs => 8 ≤ bs.length
  | prev, p :: es, bs =>
    match DataType.ofCode p.type, p.data with
    | none, _ => false
    | some ty, none =>
      ty.width ≤ bs.length && bodyFits (p.scalarRead ty (bs.take ty.width)) es (bs.drop ty.width)
    | some ty, some memory =>
      if prev.IsLength then
        let size := ty.elemWidth * prev.ivalue.toNat
        size ≤ bs.length && size ≤ memory.length && bodyFits p es (bs.drop size)
      else true

/-! ### The decoder returns exactly then -/

/-- What is put together from a returned value is returned. -/
theorem exists_ok_bind {ε α β : Type} {x : Except ε α} {f : α → β} :
    (∃ r, (x >>= fun a => .ok (f a)) = .ok r) ↔ ∃ r, x = .ok r := by
  cases x with
  | ok a => exact ⟨fun _ => ⟨a, rfl⟩, fun _ => ⟨f a, rfl⟩⟩
  | error e => constructor <;> (rintro ⟨_, h⟩; cases h)

/-- A length that was read is an `int`. -/
theorem toInt32_scalarRead {p : Field} {ty : DataType} (bs : List UInt8)
    (h : ty = .short ∨ ty = .long) :
    toInt32 (p.scalarRead ty bs).ivalue = (p.scalarRead ty bs).ivalue ∧
      (p.scalarRead ty bs).ivalue < 2 ^ 31 := by
  have hrange : -2 ^ 31 ≤ (p.scalarRead ty bs).ivalue ∧ (p.scalarRead ty bs).ivalue < 2 ^ 31 := by
    rcases h with rfl | rfl
    · have hlo := BitVec.le_toInt (BitVec.ofNat 16 (ofBeBytes bs))
      have hhi := BitVec.toInt_lt (x := BitVec.ofNat 16 (ofBeBytes bs))
      simp only [Field.scalarRead]
      omega
    · exact ⟨BitVec.le_toInt _, BitVec.toInt_lt⟩
  exact ⟨toInt32_eq hrange.1 hrange.2, hrange.2⟩

/-- What the decoder needs to know of the entry before: it is the one the layout was read
with, or both are arrays. -/
def SamePrev (prev prev' : Field) : Prop := prev' = prev ∨ prev.data ≠ none ∧ prev'.data ≠ none

/-- A length the layout was read with is an `int`. -/
def IntLength (prev : Field) : Prop :=
  prev.IsLength → toInt32 prev.ivalue = prev.ivalue ∧ prev.ivalue < 2 ^ 31

theorem intLength_scalarRead {p : Field} {ty : DataType} (hp : p.IsScalar ty) (bs : List UInt8) :
    IntLength (p.scalarRead ty bs) := by
  intro h
  refine toInt32_scalarRead bs ?_
  rcases h with h | h
  · exact .inl (DataType.code_injective ((hp.scalarRead bs).type.symm.trans h.type))
  · exact .inr (DataType.code_injective ((hp.scalarRead bs).type.symm.trans h.type))

section Loop

variable {T : Target} {len : Int} {compareCrc : Bool} {cnt : Int} {base n : Nat} {crc : BitVec 32}
  {s : InputStream} {bcrc terminator : Field}

theorem unserializeBodyLoop_fault {prev : Option Field} {v : Locals} {p : Field}
    {rest : List Field} {fault : Fault} (htype : 0 ≤ p.type)
    (hfield : unserializeField T cnt prev v s p = .error fault) :
    ¬ ∃ r, unserializeBodyLoop T len compareCrc cnt base n crc v prev s (p :: rest) = .ok r := by
  rintro ⟨r, hr⟩
  rw [unserializeBodyLoop, if_neg (by omega), hfield] at hr
  cases hr

/-- What the decoder does at an entry, and what the layout says of it. -/
inductive AtEntry (T : Target) (cnt : Int) (prev prev' : Field) (v : Locals) (s : InputStream)
    (p : Field) : Prop where
  | read (size : Nat) (v' : Locals) (next next' : Field)
      (hread : unserializeField T cnt (some prev') v s p = .ok (none, s.advance size, v', next'))
      (hnext : SamePrev next next') (hint : IntLength next)
      (hfits : ∀ es, bodyFits prev (p :: es) s.rest = bodyFits next es (s.advance size).rest)
  | left (code : Int) (hread : unserializeField T cnt (some prev') v s p = .ok (some code, s, v, p))
      (hfits : ∀ es, bodyFits prev (p :: es) s.rest = true)
  | faulted (fault : Fault) (hread : unserializeField T cnt (some prev') v s p = .error fault)
      (hfits : ∀ es, bodyFits prev (p :: es) s.rest = false)

section Entry

variable {p prev prev' : Field} {ty : DataType} {memory : List UInt8}

theorem atEntry_scalar (hdebug : T.ndebug = false) (hp : p.IsScalar ty) (hgood : s.good = true)
    (hbeyond : s.beyond = 0) (v : Locals) : AtEntry T cnt prev prev' v s p := by
  have hfits : ∀ es, bodyFits prev (p :: es) s.rest = (decide (ty.width ≤ s.rest.length) &&
      bodyFits (p.scalarRead ty (s.rest.take ty.width)) es (s.rest.drop ty.width)) := by
    intro es
    simp only [bodyFits, hp.ofCode, hp.data]
  by_cases hrest : ty.width ≤ s.rest.length
  · obtain ⟨v', hread⟩ := unserializeField_scalar (T := T) cnt (some prev') v hp hgood hrest
    refine .read _ v' _ _ hread (.inl rfl) (intLength_scalarRead hp _) ?_
    intro es
    rw [hfits, decide_eq_true hrest, Bool.true_and, InputStream.advance_rest]
  · have hshort := unserializeField_short cnt (some prev') v hp hdebug hgood hbeyond (by omega)
    refine .faulted _ hshort ?_
    intro es
    rw [hfits, decide_eq_false hrest, Bool.false_and]

theorem atEntry_array (hdebug : T.ndebug = false) (hp : p.IsArray ty memory) (hcount : p.count = -1)
    (hprev : SamePrev prev prev') (hint : IntLength prev) (hgood : s.good = true)
    (hbeyond : s.beyond = 0) (v : Locals) : AtEntry T cnt prev prev' v s p := by
  have hcode : DataType.ofCode p.type = some ty := by rw [hp.type, DataType.ofCode_code]
  by_cases hlength : prev.IsLength
  · -- the length before the array is the one that was read
    obtain rfl : prev' = prev := hprev.resolve_right fun h => h.1 hlength.data
    obtain ⟨hint32, hlt⟩ := hint hlength
    have hfits : ∀ es, bodyFits prev' (p :: es) s.rest =
        (decide (ty.elemWidth * prev'.ivalue.toNat ≤ s.rest.length) &&
          decide (ty.elemWidth * prev'.ivalue.toNat ≤ memory.length) &&
            bodyFits p es (s.rest.drop (ty.elemWidth * prev'.ivalue.toNat))) := by
      intro es
      simp only [bodyFits, hcode, hp.data, hlength, if_true]
    by_cases hroom : ty.elemWidth * prev'.ivalue.toNat ≤ s.rest.length ∧
      ty.elemWidth * prev'.ivalue.toNat ≤ memory.length
    · have hread := unserializeField_prefixed (T := T) cnt v hp hcount hlength hint32 hlt hgood
        hroom.1 hroom.2
      have hsome : p.data ≠ none := by simp [hp.data]
      refine .read _ v p _ hread (.inr ⟨hsome, by simp [Field.arrayRead]⟩)
        (fun h => absurd h.data hsome) ?_
      intro es
      rw [hfits, decide_eq_true hroom.1, decide_eq_true hroom.2, Bool.true_and, Bool.true_and,
        InputStream.advance_rest]
    · obtain ⟨fault, hread⟩ := unserializeField_overrun (T := T) cnt v hp hcount hlength hint32 hlt
        hdebug hgood hbeyond hroom
      refine .faulted fault hread ?_
      intro es
      rw [hfits, ← Bool.decide_and, decide_eq_false hroom, Bool.false_and]
  · have hno : ¬ (prev'.type = TYPE_SHORT ∨ prev'.type = TYPE_LONG) ∨ prev'.data ≠ none := by
      rcases hprev with rfl | h
      · by_contra hboth
        push Not at hboth
        exact hlength (hboth.1.imp (⟨·, hboth.2⟩) (⟨·, hboth.2⟩))
      · exact .inr h.2
    refine .left _ (unserializeField_noLength cnt v hp hcount hno) ?_
    intro es
    simp only [bodyFits, hcode, hp.data, hlength, if_false]

theorem PeerEntry.atEntry (h : PeerEntry p) (cnt : Int) (hdebug : T.ndebug = false)
    (hprev : SamePrev prev prev') (hint : IntLength prev) (hgood : s.good = true)
    (hbeyond : s.beyond = 0) (v : Locals) : AtEntry T cnt prev prev' v s p := by
  cases h with
  | scalar ty hp => exact atEntry_scalar hdebug hp hgood hbeyond v
  | array ty memory hp hcount => exact atEntry_array hdebug hp hcount hprev hint hgood hbeyond v

end Entry

theorem unserializeBodyLoop_returns_iff (hdebug : T.ndebug = false) (hbcrc : bcrc.IsScalar .llong)
    (hterm : terminator.type < 0) {es : List Field} (hes : ∀ p ∈ es, PeerEntry p)
    {prev prev' : Field} (hprev : SamePrev prev prev') (hint : IntLength prev)
    (hlen : (n : Int) + es.length = len - 1) (hgood : s.good = true) (hbeyond : s.beyond = 0)
    (v : Locals) :
    (∃ r, unserializeBodyLoop T len compareCrc cnt base n crc v (some prev') s
      (es ++ [bcrc, terminator]) = .ok r) ↔ bodyFits prev es s.rest = true := by
  induction es generalizing n prev prev' s v with
  | nil =>
    have hn : (n : Int) = len - 1 := by simpa using hlen
    simp only [bodyFits, decide_eq_true_eq, List.nil_append]
    by_cases hrest : 8 ≤ s.rest.length
    · simp only [hrest, iff_true]
      exact ⟨_, unserializeBodyLoop_bcrc v hbcrc hn hterm hgood hrest⟩
    · simp only [hrest, iff_false]
      have hshort := unserializeField_short cnt (some prev') v hbcrc hdebug hgood hbeyond
        (show _ < DataType.width .llong by rw [DataType.width]; omega)
      exact unserializeBodyLoop_fault hbcrc.type_nonneg hshort
  | cons p es ih =>
    have htype := (hes p (by simp)).type_nonneg
    have hes' : ∀ q ∈ es, PeerEntry q := fun q hq => hes q (by simp [hq])
    rw [List.length_cons] at hlen
    have hn : (n : Int) ≠ len - 1 := by omega
    rw [List.cons_append]
    cases (hes p (by simp)).atEntry (T := T) cnt hdebug hprev hint hgood hbeyond v with
    | read size v' next next' hread hnext hint' hfits =>
      rw [unserializeBodyLoop_step htype hn hread, exists_ok_bind, hfits]
      exact ih hes' (n := n + 1) (s := s.advance size) hnext hint' (by omega) hgood hbeyond v'
    | left code hread hfits =>
      rw [hfits]
      simp only [iff_true]
      exact ⟨_, by rw [unserializeBodyLoop, if_neg (by omega), hread]; rfl⟩
    | faulted fault hread hfits =>
      rw [hfits]
      simp only [Bool.false_eq_true, iff_false]
      exact unserializeBodyLoop_fault htype hread

end Loop

/-! ### The table -/

/-- A table made of `MSG_HEADER`, entries a peer can size, and `MSG_TAIL`. -/
structure PeerTable where
  header : List Field
  bmark : Field
  body : List Field
  bcrc : Field
  terminator : Field
  isHeader : IsHeader header
  bmark_long : bmark.IsScalar .long
  body_entries : ∀ p ∈ body, PeerEntry p
  bcrc_llong : bcrc.IsScalar .llong
  terminator_neg : terminator.type < 0

namespace PeerTable

variable (t : PeerTable)

def fields : List Field := t.header ++ t.bmark :: t.body ++ [t.bcrc, t.terminator]

theorem length_header : t.header.length = FIELD_BMARK := t.isHeader.length_eq

/-- The layout of the table's body ends within `bs`. -/
def Fits (bs : List UInt8) : Prop := bodyFits t.bmark (t.bmark :: t.body) bs = true

instance (bs : List UInt8) : Decidable (t.Fits bs) := inferInstanceAs (Decidable (_ = _))

/-- **The body decoder returns exactly if the layout fits.** With assertions, over a stream
of exactly the bytes of the body. -/
theorem unserializeBodyPacket_returns_iff {T : Target} (hdebug : T.ndebug = false)
    (compareCrc : Bool) (bs : List UInt8) :
    (∃ code s fields, unserializeBodyPacket T (.ofBuffer bs bs.length) t.fields
      (fieldsLen t.fields) compareCrc = .ok (code, s, fields)) ↔ t.Fits bs := by
  obtain ⟨count, hcrc, -, hllong, hpacket⟩ :=
    unserializeBodyPacket_header (T := T) (fieldsLen t.fields) compareCrc t.isHeader
  have hsplit : t.fields = t.header ++ ((t.bmark :: t.body) ++ [t.bcrc, t.terminator]) := by
    simp [fields]
  have hlen : ((FIELD_BMARK : Nat) : Int) + (t.bmark :: t.body).length =
      fieldsLen t.fields - 1 := by
    simp only [fieldsLen, fields, List.length_append, List.length_cons, List.length_nil,
      t.length_header, FIELD_BMARK]
    omega
  have hentries : ∀ p ∈ t.bmark :: t.body, PeerEntry p := fun p hp =>
    (List.mem_cons.mp hp).elim (fun hp => hp ▸ .scalar _ t.bmark_long) (t.body_entries p)
  have hloop : (∃ r, unserializeBodyLoop T (fieldsLen t.fields) compareCrc (toInt32 count.ivalue) 0
      FIELD_BMARK 0 .zero (some hcrc) (.ofBuffer bs bs.length) _ = .ok r) ↔ _ :=
    unserializeBodyLoop_returns_iff hdebug t.bcrc_llong t.terminator_neg hentries (.inl rfl)
      (fun h => absurd h hllong.not_isLength) hlen rfl (Nat.sub_self _) .zero
  have hfits : bodyFits hcrc (t.bmark :: t.body) (InputStream.ofBuffer bs bs.length).rest = true ↔
      t.Fits bs := by
    have hbs : (InputStream.ofBuffer bs bs.length).rest = bs := List.take_length
    simp only [Fits, bodyFits, t.bmark_long.ofCode, t.bmark_long.data, hbs]
  have hdecode := hpacket (.ofBuffer bs bs.length) (t.bmark :: t.body ++ [t.bcrc, t.terminator])
  rw [← hsplit] at hdecode
  rw [← hfits, ← hloop, hdecode]
  constructor
  · rintro ⟨code, s, fields, h⟩
    exact exists_ok_bind.mp ⟨_, h⟩
  · intro h
    obtain ⟨⟨code, s, fields⟩, hr⟩ :=
      (exists_ok_bind (f := fun r => (r.1, r.2.1, t.header ++ r.2.2))).mpr h
    exact ⟨code, s, fields, hr⟩

def disconnect (now : Int) : PeerTable where
  header := (msgHeader now MSG_DISCONNECT 0 1).take FIELD_BMARK
  bmark := scalarField .long BODY_MARK.toInt
  body := []
  bcrc := scalarField .llong 0
  terminator := ⟨-1, 0, 0, none, 0⟩
  isHeader := isHeader_msgHeader now MSG_DISCONNECT 0 1
  bmark_long := MsgTable.long_bmark
  body_entries := by simp
  bcrc_llong := MsgTable.llong_crc
  terminator_neg := MsgTable.neg_terminator

theorem fields_disconnect (now : Int) : (disconnect now).fields = msgDisconnectFields now := rfl

def connect (now : Int) (clientname processname : List UInt8) : PeerTable where
  header := (msgHeader now MSG_CONNECT 0 1).take FIELD_BMARK
  bmark := scalarField .long BODY_MARK.toInt
  body :=
    [ scalarField .short (strlen clientname + 1)
    , ⟨DataType.char.code, 0, 0, some clientname, -1⟩
    , scalarField .short (strlen processname + 1)
    , ⟨DataType.char.code, 0, 0, some processname, -1⟩ ]
  bcrc := scalarField .llong 0
  terminator := ⟨-1, 0, 0, none, 0⟩
  isHeader := isHeader_msgHeader now MSG_CONNECT 0 1
  bmark_long := MsgTable.long_bmark
  body_entries := by
    simp only [List.mem_cons, List.not_mem_nil, or_false, forall_eq_or_imp, forall_eq]
    exact ⟨.scalar .short ⟨rfl, rfl⟩, .array .char _ ⟨rfl, rfl⟩ rfl, .scalar .short ⟨rfl, rfl⟩,
      .array .char _ ⟨rfl, rfl⟩ rfl⟩
  bcrc_llong := MsgTable.llong_crc
  terminator_neg := MsgTable.neg_terminator

theorem fields_connect (now : Int) (clientname processname : List UInt8) :
    (connect now clientname processname).fields = msgConnectFields now clientname processname := rfl

/-- A disconnect request with a wrong checksum is decoded to its end. -/
theorem unserializeBodyPacket_disconnect :
    ∃ code s fields, unserializeBodyPacket (.build .little)
      (.ofBuffer [0x22, 0x22, 0x22, 0x22, 0, 0, 0, 0, 0, 0, 0, 0] 12) (msgDisconnectFields 0) 9
      true = .ok (code, s, fields) :=
  ((disconnect 0).unserializeBodyPacket_returns_iff (T := .build .little)
    rfl true [0x22, 0x22, 0x22, 0x22, 0, 0, 0, 0, 0, 0, 0, 0]).mpr (by decide)

/-- **A body of nothing but its mark** sends the decoder to `underflow`. -/
theorem unserializeBodyPacket_aborts :
    ¬ ∀ bs : List UInt8, ∃ code s fields,
      unserializeBodyPacket (.build .little) (.ofBuffer bs bs.length)
        (msgDisconnectFields 0) (fieldsLen (msgDisconnectFields 0)) true = .ok (code, s, fields) := by
  intro h
  obtain ⟨code, s, fields, hreturn⟩ := h [0x22, 0x22, 0x22, 0x22]
  have habort : unserializeBodyPacket (.build .little)
      (.ofBuffer [0x22, 0x22, 0x22, 0x22] 4) (msgDisconnectFields 0) 9 true =
        .error .assertion := by decide
  exact absurd (habort.symm.trans hreturn) (by simp)

end PeerTable

end Librtaio

import Librtaio.Canonical
import Librtaio.StoreBounds

/-!
# The size of an accepted body

Nothing compares the size that a header announces with the bytes that the decoder takes from the
body, nor with what `fields_size` makes of the decoded table. The three agree exactly for the
bodies whose lengths are not negative and lead to a checksum at their end.
-/

namespace Librtaio

open Bytes Crc32

/-! ### Decoding without an error -/

section Reads

variable {T : Target} {cnt : Int}

/-- The entries `es` are read one after the other, and become `qs`. -/
inductive Reads (T : Target) (cnt : Int) :
    Field → Locals → InputStream → List Field → InputStream → List Field → Prop where
  | nil {prev : Field} {v : Locals} {s : InputStream} : Reads T cnt prev v s [] s []
  | cons {prev p q : Field} {v v₁ : Locals} {s s₁ s' : InputStream} {es qs : List Field}
      (hfield : unserializeField T cnt (some prev) v s p = .ok (none, s₁, v₁, q))
      (htail : Reads T cnt q v₁ s₁ es s' qs) : Reads T cnt prev v s (p :: es) s' (q :: qs)

variable {prev prev' p : Field} {v : Locals} {s s' : InputStream} {es qs : List Field}

theorem Reads.sameShape (h : Reads T cnt prev v s es s' qs) : List.Forall₂ SameShape es qs := by
  induction h with
  | nil => exact .nil
  | cons hfield htail ih => exact .cons (unserializeField_sameShape hfield) ih

/-- Whatever is read into a SHORT is one. -/
theorem Reads.short_range (h : Reads T cnt prev v s es s' qs) :
    List.Forall₂ (fun p q => p.IsScalar .short → -2 ^ 15 ≤ q.ivalue ∧ q.ivalue < 2 ^ 15) es qs := by
  induction h with
  | nil => exact .nil
  | cons hfield htail ih =>
    refine .cons (fun hp => ?_) ih
    simp only [unserializeField, hp.data, getScalar, hp.ofCode] at hfield
    obtain ⟨r, hget, hr⟩ := bind_eq_ok.mp hfield
    obtain ⟨r', hread, hget⟩ := bind_eq_ok.mp hget
    cases hget
    cases hr
    exact ⟨BitVec.le_toInt _, BitVec.toInt_lt⟩

/-- An entry that ends the loop is an error. -/
theorem unserializeField_code {code : Int} {prev : Option Field} {r : InputStream × Locals × Field}
    (h : unserializeField T cnt prev v s p = .ok (some code, r)) : code = ERR_DECODE_ERROE := by
  unfold unserializeField at h
  split at h
  · obtain ⟨got, -, hr⟩ := bind_eq_ok.mp h
    cases hr
  · split at h
    · obtain ⟨count, -, hr⟩ := bind_eq_ok.mp h
      obtain ⟨got, -, hr⟩ := bind_eq_ok.mp hr
      cases hr
    · split at h
      · cases h
      · rcases leave_or h with hr | h
        · cases hr
          rfl
        · split at h
          · rcases leave_or h with hr | h
            · cases hr
              rfl
            · split at h
              · obtain ⟨got, -, hr⟩ := bind_eq_ok.mp h
                cases hr
              · cases h
          · cases h

/-- The decoder returns `ERR_OK` only if it reads every entry. -/
theorem unserializeBodyLoop_reads {len : Int} {compareCrc : Bool} {base n : Nat} {crc : BitVec 32}
    {terminator : Field} {out : List Field} (hes : ∀ p ∈ es, 0 ≤ p.type)
    (hterm : terminator.type < 0)
    (hok : unserializeBodyLoop T len compareCrc cnt base n crc v (some prev) s (es ++ [terminator]) =
      .ok (ERR_OK, s', out)) :
    ∃ qs, out = qs ++ [terminator] ∧ Reads T cnt prev v s es s' qs := by
  induction es generalizing n crc v prev s out with
  | nil =>
    rw [List.nil_append, unserializeBodyLoop, if_pos hterm] at hok
    cases hok
    exact ⟨[], rfl, .nil⟩
  | cons p es ih =>
    rw [List.forall_mem_cons] at hes
    rw [List.cons_append, unserializeBodyLoop, if_neg (by omega)] at hok
    obtain ⟨⟨ret, s₁, v₁, q⟩, hfield, hok⟩ := bind_eq_ok.mp hok
    cases ret with
    | some code =>
      obtain rfl : code = ERR_OK := congrArg Prod.fst (Except.ok.inj hok)
      exact absurd (unserializeField_code hfield) (by decide)
    | none =>
      rcases leave_or hok with hr | hok
      · exact absurd (congrArg Prod.fst hr) (show ERR_OK ≠ ERR_CHECK_CRC_ERROR by decide)
      · obtain ⟨⟨code, s₂, rest⟩, hloop, hr⟩ := bind_eq_ok.mp hok
        cases hr
        obtain ⟨qs, rfl, hreads⟩ := ih hes.2 hloop
        exact ⟨q :: qs, rfl, .cons hfield hreads⟩

end Reads

/-! ### The frame of a body -/

/-- The length in front of an array is not negative. -/
def Unsigned (prev p : Field) : Prop := p.data ≠ none → 0 ≤ prev.ivalue

/-- The entries and the checksum behind them are all of `bs`, and no array stands behind a negative
length. -/
def bodyFrames : Field → List Field → List UInt8 → Bool
  | _, [], bs => bs.length = 8
  | prev, p :: es, bs =>
    match DataType.ofCode p.type, p.data with
    | none, _ => false
    | some ty, none =>
      ty.width ≤ bs.length && bodyFrames (p.scalarRead ty (bs.take ty.width)) es (bs.drop ty.width)
    | some ty, some _ =>
      let size := ty.elemWidth * prev.ivalue.toNat
      0 ≤ prev.ivalue && size ≤ bs.length && bodyFrames p es (bs.drop size)

section Frames

variable {T : Target} {cnt : Int} {prev prev' p q : Field} {v : Locals} {s s' : InputStream}
  {es qs : List Field}

theorem PeerEntry.sameShape (h : PeerEntry p) (hshape : SameShape p q) : PeerEntry q := by
  cases h with
  | scalar ty hp => exact .scalar ty (hshape.isScalar hp)
  | array ty memory hp hcount =>
    have hsome : q.data ≠ none := by
      rw [ne_eq, hshape.data, hp.data]
      simp
    obtain ⟨memory', hdata⟩ := Option.ne_none_iff_exists'.mp hsome
    exact .array ty memory' ⟨hshape.type.trans hp.type, hdata⟩ (hshape.count.trans hcount)

theorem PeerEntry.size_nonneg (h : PeerEntry p) (hunsigned : Unsigned prev p) :
    0 ≤ p.size cnt prev := by
  cases h with
  | scalar ty hp =>
    rw [hp.size_eq]
    omega
  | array ty memory hp hcount =>
    rw [hp.size_eq, Entry.prefixed_elements cnt prev hcount]
    exact Int.mul_nonneg (by omega) (hunsigned (by simp [hp.data]))

theorem peer_sizes_nonneg (cnt : Int) (hes : ∀ p ∈ es, PeerEntry p) (hchain : (prev :: es).IsChain Unsigned) :
    0 ≤ sizes cnt prev es := by
  induction es generalizing prev with
  | nil => exact le_rfl
  | cons p es ih =>
    rw [List.forall_mem_cons] at hes
    rw [List.isChain_cons_cons] at hchain
    exact Int.add_nonneg (hes.1.size_nonneg hchain.1) (ih hes.2 hchain.2)

theorem forall_peerEntry (hshape : List.Forall₂ SameShape es qs) (hes : ∀ p ∈ es, PeerEntry p) :
    ∀ q ∈ qs, PeerEntry q := by
  induction hshape with
  | nil => exact hes
  | cons hp _ ih =>
    rw [List.forall_mem_cons] at hes ⊢
    exact ⟨hes.1.sameShape hp, ih hes.2⟩

theorem forall₂_concat {R : Field → Field → Prop} {b b' : Field}
    (h : List.Forall₂ R (es ++ [b]) (qs ++ [b'])) : List.Forall₂ R es qs ∧ R b b' := by
  obtain ⟨es', ds, hsplit, hes, hds⟩ := forall₂_split h
  rcases hds with _ | ⟨hb, _ | _⟩
  obtain ⟨rfl, hlast⟩ := List.append_inj' hsplit rfl
  obtain rfl : b' = _ := List.head_eq_of_cons_eq hlast
  exact ⟨hes, hb⟩

/-- The stream was taken to its end for the entries and a checksum, as their lengths add up to it. -/
structure Spent (cnt : Int) (prev : Field) (s s' : InputStream) (qs : List Field) : Prop where
  consumed : s'.consumed.length = s.consumed.length + s.rest.length
  added : sizes cnt prev qs + 8 = s.rest.length
  unsigned : (prev :: qs).IsChain Unsigned

theorem spent_cons {size : Nat} (hrest : size ≤ s.rest.length) (hsize : q.size cnt prev = size)
    (hunsigned : Unsigned prev q) :
    Spent cnt prev s s' (q :: qs) ↔ Spent cnt q (s.advance size) s' qs := by
  have hconsumed : (s.advance size).consumed.length = s.consumed.length + size := by
    rw [InputStream.advance_consumed, List.length_append, List.length_take, Nat.min_eq_left hrest]
  have hleft : (s.advance size).rest.length = s.rest.length - size := List.length_drop
  have hadd : sizes cnt prev (q :: qs) = size + sizes cnt q qs := by rw [sizes, hsize]
  constructor
  · rintro ⟨htaken, hadded, hchain⟩
    exact ⟨by omega, by omega, (List.isChain_cons_cons.mp hchain).2⟩
  · rintro ⟨htaken, hadded, hchain⟩
    exact ⟨by omega, by omega, List.isChain_cons_cons.mpr ⟨hunsigned, hchain⟩⟩

/-- **A run of entries.** The stream is spent on what an accepted body gives the entries exactly if
they frame it. -/
theorem Reads.spent_iff (cnt' : Int) {bcrc bcrc' : Field} (hes : ∀ p ∈ es, PeerEntry p)
    (hwords : ∀ p ∈ es, p.data ≠ none → p.type ≠ DataType.llong.code)
    (hbcrc : bcrc.IsScalar .llong) (hprev : SamePrev prev prev') (hint : IntLength prev)
    (hgood : s.good = true) (hbeyond : s.beyond = 0)
    (h : Reads T cnt prev' v s (es ++ [bcrc]) s' (qs ++ [bcrc'])) :
    Spent cnt' prev' s s' qs ↔ bodyFrames prev es s.rest = true := by
  induction es generalizing qs prev prev' v s with
  | nil =>
    obtain ⟨hshape, -⟩ := forall₂_concat h.sameShape
    cases hshape
    simp only [bodyFrames, decide_eq_true_eq]
    constructor
    · intro hspent
      have hadded := hspent.added
      rw [sizes] at hadded
      omega
    · intro hrest
      rcases h with _ | ⟨hfield, _ | _⟩
      obtain ⟨v', hread⟩ := unserializeField_scalar (T := T) cnt (some prev') v hbcrc hgood
        (show DataType.width .llong ≤ _ from hrest.ge)
      obtain rfl : s.advance 8 = s' := congrArg (fun r => r.2.1) (Except.ok.inj (hread.symm.trans hfield))
      refine ⟨?_, by rw [sizes, hrest]; rfl, .singleton _⟩
      rw [InputStream.advance_consumed, List.length_append, List.length_take, hrest]
      rfl
  | cons p es ih =>
    rw [List.forall_mem_cons] at hes hwords
    obtain ⟨hshape, -⟩ := forall₂_concat h.sameShape
    rcases hshape with _ | ⟨hpq, hshape⟩
    rename_i q qs
    rcases h with _ | ⟨hfield, htail⟩
    rename_i s₁ v₁
    have hqs := forall_peerEntry hshape hes.2
    cases hes.1 with
    | scalar ty hp =>
      have hq := hpq.isScalar hp
      simp only [bodyFrames, hp.ofCode, hp.data, Bool.and_eq_true, decide_eq_true_eq]
      by_cases hrest : ty.width ≤ s.rest.length
      · obtain ⟨v', hread⟩ := unserializeField_scalar (T := T) cnt (some prev') v hp hgood hrest
        cases hread.symm.trans hfield
        rw [spent_cons hrest (hq.size_eq _ _) (fun h => absurd hq.data h), and_iff_right hrest]
        exact ih hes.2 hwords.2 (.inl rfl) (intLength_scalarRead hp _) hgood hbeyond htail
      · refine iff_of_false (fun hspent => hrest ?_) (fun h => hrest h.1)
        have hnonneg := peer_sizes_nonneg cnt' hqs (List.isChain_cons_cons.mp hspent.unsigned).2
        have hadded := hspent.added
        rw [sizes, hq.size_eq] at hadded
        omega
    | array ty memory hp hcount =>
      have hlength : prev.IsLength := by
        by_contra hno
        have hno' : ¬ (prev'.type = TYPE_SHORT ∨ prev'.type = TYPE_LONG) ∨ prev'.data ≠ none := by
          rcases hprev with rfl | h
          · by_contra hboth
            push Not at hboth
            exact hno (hboth.1.imp (⟨·, hboth.2⟩) (⟨·, hboth.2⟩))
          · exact .inr h.2
        cases (unserializeField_noLength cnt v hp hcount hno').symm.trans hfield
      obtain rfl : prev' = prev := hprev.resolve_right fun h => h.1 hlength.data
      obtain ⟨hint32, hlt⟩ := hint hlength
      have hsome : p.data ≠ none := by simp [hp.data]
      have hcode : DataType.ofCode p.type = some ty := by rw [hp.type, DataType.ofCode_code]
      have hwidth : ty.elemWidth = ty.width := DataType.elemWidth_eq fun h =>
        hwords.1 hsome (by rw [hp.type, h])
      have hsize : q.size cnt' prev' = ty.width * prev'.ivalue := by
        obtain ⟨memory', hdata⟩ := Option.ne_none_iff_exists'.mp (mt hpq.data.mp hsome)
        rw [Field.IsArray.size_eq ⟨hpq.type.trans hp.type, hdata⟩,
          Entry.prefixed_elements cnt' prev' (hpq.count.trans hcount)]
      simp only [bodyFrames, hcode, hp.data, Bool.and_eq_true, decide_eq_true_eq, hwidth]
      by_cases hframe : 0 ≤ prev'.ivalue ∧ ty.width * prev'.ivalue.toNat ≤ s.rest.length
      · have hnat : (ty.width : Int) * prev'.ivalue = (ty.width * prev'.ivalue.toNat : Nat) := by
          rw [Nat.cast_mul, Int.toNat_of_nonneg hframe.1]
        have hroom : ty.elemWidth * prev'.ivalue.toNat ≤ memory.length := by
          by_contra hover
          have hout : unserializeField T cnt (some prev') v s p = .error .outOfBounds :=
            unserializeField_outOfBounds hp hcount hlength hint32 hlt hbeyond hgood
              (by rw [hwidth] at hover ⊢; omega) v
          cases hout.symm.trans hfield
        have hread := unserializeField_prefixed (T := T) cnt v hp hcount hlength hint32 hlt hgood
          (by rw [hwidth]; exact hframe.2) hroom
        cases hread.symm.trans hfield
        rw [and_iff_right hframe, spent_cons hframe.2 (hsize.trans hnat) (fun _ => hframe.1), ← hwidth]
        exact ih hes.2 hwords.2 (.inr ⟨hsome, by simp [Field.arrayRead]⟩)
          (fun h => absurd h.data hsome) hgood hbeyond htail
      · refine iff_of_false (fun hspent => hframe ?_) (fun h => hframe h.1)
        obtain ⟨hunsigned, hchain⟩ := List.isChain_cons_cons.mp hspent.unsigned
        have hnonneg := peer_sizes_nonneg cnt' hqs hchain
        have hpos := hunsigned (mt hpq.data.mp hsome)
        have hadded := hspent.added
        rw [sizes, hsize, ← Int.toNat_of_nonneg hpos, ← Nat.cast_mul] at hadded
        exact ⟨hpos, by omega⟩

end Frames

/-! ### The body of a session -/

namespace PeerTable

variable (t : PeerTable)

/-- The entries behind the header and the checksum frame `bs`. -/
def Frames (bs : List UInt8) : Prop := bodyFrames t.bmark (t.bmark :: t.body) bs = true

instance (bs : List UInt8) : Decidable (t.Frames bs) := inferInstanceAs (Decidable (_ = _))

/-- What `unserialize_body_packet` leaves behind the header `hs` of the table. -/
structure Decoded (s : InputStream) (hs : List Field) (rd : InputStream) (fields : List Field)
    (hcrc : Field) (qs : List Field) (bcrc : Field) : Prop where
  eq : fields = hs ++ (qs ++ [bcrc, t.terminator])
  hcrc_llong : hcrc.IsScalar .llong
  bcrc_llong : bcrc.IsScalar .llong
  shape : List.Forall₂ SameShape (t.bmark :: t.body) qs
  shorts : List.Forall₂ (fun p q => p.IsScalar .short → -2 ^ 15 ≤ q.ivalue ∧ q.ivalue < 2 ^ 15)
    (t.bmark :: t.body) qs
  spent_iff : ∀ cnt, Spent cnt hcrc s rd qs ↔ t.Frames s.rest

variable {t} {T : Target} {s rd : InputStream} {hs fields : List Field}

/-- An accepted body, whatever header stands before it. -/
theorem decoded (hhs : IsHeader hs) (hwords : ∀ p ∈ t.body, p.data ≠ none → p.type ≠ DataType.llong.code)
    (hgood : s.good = true) (hbeyond : s.beyond = 0) {len : Int}
    (haccepted : unserializeBodyPacket T s (hs ++ (t.bmark :: t.body ++ [t.bcrc, t.terminator])) len
      true = .ok (ERR_OK, rd, fields)) :
    ∃ hcrc qs bcrc, t.Decoded s hs rd fields hcrc qs bcrc := by
  obtain ⟨count, hcrc, -, hllong, hpacket⟩ := unserializeBodyPacket_header (T := T) len true hhs
  rw [hpacket] at haccepted
  obtain ⟨⟨code, rd', out⟩, hloop, hr⟩ := bind_eq_ok.mp haccepted
  cases hr
  have hentries : ∀ p ∈ t.bmark :: t.body, PeerEntry p := fun p hp =>
    (List.mem_cons.mp hp).elim (fun hp => hp ▸ .scalar _ t.bmark_long) (t.body_entries p)
  have htypes : ∀ p ∈ t.bmark :: t.body ++ [t.bcrc], 0 ≤ p.type := by
    intro p hp
    rcases List.mem_append.mp hp with hp | hp
    · exact (hentries p hp).type_nonneg
    · rw [List.mem_singleton.mp hp]
      exact t.bcrc_llong.type_nonneg
  have hsplit : t.bmark :: t.body ++ [t.bcrc, t.terminator] =
      (t.bmark :: t.body ++ [t.bcrc]) ++ [t.terminator] := by simp
  rw [hsplit] at hloop
  obtain ⟨out, rfl, hreads⟩ := unserializeBodyLoop_reads htypes t.terminator_neg hloop
  obtain ⟨qs, ds, rfl, hshape, hds⟩ := forall₂_split hreads.sameShape
  rcases hds with _ | ⟨hbcrc, _ | _⟩
  rename_i bcrc
  refine ⟨hcrc, qs, bcrc, by simp, hllong, hbcrc.isScalar t.bcrc_llong, hshape,
    (forall₂_concat hreads.short_range).1, fun cnt => ?_⟩
  have hwords' : ∀ p ∈ t.bmark :: t.body, p.data ≠ none → p.type ≠ DataType.llong.code := by
    rw [List.forall_mem_cons]
    exact ⟨fun h => absurd t.bmark_long.data h, hwords⟩
  have hspent := hreads.spent_iff cnt hentries hwords' t.bcrc_llong (.inl rfl)
    (fun h => absurd h hllong.not_isLength) hgood hbeyond
  simp only [bodyFrames, t.bmark_long.ofCode, t.bmark_long.data] at hspent
  simpa only [Frames, bodyFrames, t.bmark_long.ofCode, t.bmark_long.data] using hspent

end PeerTable

/-- The decoder took `n` bytes for the table, `fields_size` comes to as many for its body, and no
array stands behind a negative length. -/
structure Framed (rd : InputStream) (fields : List Field) (n : Nat) : Prop where
  consumed : rd.consumed.length = n
  measured : ∃ sz, fieldsSize fields ⟨some 0, some 0, some 0, some 0⟩ = .ok sz ∧ sz.body = some (n : Int)
  unsigned : fields.IsChain Unsigned

section Measures

variable {cnt : Int} {n : Nat} {prev p : Field} {hs es : List Field} {total body : Int}

/-- `fields_size` takes an entry for `Field.size`. -/
structure Sized (cnt : Int) (prev p : Field) : Prop where
  type : 0 ≤ p.type
  nonneg : 0 ≤ p.size cnt prev
  eq : fieldSize cnt (some prev) p = .ok (p.size cnt prev)

theorem sized_scalar {ty : DataType} (hp : p.IsScalar ty) : Sized cnt prev p :=
  ⟨hp.type_nonneg, by rw [hp.size_eq]; omega, by rw [fieldSize_scalar hp, hp.size_eq]⟩

/-- An array of CHARs behind a SHORT that is not negative. -/
theorem sized_chars {memory : List UInt8} (hp : p.IsArray .char memory) (hcount : p.count = -1)
    (hprev : prev.data = none) (hnonneg : 0 ≤ prev.ivalue) (hlt : prev.ivalue < 2 ^ 15) :
    Sized cnt prev p ∧ p.size cnt prev = prev.ivalue := by
  have hsize : p.size cnt prev = prev.ivalue := by
    rw [hp.size_eq, Entry.prefixed_elements cnt prev hcount]
    exact Int.one_mul _
  refine ⟨⟨hp.type_nonneg, by omega, ?_⟩, hsize⟩
  have hwidth : typeSize p.type * prev.ivalue = prev.ivalue := by
    rw [hp.type, DataType.typeSize_code]
    exact Int.one_mul _
  rw [fieldSize, if_neg (by simp [hp.data]), if_neg (by omega), if_pos hcount]
  simp only [if_pos hprev]
  rw [hwidth, checked_eq (by decide) hnonneg (by omega), ok_bind, toInt32_eq (by omega) (by omega),
    hsize]

theorem sized_sizes_nonneg (h : (prev :: es).IsChain (Sized cnt)) : 0 ≤ sizes cnt prev es := by
  induction es generalizing prev with
  | nil => exact le_rfl
  | cons p es ih =>
    obtain ⟨hp, hes⟩ := List.isChain_cons_cons.mp h
    exact Int.add_nonneg hp.nonneg (ih hes)

/-- A run of entries behind the header. -/
theorem sizeLoop_sized (header : Int) (h : (prev :: es).IsChain (Sized cnt)) {terminator : Field}
    (hterm : terminator.type < 0) (hn : FIELD_HCRC < n) (hbody : 0 ≤ body) (hle : body ≤ total)
    (hlt : total + sizes cnt prev es < 2 ^ 31) (sz : Sizes) :
    ∃ k sz', sizeLoop cnt n (some prev) (sz.fill total header body) (es ++ [terminator]) = .ok (k, sz') ∧
      sz'.body = sz.body.map fun _ => body + sizes cnt prev es := by
  induction es generalizing n prev sz total body with
  | nil =>
    rw [List.nil_append, sizeLoop, if_pos hterm]
    exact ⟨_, _, rfl, by rw [sizes, add_zero]; rfl⟩
  | cons p es ih =>
    obtain ⟨hp, hes⟩ := List.isChain_cons_cons.mp h
    have hrest := sized_sizes_nonneg hes
    have hnonneg := hp.nonneg
    rw [sizes] at hlt ⊢
    obtain ⟨k, sz', hrun, hsum⟩ := ih hes (show FIELD_HCRC < n + 1 by omega)
      (show 0 ≤ body + p.size cnt prev by omega) (show _ ≤ total + p.size cnt prev by omega)
      (by omega) (sz.passed n 1)
    rw [List.cons_append, sizeLoop_body hn hp.type hp.eq hnonneg (by omega) hbody (by omega) (by omega),
      hrun]
    refine ⟨k, sz', rfl, hsum.trans ?_⟩
    rw [← Int.add_assoc, Sizes.passed]
    split <;> rfl

theorem exists_packetTable (hhs : IsHeader hs) :
    ∃ t : PacketTable, hs = t.hmark :: t.plain ++ [t.hcrc] := by
  rcases hhs with _ | ⟨h0, _ | ⟨h1, _ | ⟨h2, _ | ⟨h3, _ | ⟨h4, _ | ⟨h5, _ | ⟨h6, _ | _⟩⟩⟩⟩⟩⟩⟩
  exact ⟨{ (MsgTable.connectResp 0 0 0).packetTable with
    hmark := _, method := _, bsize := _, ret := _, time := _, count := _, hcrc := _, body := []
    hmark_long := h0, method_long := h1, bsize_long := h2, ret_long := h3, time_long := h4
    count_long := h5, hcrc_llong := h6, body_items := items_nil }, rfl⟩

/-- What `fields_size` comes to for the body behind a header. -/
theorem fieldsSize_sized (es : List Field) (body : Int) {terminator : Field} (hhs : IsHeader hs) (hterm : terminator.type < 0)
    (hes : ∀ cnt hcrc, (hcrc :: es).IsChain (Sized cnt) ∧ sizes cnt hcrc es = body)
    (hlt : body < 2 ^ 31 - 32) :
    ∃ sz, fieldsSize (hs ++ (es ++ [terminator])) ⟨some 0, some 0, some 0, some 0⟩ = .ok sz ∧
      sz.body = some body := by
  obtain ⟨t, rfl⟩ := exists_packetTable hhs
  obtain ⟨hsized, hsum⟩ := hes (toInt32 t.cnt) t.hcrc
  obtain ⟨k, sz, hrun, hbody⟩ := sizeLoop_sized 32 hsized hterm
    (show FIELD_HCRC < FIELD_BMARK by decide) le_rfl (show (0 : Int) ≤ 32 by decide) (by omega)
    ⟨some 0, some 0, some 0, some 0⟩
  have hheader := @PacketTable.sizeLoop_fields t (toInt32 t.cnt) ⟨some 0, some 0, some 0, some 0⟩
    (es ++ [terminator])
  have hsplit : t.hmark :: t.plain ++ [t.hcrc] ++ (es ++ [terminator]) =
      t.hmark :: t.plain ++ t.hcrc :: (es ++ [terminator]) := by simp
  have hfields : fieldsSize (t.hmark :: t.plain ++ [t.hcrc] ++ (es ++ [terminator]))
        ⟨some 0, some 0, some 0, some 0⟩ =
      sizeLoop (toInt32 t.cnt) 0 none (Sizes.fill ⟨some 0, some 0, some 0, some 0⟩ 0 0 0)
        (t.hmark :: t.plain ++ t.hcrc :: (es ++ [terminator])) >>= fun r =>
          .ok { r.2 with bodyCount := r.2.bodyCount.map fun c => r.1 - c + 1 } := by
    rw [hsplit]
    rfl
  refine ⟨_, by rw [hfields, hheader, hrun]; rfl, ?_⟩
  rw [hbody, hsum]
  simp

end Measures

section Tables

variable {s rd : InputStream} {hs fields qs : List Field} {hcrc bcrc : Field} {now : Int}

theorem unsigned_scalar {prev p : Field} {ty : DataType} (hp : p.IsScalar ty) : Unsigned prev p :=
  fun h => absurd hp.data h

/-- A header has no arrays. -/
theorem isChain_header_unsigned (hhs : IsHeader hs) (es : List Field) {p : Field} {ty : DataType}
    (hp : p.IsScalar ty) : (hs ++ p :: es).IsChain Unsigned ↔ (p :: es).IsChain Unsigned := by
  rcases hhs with _ | ⟨h0, _ | ⟨h1, _ | ⟨h2, _ | ⟨h3, _ | ⟨h4, _ | ⟨h5, _ | ⟨h6, _ | _⟩⟩⟩⟩⟩⟩⟩
  simp only [List.cons_append, List.nil_append, List.isChain_cons_cons, unsigned_scalar h1,
    unsigned_scalar h2, unsigned_scalar h3, unsigned_scalar h4, unsigned_scalar h5,
    unsigned_scalar h6, unsigned_scalar hp, true_and]

/-- A decoded connect request. -/
theorem framed_connect (hhs : IsHeader hs) (hconsumed : s.consumed = [])
    (h : (PeerTable.connect now nameBuffer nameBuffer).Decoded s hs rd fields hcrc qs bcrc) :
    Framed rd fields s.rest.length ↔ Spent 0 hcrc s rd qs := by
  obtain ⟨rfl, hhcrc, hbcrc, hshape, hshorts, -⟩ := h
  rcases hshape with _ | ⟨hm, _ | ⟨hq₁, _ | ⟨ha₁, _ | ⟨hq₂, _ | ⟨ha₂, _ | _⟩⟩⟩⟩⟩
  rename_i m q₁ a₁ q₂ a₂
  rcases hshorts with _ | ⟨-, _ | ⟨hr₁, _ | ⟨-, _ | ⟨hr₂, -⟩⟩⟩⟩
  have hshort (z : Int) : (scalarField .short z).IsScalar .short := ⟨rfl, rfl⟩
  replace hm := hm.isScalar MsgTable.long_bmark
  replace hq₁ := hq₁.isScalar (hshort _)
  replace hq₂ := hq₂.isScalar (hshort _)
  replace hr₁ := hr₁ (hshort _)
  replace hr₂ := hr₂ (hshort _)
  have harray {a : Field} (ha : SameShape ⟨DataType.char.code, 0, 0, some nameBuffer, -1⟩ a) :
      a.data ≠ none ∧ a.count = -1 ∧ ∃ memory, a.IsArray .char memory := by
    have hsome : a.data ≠ none := by simp [ha.data]
    obtain ⟨memory, hdata⟩ := Option.ne_none_iff_exists'.mp hsome
    exact ⟨hsome, ha.count, memory, ha.type, hdata⟩
  obtain ⟨hsome₁, hcount₁, memory₁, ha₁⟩ := harray ha₁
  obtain ⟨hsome₂, hcount₂, memory₂, ha₂⟩ := harray ha₂
  have hterm : (PeerTable.connect now nameBuffer nameBuffer).terminator.data = none := rfl
  have hchain : (hs ++ ([m, q₁, a₁, q₂, a₂] ++
      [bcrc, (PeerTable.connect now nameBuffer nameBuffer).terminator])).IsChain Unsigned ↔
        0 ≤ q₁.ivalue ∧ 0 ≤ q₂.ivalue := by
    rw [List.cons_append, isChain_header_unsigned hhs _ hm]
    simp [List.isChain_cons_cons, Unsigned, hq₁.data, hq₂.data, hbcrc.data, hsome₁, hsome₂, hterm]
  have hspent : [hcrc, m, q₁, a₁, q₂, a₂].IsChain Unsigned ↔ 0 ≤ q₁.ivalue ∧ 0 ≤ q₂.ivalue := by
    simp [List.isChain_cons_cons, Unsigned, hm.data, hq₁.data, hq₂.data, hsome₁, hsome₂]
  have hmeasured (h₁ : 0 ≤ q₁.ivalue) (h₂ : 0 ≤ q₂.ivalue) (cnt : Int) (hcrc : Field) :
      sizes cnt hcrc [m, q₁, a₁, q₂, a₂] = 8 + q₁.ivalue + q₂.ivalue ∧
      [hcrc, m, q₁, a₁, q₂, a₂, bcrc].IsChain (Sized cnt) := by
    obtain ⟨hsized₁, hsize₁⟩ := @sized_chars cnt q₁ a₁ memory₁ ha₁ hcount₁ hq₁.data h₁ hr₁.2
    obtain ⟨hsized₂, hsize₂⟩ := @sized_chars cnt q₂ a₂ memory₂ ha₂ hcount₂ hq₂.data h₂ hr₂.2
    constructor
    · simp only [sizes, hm.size_eq, hq₁.size_eq, hq₂.size_eq, hsize₁, hsize₂, DataType.width]
      omega
    · simp [List.isChain_cons_cons, sized_scalar hm, sized_scalar hq₁, sized_scalar hq₂,
        sized_scalar hbcrc, hsized₁, hsized₂]
  have hfields (h₁ : 0 ≤ q₁.ivalue) (h₂ : 0 ≤ q₂.ivalue) :=
    fieldsSize_sized [m, q₁, a₁, q₂, a₂, bcrc] (16 + q₁.ivalue + q₂.ivalue) hhs
      (PeerTable.connect now nameBuffer nameBuffer).terminator_neg
      (fun cnt hcrc => ⟨(hmeasured h₁ h₂ cnt hcrc).2, by
        have hsum := (hmeasured h₁ h₂ cnt hcrc).1
        rw [show [m, q₁, a₁, q₂, a₂, bcrc] = [m, q₁, a₁, q₂, a₂] ++ [bcrc] by rfl, sizes_append, hsum,
          sizes, sizes, hbcrc.size_eq, DataType.width]
        omega⟩) (by omega)
  constructor
  · rintro ⟨htaken, ⟨sz, hsize, hbody⟩, hunsigned⟩
    obtain ⟨h₁, h₂⟩ := hchain.mp hunsigned
    obtain ⟨sz', hsize', hbody'⟩ := hfields h₁ h₂
    obtain rfl : sz' = sz := Except.ok.inj (hsize'.symm.trans hsize)
    have hsame : 16 + q₁.ivalue + q₂.ivalue = s.rest.length := Option.some.inj (hbody'.symm.trans hbody)
    refine ⟨by rw [hconsumed, htaken]; simp, ?_, hspent.mpr ⟨h₁, h₂⟩⟩
    rw [(hmeasured h₁ h₂ 0 hcrc).1]
    omega
  · rintro ⟨htaken, hadded, hunsigned⟩
    obtain ⟨h₁, h₂⟩ := hspent.mp hunsigned
    obtain ⟨sz, hsize, hbody⟩ := hfields h₁ h₂
    rw [(hmeasured h₁ h₂ 0 hcrc).1] at hadded
    refine ⟨by rw [htaken, hconsumed]; simp, ⟨sz, hsize, ?_⟩, hchain.mpr ⟨h₁, h₂⟩⟩
    rw [hbody, ← hadded]
    congr 1
    omega

/-- A decoded request to disconnect. -/
theorem framed_disconnect (hhs : IsHeader hs) (hconsumed : s.consumed = [])
    (h : (PeerTable.disconnect now).Decoded s hs rd fields hcrc qs bcrc) :
    Framed rd fields s.rest.length ↔ Spent 0 hcrc s rd qs := by
  obtain ⟨rfl, hhcrc, hbcrc, hshape, -, -⟩ := h
  rcases hshape with _ | ⟨hm, _ | _⟩
  rename_i m
  replace hm := hm.isScalar MsgTable.long_bmark
  have hterm : (PeerTable.disconnect now).terminator.data = none := rfl
  have hchain : (hs ++ ([m] ++ [bcrc, (PeerTable.disconnect now).terminator])).IsChain Unsigned := by
    rw [List.cons_append, isChain_header_unsigned hhs _ hm]
    simp [List.isChain_cons_cons, Unsigned, hbcrc.data, hterm]
  obtain ⟨sz, hsize, hbody⟩ := fieldsSize_sized [m, bcrc] 12 hhs
    (PeerTable.disconnect now).terminator_neg
    (fun cnt hcrc => ⟨by simp [List.isChain_cons_cons, sized_scalar hm, sized_scalar hbcrc], by
      simp only [sizes, hm.size_eq, hbcrc.size_eq, DataType.width]
      rfl⟩) (by decide)
  have hadd : sizes 0 hcrc [m] + 8 = 12 := by
    rw [sizes, sizes, hm.size_eq]
    rfl
  constructor
  · rintro ⟨htaken, ⟨sz', hsize', hbody'⟩, -⟩
    obtain rfl : sz = sz' := Except.ok.inj (hsize.symm.trans hsize')
    have hsame : (12 : Int) = s.rest.length := Option.some.inj (hbody.symm.trans hbody')
    refine ⟨by rw [hconsumed, htaken]; simp, hadd.trans hsame, ?_⟩
    simp [List.isChain_cons_cons, Unsigned, hm.data]
  · rintro ⟨htaken, hadded, -⟩
    rw [hadd] at hadded
    exact ⟨by rw [htaken, hconsumed]; simp, ⟨sz, hsize, by rw [hbody, hadded]⟩, hchain⟩

end Tables

/-! ### The bodies that are framed -/

/-- The SHORT at the front of `bs`. -/
def shortAt (bs : List UInt8) : Int := (BitVec.ofNat 16 (ofBeBytes (bs.take 2))).toInt

/-- The lengths of the two names are not negative, and the checksum behind them ends the body. -/
def NamesFrame (body : List UInt8) : Prop :=
  let client := shortAt (body.drop 4)
  let process := shortAt (body.drop (6 + client.toNat))
  0 ≤ client ∧ 0 ≤ process ∧ 16 + client + process = body.length

instance (body : List UInt8) : Decidable (NamesFrame body) :=
  inferInstanceAs (Decidable (_ ∧ _ ∧ _))

theorem bodyFrames_name {prev p a : Field} {es : List Field} {memory : List UInt8}
    (hp : p.IsScalar .short) (ha : a.IsArray .char memory) (bs : List UInt8) :
    bodyFrames prev (p :: a :: es) bs = true ↔ 0 ≤ shortAt bs ∧
      2 + (shortAt bs).toNat ≤ bs.length ∧ bodyFrames a es (bs.drop (2 + (shortAt bs).toNat)) = true := by
  have hcode : DataType.ofCode a.type = some .char := by rw [ha.type, DataType.ofCode_code]
  have hvalue : (p.scalarRead .short (bs.take 2)).ivalue = shortAt bs := rfl
  simp only [bodyFrames, hp.ofCode, hp.data, hcode, ha.data, Bool.and_eq_true, decide_eq_true_eq]
  simp only [DataType.width, DataType.elemWidth, hvalue, Nat.one_mul, List.length_drop, List.drop_drop]
  constructor
  · rintro ⟨htwo, ⟨hnonneg, hsize⟩, hrest⟩
    exact ⟨hnonneg, by omega, hrest⟩
  · rintro ⟨hnonneg, hsize, hrest⟩
    exact ⟨by omega, ⟨hnonneg, by omega⟩, hrest⟩

namespace PeerTable

theorem frames_connect_iff (now : Int) (body : List UInt8) :
    (connect now nameBuffer nameBuffer).Frames body ↔ NamesFrame body := by
  have hshort (z : Int) : (scalarField .short z).IsScalar .short := ⟨rfl, rfl⟩
  have harray : (⟨DataType.char.code, 0, 0, some nameBuffer, -1⟩ : Field).IsArray .char nameBuffer :=
    ⟨rfl, rfl⟩
  have hbmark : (connect now nameBuffer nameBuffer).bmark.IsScalar .long := MsgTable.long_bmark
  have hnames (prev : Field) : bodyFrames prev (connect now nameBuffer nameBuffer).body (body.drop 4) =
      true ↔ _ := (bodyFrames_name (hshort _) harray _).trans
        (and_congr_right fun _ => and_congr_right fun _ => bodyFrames_name (hshort _) harray _)
  have hdrop (n : Nat) : (body.drop 4).drop (2 + n) = body.drop (6 + n) := by
    rw [List.drop_drop]
    congr 1
    omega
  rw [Frames, bodyFrames]
  simp only [hbmark.ofCode, hbmark.data, Bool.and_eq_true, decide_eq_true_eq]
  simp only [DataType.width]
  rw [hnames, hdrop, NamesFrame]
  simp only [bodyFrames, decide_eq_true_eq, List.length_drop]
  constructor
  · rintro ⟨hmark, hclient, hsize, hprocess, hsize', hend⟩
    exact ⟨hclient, hprocess, by omega⟩
  · rintro ⟨hclient, hprocess, hend⟩
    exact ⟨by omega, hclient, by omega, hprocess, by omega, by omega⟩

theorem frames_disconnect_iff (now : Int) (body : List UInt8) :
    (disconnect now).Frames body ↔ body.length = 12 := by
  have hbmark : (disconnect now).bmark.IsScalar .long := MsgTable.long_bmark
  have hbody : (disconnect now).body = [] := rfl
  rw [Frames, hbody, bodyFrames]
  simp only [hbmark.ofCode, hbmark.data, bodyFrames, Bool.and_eq_true, decide_eq_true_eq]
  simp only [DataType.width, List.length_drop]
  omega

end PeerTable

/-! ### The session -/

namespace Session

/-- What `read_packet_body` gets from `unserialize_body_packet`. -/
def bodyPacket (s : Session) (T : Target) (fields : List Field) :
    Except Fault (Int × InputStream × List Field) := do
  let (_, copied) ← copyFields fields s.packetHeader true
  let rd := InputStream.ofBuffer s.memory (toSizeT (s.headerInt FIELD_BSIZE))
  unserializeBodyPacket T rd copied (fieldsLen fields) true

variable {T : Target} {f : Frame} {s : Session} {body : List UInt8} {fields : List Field} {now : Int}

theorem decodeBody_eq (s : Session) (T : Target) (table : List Field) :
    s.decodeBody T table = s.bodyPacket T table >>= fun r => .ok (r.1, r.2.2) := by
  rw [decodeBody, bodyPacket]
  cases copyFields table s.packetHeader true <;> rfl

/-- An accepted body, with the stream it was taken from. -/
theorem accepted_packet (hready : f.session.Ready) (table : List Field)
    (htable : FIELD_BMARK ≤ table.length)
    (haccepted : (readPacketBody T table (fieldsLen table) f).1 = .ok (ERR_OK, fields)) :
    ∃ rd, f.session.bodyPacket T table = .ok (ERR_OK, rd, fields) := by
  rw [readPacketBody_run hready table htable, decodeBody_eq] at haccepted
  cases hpacket : f.session.bodyPacket T table with
  | error fault =>
    rw [hpacket] at haccepted
    cases haccepted
  | ok r =>
    obtain ⟨code, rd, decoded⟩ := r
    rw [hpacket] at haccepted
    cases haccepted
    exact ⟨rd, rfl⟩

/-- The decoder's view of an accepted body. -/
theorem HoldsBody.decoded (hbody : s.HoldsBody body) {hs rest : List Field} (hhs : IsHeader hs)
    (hheader : s.packetHeader = hs ++ rest) (t : PeerTable)
    (hwords : ∀ p ∈ t.body, p.data ≠ none → p.type ≠ DataType.llong.code) {rd : InputStream}
    (haccepted : s.bodyPacket T t.fields = .ok (ERR_OK, rd, fields)) :
    ∃ st : InputStream, st.consumed = [] ∧ st.rest = body ∧
      ∃ hcrc qs bcrc, t.Decoded st hs rd fields hcrc qs bcrc := by
  have hlt : (body.length : Int) < 2 ^ 31 := by
    rw [← hbody.bsize]
    exact BitVec.toInt_lt
  have hsize : toSizeT (s.headerInt FIELD_BSIZE) = body.length := by
    rw [hbody.bsize, toSizeT_eq (by omega) hlt, Int.toNat_natCast]
  have hroom : body.length ≤ s.memory.length := by
    have htake := congrArg List.length hbody.memory
    rw [List.length_take] at htake
    omega
  have hlength : t.fields.length = FIELD_BMARK + (t.bmark :: t.body ++ [t.bcrc, t.terminator]).length := by
    simp only [PeerTable.fields, List.length_append, t.length_header, List.cons_append, List.append_assoc]
  have hdrop : t.fields.drop FIELD_BMARK = t.bmark :: t.body ++ [t.bcrc, t.terminator] := by
    rw [PeerTable.fields, List.append_assoc, List.drop_left' t.length_header]
  have hcopy := copyFields_header hhs rest (show FIELD_BMARK ≤ t.fields.length by omega)
  rw [bodyPacket, hheader, hcopy, ok_bind, hsize, hdrop] at haccepted
  exact ⟨.ofBuffer s.memory body.length, rfl, hbody.memory,
    PeerTable.decoded hhs hwords rfl (Nat.sub_eq_zero_of_le hroom) haccepted⟩

section Framed

variable (hready : f.session.Ready) (hheader : IsHeader (f.session.packetHeader.take FIELD_BMARK))
  (hbody : f.session.HoldsBody body)

include hready hheader hbody

theorem connect_framed_iff
    (haccepted : (readPacketBody T (msgConnectFields now nameBuffer nameBuffer) 13 f).1 =
      .ok (ERR_OK, fields)) :
    ∃ rd, f.session.bodyPacket T (msgConnectFields now nameBuffer nameBuffer) = .ok (ERR_OK, rd, fields) ∧
      (Framed rd fields body.length ↔ NamesFrame body) := by
  have hsplit := (List.take_append_drop FIELD_BMARK f.session.packetHeader).symm
  obtain ⟨rd, hpacket⟩ := accepted_packet hready (msgConnectFields now nameBuffer nameBuffer)
    (show 7 ≤ 14 by decide) haccepted
  obtain ⟨st, hconsumed, rfl, hcrc, qs, bcrc, hdecoded⟩ := hbody.decoded hheader hsplit
    (.connect now nameBuffer nameBuffer) (by simp [PeerTable.connect, scalarField, DataType.code]) hpacket
  exact ⟨rd, hpacket, (framed_connect hheader hconsumed hdecoded).trans
    ((hdecoded.spent_iff 0).trans (PeerTable.frames_connect_iff now _))⟩

theorem disconnect_framed_iff
    (haccepted : (readPacketBody T (msgDisconnectFields now) 9 f).1 = .ok (ERR_OK, fields)) :
    ∃ rd, f.session.bodyPacket T (msgDisconnectFields now) = .ok (ERR_OK, rd, fields) ∧
      (Framed rd fields body.length ↔ body.length = 12) := by
  have hsplit := (List.take_append_drop FIELD_BMARK f.session.packetHeader).symm
  obtain ⟨rd, hpacket⟩ := accepted_packet hready (msgDisconnectFields now) (show 7 ≤ 10 by decide)
    haccepted
  obtain ⟨st, hconsumed, rfl, hcrc, qs, bcrc, hdecoded⟩ := hbody.decoded hheader hsplit
    (.disconnect now) (by simp [PeerTable.disconnect]) hpacket
  exact ⟨rd, hpacket, (framed_disconnect hheader hconsumed hdecoded).trans
    ((hdecoded.spent_iff 0).trans (PeerTable.frames_disconnect_iff now _))⟩

/-- **The size of an accepted body** is what the decoder takes and `fields_size` comes to exactly if
the lengths in it are not negative and its checksum stands at its end. -/
theorem framed_iff (now : Int) :
    (∀ fields, (readPacketBody T (msgConnectFields now nameBuffer nameBuffer) 13 f).1 =
        .ok (ERR_OK, fields) →
      ∃ rd, f.session.bodyPacket T (msgConnectFields now nameBuffer nameBuffer) = .ok (ERR_OK, rd, fields) ∧
        (Framed rd fields body.length ↔ NamesFrame body)) ∧
    (∀ fields, (readPacketBody T (msgDisconnectFields now) 9 f).1 = .ok (ERR_OK, fields) →
      ∃ rd, f.session.bodyPacket T (msgDisconnectFields now) = .ok (ERR_OK, rd, fields) ∧
        (Framed rd fields body.length ↔ body.length = 12)) :=
  ⟨fun _ => connect_framed_iff hready hheader hbody, fun _ => disconnect_framed_iff hready hheader hbody⟩

end Framed

/-- A session that has received a body into storage that was longer before. -/
def reusing (body : List UInt8) : Session :=
  ⟨32, setIvalue (msgCommonReqFields 0 MSG_DISCONNECT) FIELD_BSIZE body.length,
    ⟨body ++ List.replicate 32 0, body.length, by simp⟩, .empty⟩

theorem reusing_ready (body : List UInt8) : (reusing body).Ready :=
  ⟨rfl, by simp [reusing, setIvalue, msgCommonReqFields, msgHeader, msgTail, FIELD_BMARK],
    by simp [reusing]⟩

theorem reusing_body {body : List UInt8} (h : (body.length : Int) < 2 ^ 31) :
    (reusing body).HoldsBody body :=
  ⟨toInt32_eq (z := body.length) (by omega) h, List.take_left⟩

theorem reusing_header (body : List UInt8) :
    IsHeader ((reusing body).packetHeader.take FIELD_BMARK) := by
  have long (z : Int) : (scalarField .long z).IsScalar .long := ⟨rfl, rfl⟩
  exact .cons (long _) (.cons (long _) (.cons (long _) (.cons (long _) (.cons (long _)
    (.cons (long _) (.cons ⟨rfl, rfl⟩ .nil))))))

/-- Whether `read_packet_body` accepts the body. -/
def accepts (body : List UInt8) (table : List Field) : Bool :=
  (readPacketBody (.build .little) table (fieldsLen table) (.init (reusing body))).1.toOption.any
    fun r => r.1 == ERR_OK

theorem exists_of_accepts {table : List Field} (h : accepts body table = true) :
    ∃ fields, (readPacketBody (.build .little) table (fieldsLen table) (.init (reusing body))).1 =
      .ok (ERR_OK, fields) := by
  rw [accepts] at h
  cases hread : (readPacketBody (.build .little) table (fieldsLen table) (.init (reusing body))).1 with
  | error exit =>
    rw [hread] at h
    cases h
  | ok r =>
    rw [hread] at h
    obtain ⟨code, fields⟩ := r
    obtain rfl : code = ERR_OK := beq_iff_eq.mp h
    exact ⟨fields, rfl⟩

/-- Two names of one character, and a request to disconnect. -/
theorem framed_requests :
    (∃ rd fields, (reusing (crcBehind [0x22, 0x22, 0x22, 0x22, 0, 2, 0x61, 0, 0, 2, 0x62, 0] 0)).bodyPacket
        (.build .little) (msgConnectFields 0 nameBuffer nameBuffer) = .ok (ERR_OK, rd, fields) ∧
      Framed rd fields 20) ∧
    ∃ rd fields, (reusing (crcBehind [0x22, 0x22, 0x22, 0x22] 0)).bodyPacket (.build .little)
        (msgDisconnectFields 0) = .ok (ERR_OK, rd, fields) ∧
      Framed rd fields 12 := by
  constructor
  · obtain ⟨fields, haccepted⟩ := @exists_of_accepts
      (crcBehind [0x22, 0x22, 0x22, 0x22, 0, 2, 0x61, 0, 0, 2, 0x62, 0] 0)
      (msgConnectFields 0 nameBuffer nameBuffer) (by decide +kernel)
    obtain ⟨rd, hpacket, hiff⟩ := (framed_iff (reusing_ready _) (reusing_header _)
      (reusing_body (by decide)) 0).1 fields haccepted
    exact ⟨rd, fields, hpacket, hiff.mpr (by decide)⟩
  · obtain ⟨fields, haccepted⟩ := @exists_of_accepts (crcBehind [0x22, 0x22, 0x22, 0x22] 0)
      (msgDisconnectFields 0) (by decide +kernel)
    obtain ⟨rd, hpacket, hiff⟩ := (framed_iff (reusing_ready _) (reusing_header _)
      (reusing_body (by decide)) 0).2 fields haccepted
    exact ⟨rd, fields, hpacket, hiff.mpr rfl⟩

/-- A byte behind the checksum, and a name of -1 characters. -/
theorem accepted_unframed :
    (∃ rd fields, (reusing (crcBehind [0x22, 0x22, 0x22, 0x22] 0 ++ [0])).bodyPacket (.build .little)
        (msgDisconnectFields 0) = .ok (ERR_OK, rd, fields) ∧
      ¬ Framed rd fields 13) ∧
    ∃ rd fields, (reusing (crcBehind [0x22, 0x22, 0x22, 0x22, 0xff, 0xff, 0, 0] 0)).bodyPacket
        (.build .little) (msgConnectFields 0 nameBuffer nameBuffer) = .ok (ERR_OK, rd, fields) ∧
      ¬ Framed rd fields 16 := by
  constructor
  · obtain ⟨fields, haccepted⟩ := @exists_of_accepts (crcBehind [0x22, 0x22, 0x22, 0x22] 0 ++ [0])
      (msgDisconnectFields 0) (by decide +kernel)
    obtain ⟨rd, hpacket, hiff⟩ := disconnect_framed_iff (reusing_ready _) (reusing_header _)
      (reusing_body (by decide)) haccepted
    exact ⟨rd, fields, hpacket, fun h => absurd (hiff.mp h) (by decide)⟩
  · obtain ⟨fields, haccepted⟩ := @exists_of_accepts
      (crcBehind [0x22, 0x22, 0x22, 0x22, 0xff, 0xff, 0, 0] 0)
      (msgConnectFields 0 nameBuffer nameBuffer) (by decide +kernel)
    obtain ⟨rd, hpacket, hiff⟩ := connect_framed_iff (reusing_ready _) (reusing_header _)
      (reusing_body (by decide)) haccepted
    exact ⟨rd, fields, hpacket, fun h => absurd (hiff.mp h) (by decide)⟩

end Session

end Librtaio

import Librtaio.BodyTotality
import Librtaio.LengthPrefixes

/-!
# The tables that the codec refuses

The encoder and the decoder both refuse an array that is not where an array may be, but they do
not ask the same. The encoder asks for a SHORT or LONG entry in front of an array whose count is not
positive, whatever that entry is; the decoder asks for one in front of an array of negative count
only, and of an array of count -1 also that the entry in front of it is not an array itself. Both
sides of the codec are followed here through any body, with every access within its block.
-/

namespace Librtaio

open Bytes Crc32

/-! ### Entries somewhere in a body -/

/-- Somewhere among the entries one is in the relation to the one in front of it. -/
def Somewhere (R : Field → Field → Prop) : Field → List Field → Prop
  | _, [] => False
  | prev, p :: es => R p prev ∨ Somewhere R p es

section Somewhere

variable {R S : Field → Field → Prop} {prev p : Field} {es ds : List Field}

theorem somewhere_or : Somewhere (fun p prev => R p prev ∨ S p prev) prev es ↔
    Somewhere R prev es ∨ Somewhere S prev es := by
  induction es generalizing prev with
  | nil => simp [Somewhere]
  | cons p es ih =>
    simp only [Somewhere, ih]
    tauto

theorem Somewhere.of_split (h : R p (lastEntry prev ds)) (rest : List Field) :
    Somewhere R prev (ds ++ p :: rest) := by
  induction ds generalizing prev with
  | nil => exact .inl h
  | cons q ds ih => exact .inr (ih h)

theorem not_somewhere_iff : ¬ Somewhere R prev es ↔
    (prev :: es).IsChain fun prev p => ¬ R p prev := by
  induction es generalizing prev with
  | nil => simp [Somewhere]
  | cons p es ih => rw [Somewhere, List.isChain_cons_cons, ← ih, not_or]

instance decidableSomewhere [∀ p prev, Decidable (R p prev)] :
    ∀ prev es, Decidable (Somewhere R prev es)
  | _, [] => inferInstanceAs (Decidable False)
  | _, p :: es =>
    have : Decidable (Somewhere R p es) := decidableSomewhere p es
    inferInstanceAs (Decidable (_ ∨ _))

/-- Of the entry in front it only matters how it is related to the next one. -/
theorem somewhere_congr {prev' : Field} (h : ∀ q, R q prev ↔ R q prev') :
    Somewhere R prev es ↔ Somewhere R prev' es := by
  cases es with
  | nil => exact Iff.rfl
  | cons p es => simp only [Somewhere, h]

end Somewhere

namespace Field

/-- An array that the decoder refuses: its count is negative, and it does not follow a SHORT or LONG
entry, or it takes its length from an array. -/
def Rejected (p prev : Field) : Prop :=
  p.data ≠ none ∧ p.count < 0 ∧
    ((prev.type ≠ TYPE_SHORT ∧ prev.type ≠ TYPE_LONG) ∨ (p.count = -1 ∧ prev.data ≠ none))

/-- What both refuse. -/
def Stray (p prev : Field) : Prop :=
  p.data ≠ none ∧ p.count < 0 ∧ prev.type ≠ TYPE_SHORT ∧ prev.type ≠ TYPE_LONG

/-- What only the encoder refuses. -/
def EmptyStray (p prev : Field) : Prop :=
  p.data ≠ none ∧ p.count = 0 ∧ prev.type ≠ TYPE_SHORT ∧ prev.type ≠ TYPE_LONG

/-- What only the decoder refuses. -/
def AfterArray (p prev : Field) : Prop :=
  p.data ≠ none ∧ p.count = -1 ∧ prev.data ≠ none ∧
    (prev.type = TYPE_SHORT ∨ prev.type = TYPE_LONG)

instance (p prev : Field) : Decidable (p.Rejected prev) := inferInstanceAs (Decidable (_ ∧ _))
instance (p prev : Field) : Decidable (p.Stray prev) := inferInstanceAs (Decidable (_ ∧ _))
instance (p prev : Field) : Decidable (p.EmptyStray prev) := inferInstanceAs (Decidable (_ ∧ _))
instance (p prev : Field) : Decidable (p.AfterArray prev) := inferInstanceAs (Decidable (_ ∧ _))

theorem misplaced_iff {p prev : Field} :
    p.Misplaced prev ↔ p.Stray prev ∨ p.EmptyStray prev := by
  constructor
  · rintro ⟨hdata, hcount, htype⟩
    rcases Int.lt_or_eq_of_le hcount with hneg | hzero
    · exact .inl ⟨hdata, hneg, htype⟩
    · exact .inr ⟨hdata, hzero, htype⟩
  · rintro (⟨hdata, hneg, htype⟩ | ⟨hdata, hzero, htype⟩)
    · exact ⟨hdata, hneg.le, htype⟩
    · exact ⟨hdata, hzero.le, htype⟩

theorem rejected_iff {p prev : Field} :
    p.Rejected prev ↔ p.Stray prev ∨ p.AfterArray prev := by
  constructor
  · rintro ⟨hdata, hcount, hprev⟩
    by_cases htype : prev.type = TYPE_SHORT ∨ prev.type = TYPE_LONG
    · rcases hprev with ⟨hshort, hlong⟩ | ⟨hone, harray⟩
      · exact absurd htype (not_or.mpr ⟨hshort, hlong⟩)
      · exact .inr ⟨hdata, hone, harray, htype⟩
    · exact .inl ⟨hdata, hcount, not_or.mp htype⟩
  · rintro (⟨hdata, hneg, htype⟩ | ⟨hdata, hone, harray, -⟩)
    · exact ⟨hdata, hneg, .inl htype⟩
    · exact ⟨hdata, by omega, .inr ⟨hone, harray⟩⟩

/-- What the codec asks of the entry in front. -/
theorem rejected_congr {prev prev' : Field} (htype : prev'.type = prev.type)
    (hdata : prev'.data = none ↔ prev.data = none) (p : Field) :
    p.Rejected prev ↔ p.Rejected prev' := by
  simp only [Rejected, htype, ne_eq, hdata]

end Field

/-! ### The encoder -/

/-- The elements of every array that is not refused are in its memory. -/
def AllHeld (cnt : Int) (prev : Field) (es : List Field) : Prop :=
  (prev :: es).IsChain fun prev p =>
    ∀ ty memory, p.IsArray ty memory → ¬ p.Misplaced prev → p.Held cnt prev ty memory

namespace BodyTable

variable {t : BodyTable} {T : Target} {buffer : List UInt8}

/-- **The encoder's error.** -/
theorem serializePacket_refused_iff (htyped : Typed t.body) (hblocks : Blocks t.body)
    (hheld : AllHeld t.cnt t.bmark t.body)
    (hroom : 44 + covereds t.cnt t.bmark t.body ≤ buffer.length) :
    (∃ out fields, serializePacket T (.ofBuffer buffer) t.fields t.len =
        .ok (ERR_ENCODE_ERROE, out, fields)) ↔
      Somewhere Field.Misplaced t.bmark t.body := by
  rcases exists_first_not_encoded t.cnt t.bmark t.body with hbody | ⟨ds, p, rest, hsplit, hds, hp⟩
  · have hwritten := takes_written (List.append_nil _).symm hbody hblocks hroom (T := T)
    have hrun := @serializePacket_encoded t T (.ofBuffer buffer) hbody rfl (.inr hwritten)
    have hnowhere : ¬ Somewhere Field.Misplaced t.bmark t.body := by
      rw [not_somewhere_iff]
      refine hbody.imp fun prev p hp hmisplaced => ?_
      cases hp with
      | scalar ty hscalar => exact hmisplaced.1 hscalar.data
      | array ty memory harray hplaced => exact hplaced hmisplaced
    refine ⟨?_, fun hsomewhere => absurd hsomewhere hnowhere⟩
    rintro ⟨out, fields, hrefused⟩
    rw [hrun] at hrefused
    exact absurd (congrArg Prod.fst (Except.ok.inj hrefused)) (show ERR_OK ≠ ERR_ENCODE_ERROE by decide)
  · have hplaced : p.Misplaced (lastEntry t.bmark ds) := by
      by_contra hplaced
      obtain ⟨ty, htype⟩ := htyped p (by rw [hsplit]; simp)
      cases hdata : p.data with
      | none => exact hp (.scalar ty ⟨htype, hdata⟩)
      | some memory =>
        rw [AllHeld, hsplit] at hheld
        exact hp (.array ty memory ⟨htype, hdata⟩ hplaced
          (isChain_split hheld ty memory ⟨htype, hdata⟩ hplaced))
    obtain ⟨fields, hrun⟩ := RefusedAfter.run ⟨hds, p, rest, hsplit, hplaced⟩ htyped hblocks hroom
      (T := T)
    refine ⟨fun _ => ?_, fun _ => ⟨_, fields, hrun⟩⟩
    rw [hsplit]
    exact .of_split hplaced rest

end BodyTable

/-! ### The decoder -/

/-- The elements that are read into an array. -/
def Field.taken (p : Field) (cnt : Int) (prev : Field) : Nat :=
  if 0 ≤ p.count then (cnt * p.count).toNat else if p.count = -1 then prev.ivalue.toNat else 0

/-- The bytes of a body have everything that is read from them for the entries, and the arrays have
the memory for it; a length is the one that was read. -/
inductive Supplied (cnt : Int) : Field → List Field → List UInt8 → Prop where
  | bcrc {prev : Field} {bs : List UInt8} (hbs : 8 ≤ bs.length) : Supplied cnt prev [] bs
  | scalar {prev p : Field} {es : List Field} {bs : List UInt8} (ty : DataType) (hp : p.IsScalar ty)
      (hbs : ty.width ≤ bs.length)
      (hrest : Supplied cnt (p.scalarRead ty (bs.take ty.width)) es (bs.drop ty.width)) :
      Supplied cnt prev (p :: es) bs
  | array {prev p : Field} {es : List Field} {bs : List UInt8} (ty : DataType) (memory : List UInt8)
      (hp : p.IsArray ty memory)
      (hint : 0 ≤ p.count → 0 ≤ cnt * p.count ∧ cnt * p.count < 2 ^ 31)
      (hbs : ty.elemWidth * p.taken cnt prev ≤ bs.length)
      (hmem : ty.elemWidth * p.taken cnt prev ≤ memory.length)
      (hrest : Supplied cnt p es (bs.drop (ty.elemWidth * p.taken cnt prev))) :
      Supplied cnt prev (p :: es) bs
  | rejected {prev p : Field} {es : List Field} {bs : List UInt8} (ty : DataType) (memory : List UInt8)
      (hp : p.IsArray ty memory) (hrejected : p.Rejected prev) : Supplied cnt prev (p :: es) bs

/-- The entry in front as the decoder has it: the elements of an array may have been read. -/
def Alike (prev prev' : Field) : Prop :=
  prev' = prev ∨ prev'.type = prev.type ∧ prev.data ≠ none ∧ prev'.data ≠ none

theorem Alike.rejected {prev prev' p : Field} (h : Alike prev prev') :
    p.Rejected prev ↔ p.Rejected prev' := by
  rcases h with rfl | ⟨htype, hdata, hdata'⟩
  · exact Iff.rfl
  · exact Field.rejected_congr htype (by simp only [hdata, hdata']) p

section Decoder

variable {T : Target} {len cnt : Int} {base : Nat} {s : InputStream} {v : Locals}
  {prev prev' p bcrc terminator : Field} {ty : DataType} {memory bs : List UInt8} {es : List Field}

theorem unserializeField_rejected (hp : p.IsArray ty memory) (h : p.Rejected prev) :
    unserializeField T cnt (some prev) v s p = .ok (some ERR_DECODE_ERROE, s, v, p) := by
  obtain ⟨-, hneg, hprev⟩ := h
  simp only [unserializeField, hp.data, if_neg (show ¬ p.count ≥ 0 by omega)]
  by_cases htype : prev.type ≠ TYPE_SHORT ∧ prev.type ≠ TYPE_LONG
  · rw [if_pos htype]
  · obtain ⟨hone, harray⟩ := hprev.resolve_left htype
    rw [if_neg htype, if_pos hone, if_pos harray]

/-- What the decoder makes of an array that it does not refuse. -/
theorem unserializeField_array (hp : p.IsArray ty memory) (hplaced : ¬ p.Rejected prev)
    (hprev : Alike prev prev') (hlength : IntLength prev)
    (hint : 0 ≤ p.count → 0 ≤ cnt * p.count ∧ cnt * p.count < 2 ^ 31) (hgood : s.good = true)
    (hbs : ty.elemWidth * p.taken cnt prev ≤ s.rest.length)
    (hmem : ty.elemWidth * p.taken cnt prev ≤ memory.length) :
    ∃ p', unserializeField T cnt (some prev') v s p =
        .ok (none, s.advance (ty.elemWidth * p.taken cnt prev), v, p') ∧ Alike p p' := by
  have hread (n : Nat) (bs : List UInt8) : Alike p (p.arrayRead T.order ty memory n bs) :=
    .inr ⟨rfl, by simp [hp.data], by simp [Field.arrayRead]⟩
  by_cases hcount : 0 ≤ p.count
  · obtain ⟨hnonneg, hlt⟩ := hint hcount
    have htaken : p.taken cnt prev = (cnt * p.count).toNat := if_pos hcount
    rw [htaken] at hbs hmem ⊢
    exact ⟨_, unserializeField_counted cnt (some prev') v hp hcount hnonneg hlt hgood hbs hmem,
      hread _ _⟩
  · have hdata : p.data ≠ none := by simp [hp.data]
    have htype : prev.type = TYPE_SHORT ∨ prev.type = TYPE_LONG := by
      by_contra htype
      exact hplaced ⟨hdata, by omega, .inl (not_or.mp htype)⟩
    by_cases hone : p.count = -1
    · have hscalar : prev.data = none := by
        by_contra harray
        exact hplaced ⟨hdata, by omega, .inr ⟨hone, harray⟩⟩
      obtain rfl : prev' = prev := hprev.resolve_right fun h => h.2.1 hscalar
      have hislength : prev'.IsLength := htype.imp (⟨·, hscalar⟩) (⟨·, hscalar⟩)
      obtain ⟨hint32, hlt⟩ := hlength hislength
      have htaken : p.taken cnt prev' = prev'.ivalue.toNat := by
        rw [Field.taken, if_neg hcount, if_pos hone]
      rw [htaken] at hbs hmem ⊢
      exact ⟨_, unserializeField_prefixed cnt v hp hone hislength hint32 hlt hgood hbs hmem,
        hread _ _⟩
    · have htype' : prev'.type = TYPE_SHORT ∨ prev'.type = TYPE_LONG := by
        rcases hprev with rfl | ⟨h, -⟩
        · exact htype
        · rwa [h]
      have htaken : p.taken cnt prev = 0 := by
        rw [Field.taken, if_neg hcount, if_neg hone]
      have hadvance : s.advance 0 = s := by simp [InputStream.advance]
      refine ⟨p, ?_, .inl rfl⟩
      rw [htaken, Nat.mul_zero, hadvance]
      simp only [unserializeField, hp.data, if_neg (show ¬ p.count ≥ 0 from hcount), if_neg hone,
        if_neg (show ¬ (prev'.type ≠ TYPE_SHORT ∧ prev'.type ≠ TYPE_LONG) by tauto)]

theorem unserializeBodyLoop_rejected {n : Nat} {crc : BitVec 32} {compareCrc : Bool}
    (hp : p.IsArray ty memory) (h : p.Rejected prev) (rest : List Field) :
    unserializeBodyLoop T len compareCrc cnt base n crc v (some prev) s (p :: rest) =
      .ok (ERR_DECODE_ERROE, s, p :: rest) := by
  simp only [unserializeBodyLoop, if_neg hp.type_nonneg.not_gt, unserializeField_rejected hp h, ok_bind]

theorem unserializeBodyLoop_supplied (hbcrc : bcrc.IsScalar .llong) (hterm : terminator.type < 0)
    (h : Supplied cnt prev es bs) : ∀ (n : Nat) (crc : BitVec 32) (v : Locals) (prev' : Field)
      (s : InputStream), Alike prev prev' → IntLength prev → s.good = true → s.rest = bs →
      (n : Int) + es.length = len - 1 →
      ∃ code s' fields, unserializeBodyLoop T len false cnt base n crc v (some prev') s
          (es ++ [bcrc, terminator]) = .ok (code, s', fields) ∧
        (code = ERR_DECODE_ERROE ↔ Somewhere Field.Rejected prev es) := by
  induction h with
  | bcrc hbs =>
    intro n crc v prev' s _ _ hgood hrest hlast
    subst hrest
    refine ⟨_, _, _, unserializeBodyLoop_bcrc v hbcrc (by simpa using hlast) hterm hgood hbs, ?_⟩
    simp [Somewhere, ERR_OK, ERR_DECODE_ERROE, toInt32]
  | @scalar prev p es bs ty hp hbs hrest ih =>
    intro n crc v prev' s _ _ hgood hbytes hlast
    subst hbytes
    rw [List.length_cons] at hlast
    obtain ⟨v', hfield⟩ := unserializeField_scalar (T := T) cnt (some prev') v hp hgood hbs
    obtain ⟨code, s', fields, hloop, hcode⟩ := ih (n + 1) crc v' _ (s.advance ty.width) (.inl rfl)
      (intLength_scalarRead hp _) hgood rfl (by omega)
    refine ⟨code, s', p.scalarRead ty (s.rest.take ty.width) :: fields, ?_, ?_⟩
    · rw [List.cons_append, unserializeBodyLoop_step hp.type_nonneg (by omega) hfield, hloop, ok_bind]
    · have hnot : ¬ p.Rejected prev := fun hrejected => hrejected.1 hp.data
      have hhead : Somewhere Field.Rejected p es ↔
          Somewhere Field.Rejected (p.scalarRead ty (s.rest.take ty.width)) es :=
        somewhere_congr (Field.rejected_congr (Field.scalarRead_type p ty (s.rest.take ty.width))
          (by rw [Field.scalarRead_data p ty (s.rest.take ty.width)]))
      rw [hcode, Somewhere, ← hhead]
      simp only [hnot, false_or]
  | @array prev p es bs ty memory hp hint hbs hmem hrest ih =>
    intro n crc v prev' s hprev hlength hgood hbytes hlast
    subst hbytes
    rw [List.length_cons] at hlast
    by_cases hrejected : p.Rejected prev
    · exact ⟨_, _, _, unserializeBodyLoop_rejected hp (hprev.rejected.mp hrejected) _,
        iff_of_true rfl (.inl hrejected)⟩
    · obtain ⟨p', hfield, halike⟩ := unserializeField_array (T := T) (v := v) hp hrejected hprev
        hlength hint hgood hbs hmem
      obtain ⟨code, s', fields, hloop, hcode⟩ := ih (n + 1) crc v p'
        (s.advance (ty.elemWidth * p.taken cnt prev)) halike
        (fun h => absurd h.data (by simp [hp.data])) hgood rfl (by omega)
      refine ⟨code, s', p' :: fields, ?_, ?_⟩
      · rw [List.cons_append, unserializeBodyLoop_step hp.type_nonneg (by omega) hfield, hloop, ok_bind]
      · rw [hcode, Somewhere]
        simp only [hrejected, false_or]
  | @rejected prev p es bs ty memory hp hrejected =>
    intro n crc v prev' s hprev _ _ _ _
    exact ⟨_, _, _, unserializeBodyLoop_rejected hp (hprev.rejected.mp hrejected) _,
      iff_of_true rfl (.inl hrejected)⟩

/-- **The decoder's error.** -/
theorem BodyTable.unserializeBodyPacket_rejected_iff {t : BodyTable} (hgood : s.good = true)
    (h : Supplied (toInt32 t.cnt) t.hcrc (t.bmark :: t.body) s.rest) :
    (∃ s' fields, unserializeBodyPacket T s t.fields t.len false =
        .ok (ERR_DECODE_ERROE, s', fields)) ↔
      Somewhere Field.Rejected t.bmark t.body := by
  have hlast : ((FIELD_BMARK : Nat) : Int) + (t.bmark :: t.body).length = t.len - 1 := by
    rw [len, List.length_cons, FIELD_BMARK]
    omega
  obtain ⟨code, s', fields, hloop, hcode⟩ := @unserializeBodyLoop_supplied T t.len (toInt32 t.cnt)
    s.consumed.length t.hcrc t.bcrc t.terminator _ _ t.bcrc_llong t.terminator_neg h FIELD_BMARK 0
    .zero t.hcrc s (.inl rfl) (fun hlength => absurd hlength t.hcrc_llong.not_isLength) hgood rfl hlast
  have hrun : unserializeBodyPacket T s t.fields t.len false =
      .ok (code, s', t.hmark :: t.plain ++ [t.hcrc] ++ fields) := by
    have hpacket : unserializeBodyPacket T s t.fields t.len false =
        (unserializeBodyLoop T t.len false (toInt32 t.cnt) s.consumed.length FIELD_BMARK 0 .zero
          (some t.hcrc) s (t.bmark :: t.body ++ [t.bcrc, t.terminator]) >>= fun r =>
            .ok (r.1, r.2.1, t.hmark :: t.plain ++ [t.hcrc] ++ r.2.2)) := rfl
    rw [hpacket, hloop, ok_bind]
  have hmark : ¬ t.bmark.Rejected t.hcrc := fun hrejected => hrejected.1 t.bmark_long.data
  rw [Somewhere] at hcode
  simp only [hmark, false_or] at hcode
  rw [hrun, ← hcode]
  constructor
  · rintro ⟨s'', fields', hsame⟩
    exact congrArg Prod.fst (Except.ok.inj hsame)
  · rintro rfl
    exact ⟨_, _, rfl⟩

end Decoder

/-! ### Tables of one shape -/

/-- Two entries with the same type and count, both scalars or both arrays. -/
structure SameShape (p q : Field) : Prop where
  type : q.type = p.type
  count : q.count = p.count
  data : q.data = none ↔ p.data = none

theorem SameShape.rejected {p q prev prev' : Field} (h : SameShape p q)
    (htype : prev'.type = prev.type) (hdata : prev'.data = none ↔ prev.data = none) :
    q.Rejected prev' ↔ p.Rejected prev := by
  simp only [Field.Rejected, h.count, h.data, htype, hdata, ne_eq]

theorem somewhere_sameShape {es ds : List Field} (h : List.Forall₂ SameShape es ds) :
    ∀ {prev prev' : Field}, prev'.type = prev.type → (prev'.data = none ↔ prev.data = none) →
      (Somewhere Field.Rejected prev' ds ↔ Somewhere Field.Rejected prev es) := by
  induction h with
  | nil => intro prev prev' _ _; exact Iff.rfl
  | cons hp _ ih =>
    intro prev prev' htype hdata
    rw [Somewhere, Somewhere, hp.rejected htype hdata, ih hp.type hp.data]

/-! ### The codec -/

/-- The encoder refuses the table `t` if and only if the decoder refuses the table `u`. -/
def RefusedAlike (T T' : Target) (t u : BodyTable) (buffer : List UInt8) (s : InputStream) : Prop :=
  (∃ out fields, serializePacket T (.ofBuffer buffer) t.fields t.len =
      .ok (ERR_ENCODE_ERROE, out, fields)) ↔
    ∃ s' fields, unserializeBodyPacket T' s u.fields u.len false = .ok (ERR_DECODE_ERROE, s', fields)

/-- **Refused tables.** Encoder and decoder refuse the same table exactly if it has an array that
both of them refuse, or none of those that only one of them does, or of either kind. -/
theorem refusedAlike_iff {T T' : Target} {t u : BodyTable} {buffer : List UInt8} {s : InputStream}
    (hshape : List.Forall₂ SameShape t.body u.body) (htyped : Typed t.body) (hblocks : Blocks t.body)
    (hheld : AllHeld t.cnt t.bmark t.body)
    (hroom : 44 + covereds t.cnt t.bmark t.body ≤ buffer.length) (hgood : s.good = true)
    (hsupplied : Supplied (toInt32 u.cnt) u.hcrc (u.bmark :: u.body) s.rest) :
    RefusedAlike T T' t u buffer s ↔
      Somewhere Field.Stray t.bmark t.body ∨
        (Somewhere Field.EmptyStray t.bmark t.body ↔ Somewhere Field.AfterArray t.bmark t.body) := by
  have hencoder := BodyTable.serializePacket_refused_iff htyped hblocks hheld hroom (T := T)
  have hdecoder := BodyTable.unserializeBodyPacket_rejected_iff hgood hsupplied (T := T')
  have hmarks := somewhere_sameShape hshape (u.bmark_long.type.trans t.bmark_long.type.symm)
    (iff_of_true u.bmark_long.data t.bmark_long.data)
  have hmisplaced : Somewhere Field.Misplaced t.bmark t.body ↔
      Somewhere Field.Stray t.bmark t.body ∨ Somewhere Field.EmptyStray t.bmark t.body := by
    rw [← somewhere_or]
    simp only [← Field.misplaced_iff]
  have hrejected : Somewhere Field.Rejected t.bmark t.body ↔
      Somewhere Field.Stray t.bmark t.body ∨ Somewhere Field.AfterArray t.bmark t.body := by
    rw [← somewhere_or]
    simp only [← Field.rejected_iff]
  rw [RefusedAlike, hencoder, hdecoder, hmarks, hmisplaced, hrejected]
  tauto

/-- A CHAR array behind the SHORT that is its length. -/
def nameTable (length : Int) (memory : List UInt8) : BodyTable :=
  .ofBody 0 MSG_COMMON 0 1 [scalarField .short length, ⟨DataType.char.code, 0, 0, some memory, -1⟩]

theorem typed_pair {p q : Field} (ty ty' : DataType) (hp : p.type = ty.code)
    (hq : q.type = ty'.code) : Typed [p, q] := by
  intro r hr
  rcases List.mem_pair.mp hr with rfl | rfl
  · exact ⟨ty, hp⟩
  · exact ⟨ty', hq⟩

/-- Two letters, which neither refuses. -/
theorem refusedAlike_name :
    RefusedAlike (.build .little) (.build .big) (nameTable 2 [104, 105]) (nameTable 0 [0, 0, 0])
      (List.replicate 64 0)
      (.ofBuffer [0x22, 0x22, 0x22, 0x22, 0, 2, 104, 105, 0, 0, 0, 0, 0, 0, 0, 0] 16) := by
  have htyped : Typed (nameTable 2 [104, 105]).body := typed_pair .short .char rfl rfl
  have hblocks : Blocks (nameTable 2 [104, 105]).body := by
    simp [Blocks, nameTable, BodyTable.ofBody, scalarField]
  have hheld : AllHeld (nameTable 2 [104, 105]).cnt (nameTable 2 [104, 105]).bmark
      (nameTable 2 [104, 105]).body := by
    refine .cons_cons (fun ty memory h _ => absurd h.data (by simp [scalarField]))
      (.cons_cons (fun ty memory h _ => ?_) (.singleton _))
    obtain rfl : [104, 105] = memory := Option.some.inj h.data
    obtain rfl : DataType.char = ty := DataType.code_injective h.type
    exact ⟨fun hpos => absurd hpos (by decide), fun _ => by decide⟩
  exact (refusedAlike_iff (.cons ⟨rfl, rfl, Iff.rfl⟩ (.cons ⟨rfl, rfl, by simp⟩ .nil)) htyped hblocks
    hheld (by decide) rfl (.scalar .long ⟨rfl, rfl⟩ (by decide) (.scalar .short ⟨rfl, rfl⟩ (by decide)
      (.array .char _ ⟨rfl, rfl⟩ (by decide) (by decide) (by decide) (.bcrc (by decide)))))).mpr
    (by decide)

/-- An array of no elements behind a CHAR entry. -/
def emptyTable : BodyTable :=
  .ofBody 0 MSG_COMMON 0 1 [scalarField .char 1, ⟨DataType.char.code, 0, 0, some [], 0⟩]

/-- Only the encoder refuses it. -/
theorem not_refusedAlike_empty :
    ¬ RefusedAlike (.build .little) (.build .big) emptyTable emptyTable (List.replicate 64 0)
      (.ofBuffer [0x22, 0x22, 0x22, 0x22, 1, 0, 0, 0, 0, 0, 0, 0, 0] 13) := by
  have hheld : AllHeld emptyTable.cnt emptyTable.bmark emptyTable.body :=
    .cons_cons (fun ty memory h _ => absurd h.data (by simp [scalarField]))
      (.cons_cons (fun ty memory _ hplaced => absurd (by decide) hplaced) (.singleton _))
  have htyped : Typed emptyTable.body := typed_pair .char .char rfl rfl
  have hblocks : Blocks emptyTable.body := by
    simp [Blocks, emptyTable, BodyTable.ofBody, scalarField]
  have hencoder := @BodyTable.serializePacket_refused_iff emptyTable (.build .little)
    (List.replicate 64 0) htyped hblocks hheld (by decide)
  have hdecoder := BodyTable.unserializeBodyPacket_rejected_iff (T := .build .big) (t := emptyTable)
    (s := .ofBuffer [0x22, 0x22, 0x22, 0x22, 1, 0, 0, 0, 0, 0, 0, 0, 0] 13) rfl
    (.scalar .long ⟨rfl, rfl⟩ (by decide) (.scalar .char ⟨rfl, rfl⟩ (by decide)
      (.array .char _ ⟨rfl, rfl⟩ (by decide) (by decide) (by decide) (.bcrc (by decide)))))
  rw [RefusedAlike, hencoder, hdecoder]
  decide

end Librtaio

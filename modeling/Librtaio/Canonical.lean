import Librtaio.RefusedTables

/-!
# Canonical packets

The decoders read all 64 bits of a checksum's entry and compare the low 32 of them with the
checksum, which the encoder sends behind 32 zero bits. What is decoded from an accepted packet is
encoded to the same bytes again, but for the upper half of its checksums.
-/

namespace Librtaio

open Bytes Crc32

/-! ### The stream a decoder leaves -/

theorem bind_eq_ok {ε α β : Type} {x : Except ε α} {f : α → Except ε β} {b : β} :
    (x >>= f) = .ok b ↔ ∃ a, x = .ok a ∧ f a = .ok b := by
  cases x <;> simp

/-- Leaving with a value, or going on. -/
theorem leave_or {ε α : Type} {c : Prop} [Decidable c] {a r : α} {x : Except ε α}
    (h : (if c then .ok a else x) = .ok r) : r = a ∨ x = .ok r := by
  split at h
  · exact .inl (Except.ok.inj h).symm
  · exact .inr h

namespace InputStream

/-- A stream that some more bytes were taken from. -/
def Later (s s' : InputStream) : Prop := ∃ n good, s' = { s.advance n with good := good }

variable {s s' s'' : InputStream}

theorem Later.refl (s : InputStream) : s.Later s := ⟨0, s.good, by simp [advance]⟩

theorem Later.trans (h : s.Later s') (h' : s'.Later s'') : s.Later s'' := by
  obtain ⟨n, good, rfl⟩ := h
  obtain ⟨n', good', rfl⟩ := h'
  exact ⟨n + n', good', by simp [advance, List.take_add]⟩

variable {T : Target} {x : List UInt8}

theorem xsgetn_later {n : Nat} {r : Nat × List UInt8 × InputStream} (h : s.xsgetn T x n = .ok r) :
    r.2.2 = s.advance n := by
  unfold xsgetn at h
  dsimp only at h
  split at h
  · cases h
  · split at h
    · cases h
    · split at h
      · obtain ⟨ch, -, hgot⟩ := bind_eq_ok.mp h
        cases hgot
        rfl
      · cases h
        rfl

theorem read_later {n : Int} {r : Bool × List UInt8 × InputStream} (h : s.read T x n = .ok r) :
    s.Later r.2.2 := by
  unfold read at h
  split at h
  · cases h
    exact .refl s
  · split at h
    · cases h
      exact ⟨0, false, by simp [advance]⟩
    · obtain ⟨got, hget, hr⟩ := bind_eq_ok.mp h
      have hadvance := xsgetn_later hget
      cases hr
      dsimp only
      split
      · exact ⟨_, _, hadvance⟩
      · exact ⟨_, _, by rw [hadvance]⟩

theorem readWord_later {w : Nat} {swap : BitVec (8 * w) → BitVec (8 * w)} {v : BitVec (8 * w)}
    {r : Bool × BitVec (8 * w) × InputStream} (h : readWord T w swap s v = .ok r) : s.Later r.2.2 := by
  obtain ⟨got, hread, hr⟩ := bind_eq_ok.mp h
  cases hr
  exact read_later hread

theorem readArray_later {size count : Nat} {r : Bool × List UInt8 × InputStream}
    (h : s.readArray T x size count = .ok r) : s.Later r.2.2 := by
  obtain ⟨got, hread, hr⟩ := bind_eq_ok.mp h
  have hlater := read_later hread
  dsimp only at hr
  split at hr <;> (cases hr; exact hlater)

end InputStream

section Decoders

variable {T : Target} {s : InputStream} {v : Locals} {p : Field} {cnt : Int} {prev : Option Field}

theorem getScalar_later {r : InputStream × Locals × Field} (h : getScalar T s v p = .ok r) :
    s.Later r.1 := by
  unfold getScalar at h
  split at h
  case h_8 =>
    cases h
    exact .refl s
  all_goals
    obtain ⟨got, hread, hr⟩ := bind_eq_ok.mp h
    cases hr
    exact InputStream.readWord_later hread

theorem getArray_later {type count : Int} {data : List UInt8} {r : Bool × List UInt8 × InputStream}
    (h : getArray T s type data count = .ok r) : s.Later r.2.2 := by
  unfold getArray at h
  split at h
  case h_8 =>
    cases h
    exact .refl s
  all_goals exact InputStream.readArray_later h

theorem unserializeField_later {r : Option Int × InputStream × Locals × Field}
    (h : unserializeField T cnt prev v s p = .ok r) : s.Later r.2.1 := by
  have array {type count : Int} {data : List UInt8}
      (h : (getArray T s type data count >>= fun a =>
        .ok (none, a.2.2, v, { p with data := some a.2.1 })) = .ok r) : s.Later r.2.1 := by
    obtain ⟨got, hget, hr⟩ := bind_eq_ok.mp h
    cases hr
    exact getArray_later hget
  unfold unserializeField at h
  split at h
  · obtain ⟨got, hget, hr⟩ := bind_eq_ok.mp h
    cases hr
    exact getScalar_later hget
  · split at h
    · obtain ⟨count, -, hr⟩ := bind_eq_ok.mp h
      exact array hr
    · split at h
      · cases h
      · split at h
        · cases h
          exact .refl s
        · split at h
          · split at h
            · cases h
              exact .refl s
            · split at h
              · exact array h
              · cases h
                exact .refl s
          · cases h
            exact .refl s

theorem unserializeBodyLoop_later {len : Int} {compareCrc : Bool} {base : Nat} (es : List Field) :
    ∀ {n : Nat} {crc : BitVec 32} {v : Locals} {prev : Option Field} {s : InputStream}
      {r : Int × InputStream × List Field},
      unserializeBodyLoop T len compareCrc cnt base n crc v prev s es = .ok r → s.Later r.2.1 := by
  induction es with
  | nil => intro n crc v prev s r h; cases h
  | cons p es ih =>
    intro n crc v prev s r h
    unfold unserializeBodyLoop at h
    split at h
    · cases h
      exact .refl s
    · obtain ⟨⟨ret, s₁, v₁, p₁⟩, hfield, hr⟩ := bind_eq_ok.mp h
      have hlater : s.Later s₁ := unserializeField_later hfield
      dsimp only at hr
      split at hr
      · cases hr
        exact hlater
      · rcases leave_or hr with rfl | hr
        · exact hlater
        · obtain ⟨r', hloop, hr⟩ := bind_eq_ok.mp hr
          have htail := ih hloop
          cases hr
          exact hlater.trans htail

theorem unserializeBodyPacket_later {fields : List Field} {len : Int} {compareCrc : Bool}
    {r : Int × InputStream × List Field} (h : unserializeBodyPacket T s fields len compareCrc = .ok r) :
    s.Later r.2.1 := by
  obtain ⟨count, -, h⟩ := bind_eq_ok.mp h
  obtain ⟨r', hloop, hr⟩ := bind_eq_ok.mp h
  have hlater := unserializeBodyLoop_later _ hloop
  cases hr
  exact hlater

/-! ### The table a decoder leaves -/

theorem sameShape_refl (p : Field) : SameShape p p := ⟨rfl, rfl, Iff.rfl⟩

theorem getScalar_sameShape {r : InputStream × Locals × Field} (h : getScalar T s v p = .ok r) :
    SameShape p r.2.2 := by
  unfold getScalar at h
  split at h
  case h_8 =>
    cases h
    exact sameShape_refl p
  all_goals
    obtain ⟨got, -, hr⟩ := bind_eq_ok.mp h
    cases hr
    exact ⟨rfl, rfl, Iff.rfl⟩

theorem unserializeField_sameShape {r : Option Int × InputStream × Locals × Field}
    (h : unserializeField T cnt prev v s p = .ok r) : SameShape p r.2.2.2 := by
  have array {type count : Int} {data memory : List UInt8} (hp : p.data = some memory)
      (h : (getArray T s type data count >>= fun a =>
        .ok (none, a.2.2, v, { p with data := some a.2.1 })) = .ok r) : SameShape p r.2.2.2 := by
    obtain ⟨got, -, hr⟩ := bind_eq_ok.mp h
    cases hr
    exact ⟨rfl, rfl, by simp [hp]⟩
  unfold unserializeField at h
  split at h
  · obtain ⟨got, hget, hr⟩ := bind_eq_ok.mp h
    have hshape := getScalar_sameShape hget
    cases hr
    exact hshape
  · rename_i data hdata
    split at h
    · obtain ⟨count, -, hr⟩ := bind_eq_ok.mp h
      exact array hdata hr
    · split at h
      · cases h
      · rcases leave_or h with rfl | h
        · exact sameShape_refl p
        · split at h
          · rcases leave_or h with rfl | h
            · exact sameShape_refl p
            · split at h
              · exact array hdata h
              · cases h
                exact sameShape_refl p
          · cases h
            exact sameShape_refl p

theorem forall₂_split {R : Field → Field → Prop} {es ds l : List Field}
    (h : List.Forall₂ R (es ++ ds) l) :
    ∃ es' ds', l = es' ++ ds' ∧ List.Forall₂ R es es' ∧ List.Forall₂ R ds ds' := by
  induction es generalizing l with
  | nil => exact ⟨[], l, rfl, .nil, h⟩
  | cons p es ih =>
    rcases h with _ | ⟨hp, h⟩
    obtain ⟨es', ds', rfl, hes, hds⟩ := ih h
    exact ⟨_ :: es', ds', rfl, .cons hp hes, hds⟩

theorem forall₂_sameShape_refl (es : List Field) : List.Forall₂ SameShape es es := by
  induction es with
  | nil => exact .nil
  | cons p es ih => exact .cons (sameShape_refl p) ih

theorem unserializeBodyLoop_sameShape {len : Int} {compareCrc : Bool} {base : Nat} (es : List Field) :
    ∀ {n : Nat} {crc : BitVec 32} {v : Locals} {prev : Option Field} {s : InputStream}
      {r : Int × InputStream × List Field},
      unserializeBodyLoop T len compareCrc cnt base n crc v prev s es = .ok r →
      List.Forall₂ SameShape es r.2.2 := by
  induction es with
  | nil => intro n crc v prev s r h; cases h
  | cons p es ih =>
    intro n crc v prev s r h
    unfold unserializeBodyLoop at h
    rcases leave_or h with rfl | h
    · exact forall₂_sameShape_refl _
    · obtain ⟨⟨ret, s₁, v₁, p₁⟩, hfield, hr⟩ := bind_eq_ok.mp h
      have hshape : SameShape p p₁ := unserializeField_sameShape hfield
      dsimp only at hr
      split at hr
      · cases hr
        exact .cons hshape (forall₂_sameShape_refl _)
      · rcases leave_or hr with rfl | hr
        · exact .cons hshape (forall₂_sameShape_refl _)
        · obtain ⟨r', hloop, hr⟩ := bind_eq_ok.mp hr
          have htail := ih hloop
          cases hr
          exact .cons hshape htail

theorem SameShape.isScalar {p q : Field} {ty : DataType} (h : SameShape p q) (hp : p.IsScalar ty) :
    q.IsScalar ty :=
  ⟨h.type.trans hp.type, h.data.mpr hp.data⟩

/-- A body decoder leaves a table of the same shape, with the same header. -/
theorem BodyTable.unserializeBodyPacket_shape {t : BodyTable} {compareCrc : Bool}
    {r : Int × InputStream × List Field}
    (h : unserializeBodyPacket T s t.fields t.len compareCrc = .ok r) :
    ∃ u : BodyTable, r.2.2 = u.fields ∧ u.len = t.len ∧ List.Forall₂ SameShape t.body u.body ∧
      u.hmark :: u.plain ++ [u.hcrc] = t.hmark :: t.plain ++ [t.hcrc] := by
  have hpacket : unserializeBodyPacket T s t.fields t.len compareCrc =
      (unserializeBodyLoop T t.len compareCrc (toInt32 t.cnt) s.consumed.length FIELD_BMARK 0 .zero
        (some t.hcrc) s (t.bmark :: (t.body ++ [t.bcrc, t.terminator])) >>= fun r =>
          .ok (r.1, r.2.1, t.hmark :: t.plain ++ [t.hcrc] ++ r.2.2)) := rfl
  rw [hpacket] at h
  obtain ⟨⟨code, s', es⟩, hloop, hr⟩ := bind_eq_ok.mp h
  have hshape := unserializeBodyLoop_sameShape _ hloop
  cases hr
  rcases hshape with _ | ⟨hbmark, hshape⟩
  obtain ⟨body, tail, rfl, hbody, htail⟩ := forall₂_split hshape
  rcases htail with _ | ⟨hbcrc, _ | ⟨hterm, _ | _⟩⟩
  refine ⟨{ t with
    bmark := _
    body := body
    bcrc := _
    terminator := _
    bmark_long := hbmark.isScalar t.bmark_long
    bcrc_llong := hbcrc.isScalar t.bcrc_llong
    terminator_neg := hterm.type.trans_lt t.terminator_neg }, ?_, ?_, hbody, rfl⟩
  · simp [fields, plain]
  · rw [len, len, hbody.length_eq]

end Decoders

/-! ### Scalars and back -/

/-- The bytes of a word come back from the signed number they spell. -/
theorem beBytes_toInt {w : Nat} {bs : List UInt8} (hlen : bs.length = w) :
    beBytes w (BitVec.ofInt (8 * w) (BitVec.ofNat (8 * w) (ofBeBytes bs)).toInt).toNat = bs := by
  have hlt := ofBeBytes_lt bs
  rw [hlen, pow_256_eq] at hlt
  rw [BitVec.ofInt_toInt, BitVec.toNat_ofNat, Nat.mod_eq_of_lt hlt, ← hlen, beBytes_ofBeBytes]

/-- The types of integers. -/
def DataType.IsInt (ty : DataType) : Prop := ty ≠ .float ∧ ty ≠ .double

instance (ty : DataType) : Decidable ty.IsInt := inferInstanceAs (Decidable (_ ∧ _))

theorem scalarWire_scalarRead {ty : DataType} (hint : ty.IsInt) {bs : List UInt8}
    (hlen : bs.length = ty.width) (p : Field) (T : Target) :
    (p.scalarRead ty bs).scalarWire T ty = bs := by
  have hword := beBytes_toInt hlen
  cases ty <;> simp only [DataType.width, Nat.reduceMul] at hword
  case float => exact absurd rfl hint.1
  case double => exact absurd rfl hint.2
  all_goals
    simp only [Field.scalarRead, Field.scalarWire]
    exact hword

section Scalars

variable {T : Target} {cnt : Int} {ps : List Field} {tys : List DataType}

theorem widths_cons (ty : DataType) (tys : List DataType) :
    widths (ty :: tys) = ty.width + widths tys := by
  simp [widths]

theorem spelled_scalarsRead (h : List.Forall₂ Field.IsScalar ps tys) (hints : ∀ ty ∈ tys, ty.IsInt) :
    ∀ {bs : List UInt8}, widths tys ≤ bs.length → ∀ prev,
      spelled (fun prev p => p.written T cnt prev) prev (scalarsRead ps tys bs) =
        bs.take (widths tys) := by
  induction h with
  | nil => intro bs _ prev; rfl
  | @cons p ty ps tys hp hps ih =>
    intro bs hbs prev
    rw [widths_cons] at hbs ⊢
    have hword : (bs.take ty.width).length = ty.width := by
      rw [List.length_take]
      omega
    have hdropped : widths tys ≤ (bs.drop ty.width).length := by
      rw [List.length_drop]
      omega
    have htail := ih (fun ty hty => hints ty (List.mem_cons_of_mem _ hty)) hdropped
      (p.scalarRead ty (bs.take ty.width))
    rw [scalarsRead, spelled, (hp.scalarRead _).written_eq,
      scalarWire_scalarRead (hints ty List.mem_cons_self) hword, htail, List.take_add]

theorem isChain_encoded_scalars (h : List.Forall₂ Field.IsScalar ps tys) (prev : Field) :
    (prev :: ps).IsChain (Encoded cnt) := by
  induction h generalizing prev with
  | nil => exact .singleton _
  | cons hp _ ih => exact .cons_cons (.scalar _ hp) (ih _)

theorem length_spelled_scalars (h : List.Forall₂ Field.IsScalar ps tys) (prev : Field) :
    (spelled (fun prev p => p.written T cnt prev) prev ps).length = widths tys := by
  induction h generalizing prev with
  | nil => rfl
  | cons hp _ ih =>
    rw [spelled, List.length_append, hp.written_eq, Field.length_scalarWire, ih, widths_cons]

theorem isScalar_of_sameShape {qs : List Field} (h : List.Forall₂ Field.IsScalar ps tys)
    (hshape : List.Forall₂ SameShape ps qs) : List.Forall₂ Field.IsScalar qs tys := by
  induction h generalizing qs with
  | nil =>
    cases hshape
    exact .nil
  | cons hp _ ih =>
    rcases hshape with _ | ⟨hq, hshape⟩
    exact .cons (hq.isScalar hp) (ih hshape)

/-- A run of scalars takes the bytes of their types. -/
theorem unserializeBodyLoop_scalars {len : Int} {compareCrc : Bool} {base : Nat} {crc : BitVec 32}
    (h : List.Forall₂ Field.IsScalar ps tys) (rest : List Field) :
    ∀ {n : Nat} {s : InputStream} (v : Locals) (prev : Option Field), (n : Int) + ps.length < len →
      s.good = true → widths tys ≤ s.rest.length → ∃ v' prev',
      unserializeBodyLoop T len compareCrc cnt base n crc v prev s (ps ++ rest) =
        unserializeBodyLoop T len compareCrc cnt base (n + ps.length) crc v' prev'
            (s.advance (widths tys)) rest >>=
          fun r => .ok (r.1, r.2.1, scalarsRead ps tys s.rest ++ r.2.2) := by
  induction h with
  | nil =>
    intro n s v prev _ _ _
    have hadvance : s.advance (widths []) = s := by simp [InputStream.advance, widths]
    refine ⟨v, prev, ?_⟩
    rw [hadvance]
    exact (bind_parts _).symm
  | @cons p ty ps tys hp hps ih =>
    intro n s v prev hlen hgood hrest
    rw [widths_cons] at hrest ⊢
    rw [List.length_cons] at hlen
    obtain ⟨v₁, hfield⟩ := unserializeField_scalar (T := T) cnt prev v hp hgood
      (show ty.width ≤ s.rest.length by omega)
    obtain ⟨v', prev', hloop⟩ := @ih (n + 1) (s.advance ty.width) v₁
      (some (p.scalarRead ty (s.rest.take ty.width))) (by omega) hgood
      (by rw [InputStream.advance_rest, List.length_drop]; omega)
    refine ⟨v', prev', ?_⟩
    rw [List.cons_append, unserializeBodyLoop_step hp.type_nonneg (by omega) hfield, hloop,
      InputStream.advance_advance, List.length_cons,
      show n + 1 + ps.length = n + (ps.length + 1) by omega, bind_assoc]
    rfl

end Scalars

/-! ### Checksums and back -/

/-- A checksum is sent as the eight bytes that agree with it if their upper half is zero. -/
theorem beBytes_crc_iff {bs : List UInt8} (hlen : bs.length = 8) :
    beBytes 8 (BitVec.ofInt 64 (BitVec.ofNat 32 (ofBeBytes bs)).toNat).toNat = bs ↔
      ofBeBytes bs < 2 ^ 32 := by
  have hword : (BitVec.ofInt 64 ((BitVec.ofNat 32 (ofBeBytes bs)).toNat : Int)).toNat =
      ofBeBytes bs % 2 ^ 32 := by
    rw [BitVec.ofInt_natCast, BitVec.toNat_ofNat, BitVec.toNat_ofNat]
    omega
  rw [hword, ← ofBeBytes_inj (by simp [hlen]), ofBeBytes_beBytes]
  omega

/-! ### Decoded tables -/

namespace BodyTable

variable (t : BodyTable) (tys : List DataType)

/-- The table after the body's entries were read from the bytes. -/
def bodyRead (bs : List UInt8) : BodyTable :=
  { t with
    bmark := t.bmark.scalarRead .long (bs.take 4)
    body := scalarsRead t.body tys (bs.drop 4)
    bcrc := t.bcrc.scalarRead .llong ((bs.drop (4 + widths tys)).take 8)
    bmark_long := t.bmark_long.scalarRead _
    bcrc_llong := t.bcrc_llong.scalarRead _ }

variable {t tys} {T : Target} {s : InputStream} {buffer bs : List UInt8}

theorem len_bodyRead (hbody : List.Forall₂ Field.IsScalar t.body tys) (bs : List UInt8) :
    (t.bodyRead tys bs).len = t.len := by
  have hlength := (isScalar_scalarsRead hbody (bs.drop 4)).length_eq
  rw [← hbody.length_eq] at hlength
  rw [len, len, bodyRead, hlength]

/-- A body of scalars is read to its end. -/
theorem scalars_decoded (hbody : List.Forall₂ Field.IsScalar t.body tys) (hgood : s.good = true)
    (hrest : 12 + widths tys ≤ s.rest.length) :
    unserializeBodyPacket T s t.fields t.len true =
      .ok (if BitVec.ofNat 32 (ofBeBytes ((s.rest.drop (4 + widths tys)).take 8)) =
            (if toInt32 (4 + widths tys : Nat) > 0 then
              crc32 ((s.rest.take (4 + widths tys)).take (toInt32 (4 + widths tys : Nat)).toNat)
            else 0) then ERR_OK else ERR_CHECK_CRC_ERROR,
        s.advance (12 + widths tys), (t.bodyRead tys s.rest).fields) := by
  have hentries : List.Forall₂ Field.IsScalar (t.bmark :: t.body) (.long :: tys) :=
    .cons t.bmark_long hbody
  have hwidths : widths (.long :: tys) = 4 + widths tys := widths_cons _ _
  have hlength : ((FIELD_BMARK + (t.bmark :: t.body).length : Nat) : Int) = t.len - 1 := by
    rw [len, List.length_cons, FIELD_BMARK]
    omega
  have hpacket : unserializeBodyPacket T s t.fields t.len true =
      (unserializeBodyLoop T t.len true (toInt32 t.cnt) s.consumed.length FIELD_BMARK 0 .zero
        (some t.hcrc) s (t.bmark :: t.body ++ [t.bcrc, t.terminator]) >>= fun r =>
          .ok (r.1, r.2.1, t.hmark :: t.plain ++ [t.hcrc] ++ r.2.2)) := rfl
  obtain ⟨v, prev, hloop⟩ := @unserializeBodyLoop_scalars T (toInt32 t.cnt) _ _ t.len true
    s.consumed.length 0 hentries [t.bcrc, t.terminator] FIELD_BMARK s .zero (some t.hcrc)
    (by omega) hgood (by omega)
  have hread : ((s.consumed ++ s.rest.take (4 + widths tys)).length : Int) - s.consumed.length =
      (4 + widths tys : Nat) := by
    rw [List.length_append, List.length_take]
    omega
  have hlast := @unserializeBodyLoop_bcrc T t.len true (toInt32 t.cnt) s.consumed.length _ 0 prev
    (s.advance (4 + widths tys)) t.bcrc t.terminator v t.bcrc_llong hlength t.terminator_neg hgood
    (by rw [InputStream.advance_rest, List.length_drop]; omega)
  rw [InputStream.advance_consumed, hread, List.drop_left, InputStream.advance_rest,
    InputStream.advance_advance, show 4 + widths tys + 8 = 12 + widths tys by omega] at hlast
  rw [hpacket, hloop, hwidths, hlast]
  simp [bodyRead, BodyTable.fields, plain, scalarsRead, DataType.width]

/-- What is sent behind the header. -/
theorem drop_written (hbs : bs.length = 8)
    (hroom : 44 + (t.writtens T t.bmark t.body).length ≤ buffer.length) :
    ((t.bodyAfter T (.ofBuffer buffer) t.body).store bs).written.drop 32 =
      t.bmark.scalarWire T .long ++ t.writtens T t.bmark t.body ++ bs := by
  obtain ⟨hwritten, hleft⟩ := @length_headerAfter t T buffer (by omega)
  have hmark : (t.bmark.scalarWire T .long).length = 4 := Field.length_scalarWire _ _ _
  have hroom' := (@length_bodyAfter t T buffer t.body (by omega)).2
  rw [OutputStream.store_eq_append (by omega), OutputStream.append_written, bodyAfter,
    OutputStream.store_eq_append (by rw [List.length_append, hleft, hmark]; omega),
    OutputStream.append_written, List.append_assoc, ← hwritten, List.drop_left]

/-- The body's checksum as it is sent. -/
theorem bcrcAfter_written (hroom : 44 + (t.writtens T t.bmark t.body).length ≤ buffer.length) :
    (t.bcrcAfter T (.ofBuffer buffer)).scalarWire T .llong =
      if toInt32 (4 + (t.writtens T t.bmark t.body).length : Nat) > 0 then
        beBytes 8 (BitVec.ofInt 64 (crc32 ((t.bmark.scalarWire T .long ++
          t.writtens T t.bmark t.body).take
            (toInt32 (4 + (t.writtens T t.bmark t.body).length : Nat)).toNat)).toNat).toNat
      else t.bcrc.scalarWire T .llong := by
  obtain ⟨hwritten, hleft⟩ := @length_headerAfter t T buffer (by omega)
  have hmark : (t.bmark.scalarWire T .long).length = 4 := Field.length_scalarWire _ _ _
  have hlast : t.len - 1 = ((FIELD_NEXT + t.body.length : Nat) : Int) := by
    simp only [FIELD_NEXT, len]
    omega
  have hn : FIELD_NEXT + t.body.length ≠ FIELD_HCRC := by
    simp only [FIELD_NEXT, FIELD_HCRC]
    omega
  have hbetween := @length_between t T buffer (by omega)
  have hdrop : (t.bodyAfter T (.ofBuffer buffer) t.body).written.drop
      (t.headerAfter T (.ofBuffer buffer)).written.length =
        t.bmark.scalarWire T .long ++ t.writtens T t.bmark t.body := by
    rw [bodyAfter, OutputStream.store_eq_append (by rw [List.length_append, hleft, hmark]; omega),
      OutputStream.append_written, List.drop_left]
  simp only [bcrcAfter, crcField, if_neg hn, if_pos hlast, hbetween, hdrop]
  split <;> rfl

end BodyTable

/-! ### Packets that are sent again -/

/-- The table is encoded, and its bytes behind the first `base` are these. -/
def SentAgain (T : Target) (buffer : List UInt8) (fields : List Field) (len : Int) (base : Nat)
    (bs : List UInt8) : Prop :=
  ∃ out fields', serializePacket T (.ofBuffer buffer) fields len = .ok (ERR_OK, out, fields') ∧
    out.written.drop base = bs

theorem sentAgain_iff {T : Target} {buffer bs : List UInt8} {fields fields' : List Field} {len : Int}
    {base : Nat} {out : OutputStream}
    (h : serializePacket T (.ofBuffer buffer) fields len = .ok (ERR_OK, out, fields')) :
    SentAgain T buffer fields len base bs ↔ out.written.drop base = bs := by
  constructor
  · rintro ⟨out', fields'', hrun, hbytes⟩
    rw [h] at hrun
    cases hrun
    exact hbytes
  · exact fun hbytes => ⟨_, _, h, hbytes⟩

namespace BodyTable

variable {t : BodyTable} {tys : List DataType} {T T' : Target} {s s' : InputStream}
  {buffer bs : List UInt8} {fields : List Field}

theorem body_sent_iff (hbody : List.Forall₂ Field.IsScalar t.body tys)
    (hroom : 44 + widths tys ≤ buffer.length) :
    SentAgain T buffer t.fields t.len 32 bs ↔
      t.bmark.scalarWire T .long ++ t.writtens T t.bmark t.body ++
        (t.bcrcAfter T (.ofBuffer buffer)).scalarWire T .llong = bs := by
  have hlength : (t.writtens T t.bmark t.body).length = widths tys := length_spelled_scalars hbody _
  rw [sentAgain_iff (serializePacket_encoded (isChain_encoded_scalars hbody _) rfl
      (.inr (by rw [hlength]; exact hroom))),
    drop_written (Field.length_scalarWire _ _ _) (by rw [hlength]; exact hroom)]

/-- The body of a decoded table is what it was decoded from. -/
theorem bodyRead_written (hbody : List.Forall₂ Field.IsScalar t.body tys)
    (hints : ∀ ty ∈ tys, ty.IsInt) (hbs : 4 + widths tys ≤ bs.length) (T : Target) :
    (t.bodyRead tys bs).bmark.scalarWire T .long ++
        (t.bodyRead tys bs).writtens T (t.bodyRead tys bs).bmark (t.bodyRead tys bs).body =
      bs.take (4 + widths tys) := by
  have hmark : (t.bodyRead tys bs).bmark.scalarWire T .long = bs.take 4 :=
    @scalarWire_scalarRead .long (by decide) _
      (by rw [List.length_take, DataType.width]; omega) _ _
  have hdropped : widths tys ≤ (bs.drop 4).length := by
    rw [List.length_drop]
    omega
  have hrun := @spelled_scalarsRead T (t.bodyRead tys bs).cnt _ _ hbody hints _ hdropped
    (t.bodyRead tys bs).bmark
  rw [hmark, List.take_add, ← hrun]
  rfl

/-- **Bodies of scalars.** An accepted body is sent again exactly if all of it was there, and the
upper half of its checksum is zero if there is one. -/
theorem body_sentAgain_iff (hbody : List.Forall₂ Field.IsScalar t.body tys)
    (hints : ∀ ty ∈ tys, ty.IsInt) (hroom : 44 + widths tys ≤ buffer.length) (hgood : s.good = true)
    (haccepted : unserializeBodyPacket T s t.fields t.len true = .ok (ERR_OK, s', fields)) :
    SentAgain T' buffer fields t.len 32 (s'.consumed.drop s.consumed.length) ↔
      12 + widths tys ≤ s.rest.length ∧
        (0 < toInt32 (4 + widths tys : Nat) →
          ofBeBytes ((s.rest.drop (4 + widths tys)).take 8) < 2 ^ 32) := by
  by_cases hrest : 12 + widths tys ≤ s.rest.length
  · rw [scalars_decoded hbody hgood hrest] at haccepted
    have hresult := Except.ok.inj haccepted
    obtain rfl : s.advance (12 + widths tys) = s' := congrArg (fun r => r.2.1) hresult
    obtain rfl : (t.bodyRead tys s.rest).fields = fields := congrArg (fun r => r.2.2) hresult
    have hcrc := congrArg Prod.fst hresult
    have hscalars : List.Forall₂ Field.IsScalar (t.bodyRead tys s.rest).body tys :=
      isScalar_scalarsRead hbody _
    have hbytes : ((s.rest.drop (4 + widths tys)).take 8).length = 8 := by
      rw [List.length_take, List.length_drop]
      omega
    have hlength : ((t.bodyRead tys s.rest).writtens T' (t.bodyRead tys s.rest).bmark
        (t.bodyRead tys s.rest).body).length = widths tys := length_spelled_scalars hscalars _
    have htaken : (s.advance (12 + widths tys)).consumed.drop s.consumed.length =
        s.rest.take (4 + widths tys) ++ (s.rest.drop (4 + widths tys)).take 8 := by
      rw [InputStream.advance_consumed, List.drop_left, ← List.take_add,
        show 4 + widths tys + 8 = 12 + widths tys by omega]
    rw [← len_bodyRead hbody s.rest, body_sent_iff hscalars hroom,
      bcrcAfter_written (by rw [hlength]; exact hroom), hlength,
      bodyRead_written hbody hints (by omega), htaken, List.append_cancel_left_eq,
      and_iff_right hrest]
    by_cases hcovered : toInt32 (4 + widths tys : Nat) > 0
    · rw [if_pos hcovered] at hcrc ⊢
      have hvalue : BitVec.ofNat 32 (ofBeBytes ((s.rest.drop (4 + widths tys)).take 8)) =
          crc32 ((s.rest.take (4 + widths tys)).take (toInt32 (4 + widths tys : Nat)).toNat) := by
        by_contra hne
        rw [if_neg hne] at hcrc
        exact absurd hcrc (show ERR_CHECK_CRC_ERROR ≠ ERR_OK by decide)
      rw [← hvalue, beBytes_crc_iff hbytes, imp_iff_right hcovered]
    · rw [if_neg hcovered]
      exact iff_of_true (@scalarWire_scalarRead .llong (by decide) _ hbytes _ _)
        (fun h => absurd h hcovered)
  · -- too few bytes were taken
    obtain ⟨u, rfl, hlen, hshape, -⟩ := unserializeBodyPacket_shape haccepted
    obtain ⟨n, good, rfl⟩ := unserializeBodyPacket_later haccepted
    have hscalars := isScalar_of_sameShape hbody hshape
    have hlength : (u.writtens T' u.bmark u.body).length = widths tys :=
      length_spelled_scalars hscalars _
    rw [← hlen, body_sent_iff hscalars hroom]
    refine iff_of_false (fun hbytes => ?_) (fun h => hrest h.1)
    have hcount := congrArg List.length hbytes
    simp only [List.length_append, Field.length_scalarWire, hlength, DataType.width,
      InputStream.advance_consumed, List.drop_left, List.length_take] at hcount
    omega

/-! ### Headers -/

/-- The header's checksum as it is sent. -/
theorem hcrcAfter_eq_crc (hroom : 24 ≤ buffer.length) :
    t.hcrcAfter T (.ofBuffer buffer) =
      { t.hcrc with ivalue := (crc32 (t.headerImage T)).toNat } := by
  have himage := t.length_headerImage T
  have hwritten : ((OutputStream.ofBuffer buffer).store (t.headerImage T)).written = t.headerImage T := by
    rw [OutputStream.store_eq_append (by rw [himage]; exact hroom)]
    rfl
  have hlength : (BitVec.ofNat 32 24).toNat = 24 := by decide
  have htake : (t.headerImage T).take 24 = t.headerImage T := List.take_of_length_le himage.le
  simp only [hcrcAfter, crcField, if_true, hwritten, himage, hlength, htake,
    if_pos (show (24 : Nat) > 0 by decide)]

variable {header : List UInt8}

/-- The entries of a header in front of those of the table `t`. -/
theorem exists_header {hs : List Field} (hhs : IsHeader hs) (t : BodyTable) :
    ∃ u : BodyTable, hs = u.hmark :: u.plain ++ [u.hcrc] ∧ u.terminator = t.terminator := by
  rcases hhs with _ | ⟨h0, _ | ⟨h1, _ | ⟨h2, _ | ⟨h3, _ | ⟨h4, _ | ⟨h5, _ | ⟨h6, _ | _⟩⟩⟩⟩⟩⟩⟩
  exact ⟨{ t with
    hmark := _, method := _, bsize := _, ret := _, time := _, count := _, hcrc := _
    hmark_long := h0, method_long := h1, bsize_long := h2, ret_long := h3, time_long := h4
    count_long := h5, hcrc_llong := h6 }, rfl, rfl⟩

/-- A header by itself. -/
theorem serializePacket_header (hroom : 32 ≤ buffer.length) :
    serializePacket T (.ofBuffer buffer) (t.hmark :: t.plain ++ [t.hcrc] ++ [t.terminator]) FIELD_BMARK =
      .ok (ERR_OK, t.headerAfter T (.ofBuffer buffer),
        t.hmark :: t.plain ++ [t.hcrcAfter T (.ofBuffer buffer)] ++ [t.terminator]) := by
  have hfields : t.hmark :: t.plain ++ [t.hcrc] ++ [t.terminator] =
      t.hmark :: t.plain ++ t.hcrc :: [t.terminator] := by simp
  rw [serializePacket]
  nth_rewrite 2 [hfields]
  rw [serializeLoop_header (t := t) rfl le_rfl rfl (.inr hroom), serializeLoop,
    if_pos t.terminator_neg, behind_ok]

theorem isHeader_header (t : BodyTable) : IsHeader (t.hmark :: t.plain ++ [t.hcrc]) :=
  .cons t.hmark_long (.cons t.method_long (.cons t.bsize_long (.cons t.ret_long (.cons t.time_long
    (.cons t.count_long (.cons t.hcrc_llong .nil))))))

/-- The bytes that the entries of a header were read from. -/
theorem headerImage_read (hheader : header.length = 32) {hs : List Field} (hhs : IsHeader hs)
    (hread : scalarsRead hs headerTypes header = t.hmark :: t.plain ++ [t.hcrc]) (T : Target) :
    t.headerImage T = header.take 24 := by
  have hwhole : widths headerTypes ≤ header.length := by
    rw [hheader]
    decide
  have hwire := @spelled_scalarsRead T t.cnt _ _ hhs (by decide) _ hwhole t.hcrc
  have himage : spelled (fun prev p => p.written T t.cnt prev) t.hcrc (t.hmark :: t.plain ++ [t.hcrc]) =
      t.headerImage T ++ t.hcrc.scalarWire T .llong := by
    rw [List.cons_append, spelled, spelled_append, spelled, spelled, List.append_nil,
      t.hmark_long.written_eq, t.hcrc_llong.written_eq, headerImage, List.append_assoc]
    rfl
  rw [hread, himage, List.take_of_length_le (by rw [hheader]; decide)] at hwire
  rw [← hwire]
  exact (List.take_left' (t.length_headerImage T)).symm

theorem headerAfter_written (hroom : 32 ≤ buffer.length) :
    (t.headerAfter T (.ofBuffer buffer)).written =
      t.headerImage T ++ beBytes 8 (BitVec.ofInt 64 (crc32 (t.headerImage T)).toNat).toNat := by
  have hlength := t.length_headerImage T
  rw [headerAfter, hcrcAfter_eq_crc (by omega), OutputStream.store_store,
    OutputStream.store_eq_append (by
      rw [List.length_append, Field.length_scalarWire, hlength]
      exact hroom)]
  rfl

/-- **Headers.** An accepted header is sent again exactly if the upper half of its checksum is zero. -/
theorem header_sentAgain_iff (hheader : header.length = 32) (hroom : 32 ≤ buffer.length)
    (haccepted : unserializeHeaderPacket T (.ofBuffer header 32) t.fields true = .ok (ERR_OK, s, fields)) :
    SentAgain T' buffer (fields.take FIELD_BMARK ++ [t.terminator]) FIELD_BMARK 0 header ↔
      ofBeBytes (header.drop 24) < 2 ^ 32 := by
  have hrest : (InputStream.ofBuffer header 32).rest = header := List.take_of_length_le (by omega)
  have htable : t.fields =
      t.hmark :: t.plain ++ [t.hcrc] ++ (t.bmark :: t.body ++ [t.bcrc, t.terminator]) := by
    simp [BodyTable.fields]
  have hbytes : (header.drop 24).length = 8 := by
    rw [List.length_drop]
    omega
  rw [htable] at haccepted
  rcases unserializeHeaderPacket_fields (T := T) true (t.bmark :: t.body ++ [t.bcrc, t.terminator])
    t.isHeader_header (s := .ofBuffer header 32) rfl rfl (by rw [hrest, hheader]) with
    ⟨haccept, hrun⟩ | ⟨-, code, s', hs', hrun, hcode, -⟩
  · rw [hrun, hrest] at haccepted
    rw [hrest] at haccept
    obtain ⟨u, hu, hterm⟩ := exists_header (isScalar_scalarsRead t.isHeader_header header) t
    have hfields : u.hmark :: u.plain ++ [u.hcrc] ++ (t.bmark :: t.body ++ [t.bcrc, t.terminator]) =
        fields := by
      rw [← hu]
      exact congrArg (fun r => r.2.2) (Except.ok.inj haccepted)
    have htaken : fields.take FIELD_BMARK = u.hmark :: u.plain ++ [u.hcrc] := by
      rw [← hfields]
      rfl
    have himage := headerImage_read hheader t.isHeader_header hu T'
    have hcrc := haccept.2 rfl
    rw [List.take_of_length_le hbytes.le] at hcrc
    rw [htaken, ← hterm, sentAgain_iff (serializePacket_header hroom), List.drop_zero,
      headerAfter_written hroom, himage, hcrc, ← beBytes_crc_iff hbytes]
    nth_rewrite 3 [← List.take_append_drop 24 header]
    rw [List.append_cancel_left_eq]
  · rw [hrun] at haccepted
    exact absurd (congrArg Prod.fst (Except.ok.inj haccepted)) hcode

/-- **Canonical packets.** Accepted headers and bodies are sent again exactly if the upper halves of
their checksums are zero: but for a body that was too short in a build without assertions, and for
one so large that its bytes are not counted. -/
theorem canonical_iff {s₁ : InputStream} {fields₁ : List Field}
    (hbody : List.Forall₂ Field.IsScalar t.body tys) (hints : ∀ ty ∈ tys, ty.IsInt)
    (hroom : 44 + widths tys ≤ buffer.length) (hheader : header.length = 32) (hgood : s.good = true) :
    (unserializeHeaderPacket T (.ofBuffer header 32) t.fields true = .ok (ERR_OK, s₁, fields₁) →
        (SentAgain T' buffer (fields₁.take FIELD_BMARK ++ [t.terminator]) FIELD_BMARK 0 header ↔
          ofBeBytes (header.drop 24) < 2 ^ 32)) ∧
      (unserializeBodyPacket T s t.fields t.len true = .ok (ERR_OK, s', fields) →
        (SentAgain T' buffer fields t.len 32 (s'.consumed.drop s.consumed.length) ↔
          12 + widths tys ≤ s.rest.length ∧
            (0 < toInt32 (4 + widths tys : Nat) →
              ofBeBytes ((s.rest.drop (4 + widths tys)).take 8) < 2 ^ 32))) :=
  ⟨header_sentAgain_iff hheader (by omega), body_sentAgain_iff hbody hints hroom hgood⟩

end BodyTable

/-! ### Two packets -/

/-- Bytes in front of their checksum, which has an upper half. -/
def crcBehind (bs : List UInt8) (upper : Nat) : List UInt8 :=
  bs ++ beBytes 8 (upper * 2 ^ 32 + (crc32 bs).toNat)

section CrcBehind

variable {n upper : Nat} {bs : List UInt8} {T : Target} {t : BodyTable} {tys : List DataType}

theorem crcBehind_parts (hn : bs.length = n) (hupper : upper < 2 ^ 32) :
    (crcBehind bs upper).length = n + 8 ∧ (crcBehind bs upper).take n = bs ∧
      ((crcBehind bs upper).drop n).take 8 = (crcBehind bs upper).drop n ∧
      ofBeBytes ((crcBehind bs upper).drop n) = upper * 2 ^ 32 + (crc32 bs).toNat ∧
      BitVec.ofNat 32 (ofBeBytes ((crcBehind bs upper).drop n)) = crc32 bs := by
  have hcrc := (crc32 bs).isLt
  have hdrop : (crcBehind bs upper).drop n = beBytes 8 (upper * 2 ^ 32 + (crc32 bs).toNat) :=
    List.drop_left' hn
  have hvalue : ofBeBytes ((crcBehind bs upper).drop n) = upper * 2 ^ 32 + (crc32 bs).toNat := by
    rw [hdrop, ofBeBytes_beBytes, Nat.mod_eq_of_lt (by omega)]
  refine ⟨by simp [crcBehind, hn], List.take_left' hn, ?_, hvalue, ?_⟩
  · rw [hdrop, List.take_of_length_le (by simp)]
  · apply BitVec.eq_of_toNat_eq
    rw [hvalue, BitVec.toNat_ofNat]
    omega

theorem header_accepted (hbs : bs.length = 24) (hmark : BitVec.ofNat 32 (ofBeBytes (bs.take 4)) = HEAD_MARK)
    (hupper : upper < 2 ^ 32) (t : BodyTable) (T : Target) :
    ∃ s fields, unserializeHeaderPacket T (.ofBuffer (crcBehind bs upper) 32) t.fields true =
      .ok (ERR_OK, s, fields) := by
  obtain ⟨hlength, htake, height, -, hcrc⟩ := crcBehind_parts hbs hupper
  have hrest : (InputStream.ofBuffer (crcBehind bs upper) 32).rest = crcBehind bs upper :=
    List.take_of_length_le hlength.le
  have hfirst : (crcBehind bs upper).take 4 = bs.take 4 := by
    have htake4 := congrArg (List.take 4) htake
    rwa [List.take_take, show min 4 24 = 4 by rfl] at htake4
  have haccept : HeaderAccepted true (crcBehind bs upper) :=
    ⟨by rw [hfirst, hmark], fun _ => by rw [htake, height, hcrc]⟩
  have htable : t.fields =
      t.hmark :: t.plain ++ [t.hcrc] ++ (t.bmark :: t.body ++ [t.bcrc, t.terminator]) := by
    simp [BodyTable.fields]
  rw [htable]
  rcases unserializeHeaderPacket_fields (T := T) true (t.bmark :: t.body ++ [t.bcrc, t.terminator])
    t.isHeader_header (s := .ofBuffer (crcBehind bs upper) 32) rfl rfl (by rw [hrest, hlength]) with
    ⟨-, hrun⟩ | ⟨hnot, -⟩
  · exact ⟨_, _, hrun⟩
  · rw [hrest] at hnot
    exact absurd haccept hnot

theorem body_accepted (hbody : List.Forall₂ Field.IsScalar t.body tys)
    (hbs : bs.length = 4 + widths tys) (hlt : 4 + widths tys < 2 ^ 31) (hupper : upper < 2 ^ 32) :
    ∃ s' fields, unserializeBodyPacket T (.ofBuffer (crcBehind bs upper) (12 + widths tys)) t.fields t.len
      true = .ok (ERR_OK, s', fields) := by
  obtain ⟨hlength, htake, height, -, hcrc⟩ := crcBehind_parts hbs hupper
  have hrest : (InputStream.ofBuffer (crcBehind bs upper) (12 + widths tys)).rest =
      crcBehind bs upper := List.take_of_length_le (by omega)
  have hcovered : toInt32 (4 + widths tys : Nat) = (4 + widths tys : Nat) :=
    toInt32_eq (by omega) (by omega)
  have hrun := BodyTable.scalars_decoded (T := T)
    (s := .ofBuffer (crcBehind bs upper) (12 + widths tys)) hbody rfl (by rw [hrest]; omega)
  have hwhole : bs.take (4 + widths tys) = bs := List.take_of_length_le hbs.le
  rw [hrest, height, hcrc, htake, hcovered, if_pos (show ((4 + widths tys : Nat) : Int) > 0 by omega),
    Int.toNat_natCast, hwhole, if_pos rfl] at hrun
  exact ⟨_, _, hrun⟩

end CrcBehind

/-- A LONG for a body. -/
def longTable : BodyTable := .ofBody 0 MSG_COMMON 0 1 [scalarField .long 7]

def longHeader (upper : Nat) : List UInt8 :=
  crcBehind ([0x11, 0x11, 0x11, 0x11] ++ List.replicate 20 0) upper

def longBody (upper : Nat) : List UInt8 := crcBehind [0x22, 0x22, 0x22, 0x22, 0, 0, 0, 7] upper

theorem scalars_longTable : List.Forall₂ Field.IsScalar longTable.body [.long] :=
  .cons ⟨rfl, rfl⟩ .nil

/-- Zeros in front of the checksums. -/
theorem canonical_long :
    (∃ s fields, unserializeHeaderPacket (.build .little) (.ofBuffer (longHeader 0) 32) longTable.fields
        true = .ok (ERR_OK, s, fields) ∧
      SentAgain (.build .big) (List.replicate 64 0)
        (fields.take FIELD_BMARK ++ [longTable.terminator]) FIELD_BMARK 0 (longHeader 0)) ∧
    ∃ s fields, unserializeBodyPacket (.build .little) (.ofBuffer (longBody 0) 16) longTable.fields
        longTable.len true = .ok (ERR_OK, s, fields) ∧
      SentAgain (.build .big) (List.replicate 64 0) fields longTable.len 32 s.consumed := by
  obtain ⟨s₁, fields₁, hheader⟩ := @header_accepted 0 ([0x11, 0x11, 0x11, 0x11] ++ List.replicate 20 0)
    (by decide) (by decide) (by decide) longTable (.build .little)
  obtain ⟨s, fields, hbody⟩ := @body_accepted 0 [0x22, 0x22, 0x22, 0x22, 0, 0, 0, 7] (.build .little)
    longTable [.long] scalars_longTable (by decide) (by decide) (by decide)
  obtain ⟨hlength, -, -, hupper, -⟩ := @crcBehind_parts 24 0
    ([0x11, 0x11, 0x11, 0x11] ++ List.replicate 20 0) (by decide) (by decide)
  obtain ⟨hlength', -, height, hupper', -⟩ := @crcBehind_parts 8 0
    [0x22, 0x22, 0x22, 0x22, 0, 0, 0, 7] (by decide) (by decide)
  have hcrc := (crc32 ([0x11, 0x11, 0x11, 0x11] ++ List.replicate 20 0)).isLt
  have hcrc' := (crc32 [0x22, 0x22, 0x22, 0x22, 0, 0, 0, 7]).isLt
  have hcanonical := @BodyTable.canonical_iff longTable [.long] (.build .little) (.build .big)
    (.ofBuffer (longBody 0) 16) s (List.replicate 64 0) fields (longHeader 0) s₁ fields₁
    scalars_longTable (by decide) (by decide) hlength rfl
  have hrest : (InputStream.ofBuffer (longBody 0) 16).rest = longBody 0 :=
    List.take_of_length_le hlength'.le
  refine ⟨⟨s₁, fields₁, hheader, (hcanonical.1 hheader).mpr ?_⟩, s, fields, hbody,
    (hcanonical.2 hbody).mpr ⟨?_, fun _ => ?_⟩⟩
  · rw [longHeader, hupper]
    omega
  · rw [hrest]
    exact hlength'.ge
  · rw [hrest]
    change ofBeBytes (((crcBehind _ 0).drop 8).take 8) < _
    rw [height, hupper']
    omega

/-- A bit in front of the checksums. -/
theorem not_canonical_long :
    (∃ s fields, unserializeHeaderPacket (.build .little) (.ofBuffer (longHeader 1) 32) longTable.fields
        true = .ok (ERR_OK, s, fields) ∧
      ¬ SentAgain (.build .big) (List.replicate 64 0)
        (fields.take FIELD_BMARK ++ [longTable.terminator]) FIELD_BMARK 0 (longHeader 1)) ∧
    ∃ s fields, unserializeBodyPacket (.build .little) (.ofBuffer (longBody 1) 16) longTable.fields
        longTable.len true = .ok (ERR_OK, s, fields) ∧
      ¬ SentAgain (.build .big) (List.replicate 64 0) fields longTable.len 32 s.consumed := by
  obtain ⟨s₁, fields₁, hheader⟩ := @header_accepted 1 ([0x11, 0x11, 0x11, 0x11] ++ List.replicate 20 0)
    (by decide) (by decide) (by decide) longTable (.build .little)
  obtain ⟨s, fields, hbody⟩ := @body_accepted 1 [0x22, 0x22, 0x22, 0x22, 0, 0, 0, 7] (.build .little)
    longTable [.long] scalars_longTable (by decide) (by decide) (by decide)
  obtain ⟨hlength, -, -, hupper, -⟩ := @crcBehind_parts 24 1
    ([0x11, 0x11, 0x11, 0x11] ++ List.replicate 20 0) (by decide) (by decide)
  obtain ⟨hlength', -, height, hupper', -⟩ := @crcBehind_parts 8 1
    [0x22, 0x22, 0x22, 0x22, 0, 0, 0, 7] (by decide) (by decide)
  have hrest : (InputStream.ofBuffer (longBody 1) 16).rest = longBody 1 :=
    List.take_of_length_le hlength'.le
  refine ⟨⟨s₁, fields₁, hheader, fun hsent => ?_⟩, s, fields, hbody, fun hsent => ?_⟩
  · have hzero := (BodyTable.header_sentAgain_iff hlength (by decide) hheader).mp hsent
    change ofBeBytes ((crcBehind _ 1).drop 24) < _ at hzero
    rw [hupper] at hzero
    omega
  · have hzero := ((BodyTable.body_sentAgain_iff scalars_longTable (by decide) (by decide)
      (show (InputStream.ofBuffer (longBody 1) 16).good = true from rfl) hbody).mp hsent).2 (by decide)
    rw [hrest] at hzero
    change ofBeBytes (((crcBehind _ 1).drop 8).take 8) < _ at hzero
    rw [height, hupper'] at hzero
    omega

end Librtaio

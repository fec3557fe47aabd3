import Librtaio.SerializeWalk

/-!
# Reused tables

A table that was sent or received before holds old checksums. `serialize_packet` overwrites
them before it writes them, so the packet does not depend on them, as long as the size of the body
is a positive `int`: the encoder counts the bytes that the body's checksum covers by an `int`, and
if that comes out negative or zero the old `bcrc` is sent.
-/

namespace Librtaio

open Bytes Crc32

/-! ### Numbers of elements -/

theorem toInt32_lt (z : Int) : toInt32 z < 2 ^ 31 := BitVec.toInt_lt

theorem le_toInt32 (z : Int) : -2 ^ 31 ≤ toInt32 z := BitVec.le_toInt _

theorem toInt32_le {z : Int} (hz : 0 ≤ z) : toInt32 z ≤ z := by
  have hmod : z % 4294967296 ≤ z := by omega
  rw [toInt32, BitVec.toInt_ofInt, Int.bmod_def]
  split <;> omega

/-- A negative number is a huge `size_t`. -/
theorem toSizeT_neg {z : Int} (hneg : toInt32 z < 0) : 2 ^ 63 ≤ toSizeT (toInt32 z) := by
  have hlo := le_toInt32 z
  rw [toSizeT, BitVec.toNat_ofInt]
  omega

theorem toSizeT_toInt32 {z : Int} (hpos : 0 ≤ toInt32 z) :
    toSizeT (toInt32 z) = (toInt32 z).toNat := toSizeT_eq hpos (toInt32_lt z)

namespace Field

/-- The bytes that are written for an entry whose elements are counted by an `int`. -/
def covered (p : Field) (cnt : Int) (prev : Field) : Nat :=
  match DataType.ofCode p.type, p.data with
  | some ty, none => ty.width
  | some ty, some _ => ty.elemWidth * (toInt32 (p.elements cnt prev)).toNat
  | none, _ => 0

/-- The number of an array's elements is not negative as an `int`. -/
def Counted (cnt : Int) (prev p : Field) : Prop := p.data ≠ none → 0 ≤ toInt32 (p.elements cnt prev)

end Field

section OneEntry

variable {T : Target} {cnt : Int} {prev p : Field} {ty : DataType} {memory : List UInt8}

theorem Item.isWalked (h : Item cnt prev p) (hdata : p.data ≠ none) : p.IsWalked := by
  cases h with
  | scalar ty hp => exact absurd hp.data hdata
  | counted ty memory hp hcount => exact .inl (by omega)
  | prefixed ty memory hp hcount => exact .inr hcount

theorem Item.not_misplaced (h : Item cnt prev p) : ¬ p.Misplaced prev := by
  rintro ⟨hdata, hcount, hshort, hlong⟩
  cases h with
  | scalar ty hp => exact hdata hp.data
  | counted ty memory hp hpos => omega
  | prefixed ty memory hp hneg hprev => exact hprev.type.elim hshort hlong

theorem Item.encoded (h : Item cnt prev p) (hblock : ∀ memory, p.data = some memory → memory.length < 2 ^ 63)
    (hcounted : Field.Counted cnt prev p) : Encoded cnt prev p := by
  rcases h.isScalar_or_isArray with ⟨ty, hp⟩ | ⟨ty, memory, hp⟩
  · exact .scalar ty hp
  · have hdata : p.data ≠ none := by simp [hp.data]
    have hnonneg := h.elements_nonneg hdata
    have hint := hcounted hdata
    have hle := toInt32_le hnonneg
    have hmem := h.size_le hp
    have hmoved := hp.moved_le hnonneg
    have hlt := hblock memory hp.data
    have hfew := hp.elements_le cnt prev
    refine .array ty memory hp h.not_misplaced ⟨fun hpos => ?_, fun _ => ?_⟩
    · have helem : p.elements cnt prev = p.count * cnt := if_pos hpos
      rw [checked, if_pos ⟨by omega, by omega⟩]
    · have hbytes : ty.elemWidth * (toInt32 (p.elements cnt prev)).toNat ≤
          ty.elemWidth * (p.elements cnt prev).toNat := Nat.mul_le_mul_left _ (by omega)
      rw [hp.moved_eq] at hmoved
      rw [Field.walked, toSizeT_toInt32 hint]
      omega

theorem Encoded.counted (h : Encoded cnt prev p) (hitem : Item cnt prev p)
    (hblock : ∀ memory, p.data = some memory → memory.length < 2 ^ 63) :
    Field.Counted cnt prev p := by
  intro hdata
  by_contra hneg
  cases h with
  | scalar ty hp => exact hdata hp.data
  | array ty memory hp hplaced hheld =>
    have hmem := hheld.memory (hitem.isWalked hdata)
    have hhuge := toSizeT_neg (Int.not_le.mp hneg)
    have hmul := Nat.le_mul_of_pos_left (p.walked cnt prev) ty.elemWidth_pos
    have hlt := hblock memory hp.data
    rw [Field.walked] at hmem hmul
    omega

theorem Item.length_written (h : Item cnt prev p) (hcounted : Field.Counted cnt prev p) (T : Target) :
    (p.written T cnt prev).length = p.covered cnt prev ∧
      p.covered cnt prev ≤ p.moved cnt prev := by
  rcases h.isScalar_or_isArray with ⟨ty, hp⟩ | ⟨ty, memory, hp⟩
  · rw [hp.written_eq, Field.length_scalarWire, hp.moved_eq]
    simp only [Field.covered, hp.ofCode, hp.data]
    exact ⟨trivial, le_rfl⟩
  · have hdata : p.data ≠ none := by simp [hp.data]
    have hnonneg := h.elements_nonneg hdata
    have hint := hcounted hdata
    have hle := toInt32_le hnonneg
    have hmem := h.size_le hp
    have hmoved := hp.moved_le hnonneg
    have hbytes : ty.elemWidth * (toInt32 (p.elements cnt prev)).toNat ≤
        ty.elemWidth * (p.elements cnt prev).toNat := Nat.mul_le_mul_left _ (by omega)
    have hcovered : p.covered cnt prev = ty.elemWidth * (toInt32 (p.elements cnt prev)).toNat := by
      simp only [Field.covered, hp.type, DataType.ofCode_code, hp.data]
    rw [hp.moved_eq] at hmoved ⊢
    rw [hcovered, hp.written_eq, if_pos (h.isWalked hdata), Field.walked, toSizeT_toInt32 hint,
      ByteOrder.length_flipWords _ _ _ _ (by omega)]
    exact ⟨rfl, hbytes⟩

end OneEntry

/-! ### Bodies -/

/-- The bytes that are written for consecutive entries whose elements are counted by an `int`. -/
def covereds (cnt : Int) : Field → List Field → Nat
  | _, [] => 0
  | prev, p :: es => p.covered cnt prev + covereds cnt p es

theorem Items.of_append {cnt : Int} {prev : Field} {es ds : List Field}
    (h : Items cnt prev (es ++ ds)) : Items cnt prev es ∧ Items cnt (lastEntry prev es) ds := by
  induction es generalizing prev with
  | nil => exact ⟨items_nil, h⟩
  | cons p es ih =>
    rw [List.cons_append, items_cons] at h
    obtain ⟨hes, hds⟩ := ih h.2
    exact ⟨items_cons.mpr ⟨h.1, hes⟩, hds⟩

/-- Every block that an entry points to is one that there can be. -/
def Blocks (es : List Field) : Prop := ∀ p ∈ es, ∀ memory, p.data = some memory → memory.length < 2 ^ 63

section Bodies

variable {cnt : Int} {prev : Field} {es : List Field}

theorem Blocks.tail {p : Field} (h : Blocks (p :: es)) : Blocks es :=
  fun q hq => h q (List.mem_cons_of_mem _ hq)

theorem isChain_encoded_iff (h : Items cnt prev es) (hblocks : Blocks es) :
    (prev :: es).IsChain (Encoded cnt) ↔ (prev :: es).IsChain (Field.Counted cnt) := by
  induction es generalizing prev with
  | nil => simp
  | cons p es ih =>
    rw [items_cons] at h
    have hblock := hblocks p List.mem_cons_self
    rw [List.isChain_cons_cons, List.isChain_cons_cons, ih h.2 hblocks.tail]
    exact and_congr_left' ⟨fun hp => hp.counted h.1 hblock, h.1.encoded hblock⟩

theorem length_spelled_written (h : Items cnt prev es)
    (hcounted : (prev :: es).IsChain (Field.Counted cnt)) (T : Target) :
    (spelled (fun prev p => p.written T cnt prev) prev es).length = covereds cnt prev es ∧
      covereds cnt prev es ≤ moves cnt prev es := by
  induction es generalizing prev with
  | nil => exact ⟨rfl, le_rfl⟩
  | cons p es ih =>
    rw [items_cons] at h
    rw [List.isChain_cons_cons] at hcounted
    obtain ⟨hlength, hle⟩ := h.1.length_written hcounted.1 T
    obtain ⟨hlengths, hles⟩ := ih h.2 hcounted.2
    rw [spelled, covereds, moves, List.length_append]
    omega

end Bodies

/-! ### Checksums -/

section Checksums

variable {len : Int} {n base : Nat} {out : OutputStream} {bodyBase : Option Nat}

/-- The header's checksum does not depend on the value that is overwritten. -/
theorem crcField_hcrc_fresh (hlength : out.written.length = 24) (p : Field) (value : Int) :
    crcField len FIELD_HCRC bodyBase out { p with ivalue := value } =
      crcField len FIELD_HCRC bodyBase out p := by
  have hpos : (BitVec.ofNat 32 out.written.length).toNat > 0 := by rw [hlength]; decide
  simp only [crcField, if_true, if_pos hpos]

/-- Nor does the body's, if the bytes it covers are a positive number of them as an `int`. -/
theorem crcField_bcrc_fresh (hn : n ≠ FIELD_HCRC) (hlast : len - 1 = n)
    (hpos : 0 < toInt32 (out.written.length - base)) (p : Field) (value : Int) :
    crcField len n (some base) out { p with ivalue := value } = crcField len n (some base) out p := by
  simp only [crcField, if_neg hn, if_pos hlast, if_pos (show toInt32 _ > 0 from hpos)]

/-- Otherwise the old value is sent. -/
theorem crcField_bcrc_stale (hn : n ≠ FIELD_HCRC) (hlast : len - 1 = n)
    (hneg : ¬ 0 < toInt32 (out.written.length - base)) (p : Field) :
    crcField len n (some base) out p = p := by
  simp only [crcField, if_neg hn, if_pos hlast, if_neg (show ¬ toInt32 _ > 0 from hneg)]

end Checksums

/-! ### Tables -/

namespace BodyTable

variable (t : BodyTable) (T : Target) (buffer : List UInt8)

/-- Whatever checksums are in the table, `serialize_packet` returns the same code and leaves the
same bytes and the same table, which differs from the one it was given in the checksums only; what it
leaves it encodes as before. -/
def Repeatable : Prop :=
  ∃ code out, ∀ hvalue bvalue, ∃ hvalue' bvalue',
    serializePacket T (.ofBuffer buffer) (t.withCrcs hvalue bvalue).fields t.len =
      .ok (code, out, (t.withCrcs hvalue' bvalue').fields) ∧
    serializePacket T (.ofBuffer buffer) (t.withCrcs hvalue' bvalue').fields t.len =
      .ok (code, out, (t.withCrcs hvalue' bvalue').fields)

variable {t T buffer}

theorem hcrcAfter_withCrcs (hroom : 24 ≤ buffer.length) (hvalue bvalue : Int) :
    (t.withCrcs hvalue bvalue).hcrcAfter T (.ofBuffer buffer) = t.hcrcAfter T (.ofBuffer buffer) := by
  have hfit : (t.headerImage T).length ≤ (OutputStream.ofBuffer buffer).room.length := by
    rw [length_headerImage]
    exact hroom
  have hlength : ((OutputStream.ofBuffer buffer).store (t.headerImage T)).written.length = 24 := by
    rw [OutputStream.store_eq_append hfit]
    exact t.length_headerImage T
  exact crcField_hcrc_fresh hlength t.hcrc hvalue

theorem bodyAfter_withCrcs (hroom : 24 ≤ buffer.length) (hvalue bvalue : Int) (es : List Field) :
    (t.withCrcs hvalue bvalue).headerAfter T (.ofBuffer buffer) = t.headerAfter T (.ofBuffer buffer) ∧
      (t.withCrcs hvalue bvalue).bodyAfter T (.ofBuffer buffer) es =
        t.bodyAfter T (.ofBuffer buffer) es := by
  have hheader : (t.withCrcs hvalue bvalue).headerAfter T (.ofBuffer buffer) =
      t.headerAfter T (.ofBuffer buffer) := by
    rw [headerAfter, hcrcAfter_withCrcs hroom]
    rfl
  refine ⟨hheader, ?_⟩
  rw [bodyAfter, hheader]
  rfl

theorem length_headerAfter (hroom : 32 ≤ buffer.length) :
    (t.headerAfter T (.ofBuffer buffer)).written.length = 32 ∧
      (t.headerAfter T (.ofBuffer buffer)).room.length = buffer.length - 32 := by
  have hheader : (t.headerImage T ++
      (t.hcrcAfter T (.ofBuffer buffer)).scalarWire T .llong).length = 32 := by
    rw [List.length_append, length_headerImage, Field.length_scalarWire]
    rfl
  have hafter : t.headerAfter T (.ofBuffer buffer) = (OutputStream.ofBuffer buffer).append
      (t.headerImage T ++ (t.hcrcAfter T (.ofBuffer buffer)).scalarWire T .llong) := by
    rw [headerAfter, OutputStream.store_store, OutputStream.store_eq_append]
    rw [hheader]
    exact hroom
  rw [hafter, OutputStream.append_written, OutputStream.append_room, List.length_drop, hheader]
  exact ⟨hheader, rfl⟩

theorem length_bodyAfter {es : List Field} (hroom : 36 + (t.writtens T t.bmark es).length ≤ buffer.length) :
    (t.bodyAfter T (.ofBuffer buffer) es).written.length = 36 + (t.writtens T t.bmark es).length ∧
      (t.bodyAfter T (.ofBuffer buffer) es).room.length =
        buffer.length - (36 + (t.writtens T t.bmark es).length) := by
  obtain ⟨hwritten, hleft⟩ := @length_headerAfter t T buffer (by omega)
  have hmark : (t.bmark.scalarWire T .long).length = 4 := Field.length_scalarWire _ _ _
  rw [bodyAfter, OutputStream.store_eq_append (by rw [List.length_append, hleft, hmark]; omega),
    OutputStream.append_written, OutputStream.append_room, List.length_append, List.length_append,
    List.length_drop, hleft, hwritten, hmark]
  constructor <;> omega

/-- The bytes between the header and the body's checksum. -/
theorem length_between (hroom : 36 + (t.writtens T t.bmark t.body).length ≤ buffer.length) :
    ((t.bodyAfter T (.ofBuffer buffer) t.body).written.length : Int) -
        (t.headerAfter T (.ofBuffer buffer)).written.length =
      (4 + (t.writtens T t.bmark t.body).length : Nat) := by
  rw [(length_bodyAfter hroom).1, (length_headerAfter (by omega)).1]
  omega

theorem repeatable_of_covered (hbody : (t.bmark :: t.body).IsChain (Encoded t.cnt))
    (hroom : 44 + (t.writtens T t.bmark t.body).length ≤ buffer.length)
    (hcovered : 0 < toInt32 (4 + (t.writtens T t.bmark t.body).length : Nat)) :
    t.Repeatable T buffer := by
  have hlast : t.len - 1 = ((FIELD_NEXT + t.body.length : Nat) : Int) := by
    simp only [FIELD_NEXT, len]
    omega
  have hn : FIELD_NEXT + t.body.length ≠ FIELD_HCRC := by
    simp only [FIELD_NEXT, FIELD_HCRC]
    omega
  have hrun : ∀ hvalue bvalue,
      serializePacket T (.ofBuffer buffer) (t.withCrcs hvalue bvalue).fields t.len =
        .ok (ERR_OK, (t.bodyAfter T (.ofBuffer buffer) t.body).store
            ((t.bcrcAfter T (.ofBuffer buffer)).scalarWire T .llong),
          (t.withCrcs (t.hcrcAfter T (.ofBuffer buffer)).ivalue
            (t.bcrcAfter T (.ofBuffer buffer)).ivalue).fields) := by
    intro hvalue bvalue
    obtain ⟨hheader, hafter⟩ := @bodyAfter_withCrcs t T buffer (by omega) hvalue bvalue t.body
    have hbcrc : (t.withCrcs hvalue bvalue).bcrcAfter T (.ofBuffer buffer) =
        t.bcrcAfter T (.ofBuffer buffer) := by
      have hfresh := @crcField_bcrc_fresh t.len (FIELD_NEXT + t.body.length)
        (t.headerAfter T (.ofBuffer buffer)).written.length (t.bodyAfter T (.ofBuffer buffer) t.body)
        hn hlast (by rw [length_between (by omega)]; exact hcovered) t.bcrc bvalue
      rw [bcrcAfter, hheader]
      change crcField t.len (FIELD_NEXT + t.body.length) _
        ((t.withCrcs hvalue bvalue).bodyAfter T (.ofBuffer buffer) t.body) _ = _
      rw [hafter]
      exact hfresh
    have hpacket := @serializePacket_encoded (t.withCrcs hvalue bvalue) T (.ofBuffer buffer) hbody rfl
      (.inr hroom)
    rw [hcrcAfter_withCrcs (by omega), hbcrc] at hpacket
    change serializePacket T (.ofBuffer buffer) (t.withCrcs hvalue bvalue).fields t.len =
      .ok (ERR_OK, ((t.withCrcs hvalue bvalue).bodyAfter T (.ofBuffer buffer) t.body).store _, _) at hpacket
    rw [hafter] at hpacket
    exact hpacket
  exact ⟨_, _, fun hvalue bvalue => ⟨_, _, hrun hvalue bvalue, hrun _ _⟩⟩

/-- What is sent for a body of another size holds the old checksum. -/
theorem not_repeatable (hbody : (t.bmark :: t.body).IsChain (Encoded t.cnt))
    (hroom : 44 + (t.writtens T t.bmark t.body).length ≤ buffer.length)
    (hcovered : ¬ 0 < toInt32 (4 + (t.writtens T t.bmark t.body).length : Nat)) :
    ¬ t.Repeatable T buffer := by
  rintro ⟨code, out, hsame⟩
  have hlast : t.len - 1 = ((FIELD_NEXT + t.body.length : Nat) : Int) := by
    simp only [FIELD_NEXT, len]
    omega
  have hn : FIELD_NEXT + t.body.length ≠ FIELD_HCRC := by
    simp only [FIELD_NEXT, FIELD_HCRC]
    omega
  have hlength := @length_between t T buffer (by omega)
  have hleft := (@length_bodyAfter t T buffer t.body (by omega)).2
  have hsent : ∀ bvalue, out = (t.bodyAfter T (.ofBuffer buffer) t.body).append
      (({ t.bcrc with ivalue := bvalue } : Field).scalarWire T .llong) := by
    intro bvalue
    obtain ⟨hheader, hafter⟩ := @bodyAfter_withCrcs t T buffer (by omega) 0 bvalue t.body
    have hstale : (t.withCrcs 0 bvalue).bcrcAfter T (.ofBuffer buffer) =
        { t.bcrc with ivalue := bvalue } := by
      have hold := @crcField_bcrc_stale t.len (FIELD_NEXT + t.body.length)
        (t.headerAfter T (.ofBuffer buffer)).written.length (t.bodyAfter T (.ofBuffer buffer) t.body)
        hn hlast (by rw [hlength]; exact hcovered) { t.bcrc with ivalue := bvalue }
      rw [bcrcAfter, hheader]
      change crcField t.len (FIELD_NEXT + t.body.length) _
        ((t.withCrcs 0 bvalue).bodyAfter T (.ofBuffer buffer) t.body) _ = _
      rw [hafter]
      exact hold
    obtain ⟨hvalue', bvalue', hpacket, -⟩ := hsame 0 bvalue
    have hrun := @serializePacket_encoded (t.withCrcs 0 bvalue) T (.ofBuffer buffer) hbody rfl
      (.inr hroom)
    change serializePacket T (.ofBuffer buffer) (t.withCrcs 0 bvalue).fields t.len =
      .ok (ERR_OK, ((t.withCrcs 0 bvalue).bodyAfter T (.ofBuffer buffer) t.body).store _, _) at hrun
    rw [hpacket, hstale, hafter] at hrun
    have hout := congrArg (fun r => r.2.1) (Except.ok.inj hrun)
    rw [OutputStream.store_eq_append] at hout
    · exact hout
    · rw [Field.length_scalarWire, hleft, DataType.width]
      omega
  have hsame' := (hsent 0).symm.trans (hsent 1)
  have hvalue : beBytes 8 (BitVec.ofInt 64 0).toNat = beBytes 8 (BitVec.ofInt 64 1).toNat :=
    List.append_cancel_left (congrArg OutputStream.written hsame')
  exact absurd hvalue (by decide)

end BodyTable

namespace PacketTable

variable (t : PacketTable)

def bodyTable : BodyTable := { t with }

/-- The bytes that the body's checksum covers. -/
def covered : Nat := 4 + covereds t.cnt t.bmark t.body

/-- The numbers of elements of the body's arrays are not negative as `int`s. -/
def Counted : Prop := (t.bmark :: t.body).IsChain (Field.Counted t.cnt)

variable {t} {T : Target} {buffer : List UInt8}

theorem counted_of_repeatable (hblocks : Blocks t.body) (hroom : t.length ≤ buffer.length)
    (h : t.bodyTable.Repeatable T buffer) : t.Counted := by
  have htotal : t.length = 44 + moves t.cnt t.bmark t.body := rfl
  refine (isChain_encoded_iff t.items hblocks).mp ?_
  rcases exists_first_not_encoded t.cnt t.bmark t.body with hbody | ⟨ds, p, rest, hsplit, hds, hp⟩
  · exact hbody
  · have hitems := t.items
    rw [hsplit] at hitems hblocks htotal
    obtain ⟨hditems, hpitems⟩ := hitems.of_append
    rw [items_cons] at hpitems
    rw [moves_append] at htotal
    have hdcounted := (isChain_encoded_iff hditems
      (fun q hq => hblocks q (List.mem_append_left _ hq))).mp hds
    obtain ⟨hlength, hle⟩ := length_spelled_written hditems hdcounted T
    rcases hpitems.1.isScalar_or_isArray with ⟨ty, hscalar⟩ | ⟨ty, memory, harray⟩
    · exact absurd (.scalar ty hscalar) hp
    · have hplaced := hpitems.1.not_misplaced
      obtain ⟨fault, hfault⟩ := BodyTable.serializePacket_outside (t := t.bodyTable.withCrcs 0 0)
        hsplit hds harray hplaced (fun hheld => hp (.array ty memory harray hplaced hheld))
        (show (OutputStream.ofBuffer buffer).bad = false from rfl) (.inr (by
          change 36 + (spelled (fun prev p => p.written T t.cnt prev) t.bmark ds).length ≤ buffer.length
          omega))
      obtain ⟨code, out, hsame⟩ := h
      obtain ⟨hvalue, bvalue, hrun, -⟩ := hsame 0 0
      change serializePacket T (.ofBuffer buffer) (t.bodyTable.withCrcs 0 0).fields t.bodyTable.len = _
        at hfault
      rw [hrun] at hfault
      cases hfault

theorem writtens_bodyTable (hcounted : t.Counted) (T : Target) :
    4 + (t.bodyTable.writtens T t.bmark t.body).length = t.covered ∧ 40 + t.covered ≤ t.length := by
  obtain ⟨hlength, hle⟩ := length_spelled_written t.items hcounted T
  have htotal : t.length = 44 + moves t.cnt t.bmark t.body := rfl
  have hcovered : t.covered = 4 + covereds t.cnt t.bmark t.body := rfl
  change 4 + (spelled (fun prev p => p.written T t.cnt prev) t.bmark t.body).length = _ ∧ _
  omega

theorem not_repeatable (hblocks : Blocks t.body) (hroom : t.length ≤ buffer.length)
    (hcounted : t.Counted) (hcovered : ¬ 0 < toInt32 t.covered) :
    ¬ t.bodyTable.Repeatable T buffer := by
  obtain ⟨hlength, hle⟩ := writtens_bodyTable hcounted T
  refine BodyTable.not_repeatable ((isChain_encoded_iff t.items hblocks).mpr hcounted) ?_ ?_
  · change 44 + (t.bodyTable.writtens T t.bmark t.body).length ≤ buffer.length
    omega
  · change ¬ 0 < toInt32 (4 + (t.bodyTable.writtens T t.bmark t.body).length : Nat)
    rw [hlength]
    exact hcovered

/-- **Reused tables.** A packet does not depend on the checksums that were in its table exactly if
the `int`s that count its elements and the bytes of its body are good for them. -/
theorem repeatable_iff (hblocks : Blocks t.body) (hroom : t.length ≤ buffer.length) :
    t.bodyTable.Repeatable T buffer ↔ t.Counted ∧ 0 < toInt32 t.covered := by
  constructor
  · intro h
    have hcounted := counted_of_repeatable hblocks hroom h
    refine ⟨hcounted, ?_⟩
    by_contra hcovered
    exact not_repeatable hblocks hroom hcounted hcovered h
  · rintro ⟨hcounted, hcovered⟩
    obtain ⟨hlength, hle⟩ := writtens_bodyTable hcounted T
    refine BodyTable.repeatable_of_covered ((isChain_encoded_iff t.items hblocks).mpr hcounted) ?_ ?_
    · change 44 + (t.bodyTable.writtens T t.bmark t.body).length ≤ buffer.length
      omega
    · change 0 < toInt32 (4 + (t.bodyTable.writtens T t.bmark t.body).length : Nat)
      rw [hlength]
      exact hcovered

/-- A CHAR array behind the LONG that is its length. -/
def textTable (n : Nat) (memory : List UInt8) (h : n ≤ memory.length) : PacketTable :=
  ofBody 0 MSG_COMMON 0 1 [scalarField .long n, ⟨DataType.char.code, 0, 0, some memory, -1⟩] <| by
    have hp : (⟨DataType.char.code, 0, 0, some memory, -1⟩ : Field).IsArray .char memory := ⟨rfl, rfl⟩
    rw [items_cons, items_cons]
    refine ⟨.scalar .long ⟨rfl, rfl⟩, .prefixed .char memory hp rfl (.inr ⟨rfl, rfl⟩)
      (Int.natCast_nonneg n) ?_, items_nil⟩
    rw [hp.size_eq, Entry.prefixed_elements _ _ rfl, DataType.width]
    change (1 : Int) * n ≤ memory.length
    omega

theorem counted_textTable {n : Nat} {memory : List UInt8} (h : n ≤ memory.length)
    (hn : n < 2 ^ 31) : (textTable n memory h).Counted ∧ (textTable n memory h).covered = 8 + n := by
  have hint : toInt32 n = n := toInt32_eq (by omega) (by exact_mod_cast hn)
  refine ⟨.cons_cons (fun hdata => absurd rfl hdata) (.cons_cons (fun _ => ?_) (.singleton _)), ?_⟩
  · change 0 ≤ toInt32 n
    omega
  · change 4 + (4 + (1 * (toInt32 n).toNat + 0)) = 8 + n
    omega

theorem length_textTable {n : Nat} {memory : List UInt8} (h : n ≤ memory.length) :
    (textTable n memory h).length = 48 + n := by
  change 44 + (4 + (1 * n + 0)) = 48 + n
  omega

theorem blocks_textTable {n : Nat} {memory : List UInt8} (h : n ≤ memory.length)
    (hlength : memory.length < 2 ^ 63) : Blocks (textTable n memory h).body := by
  intro p hp memory' hmemory
  obtain rfl | hp := List.mem_cons.mp hp
  · cases hmemory
  · obtain rfl := List.mem_singleton.mp hp
    cases hmemory
    exact hlength

/-- Five bytes. -/
theorem repeatable_five :
    (textTable 5 [104, 101, 108, 108, 111] (by decide)).bodyTable.Repeatable (.build .little)
      (List.replicate 64 0) := by
  obtain ⟨hcounted, hcovered⟩ := @counted_textTable 5 [104, 101, 108, 108, 111] (by decide)
    (by decide)
  exact (repeatable_iff (blocks_textTable _ (by decide)) (by decide)).mpr
    ⟨hcounted, by rw [hcovered]; decide⟩

/-- A body with 2 GiB in front of its checksum. -/
theorem not_repeatable_huge :
    ¬ (textTable 2147483640 (List.replicate 2147483640 0)
      (by rw [List.length_replicate])).bodyTable.Repeatable (.build .little)
      (List.replicate 2147483700 0) := by
  obtain ⟨hcounted, hcovered⟩ := @counted_textTable 2147483640 (List.replicate 2147483640 0)
    (by rw [List.length_replicate]) (by decide)
  refine not_repeatable (blocks_textTable _ (by rw [List.length_replicate]; decide))
    ((length_textTable _).le.trans ?_) hcounted (by rw [hcovered]; decide)
  rw [List.length_replicate]
  decide

end PacketTable

end Librtaio

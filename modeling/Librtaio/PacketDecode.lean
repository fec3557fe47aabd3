import Librtaio.UnserializeSpec

/-!
# The body decoder on bytes of a table's layout

A destination has the shape of the sender's table (`Slot`, `Along`). Over bytes
that spell the lengths of the arrays as the sender has them (`LengthsKept`), and
may spell anything else, the body decoder reads entry by entry what the sender
moved (`unserializeBodyLoop_items`): it compares the checksum with that of the
same range, and its table is `readsFrom` those bytes (`PacketTable.body_decoded`).
-/

namespace Librtaio

open Bytes Crc32

/-! ### Scalars -/

/-- A scalar that the decoders can restore: not a floating point one, and in the signed
range of its width. -/
def Field.InRange (p : Field) : Prop :=
  ∀ ty, p.IsScalar ty → ty ≠ .float ∧ ty ≠ .double ∧
    -2 ^ (8 * ty.width - 1) ≤ p.ivalue ∧ p.ivalue < 2 ^ (8 * ty.width - 1)

/-- A signed number comes back from the bytes of its word. -/
theorem toInt_beBytes {w : Nat} (hw : 0 < w) {z : Int} (hlo : -2 ^ (8 * w - 1) ≤ z)
    (hhi : z < 2 ^ (8 * w - 1)) :
    (BitVec.ofNat (8 * w) (ofBeBytes (beBytes w (BitVec.ofInt (8 * w) z).toNat))).toInt = z := by
  have hword : BitVec.ofNat (8 * w) (ofBeBytes (beBytes w (BitVec.ofInt (8 * w) z).toNat)) =
      BitVec.ofInt (8 * w) z := by
    apply BitVec.eq_of_toNat_eq
    rw [ofBeBytes_beBytes, pow_256_eq, BitVec.toNat_ofNat, Nat.mod_mod,
      Nat.mod_eq_of_lt (BitVec.isLt _)]
  obtain ⟨k, hk⟩ : ∃ k, 8 * w = k + 1 := ⟨8 * w - 1, by omega⟩
  have hpow : ((2 ^ (8 * w) : Nat) : Int) = 2 * 2 ^ (8 * w - 1) := by
    rw [hk, Nat.add_sub_cancel]
    push_cast
    ring
  rw [hword, BitVec.toInt_ofInt]
  exact Int.bmod_eq_of_le (by omega) (by omega)

theorem scalarRead_scalarWire {p : Field} {ty : DataType} (hp : p.IsScalar ty) (hin : p.InRange)
    (T : Target) (q : Field) : (q.scalarRead ty (p.scalarWire T ty)).ivalue = p.ivalue := by
  obtain ⟨hfloat, hdouble, hlo, hhi⟩ := hin ty hp
  have hvalue := toInt_beBytes ty.width_pos hlo hhi
  cases ty <;> simp only [DataType.width, Nat.reduceMul] at hvalue
  case float => exact absurd rfl hfloat
  case double => exact absurd rfl hdouble
  all_goals
    simp only [Field.scalarRead, Field.scalarWire]
    exact hvalue

/-- A checksum comes back from the LONGLONG it is written as. -/
theorem ofNat_crc (crc : BitVec 32) :
    BitVec.ofNat 32 (ofBeBytes (beBytes 8 (BitVec.ofInt 64 crc.toNat).toNat)) = crc := by
  have hlt := crc.isLt
  apply BitVec.eq_of_toNat_eq
  rw [ofBeBytes_beBytes, BitVec.ofInt_natCast, BitVec.toNat_ofNat, BitVec.toNat_ofNat]
  omega

/-! ### Tables side by side -/

/-- A relation between the entries of two tables, given the first table's entry before. -/
inductive Along (R : Field → Field → Field → Prop) : Field → List Field → List Field → Prop where
  | nil {prev : Field} : Along R prev [] []
  | cons {prev p q : Field} {es ds : List Field} (h : R prev p q) (hs : Along R p es ds) :
      Along R prev (p :: es) (q :: ds)

theorem Along.append {R : Field → Field → Field → Prop} {prev : Field} {es ds es' ds' : List Field}
    (h : Along R prev es ds) (h' : Along R (lastEntry prev es) es' ds') :
    Along R prev (es ++ es') (ds ++ ds') := by
  induction h with
  | nil => exact h'
  | cons hpq _ ih => exact .cons hpq (ih h')

theorem Along.length_eq {R : Field → Field → Field → Prop} {prev : Field} {es ds : List Field}
    (h : Along R prev es ds) : ds.length = es.length := by
  induction h with
  | nil => rfl
  | cons _ _ ih => rw [List.length_cons, List.length_cons, ih]

/-- An entry `q` that can take what `p` puts on the wire. -/
structure Slot (cnt : Int) (prev p q : Field) : Prop where
  type : q.type = p.type
  count : p.data ≠ none → q.count = p.count
  data : q.data = none ↔ p.data = none
  room : ∀ memory, q.data = some memory → p.size cnt prev ≤ memory.length

section Slots

variable {cnt : Int} {prev p q : Field} {ty : DataType} {memory : List UInt8}

theorem Slot.isScalar (h : Slot cnt prev p q) (hp : p.IsScalar ty) : q.IsScalar ty :=
  ⟨h.type.trans hp.type, h.data.mpr hp.data⟩

theorem Slot.isArray (h : Slot cnt prev p q) (hp : p.IsArray ty memory) :
    ∃ memory', q.IsArray ty memory' ∧ q.count = p.count ∧ p.size cnt prev ≤ memory'.length := by
  have hsome : p.data ≠ none := by simp [hp.data]
  obtain ⟨memory', hmemory'⟩ := Option.ne_none_iff_exists'.mp fun hq => hsome (h.data.mp hq)
  exact ⟨memory', ⟨h.type.trans hp.type, hmemory'⟩, h.count hsome, h.room _ hmemory'⟩

end Slots

/-! ### One entry -/

/-- An array whose length is the scalar before it. -/
def Field.Prefixed (p : Field) : Prop := p.data ≠ none ∧ p.count = -1

instance (p : Field) : Decidable p.Prefixed := inferInstanceAs (Decidable (_ ∧ _))

/-- An entry after what the sender moved for `n` elements, or for a scalar, was read
from `bs` into it. -/
def Field.readFrom (q : Field) (T : Target) (n : Nat) (bs : List UInt8) : Field :=
  match DataType.ofCode q.type, q.data with
  | some ty, none => q.scalarRead ty bs
  | some ty, some memory => q.arrayRead T.order ty memory n bs
  | none, _ => q

section Shapes

variable {q : Field} {ty : DataType} {memory : List UInt8}

theorem Field.IsScalar.readFrom_eq (h : q.IsScalar ty) (T : Target) (n : Nat) (bs : List UInt8) :
    q.readFrom T n bs = q.scalarRead ty bs := by
  simp only [readFrom, h.data, h.type, DataType.ofCode_code]

theorem Field.IsArray.readFrom_eq (h : q.IsArray ty memory) (T : Target) (n : Nat)
    (bs : List UInt8) : q.readFrom T n bs = q.arrayRead T.order ty memory n bs := by
  simp only [readFrom, h.data, h.type, DataType.ofCode_code]

/-- The words of an array are taken from what was moved for it. -/
theorem Field.arrayRead_take (q : Field) (o : ByteOrder) (n : Nat) (bs : List UInt8)
    (h : ty.elemWidth * n ≤ bs.length) :
    q.arrayRead o ty memory n (bs.take (ty.elemWidth * n)) = q.arrayRead o ty memory n bs := by
  have happ := o.flipWords_append ty.elemWidth n (bs.take (ty.elemWidth * n))
    (bs.drop (ty.elemWidth * n)) (by rw [List.length_take]; omega)
  rw [List.take_append_drop] at happ
  rw [arrayRead, arrayRead, happ]

end Shapes

section OneEntry

variable {T : Target} {cnt : Int} {prev p q prev' : Field} {s : InputStream}

/-- An entry takes from the stream what the sender moved for it. -/
theorem unserializeField_item (h : Item cnt prev p) (hslot : Slot cnt prev p q)
    (hprev : p.Prefixed → prev'.IsLength ∧ prev'.ivalue = prev.ivalue)
    (hmoved : p.moved cnt prev < 2 ^ 31) (hgood : s.good = true)
    (hrest : p.moved cnt prev ≤ s.rest.length) (v : Locals) :
    ∃ v', unserializeField T (toInt32 cnt) (some prev') v s q =
      .ok (none, s.advance (p.moved cnt prev), v',
        q.readFrom T (p.elements cnt prev).toNat (s.rest.take (p.moved cnt prev))) := by
  have hle := h.moved_le
  cases h with
  | scalar ty hp =>
    have hq := hslot.isScalar hp
    rw [hp.moved_eq] at hrest ⊢
    rw [hq.readFrom_eq]
    exact unserializeField_scalar _ _ _ hq hgood hrest
  | counted ty memory hp hcount hcnt hmem =>
    obtain ⟨memory', hq, hqcount, hroom⟩ := hslot.isArray hp
    obtain ⟨helem, hnonneg⟩ := Entry.counted_elements prev hcount hcnt
    have helems := hp.elements_le cnt prev
    have hcntle : cnt ≤ p.elements cnt prev := calc
      cnt = 1 * cnt := (Int.one_mul _).symm
      _ ≤ p.count * cnt := Int.mul_le_mul_of_nonneg_right (by omega) hcnt
      _ = p.elements cnt prev := helem.symm
    have hcomm : toInt32 cnt * q.count = p.elements cnt prev := by
      rw [toInt32_eq (by omega) (by omega), hqcount, helem, Int.mul_comm]
    rw [hp.moved_eq] at hrest hle hmoved helems ⊢
    have hread := unserializeField_counted (T := T) (toInt32 cnt) (s := s) (some prev') v hq
      (by omega) (by omega) (by omega) hgood (by rw [hcomm]; exact hrest) (by rw [hcomm]; omega)
    rw [hcomm] at hread
    exact ⟨v, by rw [hread, hq.readFrom_eq, Field.arrayRead_take _ _ _ _ hrest]⟩
  | prefixed ty memory hp hcount hlength hlen hmem =>
    obtain ⟨memory', hq, hqcount, hroom⟩ := hslot.isArray hp
    obtain ⟨hprev', hvalue⟩ := hprev ⟨by simp [hp.data], hcount⟩
    have helem := Entry.prefixed_elements cnt prev hcount
    have helems := hp.elements_le cnt prev
    have hcomm : prev'.ivalue = p.elements cnt prev := by rw [hvalue, helem]
    rw [hp.moved_eq] at hrest hle hmoved helems ⊢
    have hread := unserializeField_prefixed (T := T) (toInt32 cnt) (s := s) v hq
      (by omega) hprev' (toInt32_eq (by omega) (by omega)) (by omega) hgood
      (by rw [hcomm]; exact hrest) (by rw [hcomm]; omega)
    rw [hcomm] at hread
    exact ⟨v, by rw [hread, hq.readFrom_eq, Field.arrayRead_take _ _ _ _ hrest]⟩

end OneEntry

/-! ### A run of entries -/

/-- A destination after what the sender moved for `es` was read from the bytes. -/
def readsFrom (T : Target) (cnt : Int) : Field → List Field → List Field → List UInt8 → List Field
  | prev, p :: es, q :: ds, bs =>
    q.readFrom T (p.elements cnt prev).toNat (bs.take (p.moved cnt prev)) ::
      readsFrom T cnt p es ds (bs.drop (p.moved cnt prev))
  | _, _, _, _ => []

/-- The bytes spell the lengths of the arrays among `es` as the sender's do. -/
def LengthsKept (T : Target) (cnt : Int) : Field → List Field → List UInt8 → Prop
  | _, [], _ => True
  | prev, p :: es, bs =>
    ((∃ a ∈ es.head?, a.Prefixed) → bs.take (p.moved cnt prev) = p.image T cnt prev) ∧
      LengthsKept T cnt p es (bs.drop (p.moved cnt prev))

/-- The lengths of arrays are in the range of their own type. -/
def LengthsFit (prev : Field) (es : List Field) : Prop :=
  (prev :: es).IsChain fun p a => a.Prefixed → p.InRange

section Runs

variable {T T' : Target} {cnt : Int} {prev p prev' : Field} {es ds : List Field} {s : InputStream}

theorem lengthsFit_cons :
    LengthsFit prev (p :: es) ↔ (p.Prefixed → prev.InRange) ∧ LengthsFit p es := by
  simp [LengthsFit]

theorem lengthsFit_of_inRange (hprev : prev.InRange)
    (hin : ∀ p ∈ es, p.InRange) : LengthsFit prev es := by
  induction es generalizing prev with
  | nil => simp [LengthsFit]
  | cons p es ih =>
    rw [lengthsFit_cons]
    exact ⟨fun _ => hprev, ih (hin p (by simp)) fun r hr => hin r (by simp [hr])⟩

theorem lengthsKept_images (h : Items cnt prev es) (tail : List UInt8) :
    LengthsKept T cnt prev es (images T cnt prev es ++ tail) := by
  induction es generalizing prev with
  | nil => trivial
  | cons p es ih =>
    rw [items_cons] at h
    have hlen := h.1.length_image T
    rw [images, List.append_assoc]
    constructor
    · intro _
      exact List.take_left' hlen
    · rw [List.drop_left' hlen]
      exact ih h.2

theorem lengthsKept_append {bs : List UInt8} (hbs : moves cnt prev es ≤ bs.length)
    (tail : List UInt8) :
    LengthsKept T cnt prev es (bs ++ tail) ↔ LengthsKept T cnt prev es bs := by
  induction es generalizing prev bs with
  | nil => exact Iff.rfl
  | cons p es ih =>
    rw [moves] at hbs
    rw [LengthsKept, LengthsKept, List.take_append_of_le_length (by omega),
      List.drop_append_of_le_length (by omega), ih (by rw [List.length_drop]; omega)]

theorem readsFrom_append {bs : List UInt8} (hbs : moves cnt prev es ≤ bs.length)
    (tail : List UInt8) :
    readsFrom T cnt prev es ds (bs ++ tail) = readsFrom T cnt prev es ds bs := by
  induction es generalizing prev ds bs with
  | nil => simp only [readsFrom]
  | cons p es ih =>
    rw [moves] at hbs
    cases ds with
    | nil => simp only [readsFrom]
    | cons q ds =>
      rw [readsFrom, readsFrom, List.take_append_of_le_length (by omega),
        List.drop_append_of_le_length (by omega), ih (by rw [List.length_drop]; omega)]

/-- The decoded length of an array is the sender's. -/
theorem length_read {q : Field} {bs : List UInt8} (h : Items cnt p es)
    (hfit : LengthsFit p es) (hslot : Slot cnt prev p q)
    (hkept : (∃ a ∈ es.head?, a.Prefixed) → bs.take (p.moved cnt prev) = p.image T cnt prev) :
    ∀ a ∈ es.head?, a.Prefixed →
      (q.readFrom T' (p.elements cnt prev).toNat (bs.take (p.moved cnt prev))).IsLength ∧
        (q.readFrom T' (p.elements cnt prev).toNat (bs.take (p.moved cnt prev))).ivalue =
          p.ivalue := by
  intro a ha hprefixed
  have hbytes := hkept ⟨a, ha, hprefixed⟩
  obtain ⟨es', rfl⟩ : ∃ es', es = a :: es' := by
    cases es with
    | nil => simp at ha
    | cons b es' => exact ⟨es', by simpa using ha⟩
  have hlength : p.IsLength := by
    cases (items_cons.mp h).1 with
    | scalar ty hp => exact absurd hp.data hprefixed.1
    | counted ty memory hp hcount =>
      have hneg := hprefixed.2
      omega
    | prefixed ty memory hp hcount hprev => exact hprev
  have hin := (lengthsFit_cons.mp hfit).1 hprefixed
  have scalar {ty : DataType} (hp : p.IsScalar ty) :
      (q.readFrom T' (p.elements cnt prev).toNat (bs.take (p.moved cnt prev))).IsScalar ty ∧
        (q.readFrom T' (p.elements cnt prev).toNat (bs.take (p.moved cnt prev))).ivalue =
          p.ivalue := by
    have hq := hslot.isScalar hp
    rw [hbytes, hp.image_eq, hq.readFrom_eq]
    exact ⟨hq.scalarRead _, scalarRead_scalarWire hp hin T q⟩
  rcases hlength with hp | hp
  · exact ⟨.inl (scalar hp).1, (scalar hp).2⟩
  · exact ⟨.inr (scalar hp).1, (scalar hp).2⟩

theorem bind_parts {ε α β γ : Type} (x : Except ε (α × β × γ)) :
    x >>= (fun r => .ok (r.1, r.2.1, r.2.2)) = x := by
  cases x <;> rfl

variable (T' prev') in
/-- **A run of entries.** The body loop reads entry by entry what the sender moved. -/
theorem unserializeBodyLoop_items (len : Int) (compareCrc : Bool) (base n : Nat) (crc : BitVec 32)
    (rest : List Field) (h : Items cnt prev es) (hfit : LengthsFit prev es)
    (hslots : Along (Slot cnt) prev es ds)
    (hprev : ∀ a ∈ es.head?, a.Prefixed → prev'.IsLength ∧ prev'.ivalue = prev.ivalue)
    (hmoves : moves cnt prev es < 2 ^ 31) (hlen : (n : Int) + es.length < len)
    (hgood : s.good = true) (hrest : moves cnt prev es ≤ s.rest.length)
    (hkept : LengthsKept T cnt prev es s.rest) (v : Locals) :
    ∃ v' last, unserializeBodyLoop T' len compareCrc (toInt32 cnt) base n crc v (some prev') s
        (ds ++ rest) =
      unserializeBodyLoop T' len compareCrc (toInt32 cnt) base (n + es.length) crc v' last
          (s.advance (moves cnt prev es)) rest >>=
        fun r => .ok (r.1, r.2.1, readsFrom T' cnt prev es ds s.rest ++ r.2.2) := by
  induction hslots generalizing n prev' s v with
  | @nil prev =>
    have hadvance : s.advance (moves cnt prev []) = s := by simp [InputStream.advance, moves]
    refine ⟨v, some prev', ?_⟩
    rw [hadvance]
    exact (bind_parts _).symm
  | @cons prev p q es ds hpq _ ih =>
    rw [items_cons] at h
    rw [lengthsFit_cons] at hfit
    rw [moves] at hmoves hrest
    rw [List.length_cons] at hlen
    obtain ⟨v₁, hfield⟩ := unserializeField_item (T := T') h.1 hpq
      (fun ha => hprev p (by simp) ha) (by omega) hgood (by omega) v
    obtain ⟨v', last, hloop⟩ := ih _ (n + 1) (s := s.advance (p.moved cnt prev)) h.2 hfit.2
      (length_read h.2 hfit.2 hpq hkept.1) (by omega) (by omega) hgood
      (by rw [InputStream.advance_rest, List.length_drop]; omega) hkept.2 v₁
    have htype : 0 ≤ q.type := by
      rw [hpq.type]
      exact h.1.type_nonneg
    refine ⟨v', last, ?_⟩
    rw [List.cons_append, unserializeBodyLoop_step htype (by omega) hfield, hloop, moves,
      InputStream.advance_advance, List.length_cons, show n + 1 + es.length = n + (es.length + 1) by omega]
    rw [bind_assoc]
    rfl

end Runs

/-! ### The body -/

namespace PacketTable

variable (t : PacketTable)

/-- A table the packet can be decoded into: the shape of `t`, with the room its arrays need. -/
structure Dest where
  header : List Field
  bmark : Field
  body : List Field
  bcrc : Field
  terminator : Field
  isHeader : IsHeader header
  bmark_long : bmark.IsScalar .long
  slots : Along (Slot t.cnt) t.bmark t.body body
  bcrc_llong : bcrc.IsScalar .llong
  terminator_neg : terminator.type < 0

variable {t}

def Dest.tail (dst : t.Dest) : List Field := dst.bmark :: dst.body ++ [dst.bcrc, dst.terminator]

def Dest.fields (dst : t.Dest) : List Field := dst.header ++ dst.tail

theorem Dest.slots_body (dst : t.Dest) :
    Along (Slot t.cnt) t.hcrc (t.bmark :: t.body) (dst.bmark :: dst.body) := by
  refine .cons ⟨dst.bmark_long.type.trans t.bmark_long.type.symm, ?_, ?_, ?_⟩ dst.slots
  · intro hdata
    exact absurd t.bmark_long.data hdata
  · rw [dst.bmark_long.data, t.bmark_long.data]
  · intro memory hmemory
    exact absurd (dst.bmark_long.data.symm.trans hmemory) (by simp)

variable (t)

/-- The entries the body's checksum covers, after the header. -/
theorem covered_items : Items t.cnt t.hcrc (t.bmark :: t.body) :=
  items_cons.mpr ⟨.scalar _ t.bmark_long, t.items⟩

theorem bodyImage_eq (T : Target) : t.bodyImage T = images T t.cnt t.hcrc (t.bmark :: t.body) := by
  rw [bodyImage, images, t.bmark_long.image_eq]

theorem moves_covered : moves t.cnt t.hcrc (t.bmark :: t.body) = 4 + moves t.cnt t.bmark t.body := by
  rw [moves, t.bmark_long.moved_eq]
  rfl

variable {t}

/-- **The body decoder.** On bytes that spell the lengths of the arrays as the sender's do,
it reads to the end of the body and compares the checksum with that of the bytes. -/
theorem body_decoded (hfit : LengthsFit t.bmark t.body) (hlength : t.length < 2 ^ 31)
    (dst : t.Dest) {T : Target} (T' : Target) (compareCrc : Bool) {s : InputStream} {hs : List Field}
    {count : Field} {bs crc : List UInt8} (tail : List UInt8) (hhs : IsHeader hs)
    (hcount : fieldAt hs FIELD_COUNT = .ok count) (hcnt : count.ivalue = t.cnt)
    (hgood : s.good = true) (hrest : s.rest = bs ++ (crc ++ tail))
    (hbs : bs.length = 4 + moves t.cnt t.bmark t.body) (hcrc : crc.length = 8)
    (hkept : LengthsKept T t.cnt t.hcrc (t.bmark :: t.body) bs) :
    unserializeBodyPacket T' s (hs ++ dst.tail) t.len compareCrc =
      .ok (if compareCrc = true → BitVec.ofNat 32 (ofBeBytes crc) = crc32 bs
          then ERR_OK else ERR_CHECK_CRC_ERROR,
        s.advance (bs.length + 8),
        hs ++ (readsFrom T' t.cnt t.hcrc (t.bmark :: t.body) (dst.bmark :: dst.body) bs ++
          [dst.bcrc.scalarRead .llong crc, dst.terminator])) := by
  have hmoves := t.moves_covered
  have htotal : t.length = 44 + moves t.cnt t.bmark t.body := rfl
  have hlen : t.len = t.body.length + 9 := rfl
  obtain ⟨count', hcrc', hcount', hllong, hpacket⟩ :=
    unserializeBodyPacket_header (T := T') t.len compareCrc hhs
  obtain rfl : count' = count := by simpa using hcount'.symm.trans hcount
  have hbytes : s.rest.length = bs.length + (8 + tail.length) := by
    rw [hrest, List.length_append, List.length_append, hcrc]
  obtain ⟨v, last, hloop⟩ := unserializeBodyLoop_items (T := T) T' hcrc' t.len compareCrc
    s.consumed.length FIELD_BMARK 0 [dst.bcrc, dst.terminator] t.covered_items
    (lengthsFit_cons.mpr ⟨fun hprefixed => absurd t.bmark_long.data hprefixed.1, hfit⟩)
    dst.slots_body (by simp [Field.Prefixed, t.bmark_long.data]) (by omega)
    (by simp only [FIELD_BMARK, List.length_cons]; omega) hgood (by omega)
    (by rw [hrest]; exact (lengthsKept_append (by omega) _).mpr hkept) .zero
  set s₁ := s.advance (moves t.cnt t.hcrc (t.bmark :: t.body)) with hs₁
  have hadvance : s₁ = s.advance bs.length := by rw [hs₁, hmoves, hbs]
  have hconsumed : s₁.consumed = s.consumed ++ bs := by
    rw [hadvance, InputStream.advance_consumed, hrest, List.take_left]
  have hrest₁ : s₁.rest = crc ++ tail := by
    rw [hadvance, InputStream.advance_rest, hrest, List.drop_left]
  have hcovered : ((s.consumed ++ bs).length : Int) - s.consumed.length = bs.length := by
    rw [List.length_append]
    omega
  have hlast := @unserializeBodyLoop_bcrc T' t.len compareCrc (toInt32 t.cnt) s.consumed.length
    (FIELD_BMARK + (t.bmark :: t.body).length) 0 last s₁ dst.bcrc dst.terminator v
    dst.bcrc_llong (by simp only [FIELD_BMARK, List.length_cons]; omega) dst.terminator_neg hgood
    (by rw [hrest₁, List.length_append]; omega)
  have hcovered32 : toInt32 bs.length = bs.length := toInt32_eq (by omega) (by omega)
  rw [hconsumed, hcovered, hcovered32, if_pos (show (bs.length : Int) > 0 by omega), List.drop_left,
    Int.toNat_natCast, List.take_length, hrest₁, List.take_left' hcrc] at hlast
  rw [hpacket, hcnt, Dest.tail, hloop, hlast, hrest, readsFrom_append (by omega), hadvance,
    InputStream.advance_advance]
  rfl

/-- On the packet's own body it returns `ERR_OK`. -/
theorem own_body_decoded (hfit : LengthsFit t.bmark t.body) (hlength : t.length < 2 ^ 31)
    (dst : t.Dest) {T : Target} (T' : Target) (compareCrc : Bool) {s : InputStream} {hs : List Field}
    {count : Field} (tail : List UInt8) (hhs : IsHeader hs)
    (hcount : fieldAt hs FIELD_COUNT = .ok count) (hcnt : count.ivalue = t.cnt)
    (hgood : s.good = true) (hrest : s.rest = (t.sealed T).bodyWire T ++ tail) :
    unserializeBodyPacket T' s (hs ++ dst.tail) t.len compareCrc =
      .ok (ERR_OK, s.advance ((t.sealed T).bodyWire T).length,
        hs ++ (readsFrom T' t.cnt t.hcrc (t.bmark :: t.body) (dst.bmark :: dst.body)
            (t.bodyImage T) ++
          [dst.bcrc.scalarRead .llong ((t.sealed T).bcrc.scalarWire T .llong),
            dst.terminator])) := by
  have hscalar : ((t.sealed T).bcrc.scalarWire T .llong).length = 8 :=
    Field.length_scalarWire _ _ _
  have hkept := lengthsKept_images (T := T) t.covered_items []
  rw [List.append_nil, ← bodyImage_eq] at hkept
  have hcode : BitVec.ofNat 32 (ofBeBytes ((t.sealed T).bcrc.scalarWire T .llong)) =
      crc32 (t.bodyImage T) := ofNat_crc _
  have hbody := body_decoded hfit hlength dst T' compareCrc tail hhs hcount hcnt
    hgood (by rw [hrest, bodyWire, List.append_assoc]; rfl) (t.length_bodyImage T) hscalar hkept
  rw [if_pos fun _ => hcode] at hbody
  rw [hbody, bodyWire, List.length_append, hscalar]
  rfl

end PacketTable

end Librtaio

import Librtaio.ReusedTables

/-!
# Length prefixes out of range

The length of an array is sent as the SHORT or LONG entry in front of it, of which the cast keeps
16 or 32 bits, while the elements are counted by an `int`. Nothing compares the two: the
encoder has one error of its own, for an array that is not where an array may be (`Misplaced`),
and returns it whatever the lengths are.
-/

namespace Librtaio

open Bytes Crc32

/-! ### What is written, at most -/

section Bounds

variable {cnt : Int} {prev p : Field} {es ds : List Field}

theorem Encoded.length_written_le (h : Encoded cnt prev p)
    (hblock : ∀ memory, p.data = some memory → memory.length < 2 ^ 63) (T : Target) :
    (p.written T cnt prev).length ≤ p.covered cnt prev := by
  cases h with
  | scalar ty hp =>
    rw [hp.written_eq, Field.length_scalarWire]
    simp only [Field.covered, hp.ofCode, hp.data, le_refl]
  | array ty memory hp hplaced hheld =>
    rw [hp.written_eq]
    split
    · rename_i hwalked
      have hmem := hheld.memory hwalked
      have hlt := hblock memory hp.data
      have hmul := Nat.le_mul_of_pos_left (p.walked cnt prev) ty.elemWidth_pos
      have hint : 0 ≤ toInt32 (p.elements cnt prev) := by
        by_contra hneg
        have hhuge := toSizeT_neg (Int.not_le.mp hneg)
        rw [Field.walked] at hmem hmul
        omega
      rw [ByteOrder.length_flipWords _ _ _ _ hmem, Field.walked, toSizeT_toInt32 hint]
      simp only [Field.covered, hp.type, DataType.ofCode_code, hp.data, le_refl]
    · exact Nat.zero_le _

theorem Encoded.length_written (h : Encoded cnt prev p) {ty : DataType} {memory : List UInt8}
    (hp : p.IsArray ty memory) (hwalked : p.IsWalked) {T : Target} :
    (p.written T cnt prev).length = ty.elemWidth * p.walked cnt prev := by
  cases h with
  | scalar ty' hp' => exact absurd (hp'.data.symm.trans hp.data) (by simp)
  | array ty' memory' hp' hplaced hheld =>
    obtain rfl := DataType.code_injective (hp'.type.symm.trans hp.type)
    rw [hp'.written_eq, if_pos hwalked, ByteOrder.length_flipWords _ _ _ _ (hheld.memory hwalked)]

theorem lastEntry_concat {q : Field} : lastEntry prev (es ++ [q]) = q := by
  induction es generalizing prev with
  | nil => rfl
  | cons p es ih => exact ih

theorem isChain_split {R : Field → Field → Prop} (h : (prev :: (es ++ p :: ds)).IsChain R) :
    R (lastEntry prev es) p := by
  induction es generalizing prev with
  | nil => exact (List.isChain_cons_cons.mp h).1
  | cons q es ih => exact ih (List.isChain_cons_cons.mp h).2

theorem covereds_append : covereds cnt prev (es ++ ds) =
    covereds cnt prev es + covereds cnt (lastEntry prev es) ds := by
  induction es generalizing prev with
  | nil => simp [covereds, lastEntry]
  | cons p es ih => simp [covereds, lastEntry, ih, Nat.add_assoc]

theorem spelled_append (spec : Field → Field → List UInt8) :
    spelled spec prev (es ++ ds) = spelled spec prev es ++ spelled spec (lastEntry prev es) ds := by
  induction es generalizing prev with
  | nil => rfl
  | cons p es ih => rw [List.cons_append, spelled, spelled, ih, List.append_assoc]; rfl

theorem length_spelled_le (h : (prev :: es).IsChain (Encoded cnt)) (hblocks : Blocks es) (T : Target) :
    (spelled (fun prev p => p.written T cnt prev) prev es).length ≤ covereds cnt prev es := by
  induction es generalizing prev with
  | nil => exact le_rfl
  | cons p es ih =>
    rw [List.isChain_cons_cons] at h
    rw [spelled, covereds, List.length_append]
    exact Nat.add_le_add (h.1.length_written_le (hblocks p List.mem_cons_self) T)
      (ih h.2 hblocks.tail)

end Bounds

/-! ### How the encoder ends -/

/-- Every entry has one of the types there are. -/
def Typed (es : List Field) : Prop := ∀ p ∈ es, ∃ ty : DataType, p.type = ty.code

namespace BodyTable

variable (t : BodyTable) (T : Target) (buffer : List UInt8)

/-- Behind the entries `ds`, which are written, comes an array that is refused. -/
def RefusedAfter (ds : List Field) : Prop :=
  (t.bmark :: ds).IsChain (Encoded t.cnt) ∧
    ∃ p rest, t.body = ds ++ p :: rest ∧ p.Misplaced (lastEntry t.bmark ds)

/-- The ways `serialize_packet` can end. -/
inductive Ends : Prop where
  | sent (hbody : (t.bmark :: t.body).IsChain (Encoded t.cnt))
      (hrun : ∃ out fields, serializePacket T (.ofBuffer buffer) t.fields t.len =
        .ok (ERR_OK, out, fields))
  | refused (ds : List Field) (hds : t.RefusedAfter ds)
      (hrun : ∃ fields, serializePacket T (.ofBuffer buffer) t.fields t.len =
        .ok (ERR_ENCODE_ERROE, t.bodyAfter T (.ofBuffer buffer) ds, fields))
  | outside (hrun : ∃ fault, serializePacket T (.ofBuffer buffer) t.fields t.len = .error fault)

variable {t T buffer}

/-- A buffer that holds what the encoder writes. -/
theorem takes_written {ds rest : List Field} (hsplit : t.body = ds ++ rest)
    (hds : (t.bmark :: ds).IsChain (Encoded t.cnt)) (hblocks : Blocks t.body)
    (hroom : 44 + covereds t.cnt t.bmark t.body ≤ buffer.length) :
    44 + (t.writtens T t.bmark ds).length ≤ buffer.length := by
  rw [hsplit] at hblocks hroom
  have hle := length_spelled_le hds (fun p hp => hblocks p (List.mem_append_left _ hp)) T
  rw [covereds_append] at hroom
  change 44 + (spelled (fun prev p => p.written T t.cnt prev) t.bmark ds).length ≤ _
  omega

theorem RefusedAfter.run {ds : List Field} (h : t.RefusedAfter ds) (htyped : Typed t.body)
    (hblocks : Blocks t.body) (hroom : 44 + covereds t.cnt t.bmark t.body ≤ buffer.length) :
    ∃ fields, serializePacket T (.ofBuffer buffer) t.fields t.len =
      .ok (ERR_ENCODE_ERROE, t.bodyAfter T (.ofBuffer buffer) ds, fields) := by
  obtain ⟨hds, p, rest, hsplit, hp⟩ := h
  have hwritten := takes_written hsplit hds hblocks hroom (T := T)
  obtain ⟨ty, htype⟩ := htyped p (by rw [hsplit]; simp)
  obtain ⟨hvalue, hrun⟩ := @serializePacket_misplaced t T (.ofBuffer buffer) ds rest p hsplit hds
    (by rw [htype]; exact ty.code_nonneg) hp rfl (.inr (show _ ≤ buffer.length by omega))
  exact ⟨_, hrun⟩

theorem serializePacket_ends (htyped : Typed t.body) (hblocks : Blocks t.body)
    (hroom : 44 + covereds t.cnt t.bmark t.body ≤ buffer.length) : t.Ends T buffer := by
  rcases exists_first_not_encoded t.cnt t.bmark t.body with hbody | ⟨ds, p, rest, hsplit, hds, hp⟩
  · have hwritten := takes_written (List.append_nil _).symm hbody hblocks hroom (T := T)
    exact .sent hbody ⟨_, _, serializePacket_encoded hbody rfl (.inr hwritten)⟩
  · obtain ⟨ty, htype⟩ := htyped p (by rw [hsplit]; simp)
    by_cases hplaced : p.Misplaced (lastEntry t.bmark ds)
    · have hrefused : t.RefusedAfter ds := ⟨hds, p, rest, hsplit, hplaced⟩
      exact .refused ds hrefused (hrefused.run htyped hblocks hroom)
    · cases hdata : p.data with
      | none => exact absurd (.scalar ty ⟨htype, hdata⟩) hp
      | some memory =>
        have harray : p.IsArray ty memory := ⟨htype, hdata⟩
        have hwritten := takes_written hsplit hds hblocks hroom (T := T)
        exact .outside (serializePacket_outside hsplit hds harray hplaced
          (fun hheld => hp (.array ty memory harray hplaced hheld)) rfl
          (.inr (show _ ≤ buffer.length by omega)))

/-! ### Lengths that cannot be sent -/

variable (t T buffer) (ds rest : List Field) (q p : Field)

/-- The body has an array `p` behind a length `q` that does not fit into the type of `q`; if it is
positive, the array has so many elements. -/
structure UnfitLength : Prop where
  split : t.body = ds ++ q :: p :: rest
  length : q.IsLength
  short : q.type = TYPE_SHORT → ¬ (0 ≤ q.ivalue ∧ q.ivalue ≤ 32767)
  long : q.type = TYPE_LONG → ¬ (0 ≤ q.ivalue ∧ q.ivalue ≤ 2147483647)
  array : ∃ ty memory, p.IsArray ty memory ∧ ty.width * q.ivalue ≤ memory.length
  count : p.count = -1

/-- The length is refused: the code is `ERR_ENCODE_ERROE`, and never `ERR_OK` with another length
on the wire than the number of the elements behind it; no element is written for a negative
one. -/
structure Refuses : Prop where
  refused : ∃ out fields, serializePacket T (.ofBuffer buffer) t.fields t.len =
    .ok (ERR_ENCODE_ERROE, out, fields)
  told : ∀ out fields, serializePacket T (.ofBuffer buffer) t.fields t.len = .ok (ERR_OK, out, fields) →
    ∀ ty, q.IsScalar ty → (q.scalarRead ty (q.scalarWire T ty)).ivalue = p.walked t.cnt q
  unstarted : q.ivalue < 0 → ∀ code out fields,
    serializePacket T (.ofBuffer buffer) t.fields t.len = .ok (code, out, fields) →
    out.written.length ≤ 36 + (t.writtens T t.bmark (ds ++ [q])).length ∨ p.walked t.cnt q = 0

/-- An array of the table is refused for its place, and before anything is written for a negative
length. -/
def RefusedFirst : Prop :=
  ∃ es, t.RefusedAfter es ∧
    (q.ivalue < 0 → es.length ≤ ds.length + 1 ∨ toInt32 q.ivalue = 0)

variable {t T buffer ds rest q p}

theorem UnfitLength.walked_eq_zero (h : t.UnfitLength ds rest q p) :
    p.walked t.cnt q = 0 ↔ toInt32 q.ivalue = 0 := by
  have hlo := le_toInt32 q.ivalue
  have hhi := toInt32_lt q.ivalue
  have helem : p.elements t.cnt q = q.ivalue := if_neg (by rw [h.count]; decide)
  rw [Field.walked, helem, toSizeT, BitVec.toNat_ofInt]
  omega

/-- What is written up to the array that is refused, and up to the length. -/
theorem UnfitLength.written_le_iff (h : t.UnfitLength ds rest q p) {es : List Field}
    (hes : t.RefusedAfter es) :
    (t.writtens T t.bmark es).length ≤ (t.writtens T t.bmark (ds ++ [q])).length ∨
        p.walked t.cnt q = 0 ↔
      es.length ≤ ds.length + 1 ∨ toInt32 q.ivalue = 0 := by
  obtain ⟨hchain, m, rest', hsplit, hm⟩ := hes
  have hbody : ds ++ [q] ++ p :: rest = es ++ m :: rest' := by
    rw [← hsplit, h.split]
    simp
  rw [h.walked_eq_zero]
  by_cases hshort : es.length ≤ ds.length + 1
  · -- it is in front of the array
    obtain ⟨zs, hzs⟩ : es <+: ds ++ [q] := by
      refine List.prefix_of_prefix_length_le (List.prefix_append es (m :: rest')) ?_ (by simpa using hshort)
      rw [← hbody]
      exact List.prefix_append _ _
    have hle : (t.writtens T t.bmark es).length ≤ (t.writtens T t.bmark (ds ++ [q])).length := by
      rw [← hzs, writtens, writtens, spelled_append, List.length_append]
      omega
    exact ⟨fun _ => .inl hshort, fun _ => .inl hle⟩
  · -- it is behind the array, whose elements are written
    obtain ⟨zs, hzs⟩ : ds ++ [q] ++ [p] <+: es := by
      have hprefix : ds ++ [q] ++ [p] <+: es ++ m :: rest' := by
        rw [← hbody]
        exact ⟨rest, by simp⟩
      exact List.prefix_of_prefix_length_le hprefix (List.prefix_append _ _) (by simp; omega)
    have hlast : lastEntry t.bmark (ds ++ [q]) = q := lastEntry_concat
    have hwalked : p.IsWalked := .inr h.count
    obtain ⟨ty, memory, hp, -⟩ := h.array
    rw [← hzs, List.append_assoc, List.singleton_append] at hchain
    have hencoded := isChain_split hchain
    rw [hlast] at hencoded
    have hlength : (t.writtens T t.bmark es).length =
        (t.writtens T t.bmark (ds ++ [q])).length + ty.elemWidth * p.walked t.cnt q +
          (spelled (fun prev p => p.written T t.cnt prev) p zs).length := by
      rw [← hzs, List.append_assoc (ds ++ [q]), writtens, spelled_append, hlast,
        List.singleton_append, spelled, List.length_append, List.length_append,
        hencoded.length_written hp hwalked, writtens]
      omega
    have hpos := Nat.le_mul_of_pos_left (p.walked t.cnt q) ty.elemWidth_pos
    have hzero := h.walked_eq_zero
    constructor
    · rintro (hle | hint)
      · exact .inr (hzero.mp (by omega))
      · exact .inr hint
    · rintro (hle | hint)
      · exact absurd hle hshort
      · exact .inr hint

/-- **Lengths out of range.** A length that cannot be sent is refused exactly if an array of the
table is refused for another reason. -/
theorem refuses_iff (h : t.UnfitLength ds rest q p) (htyped : Typed t.body) (hblocks : Blocks t.body)
    (hroom : 44 + covereds t.cnt t.bmark t.body ≤ buffer.length) :
    t.Refuses T buffer ds q p ↔ t.RefusedFirst ds q := by
  have hlength {es : List Field} (hes : t.RefusedAfter es) :
      (t.bodyAfter T (.ofBuffer buffer) es).written.length = 36 + (t.writtens T t.bmark es).length := by
    obtain ⟨hchain, m, rest', hsplit, -⟩ := hes
    have hle := takes_written hsplit hchain hblocks hroom (T := T)
    exact (length_bodyAfter (by omega)).1
  constructor
  · intro hrefuses
    obtain ⟨out, fields, hrun⟩ := hrefuses.refused
    cases serializePacket_ends htyped hblocks hroom (T := T) with
    | sent hbody hsent =>
      obtain ⟨out', fields', hsent⟩ := hsent
      rw [hrun] at hsent
      exact absurd (congrArg Prod.fst (Except.ok.inj hsent)) (show ERR_ENCODE_ERROE ≠ ERR_OK by decide)
    | refused es hes hrefused =>
      obtain ⟨fields', hrefused⟩ := hrefused
      refine ⟨es, hes, fun hneg => (h.written_le_iff hes (T := T)).mp ?_⟩
      rcases hrefuses.unstarted hneg _ _ _ hrefused with hle | hzero
      · rw [hlength hes] at hle
        exact .inl (by omega)
      · exact .inr hzero
    | outside hfault =>
      obtain ⟨fault, hfault⟩ := hfault
      rw [hrun] at hfault
      cases hfault
  · rintro ⟨es, hes, hfirst⟩
    obtain ⟨fields, hrun⟩ := hes.run htyped hblocks hroom (T := T)
    refine ⟨⟨_, _, hrun⟩, fun out fields' hsent => ?_, fun hneg code out fields' hsame => ?_⟩
    · rw [hrun] at hsent
      exact absurd (congrArg Prod.fst (Except.ok.inj hsent)) (show ERR_ENCODE_ERROE ≠ ERR_OK by decide)
    · rw [hrun] at hsame
      obtain rfl : t.bodyAfter T (.ofBuffer buffer) es = out := by
        exact congrArg (fun r => r.2.1) (Except.ok.inj hsame)
      rw [hlength hes]
      rcases (h.written_le_iff hes (T := T)).mpr (hfirst hneg) with hle | hzero
      · exact .inl (by omega)
      · exact .inr hzero

/-- A table that the encoder has nothing against. -/
theorem not_refuses (hbody : (t.bmark :: t.body).IsChain (Encoded t.cnt)) (hblocks : Blocks t.body)
    (hroom : 44 + covereds t.cnt t.bmark t.body ≤ buffer.length) : ¬ t.Refuses T buffer ds q p := by
  intro h
  obtain ⟨out, fields, hrun⟩ := h.refused
  have hwritten := takes_written (List.append_nil _).symm hbody hblocks hroom (T := T)
  rw [serializePacket_encoded hbody rfl (.inr hwritten)] at hrun
  exact absurd (congrArg Prod.fst (Except.ok.inj hrun)) (show ERR_OK ≠ ERR_ENCODE_ERROE by decide)

/-- A body between `MSG_HEADER` and `MSG_TAIL`. -/
def ofBody (now method ret count : Int) (body : List Field) : BodyTable where
  hmark := scalarField .long HEAD_MARK.toInt
  method := scalarField .long method
  bsize := scalarField .long 0
  ret := scalarField .long ret
  time := scalarField .long now
  count := scalarField .long count
  hcrc := scalarField .llong 0
  bmark := scalarField .long BODY_MARK.toInt
  body := body
  bcrc := scalarField .llong 0
  terminator := ⟨-1, 0, 0, none, 0⟩
  hmark_long := PacketTable.long_hmark
  method_long := MsgTable.isScalar_scalarField _ _
  bsize_long := PacketTable.long_bsize
  ret_long := MsgTable.isScalar_scalarField _ _
  time_long := MsgTable.isScalar_scalarField _ _
  count_long := MsgTable.isScalar_scalarField _ _
  hcrc_llong := MsgTable.llong_crc
  bmark_long := MsgTable.long_bmark
  bcrc_llong := MsgTable.llong_crc
  terminator_neg := MsgTable.neg_terminator

/-- An array that is refused, and behind it one of which the length is -1. -/
def strayTable : BodyTable :=
  ofBody 0 MSG_COMMON 0 1
    [scalarField .char 1, ⟨DataType.char.code, 0, 0, some [], 0⟩, scalarField .short (-1),
      ⟨DataType.char.code, 0, 0, some [], -1⟩]

theorem refuses_behind :
    strayTable.Refuses (.build .little) (List.replicate 64 0)
      [scalarField .char 1, ⟨DataType.char.code, 0, 0, some [], 0⟩] (scalarField .short (-1))
      ⟨DataType.char.code, 0, 0, some [], -1⟩ := by
  have hunfit : strayTable.UnfitLength [scalarField .char 1, ⟨DataType.char.code, 0, 0, some [], 0⟩] []
      (scalarField .short (-1)) ⟨DataType.char.code, 0, 0, some [], -1⟩ :=
    ⟨rfl, .inl ⟨rfl, rfl⟩, by decide, by decide, ⟨.char, [], ⟨rfl, rfl⟩, by decide⟩, rfl⟩
  have htyped : Typed strayTable.body := by
    intro p hp
    simp only [strayTable, ofBody, List.mem_cons, List.not_mem_nil, or_false] at hp
    rcases hp with rfl | rfl | rfl | rfl
    · exact ⟨.char, rfl⟩
    · exact ⟨.char, rfl⟩
    · exact ⟨.short, rfl⟩
    · exact ⟨.char, rfl⟩
  have hblocks : Blocks strayTable.body := by simp [Blocks, strayTable, ofBody, scalarField]
  refine (refuses_iff hunfit htyped hblocks (by decide)).mpr ⟨[scalarField .char 1], ⟨?_, ?_⟩, by decide⟩
  · exact .cons_cons (.scalar .char ⟨rfl, rfl⟩) (.singleton _)
  · exact ⟨_, _, rfl, by decide⟩

/-- A name of 40000 bytes behind the SHORT that is its length. -/
theorem not_refuses_name : ¬ (ofBody 0 MSG_COMMON 0 1
    [scalarField .short 40000, ⟨DataType.char.code, 0, 0, some (List.replicate 40000 65), -1⟩]).Refuses
    (.build .little) (List.replicate 40100 0) [] (scalarField .short 40000)
    ⟨DataType.char.code, 0, 0, some (List.replicate 40000 65), -1⟩ := by
  refine not_refuses (.cons_cons (.scalar .short ⟨rfl, rfl⟩) (.cons_cons (.array .char _ ⟨rfl, rfl⟩
    (by rintro ⟨-, -, hshort, -⟩; exact hshort rfl) ⟨fun hpos => absurd hpos (by decide), fun _ => ?_⟩)
    (.singleton _))) ?_ ?_
  · rw [List.length_replicate]
    change 1 * toSizeT (toInt32 40000) ≤ 40000
    decide
  · intro p hp memory hmemory
    obtain rfl | hp := List.mem_cons.mp hp
    · cases hmemory
    · obtain rfl := List.mem_singleton.mp hp
      obtain rfl := Option.some.inj hmemory
      rw [List.length_replicate]
      decide
  · rw [List.length_replicate]
    change 44 + (2 + (1 * (toInt32 40000).toNat + 0)) ≤ 40100
    decide

end BodyTable

end Librtaio

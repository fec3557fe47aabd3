import Librtaio.WrittenBody

/-!
# `serialize_packet` on any body

The body between `MSG_HEADER` and `MSG_TAIL` may be any entries here (`BodyTable`), the
numbers of their elements any numbers, and the buffer may be too small for a build that drops what
does not fit. An entry is put on the stream (`Encoded`), or it is refused with `ERR_ENCODE_ERROE`
(`Misplaced`), or its elements are not there and the encoder runs out of the memory that it
reads them from. The elements are counted by an `int`, which is all that is left of a number
that has more than 32 bits.
-/

namespace Librtaio

open Bytes Crc32

/-! ### One entry -/

namespace Field

/-- The elements that are walked: their number is made an `int`, and that a `size_t`. -/
def walked (p : Field) (cnt : Int) (prev : Field) : Nat := toSizeT (toInt32 (p.elements cnt prev))

/-- Whether the elements of an array are walked. -/
def IsWalked (p : Field) : Prop := 0 < p.count ∨ p.count = -1

instance (p : Field) : Decidable p.IsWalked := inferInstanceAs (Decidable (_ ∨ _))

/-- The bytes that are written for an entry. -/
def written (p : Field) (T : Target) (cnt : Int) (prev : Field) : List UInt8 :=
  match DataType.ofCode p.type, p.data with
  | some ty, none => p.scalarWire T ty
  | some ty, some memory =>
    if p.IsWalked then T.order.flipWords ty.elemWidth (p.walked cnt prev) memory else []
  | none, _ => []

/-- An array that is refused: it has no count of its own, and it does not follow a SHORT or LONG
entry. -/
def Misplaced (p prev : Field) : Prop :=
  p.data ≠ none ∧ p.count ≤ 0 ∧ prev.type ≠ TYPE_SHORT ∧ prev.type ≠ TYPE_LONG

instance (p prev : Field) : Decidable (p.Misplaced prev) := inferInstanceAs (Decidable (_ ∧ _))

/-- The elements that are walked are in the array's memory. -/
structure Held (p : Field) (cnt : Int) (prev : Field) (ty : DataType) (memory : List UInt8) :
    Prop where
  product : 0 < p.count → checked 64 (p.count * cnt) = .ok (p.count * cnt)
  memory : p.IsWalked → ty.elemWidth * p.walked cnt prev ≤ memory.length

end Field

/-- An entry that is put on the stream. -/
inductive Encoded (cnt : Int) (prev p : Field) : Prop where
  | scalar (ty : DataType) (hp : p.IsScalar ty)
  | array (ty : DataType) (memory : List UInt8) (hp : p.IsArray ty memory)
      (hplaced : ¬ p.Misplaced prev) (hheld : p.Held cnt prev ty memory)

theorem Encoded.type_nonneg {cnt : Int} {prev p : Field} (h : Encoded cnt prev p) : 0 ≤ p.type := by
  cases h with
  | scalar ty hp => exact hp.type_nonneg
  | array ty memory hp => exact hp.type_nonneg

section OneEntry

variable {T : Target} {out : OutputStream} {fields : List Field} {cnt : Int}
  {prev p count : Field} {ty : DataType} {memory : List UInt8}

theorem Field.IsScalar.written_eq (hp : p.IsScalar ty) (T : Target) (cnt : Int) (prev : Field) :
    p.written T cnt prev = p.scalarWire T ty := by
  simp only [Field.written, hp.ofCode, hp.data]

theorem Field.IsArray.written_eq (hp : p.IsArray ty memory) (T : Target) (cnt : Int) (prev : Field) :
    p.written T cnt prev =
      if p.IsWalked then T.order.flipWords ty.elemWidth (p.walked cnt prev) memory else [] := by
  simp only [Field.written, hp.type, DataType.ofCode_code, hp.data]

theorem serializeField_store {ty : DataType} (fields : List Field) (prev : Option Field)
    (hp : p.IsScalar ty) (hbad : out.bad = false) (htakes : out.Takes T ty.width) :
    serializeField T fields prev p out = .ok (none, out.store (p.scalarWire T ty)) := by
  simp only [serializeField, hp.data, putScalar_store hp hbad htakes, ok_bind]

/-- What an array's branch of the encoder comes to. -/
theorem serializeField_array (hcount : fieldAt fields FIELD_COUNT = .ok count)
    (hcnt : count.ivalue = cnt) (hp : p.IsArray ty memory) (hplaced : ¬ p.Misplaced prev)
    (hproduct : 0 < p.count → checked 64 (p.count * cnt) = .ok (p.count * cnt)) :
    serializeField T fields (some prev) p out =
      if p.IsWalked then
        (out.writeArray T memory ty.elemWidth (p.walked cnt prev)).map fun r => (none, r.2)
      else .ok (none, out) := by
  have hput {n : Int} (hn : p.elements cnt prev = n) :
      (putArray T out p.type memory (toInt32 n) >>= fun r =>
        (.ok (none, r.2) : Except Fault (Option Int × OutputStream))) =
      (out.writeArray T memory ty.elemWidth (p.walked cnt prev)).map fun r => (none, r.2) := by
    rw [hp.type, putArray_eq, Field.walked, hn]
    rfl
  by_cases hpos : 0 < p.count
  · have hcounted := hput (if_pos hpos)
    rw [if_pos (.inl hpos)]
    simp only [serializeField, hp.data, if_pos (show p.count > 0 from hpos), hcount, ok_bind, hcnt,
      hproduct hpos]
    exact hcounted
  · have htype : ¬ (prev.type ≠ TYPE_SHORT ∧ prev.type ≠ TYPE_LONG) := by
      intro h
      exact hplaced ⟨by simp [hp.data], by omega, h.1, h.2⟩
    simp only [serializeField, hp.data, if_neg (show ¬ p.count > 0 from hpos), if_neg htype]
    by_cases hneg : p.count = -1
    · have hprefixed := hput (if_neg hpos)
      rw [if_pos hneg, if_pos (.inr hneg)]
      exact hprefixed
    · rw [if_neg hneg, if_neg (fun h => h.elim hpos hneg)]

theorem serializeField_encoded (hcount : fieldAt fields FIELD_COUNT = .ok count)
    (hcnt : count.ivalue = cnt) (h : Encoded cnt prev p) (hbad : out.bad = false)
    (htakes : out.Takes T (p.written T cnt prev).length) :
    serializeField T fields (some prev) p out = .ok (none, out.store (p.written T cnt prev)) := by
  cases h with
  | scalar ty hp =>
    rw [hp.written_eq] at htakes ⊢
    rw [Field.length_scalarWire] at htakes
    exact serializeField_store _ _ hp hbad htakes
  | array ty memory hp hplaced hheld =>
    rw [hp.written_eq] at htakes ⊢
    rw [serializeField_array hcount hcnt hp hplaced hheld.product]
    split
    · rename_i hwalked
      have hmem := hheld.memory hwalked
      rw [if_pos hwalked, ByteOrder.length_flipWords _ _ _ _ hmem] at htakes
      rw [OutputStream.writeArray_store ty.wordSize_elemWidth hbad hmem htakes]
      rfl
    · rw [OutputStream.store_nil]

theorem serializeField_misplaced (h : p.Misplaced prev) (T : Target) (fields : List Field)
    (out : OutputStream) :
    serializeField T fields (some prev) p out = .ok (some ERR_ENCODE_ERROE, out) := by
  obtain ⟨hdata, hcount, hshort, hlong⟩ := h
  obtain ⟨memory, hmemory⟩ := Option.ne_none_iff_exists'.mp hdata
  simp only [serializeField, hmemory, if_neg (show ¬ p.count > 0 by omega),
    if_pos (And.intro hshort hlong)]

/-- The elements are not there. -/
theorem serializeField_outside (hcount : fieldAt fields FIELD_COUNT = .ok count)
    (hcnt : count.ivalue = cnt) (hp : p.IsArray ty memory) (hplaced : ¬ p.Misplaced prev)
    (hheld : ¬ p.Held cnt prev ty memory) :
    ∃ fault, serializeField T fields (some prev) p out = .error fault := by
  by_cases hproduct : 0 < p.count → checked 64 (p.count * cnt) = .ok (p.count * cnt)
  · have hmem : ¬ (p.IsWalked → ty.elemWidth * p.walked cnt prev ≤ memory.length) :=
      fun h => hheld ⟨hproduct, h⟩
    rw [Classical.not_imp] at hmem
    obtain ⟨fault, hwrite⟩ := @OutputStream.writeArray_outside T out memory ty.elemWidth
      (p.walked cnt prev) ty.wordSize_elemWidth (by omega)
    refine ⟨fault, ?_⟩
    rw [serializeField_array hcount hcnt hp hplaced hproduct, if_pos hmem.1, hwrite]
    rfl
  · rw [Classical.not_imp] at hproduct
    have hoverflow : checked 64 (p.count * cnt) = .error .signedOverflow := by
      have hne := hproduct.2
      rw [checked] at hne ⊢
      split
      · rename_i hin
        exact absurd (if_pos hin) hne
      · rfl
    refine ⟨.signedOverflow, ?_⟩
    simp only [serializeField, hp.data, if_pos (show p.count > 0 from hproduct.1), hcount, ok_bind,
      hcnt, hoverflow, error_bind]

end OneEntry

/-! ### Runs of entries -/

section Loop

variable {T : Target} {fields : List Field} {len cnt : Int} {n : Nat} {bodyBase : Option Nat}
  {out : OutputStream} {prev p count : Field} {es : List Field}

/-- Entries in front of what the loop returned from the others. -/
def behind (es : List Field) (r : Except Fault (Int × OutputStream × List Field)) :
    Except Fault (Int × OutputStream × List Field) :=
  r.map (Prod.map id (Prod.map id (es ++ ·)))

@[simp] theorem behind_nil (r : Except Fault (Int × OutputStream × List Field)) :
    behind [] r = r := by
  rcases r with _ | ⟨code, out, rest⟩ <;> rfl

theorem behind_behind (ds : List Field) (r : Except Fault (Int × OutputStream × List Field)) :
    behind es (behind ds r) = behind (es ++ ds) r := by
  rcases r with _ | ⟨code, out, rest⟩ <;> simp [behind, Except.map]

@[simp] theorem behind_ok (es rest : List Field) (code : Int) (out : OutputStream) :
    behind es (.ok (code, out, rest)) = .ok (code, out, es ++ rest) := rfl

@[simp] theorem behind_error (es : List Field) (fault : Fault) :
    behind es (.error fault) = .error fault := rfl

theorem serializeLoop_put {prev : Option Field} {p' : Field} {bs : List UInt8}
    (hcrc : crcField len n bodyBase out p = p') (htype : 0 ≤ p.type)
    (hput : serializeField T fields prev p' out = .ok (none, out.store bs))
    (hbad : out.bad = false) (rest : List Field) :
    serializeLoop T fields len n prev bodyBase out (p :: rest) =
      behind [p'] (serializeLoop T fields len (n + 1) (some p')
        (if n = FIELD_BMARK - 1 then some (out.store bs).written.length else bodyBase)
        (out.store bs) rest) := by
  simp only [serializeLoop, if_neg (show ¬ p.type < 0 by omega), hcrc, hput, ok_bind,
    OutputStream.store_bad, hbad, Bool.false_eq_true, if_false]
  rfl

/-- **A run of entries.** Away from the checksums the loop puts them on the stream one after
the other, and changes none of them. -/
theorem serializeLoop_encoded (hcount : fieldAt fields FIELD_COUNT = .ok count)
    (hcnt : count.ivalue = cnt) (hes : (prev :: es).IsChain (Encoded cnt)) (hbad : out.bad = false)
    (htakes : out.Takes T (spelled (fun prev p => p.written T cnt prev) prev es).length)
    (hhcrc : n + es.length ≤ FIELD_HCRC ∨ FIELD_HCRC < n) (hbcrc : (n : Int) + es.length < len)
    (rest : List Field) :
    serializeLoop T fields len n (some prev) bodyBase out (es ++ rest) =
      behind es (serializeLoop T fields len (n + es.length) (some (lastEntry prev es)) bodyBase
        (out.store (spelled (fun prev p => p.written T cnt prev) prev es)) rest) := by
  induction es generalizing n prev out with
  | nil => simp [spelled, lastEntry]
  | cons p es ih =>
    rw [List.isChain_cons_cons] at hes
    rw [spelled, List.length_append] at htakes
    simp only [List.length_cons] at hhcrc hbcrc
    have hn : n ≠ FIELD_HCRC := by
      simp only [FIELD_HCRC] at hhcrc ⊢
      omega
    have hput := serializeField_encoded (T := T) hcount hcnt hes.1 hbad (htakes.mono (by omega))
    have hhcrc' : n + 1 + es.length ≤ FIELD_HCRC ∨ FIELD_HCRC < n + 1 := by
      simp only [FIELD_HCRC] at hhcrc ⊢
      omega
    have htail := @ih (n + 1) (out.store (p.written T cnt prev)) p hes.2 hbad htakes.store hhcrc'
      (by omega)
    rw [List.cons_append, serializeLoop_put (crcField_plain p hn (by omega)) hes.1.type_nonneg hput
      hbad, if_neg (show n ≠ FIELD_BMARK - 1 from hn), htail, behind_behind,
      OutputStream.store_store, List.length_cons,
      show n + 1 + es.length = n + (es.length + 1) by omega]
    rfl

theorem serializeLoop_fault {fault : Fault} (htype : 0 ≤ p.type) (hn : n ≠ FIELD_HCRC)
    (hlast : (n : Int) < len - 1) (h : serializeField T fields (some prev) p out = .error fault)
    (rest : List Field) :
    serializeLoop T fields len n (some prev) bodyBase out (p :: rest) = .error fault := by
  simp only [serializeLoop, if_neg (show ¬ p.type < 0 by omega), crcField_plain p hn hlast, h,
    error_bind]

theorem serializeLoop_misplaced (htype : 0 ≤ p.type) (hn : n ≠ FIELD_HCRC)
    (hlast : (n : Int) < len - 1) (h : p.Misplaced prev) (rest : List Field) :
    serializeLoop T fields len n (some prev) bodyBase out (p :: rest) =
      .ok (ERR_ENCODE_ERROE, out, p :: rest) := by
  simp only [serializeLoop, if_neg (show ¬ p.type < 0 by omega), crcField_plain p hn hlast,
    serializeField_misplaced h, ok_bind]

/-- The entry after those that are put on the stream, if there is one. -/
theorem exists_first_not_encoded (cnt : Int) (prev : Field) (es : List Field) :
    (prev :: es).IsChain (Encoded cnt) ∨
      ∃ ds p rest, es = ds ++ p :: rest ∧ (prev :: ds).IsChain (Encoded cnt) ∧
        ¬ Encoded cnt (lastEntry prev ds) p := by
  induction es generalizing prev with
  | nil => exact .inl (.singleton _)
  | cons q es ih =>
    by_cases hq : Encoded cnt prev q
    · rcases ih q with hes | ⟨ds, p, rest, rfl, hds, hp⟩
      · exact .inl (.cons_cons hq hes)
      · exact .inr ⟨q :: ds, p, rest, rfl, .cons_cons hq hds, hp⟩
    · exact .inr ⟨[], q, es, rfl, .singleton _, hq⟩

end Loop

/-! ### Tables -/

/-- A table of the `MSG_HEADER`, body, `MSG_TAIL` shape, with any entries for a body. -/
structure BodyTable where
  hmark : Field
  method : Field
  bsize : Field
  ret : Field
  time : Field
  count : Field
  hcrc : Field
  bmark : Field
  body : List Field
  bcrc : Field
  terminator : Field
  hmark_long : hmark.IsScalar .long
  method_long : method.IsScalar .long
  bsize_long : bsize.IsScalar .long
  ret_long : ret.IsScalar .long
  time_long : time.IsScalar .long
  count_long : count.IsScalar .long
  hcrc_llong : hcrc.IsScalar .llong
  bmark_long : bmark.IsScalar .long
  bcrc_llong : bcrc.IsScalar .llong
  terminator_neg : terminator.type < 0

namespace BodyTable

variable (t : BodyTable) (T : Target)

def cnt : Int := t.count.ivalue

/-- The entries after `hmark` that the header's checksum covers. -/
def plain : List Field := [t.method, t.bsize, t.ret, t.time, t.count]

/-- The table as the C array has it. -/
def fields : List Field :=
  t.hmark :: t.plain ++ t.hcrc :: t.bmark :: t.body ++ [t.bcrc, t.terminator]

def len : Int := t.body.length + 9

/-- The bytes that are written for consecutive entries. -/
def writtens (prev : Field) (es : List Field) : List UInt8 :=
  spelled (fun prev p => p.written T t.cnt prev) prev es

/-- The entries the header's checksum covers, on the wire. -/
def headerImage : List UInt8 := t.hmark.scalarWire T .long ++ t.writtens T t.hmark t.plain

theorem plain_encoded : (t.hmark :: t.plain).IsChain (Encoded t.cnt) :=
  .cons_cons (.scalar _ t.method_long) <| .cons_cons (.scalar _ t.bsize_long) <|
    .cons_cons (.scalar _ t.ret_long) <| .cons_cons (.scalar _ t.time_long) <|
      .cons_cons (.scalar _ t.count_long) (.singleton _)

theorem length_writtens_plain : (t.writtens T t.hmark t.plain).length = 20 := by
  simp only [writtens, spelled, plain, t.method_long.written_eq, t.bsize_long.written_eq,
    t.ret_long.written_eq, t.time_long.written_eq, t.count_long.written_eq, List.length_append,
    Field.length_scalarWire]
  rfl

theorem length_headerImage : (t.headerImage T).length = 24 := by
  rw [headerImage, List.length_append, Field.length_scalarWire, length_writtens_plain]
  rfl

/-- The header's checksum as the encoder leaves it. -/
def hcrcAfter (out : OutputStream) : Field :=
  crcField t.len FIELD_HCRC none (out.store (t.headerImage T)) t.hcrc

/-- The header on the stream. -/
def headerAfter (out : OutputStream) : OutputStream :=
  (out.store (t.headerImage T)).store ((t.hcrcAfter T out).scalarWire T .llong)

/-- A checksum changes nothing of an entry but its `ivalue`. -/
theorem crcField_eq (len : Int) (n : Nat) (bodyBase : Option Nat) (out : OutputStream) (p : Field) :
    ∃ value, crcField len n bodyBase out p = { p with ivalue := value } := by
  unfold crcField
  dsimp only
  split
  · split
    · exact ⟨_, rfl⟩
    · exact ⟨p.ivalue, rfl⟩
  · split
    · split
      · exact ⟨p.ivalue, rfl⟩
      · split
        · exact ⟨_, rfl⟩
        · exact ⟨p.ivalue, rfl⟩
    · exact ⟨p.ivalue, rfl⟩

theorem crcField_isScalar {p : Field} {ty : DataType} (hp : p.IsScalar ty) (len : Int) (n : Nat)
    (bodyBase : Option Nat) (out : OutputStream) : (crcField len n bodyBase out p).IsScalar ty := by
  obtain ⟨value, hvalue⟩ := crcField_eq len n bodyBase out p
  rw [hvalue]
  exact hp.setIvalue value

variable {t T}

/-- The header of a table that has `fields` for its entries. -/
theorem serializeLoop_header {fields : List Field} {len : Int} {out : OutputStream}
    (hcount : fieldAt fields FIELD_COUNT = .ok t.count) (hlen : (FIELD_BMARK : Nat) ≤ len)
    (hbad : out.bad = false) (htakes : out.Takes T 32) (rest : List Field) :
    serializeLoop T fields len 0 none none out (t.hmark :: t.plain ++ t.hcrc :: rest) =
      behind (t.hmark :: t.plain ++ [t.hcrcAfter T out])
        (serializeLoop T fields len FIELD_BMARK (some (t.hcrcAfter T out))
          (some (t.headerAfter T out).written.length) (t.headerAfter T out) rest) := by
  simp only [FIELD_BMARK] at hlen
  have hput := serializeField_store fields none t.hmark_long hbad (htakes.mono (by decide))
  have hmark : (t.hmark.scalarWire T .long).length = 4 := Field.length_scalarWire _ _ _
  have hafter : (out.store (t.hmark.scalarWire T .long)).Takes T 28 :=
    OutputStream.Takes.store (htakes.mono (by omega))
  have hplain := @serializeLoop_encoded T fields len t.cnt 1 none
    (out.store (t.hmark.scalarWire T .long)) t.hmark t.count t.plain hcount rfl t.plain_encoded hbad
    (hafter.mono (by rw [← writtens, length_writtens_plain]; decide))
    (.inl (by rw [show t.plain.length = 5 by rfl]; decide)) (by rw [show t.plain.length = 5 by rfl]; omega)
    (t.hcrc :: rest)
  have himage : (out.store (t.headerImage T)).Takes T 8 :=
    OutputStream.Takes.store (htakes.mono (by rw [length_headerImage]))
  have hcrc := @serializeLoop_put T fields len FIELD_HCRC none (out.store (t.headerImage T))
    t.hcrc (some (lastEntry t.hmark t.plain)) (t.hcrcAfter T out) _ (by simp [hcrcAfter, crcField])
    t.hcrc_llong.type_nonneg
    (serializeField_store _ _ (crcField_isScalar t.hcrc_llong _ _ _ _) hbad himage) hbad rest
  rw [List.cons_append, serializeLoop_put (crcField_plain _ (by decide) (by omega))
    t.hmark_long.type_nonneg hput hbad, if_neg (by decide), hplain, OutputStream.store_store]
  change behind _ (behind _ (serializeLoop T fields len FIELD_HCRC _ none
    (out.store (t.headerImage T)) _)) = _
  rw [hcrc, if_pos (by rfl), behind_behind, behind_behind]
  rfl

variable (t T)

/-- The stream behind the header, the body's mark and the entries after it. -/
def bodyAfter (out : OutputStream) (es : List Field) : OutputStream :=
  (t.headerAfter T out).store (t.bmark.scalarWire T .long ++ t.writtens T t.bmark es)

/-- The body's checksum as the encoder leaves it. -/
def bcrcAfter (out : OutputStream) : Field :=
  crcField t.len (FIELD_NEXT + t.body.length) (some (t.headerAfter T out).written.length)
    (t.bodyAfter T out t.body) t.bcrc

/-- The table with other checksums in it. -/
def withCrcs (hvalue bvalue : Int) : BodyTable :=
  { t with
    hcrc := { t.hcrc with ivalue := hvalue }
    bcrc := { t.bcrc with ivalue := bvalue }
    hcrc_llong := t.hcrc_llong.setIvalue _
    bcrc_llong := t.bcrc_llong.setIvalue _ }

theorem hcrcAfter_eq (out : OutputStream) :
    t.hcrcAfter T out = { t.hcrc with ivalue := (t.hcrcAfter T out).ivalue } := by
  obtain ⟨value, hvalue⟩ := crcField_eq t.len FIELD_HCRC none (out.store (t.headerImage T)) t.hcrc
  rw [hcrcAfter, hvalue]

theorem bcrcAfter_eq (out : OutputStream) :
    t.bcrcAfter T out = { t.bcrc with ivalue := (t.bcrcAfter T out).ivalue } := by
  obtain ⟨value, hvalue⟩ := crcField_eq t.len (FIELD_NEXT + t.body.length)
    (some (t.headerAfter T out).written.length) (t.bodyAfter T out t.body) t.bcrc
  rw [bcrcAfter, hvalue]

theorem fields_withCrcs (hvalue bvalue : Int) :
    (t.withCrcs hvalue bvalue).fields =
      t.hmark :: t.plain ++ { t.hcrc with ivalue := hvalue } :: t.bmark :: t.body ++
        [{ t.bcrc with ivalue := bvalue }, t.terminator] := rfl

variable {t T} {out : OutputStream} {ds rest : List Field}

/-- The header and the entries that are put on the stream, in front of the others. -/
theorem serializePacket_upTo (hsplit : t.body = ds ++ rest)
    (hds : (t.bmark :: ds).IsChain (Encoded t.cnt)) (hbad : out.bad = false)
    (htakes : out.Takes T (36 + (t.writtens T t.bmark ds).length)) :
    serializePacket T out t.fields t.len =
      behind (t.hmark :: t.plain ++ t.hcrcAfter T out :: t.bmark :: ds)
        (serializeLoop T t.fields t.len (FIELD_NEXT + ds.length) (some (lastEntry t.bmark ds))
          (some (t.headerAfter T out).written.length) (t.bodyAfter T out ds)
          (rest ++ [t.bcrc, t.terminator])) := by
  have hlen : t.len = ds.length + rest.length + 9 := by
    rw [len, hsplit, List.length_append]
    omega
  have hfields : t.fields =
      t.hmark :: t.plain ++ t.hcrc :: (t.bmark :: (ds ++ (rest ++ [t.bcrc, t.terminator]))) := by
    simp [fields, hsplit]
  have hheader : (t.headerImage T ++ (t.hcrcAfter T out).scalarWire T .llong).length = 32 := by
    rw [List.length_append, length_headerImage, Field.length_scalarWire]
    rfl
  have hafter : t.headerAfter T out =
      out.store (t.headerImage T ++ (t.hcrcAfter T out).scalarWire T .llong) :=
    OutputStream.store_store _ _ _
  have hroom : (t.headerAfter T out).Takes T (4 + (t.writtens T t.bmark ds).length) := by
    rw [hafter]
    exact OutputStream.Takes.store (htakes.mono (by omega))
  have hmark := serializeField_store t.fields (some (t.hcrcAfter T out)) t.bmark_long
    (show (t.headerAfter T out).bad = false from hbad) (hroom.mono (by
      rw [show DataType.width .long = 4 by rfl]
      omega))
  have hwire : (t.bmark.scalarWire T .long).length = 4 := Field.length_scalarWire _ _ _
  have hrun := @serializeLoop_encoded T t.fields t.len t.cnt FIELD_NEXT
    (some (t.headerAfter T out).written.length)
    ((t.headerAfter T out).store (t.bmark.scalarWire T .long)) t.bmark t.count ds rfl rfl hds hbad
    (OutputStream.Takes.store (hroom.mono (by rw [hwire]; rfl))) (.inr (by decide))
    (by simp only [FIELD_NEXT]; omega) (rest ++ [t.bcrc, t.terminator])
  rw [serializePacket]
  nth_rewrite 2 [hfields]
  rw [serializeLoop_header rfl (by simp only [FIELD_BMARK]; omega) hbad (htakes.mono (by omega)),
    serializeLoop_put (crcField_plain _ (by decide) (by simp only [FIELD_BMARK]; omega))
      t.bmark_long.type_nonneg hmark hbad, if_neg (by decide), show FIELD_BMARK + 1 = FIELD_NEXT by rfl,
    hrun, OutputStream.store_store, behind_behind, behind_behind]
  simp [bodyAfter, writtens]

/-- **The whole packet.** -/
theorem serializePacket_encoded (hbody : (t.bmark :: t.body).IsChain (Encoded t.cnt))
    (hbad : out.bad = false) (htakes : out.Takes T (44 + (t.writtens T t.bmark t.body).length)) :
    serializePacket T out t.fields t.len =
      .ok (ERR_OK, (t.bodyAfter T out t.body).store ((t.bcrcAfter T out).scalarWire T .llong),
        (t.withCrcs (t.hcrcAfter T out).ivalue (t.bcrcAfter T out).ivalue).fields) := by
  have hwritten : (t.headerImage T ++ (t.hcrcAfter T out).scalarWire T .llong ++
      (t.bmark.scalarWire T .long ++ t.writtens T t.bmark t.body)).length =
      36 + (t.writtens T t.bmark t.body).length := by
    simp only [List.length_append, length_headerImage, Field.length_scalarWire, DataType.width]
    omega
  have hafter : t.bodyAfter T out t.body =
      out.store (t.headerImage T ++ (t.hcrcAfter T out).scalarWire T .llong ++
        (t.bmark.scalarWire T .long ++ t.writtens T t.bmark t.body)) := by
    rw [bodyAfter, headerAfter, OutputStream.store_store, OutputStream.store_store,
      List.append_assoc]
  have hroom : (t.bodyAfter T out t.body).Takes T 8 := by
    rw [hafter]
    exact OutputStream.Takes.store (htakes.mono (by omega))
  have hput := serializeField_store t.fields (some (lastEntry t.bmark t.body))
    (crcField_isScalar t.bcrc_llong t.len (FIELD_NEXT + t.body.length)
      (some (t.headerAfter T out).written.length) (t.bodyAfter T out t.body))
    (show (t.bodyAfter T out t.body).bad = false from hbad) hroom
  rw [serializePacket_upTo (List.append_nil _).symm hbody hbad (htakes.mono (by omega)),
    List.nil_append, serializeLoop_put rfl t.bcrc_llong.type_nonneg hput hbad, serializeLoop,
    if_pos t.terminator_neg, behind_behind, behind_ok]
  change Except.ok (ERR_OK, (t.bodyAfter T out t.body).store ((t.bcrcAfter T out).scalarWire T .llong),
    t.hmark :: t.plain ++ t.hcrcAfter T out :: t.bmark :: t.body ++ [t.bcrcAfter T out] ++
      [t.terminator]) = _
  rw [fields_withCrcs, ← hcrcAfter_eq, ← bcrcAfter_eq, List.append_assoc]
  rfl

/-- An entry that is refused ends the packet, and the code says so. -/
theorem serializePacket_misplaced {p : Field} (hsplit : t.body = ds ++ p :: rest)
    (hds : (t.bmark :: ds).IsChain (Encoded t.cnt)) (htype : 0 ≤ p.type)
    (hp : p.Misplaced (lastEntry t.bmark ds)) (hbad : out.bad = false)
    (htakes : out.Takes T (36 + (t.writtens T t.bmark ds).length)) :
    ∃ hvalue, serializePacket T out t.fields t.len =
      .ok (ERR_ENCODE_ERROE, t.bodyAfter T out ds, (t.withCrcs hvalue t.bcrc.ivalue).fields) := by
  have hlen : t.len = ds.length + rest.length + 10 := by
    rw [len, hsplit, List.length_append, List.length_cons]
    omega
  have hcons : p :: rest ++ [t.bcrc, t.terminator] = p :: (rest ++ [t.bcrc, t.terminator]) := rfl
  refine ⟨(t.hcrcAfter T out).ivalue, ?_⟩
  rw [serializePacket_upTo hsplit hds hbad htakes, hcons,
    serializeLoop_misplaced htype (by simp only [FIELD_NEXT, FIELD_HCRC]; omega)
      (by simp only [FIELD_NEXT]; omega) hp, behind_ok, fields_withCrcs, ← hcrcAfter_eq, hsplit]
  simp

/-- An entry whose elements are not there is not survived. -/
theorem serializePacket_outside {p : Field} {ty : DataType} {memory : List UInt8}
    (hsplit : t.body = ds ++ p :: rest) (hds : (t.bmark :: ds).IsChain (Encoded t.cnt))
    (hp : p.IsArray ty memory) (hplaced : ¬ p.Misplaced (lastEntry t.bmark ds))
    (hheld : ¬ p.Held t.cnt (lastEntry t.bmark ds) ty memory) (hbad : out.bad = false)
    (htakes : out.Takes T (36 + (t.writtens T t.bmark ds).length)) :
    ∃ fault, serializePacket T out t.fields t.len = .error fault := by
  have hlen : t.len = ds.length + rest.length + 10 := by
    rw [len, hsplit, List.length_append, List.length_cons]
    omega
  have hcons : p :: rest ++ [t.bcrc, t.terminator] = p :: (rest ++ [t.bcrc, t.terminator]) := rfl
  obtain ⟨fault, hfield⟩ := @serializeField_outside T (t.bodyAfter T out ds) t.fields t.cnt
    (lastEntry t.bmark ds) p t.count ty memory rfl rfl hp hplaced hheld
  refine ⟨fault, ?_⟩
  rw [serializePacket_upTo hsplit hds hbad htakes, hcons,
    serializeLoop_fault hp.type_nonneg (by simp only [FIELD_NEXT, FIELD_HCRC]; omega)
      (by simp only [FIELD_NEXT]; omega) hfield, behind_error]

end BodyTable

end Librtaio

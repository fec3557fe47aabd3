import Librtaio.SerializeSpec

/-!
# What `fields_size` predicts

`fields_size` and `serialize_packet` are two loops with different branches.
On a message table the first computes the sizes of the entries the second
writes: the numbers agree with the packet (`fieldsSize_serializePacket`), and
the common start of both `send_packet` functions yields exactly the packet
(`encodePacket_fields`).
-/

namespace Librtaio

open Bytes

/-! ### One entry -/

theorem fieldSize_item {cnt : Int} {prev p : Field} (h : Item cnt prev p)
    (hsize : p.size cnt prev < 2 ^ 31) :
    fieldSize (toInt32 cnt) (some prev) p = .ok (p.size cnt prev) := by
  have hnonneg := h.size_nonneg
  have hmoved := h.moved_le
  cases h with
  | scalar ty hp => rw [fieldSize, if_pos hp.data, hp.size_eq, hp.type, DataType.typeSize_code]
  | counted ty memory hp hcount hcnt hmem =>
    obtain ⟨helem, helem0⟩ := Entry.counted_elements prev hcount hcnt
    have hle := hp.elements_le cnt prev
    have hcntle : cnt ≤ p.elements cnt prev := calc
      cnt = 1 * cnt := (Int.one_mul _).symm
      _ ≤ p.count * cnt := Int.mul_le_mul_of_nonneg_right (by omega) hcnt
      _ = p.elements cnt prev := helem.symm
    rw [fieldSize, if_neg (by simp [hp.data]), if_pos (by omega),
      toInt32_eq (by omega) (by omega), ← helem, checked_eq (by decide) helem0 (by omega), ok_bind,
      hp.type, DataType.typeSize_code, ← hp.size_eq, checked_eq (by decide) hnonneg hsize]
  | prefixed ty memory hp hcount hprev hlen hmem =>
    have helem := Entry.prefixed_elements cnt prev hcount
    rw [fieldSize, if_neg (by simp [hp.data]), if_neg (by omega), if_pos hcount]
    simp only [if_pos hprev.data]
    rw [← helem, hp.type, DataType.typeSize_code, ← hp.size_eq,
      checked_eq (by decide) hnonneg hsize, ok_bind, toInt32_eq (by omega) hsize]

theorem fieldSize_scalar {cnt : Int} {prev : Option Field} {p : Field} {ty : DataType}
    (hp : p.IsScalar ty) : fieldSize cnt prev p = .ok ty.width := by
  simp only [fieldSize, if_pos hp.data, hp.type, DataType.typeSize_code]

/-! ### The loop -/

namespace Sizes

/-- The arguments with their sums so far. -/
def fill (sz : Sizes) (total header body : Int) : Sizes :=
  ⟨sz.total.map fun _ => total, sz.header.map fun _ => header, sz.body.map fun _ => body,
    sz.bodyCount⟩

/-- The arguments after `k` entries from the `n`th: the first entry of the body leaves its
index in `*body_count`. -/
def passed (sz : Sizes) (n k : Nat) : Sizes :=
  if n ≤ FIELD_NEXT ∧ FIELD_NEXT < n + k then
    { sz with bodyCount := sz.bodyCount.map fun _ => (FIELD_NEXT : Int) }
  else sz

theorem passed_zero (sz : Sizes) (n : Nat) : sz.passed n 0 = sz := by
  rw [passed, if_neg (by omega)]

theorem passed_passed (sz : Sizes) (n k : Nat) :
    (sz.passed n 1).passed (n + 1) k = sz.passed n (k + 1) := by
  simp only [passed]
  split_ifs <;> first | rfl | omega

end Sizes

theorem addSize_map {acc : Option Int} {a size : Int} (ha : 0 ≤ a) (hsize : 0 ≤ size)
    (hlt : a + size < 2 ^ 31) :
    addSize size (acc.map fun _ => a) = .ok (acc.map fun _ => a + size) := by
  cases acc with
  | none => rfl
  | some _ =>
    have hsum := checked_eq (le_refl _) (show 0 ≤ a + size by omega) hlt
    simp only [Option.map_some, addSize, hsum, ok_bind]

section Loop

variable {cnt : Int} {n : Nat} {prev : Option Field} {p : Field} {sz : Sizes}
  {total header body size : Int} {rest : List Field}

theorem sizeLoop_header (hn : n ≤ FIELD_HCRC) (htype : 0 ≤ p.type)
    (hfield : fieldSize cnt prev p = .ok size) (hsize : 0 ≤ size) (htotal : 0 ≤ total)
    (hheader : 0 ≤ header) (htlt : total + size < 2 ^ 31) (hhlt : header + size < 2 ^ 31) :
    sizeLoop cnt n prev (sz.fill total header body) (p :: rest) =
      sizeLoop cnt (n + 1) (some p) (sz.fill (total + size) (header + size) body) rest := by
  have hnext : n ≠ FIELD_NEXT := by
    simp only [FIELD_HCRC, FIELD_NEXT] at hn ⊢
    omega
  simp only [sizeLoop, if_neg (show ¬ p.type < 0 by omega), hfield, ok_bind, if_neg hnext,
    Sizes.fill, addSize_map htotal hsize htlt, if_pos hn, addSize_map hheader hsize hhlt]

theorem sizeLoop_body (hn : FIELD_HCRC < n) (htype : 0 ≤ p.type)
    (hfield : fieldSize cnt prev p = .ok size) (hsize : 0 ≤ size) (htotal : 0 ≤ total)
    (hbody : 0 ≤ body) (htlt : total + size < 2 ^ 31) (hblt : body + size < 2 ^ 31) :
    sizeLoop cnt n prev (sz.fill total header body) (p :: rest) =
      sizeLoop cnt (n + 1) (some p) ((sz.passed n 1).fill (total + size) header (body + size))
        rest := by
  have hpassed : (sz.passed n 1).fill (total + size) header (body + size) =
      ⟨sz.total.map fun _ => total + size, sz.header.map fun _ => header,
        sz.body.map fun _ => body + size,
        if n = FIELD_NEXT then sz.bodyCount.map fun _ => (n : Int) else sz.bodyCount⟩ := by
    by_cases h : n = FIELD_NEXT
    · rw [Sizes.passed, if_pos (by omega), if_pos h, h]
      rfl
    · rw [Sizes.passed, if_neg (by omega), if_neg h]
      rfl
  rw [hpassed]
  simp only [sizeLoop, if_neg (show ¬ p.type < 0 by omega), hfield, ok_bind, Sizes.fill,
    addSize_map htotal hsize htlt, if_neg (show ¬ n ≤ FIELD_HCRC by omega),
    addSize_map hbody hsize hblt]

/-- A run of entries after the header adds up their sizes. -/
theorem sizeLoop_items (sz : Sizes) (total body header : Int) (rest : List Field) {prev : Field}
    {es : List Field} (h : Items cnt prev es)
    (hn : FIELD_HCRC < n) (htotal : 0 ≤ total) (hbody : 0 ≤ body) (hle : body ≤ total)
    (hlt : total + sizes cnt prev es < 2 ^ 31) :
    sizeLoop (toInt32 cnt) n (some prev) (sz.fill total header body) (es ++ rest) =
      sizeLoop (toInt32 cnt) (n + es.length) (some (lastEntry prev es))
        ((sz.passed n es.length).fill (total + sizes cnt prev es) header
          (body + sizes cnt prev es)) rest := by
  induction es generalizing n prev sz total body with
  | nil => simp only [List.nil_append, List.length_nil, lastEntry, sizes, Sizes.passed_zero, add_zero]
  | cons p es ih =>
    rw [items_cons] at h
    rw [sizes] at hlt
    have hp := h.1.size_nonneg
    have hes := h.2.sizes_nonneg
    rw [List.cons_append, sizeLoop_body hn h.1.type_nonneg (fieldSize_item h.1 (by omega)) hp htotal
      hbody (by omega) (by omega), ih _ _ _ h.2 (by omega) (by omega) (by omega) (by omega) (by omega),
      Sizes.passed_passed]
    simp only [List.length_cons, lastEntry, sizes, Int.add_assoc, Nat.add_assoc, Nat.add_comm 1]

end Loop

/-! ### The table -/

namespace PacketTable

variable (t : PacketTable)

theorem sizeLoop_fields {cnt : Int} {sz : Sizes} (rest : List Field) :
    sizeLoop cnt 0 none (sz.fill 0 0 0) (t.hmark :: t.plain ++ t.hcrc :: rest) =
      sizeLoop cnt FIELD_BMARK (some t.hcrc) (sz.fill 32 32 0) rest := by
  have step {n : Nat} {prev : Option Field} {p : Field} {ty : DataType} {a : Int}
      {rest : List Field} (hp : p.IsScalar ty) (hn : n ≤ FIELD_HCRC) (ha : 0 ≤ a)
      (hlt : a + ty.width < 2 ^ 31) :
      sizeLoop cnt n prev (sz.fill a a 0) (p :: rest) =
        sizeLoop cnt (n + 1) (some p) (sz.fill (a + ty.width) (a + ty.width) 0) rest :=
    sizeLoop_header hn hp.type_nonneg (fieldSize_scalar hp) (by omega) ha ha hlt hlt
  simp only [plain, List.cons_append, List.nil_append]
  rw [step t.hmark_long (by decide) (by decide) (by decide),
    step t.method_long (by decide) (by decide) (by decide),
    step t.bsize_long (by decide) (by decide) (by decide),
    step t.ret_long (by decide) (by decide) (by decide),
    step t.time_long (by decide) (by decide) (by decide),
    step t.count_long (by decide) (by decide) (by decide),
    step t.hcrc_llong (by decide) (by decide) (by decide)]
  rfl

/-- The entries after the header, without the terminator, as entries of a body. -/
theorem tail_items : Items t.cnt t.hcrc (t.bmark :: t.body ++ [t.bcrc]) := by
  rw [List.cons_append, items_cons]
  refine ⟨.scalar _ t.bmark_long, t.items.append ?_⟩
  rw [items_cons]
  exact ⟨.scalar _ t.bcrc_llong, items_nil⟩

theorem sizes_tail : sizes t.cnt t.hcrc (t.bmark :: t.body ++ [t.bcrc]) = t.bodySize := by
  rw [List.cons_append, sizes, sizes_append, sizes, sizes, t.bmark_long.size_eq,
    t.bcrc_llong.size_eq, bodySize]
  simp only [DataType.width]
  omega

/-- **`fields_size` on a packet table**, whichever of its arguments are null. -/
theorem fieldsSize_fields (hsize : t.size < 2 ^ 31) (sz : Sizes) :
    fieldsSize t.fields sz =
      .ok ⟨sz.total.map fun _ => t.size, sz.header.map fun _ => 32, sz.body.map fun _ => t.bodySize,
        sz.bodyCount.map fun _ => t.body.length + 2⟩ := by
  have hsizes := t.items.sizes_nonneg
  have hbody : t.bodySize = 4 + sizes t.cnt t.bmark t.body + 8 := rfl
  have htotal : t.size = 32 + t.bodySize := rfl
  have hfields : t.fields =
      t.hmark :: t.plain ++ t.hcrc :: ((t.bmark :: t.body ++ [t.bcrc]) ++ [t.terminator]) := by
    simp [fields]
  have hlength : (t.bmark :: t.body ++ [t.bcrc]).length = t.body.length + 2 := by simp
  have hloop := sizeLoop_items sz 32 0 32 [t.terminator] t.tail_items (n := FIELD_BMARK)
    (by decide) (by decide) (by decide) (by decide) (by rw [sizes_tail]; omega)
  rw [hlength, sizes_tail] at hloop
  have hpassed : sz.passed FIELD_BMARK (t.body.length + 2) =
      { sz with bodyCount := sz.bodyCount.map fun _ => (FIELD_NEXT : Int) } :=
    if_pos (by simp only [FIELD_BMARK, FIELD_NEXT]; omega)
  rw [fieldsSize, t.fieldAt_count, ok_bind, t.count_ivalue]
  change (sizeLoop (toInt32 t.cnt) 0 none (sz.fill 0 0 0) t.fields >>= _) = _
  rw [hfields, sizeLoop_fields, hloop, hpassed, sizeLoop, if_pos t.terminator_neg, ok_bind]
  have hcount : ((FIELD_BMARK + (t.body.length + 2) : Nat) : Int) - FIELD_NEXT + 1 =
      t.body.length + 2 := by
    simp only [FIELD_BMARK, FIELD_NEXT]
    omega
  simp only [Sizes.fill, Option.map_map, Function.comp_def, hcount, zero_add]
  rfl

end PacketTable

namespace MsgTable

variable (t : MsgTable)

theorem fieldsSize_fields (hsize : t.size < 2 ^ 31) (sz : Sizes) :
    fieldsSize t.fields sz =
      .ok ⟨sz.total.map fun _ => t.size, sz.header.map fun _ => 32, sz.body.map fun _ => t.bodySize,
        sz.bodyCount.map fun _ => t.body.length + 2⟩ :=
  t.packetTable.fieldsSize_fields hsize sz

/-! ### Prediction and encoding -/

@[simp] theorem size_setBsize (value : Int) : (t.setBsize value).size = t.size := rfl

@[simp] theorem size_sealed (T : Target) : (t.sealed T).size = t.size := rfl

@[simp] theorem size_sent (T : Target) : (t.sent T).size = t.size := rfl

@[simp] theorem bodySize_sent (T : Target) : (t.sent T).bodySize = t.bodySize := rfl

/-- **`fields_size` predicts what `serialize_packet` writes.** The sizes add up, a buffer
of exactly the total is filled and nothing is written past it, the header ends at
offset 32, and the body size in the header is the number of bytes after it. -/
theorem fieldsSize_serializePacket (T : Target) (hsize : t.size < 2 ^ 31)
    (total header body bodyCount : Int) :
    fieldsSize t.fields ⟨some total, some header, some body, some bodyCount⟩ =
        .ok ⟨some t.size, some 32, some t.bodySize, some (t.body.length + 2)⟩ ∧
      t.size = 32 + t.bodySize ∧
      ∀ buffer : List UInt8, buffer.length = t.size →
        ∃ out fields bsize,
          serializePacket T (.ofBuffer buffer) (setIvalue t.fields FIELD_BSIZE t.bodySize) t.len =
            .ok (ERR_OK, out, fields) ∧
          out.bad = false ∧ out.room = [] ∧ out.written.length = t.size ∧
          out.written.take 32 = (t.sent T).headerWire T ∧
          out.written.drop 32 = (t.sent T).bodyWire T ∧
          fieldAt fields FIELD_BSIZE = .ok bsize ∧
          bsize.ivalue = (out.written.drop 32).length := by
  refine ⟨t.fieldsSize_fields hsize _, rfl, ?_⟩
  intro buffer hbuffer
  have hlen := (t.sent T).length_wire T
  have hheader := (t.sent T).length_headerWire T
  have hbody := (t.sent T).length_bodyWire T
  rw [size_sent] at hlen
  rw [bodySize_sent] at hbody
  have hput := (t.setBsize t.bodySize).serializePacket_fields T
    (by rw [size_setBsize]; exact hsize) buffer (by rw [size_setBsize]; omega)
  have hwritten : ((OutputStream.ofBuffer buffer).append ((t.sent T).wire T)).written =
      (t.sent T).headerWire T ++ (t.sent T).bodyWire T := rfl
  refine ⟨_, _, (t.sent T).bsize, hput, rfl, ?_, ?_, ?_, ?_, rfl, ?_⟩
  · exact List.drop_of_length_le (show buffer.length ≤ ((t.sent T).wire T).length by omega)
  · exact hlen
  · rw [← sent, hwritten, List.take_left' hheader]
  · rw [← sent, hwritten, List.drop_left' hheader]
  · rw [← sent, hwritten, List.drop_left' hheader, hbody]
    rfl

theorem fieldsSize_connectReq :
    fieldsSize (msgConnectFields 0 [0x61, 0] [0x62, 0x63, 0]) ⟨some 0, some 0, some 0, some 0⟩ =
      .ok ⟨some 53, some 32, some 21, some 6⟩ :=
  (fieldsSize_serializePacket (connectReq 0 [0x61, 0] [0x62, 0x63, 0] (by decide) (by decide))
    (.build .little) (by decide) 0 0 0 0).1

/-- What both `send_packet` functions start with yields the packet. -/
theorem encodePacket_fields (T : Target) (hsize : t.size < 2 ^ 31) :
    encodePacket T t.fields t.len = .ok (ERR_OK, (t.sent T).wire T, (t.sent T).fields) := by
  have hbody := t.bodySize_ge
  have htotal : t.size = 32 + t.bodySize := rfl
  have hlen := (t.sent T).length_wire T
  rw [size_sent] at hlen
  have hput := (t.setBsize t.bodySize).serializePacket_fields T
    (by rw [size_setBsize]; exact hsize) (List.replicate t.size.toNat 0)
    (by rw [size_setBsize, List.length_replicate]; omega)
  rw [← sent] at hput
  have hbuffer : ((OutputStream.ofBuffer (List.replicate t.size.toNat 0)).append
      ((t.sent T).wire T)).buffer = (t.sent T).wire T := by
    rw [OutputStream.buffer, OutputStream.append_written, OutputStream.append_room]
    have hdrop : (List.replicate t.size.toNat (0 : UInt8)).drop ((t.sent T).wire T).length = [] :=
      List.drop_of_length_le (by rw [List.length_replicate]; omega)
    exact (congrArg _ hdrop).trans (List.append_nil _)
  simp only [encodePacket, t.fieldsSize_fields hsize, orFault_ok, ok_bind, Option.map_some,
    Option.getD_some, if_neg (show ¬ t.size < 0 by omega), setIvalue_bsize]
  rw [show t.len = (t.setBsize t.bodySize).len from rfl, hput]
  simp only [orFault_ok, ok_bind, hbuffer]

end MsgTable

end Librtaio

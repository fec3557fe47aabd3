import Librtaio.WrittenBody

/-!
# LONGLONG arrays on the wire

`fields_size` counts eight bytes for an element of a LONGLONG array,
`write_llong_array` and `read_llong_array` move four. Positions and checksums
agree, since both streams make the same mistake; what is lost is half of the
elements' bytes. The arrays survive exactly if they have no elements
(`llongsSurvive_iff`).
-/

namespace Librtaio

open Bytes

/-- The words of a LONGLONG array on host `T'` are those the sender had on host `T`. -/
def LlongRestored (T T' : Target) (cnt : Int) (prev p q : Field) : Prop :=
  ∀ memory, p.IsArray .llong memory → ∃ memory', q.data = some memory' ∧
    T'.order.loadWords 8 (p.elements cnt prev).toNat memory' =
      T.order.loadWords 8 (p.elements cnt prev).toNat memory

/-- An entry that is no LONGLONG array, or one without elements. -/
def NoLlongs (cnt : Int) (prev p : Field) : Prop :=
  ∀ memory, p.IsArray .llong memory → p.elements cnt prev = 0

section OneEntry

variable {T T' : Target} {cnt : Int} {prev p q : Field}

theorem length_wire_of_item (h : Item cnt prev p) :
    ((p.wire T cnt prev).length : Int) = p.size cnt prev := by
  rcases h.isScalar_or_isArray with ⟨ty, hp⟩ | ⟨ty, memory, hp⟩
  · rw [hp.wire_eq, hp.size_eq, Field.length_scalarWire]
  · have hmem := h.size_le hp
    rw [hp.size_eq, ← Entry.width_mul_toNat ty (h.elements_nonneg (by simp [hp.data]))] at hmem ⊢
    rw [hp.wire_eq, ByteOrder.length_flipWords _ _ _ _ (by exact_mod_cast hmem)]

theorem atLeast_wire : AtLeast T cnt fun prev p => p.wire T cnt prev := by
  intro prev p h
  have hwire := length_wire_of_item (T := T) h
  have hmoved := h.moved_le
  change _ ≤ (p.wire T cnt prev).length
  rw [h.length_image]
  omega

/-- An entry is written as it should be exactly if no LONGLONG element is lost. -/
theorem wire_eq_image_iff (h : Item cnt prev p) :
    p.wire T cnt prev = p.image T cnt prev ↔ NoLlongs cnt prev p := by
  rcases h.isScalar_or_isArray with ⟨ty, hp⟩ | ⟨ty, memory, hp⟩
  · constructor
    · intro _ memory hp'
      exact absurd (hp'.data.symm.trans hp.data) (by simp)
    · intro _
      rw [hp.wire_eq, hp.image_eq]
  · have hnonneg := h.elements_nonneg (by simp [hp.data])
    by_cases hty : ty = .llong
    · subst hty
      have hmem := h.size_le hp
      rw [hp.size_eq, ← Entry.width_mul_toNat _ hnonneg] at hmem
      rw [hp.wire_eq, hp.image_eq]
      constructor
      · intro heq _ _
        have hlen := congrArg List.length heq
        simp only [DataType.elemWidth, DataType.width] at hlen hmem
        rw [ByteOrder.length_flipWords _ _ _ _ (by omega),
          ByteOrder.length_flipWords _ _ _ _ (by omega)] at hlen
        omega
      · intro hnone
        rw [hnone memory hp]
        rfl
    · constructor
      · intro _ memory' hp'
        exact absurd (DataType.code_injective (hp.type.symm.trans hp'.type)) hty
      · intro _
        rw [hp.wire_eq, hp.image_eq, DataType.elemWidth_eq hty]

/-- No elements, nothing to restore. -/
theorem llongRestored_of_noLlongs (h : NoLlongs cnt prev p) (hslot : Slot cnt prev p q)
    (bs : List UInt8) :
    LlongRestored T T' cnt prev p (q.readFrom T' (p.elements cnt prev).toNat bs) := by
  intro memory hp
  obtain ⟨memory', hq, -, -⟩ := hslot.isArray hp
  rw [hq.readFrom_eq, h memory hp]
  exact ⟨_, rfl, rfl⟩

end OneEntry

/-- Without LONGLONG elements every byte `fields_size` counts is written. -/
theorem moves_eq_sizes {cnt : Int} {prev : Field} {es : List Field} (hes : Items cnt prev es)
    (h : (prev :: es).IsChain (NoLlongs cnt)) : (moves cnt prev es : Int) = sizes cnt prev es := by
  induction es generalizing prev with
  | nil => rfl
  | cons p es ih =>
    rw [items_cons] at hes
    rw [List.isChain_cons_cons] at h
    have hp : (p.moved cnt prev : Int) = p.size cnt prev := by
      have hwire := length_wire_of_item (T := .build .big) hes.1
      rw [(wire_eq_image_iff hes.1).mpr h.1, hes.1.length_image] at hwire
      exact hwire
    rw [moves, sizes, Int.natCast_add, hp, ih hes.2 h.2]

namespace PacketTable

variable (t : PacketTable)

/-- The 64-bit arrays of a table survive the wire: the packet has the length `fields_size`
predicts, its body is the entries' elements in network order, and the body decoder
restores the LONGLONG arrays. -/
structure LlongsSurvive (T T' : Target) : Prop where
  predicted : ∀ buffer : List UInt8, t.size ≤ buffer.length → ∃ out fields sz,
    serializePacket T (.ofBuffer buffer) t.fields t.len = .ok (ERR_OK, out, fields) ∧
    fieldsSize t.fields ⟨some 0, none, none, none⟩ = .ok sz ∧ sz.total = some out.written.length
  written : t.Writes T fun prev p => p.wire T t.cnt prev
  restored : t.Restores T T' (LlongRestored T T' t.cnt)

variable {t} {T T' : Target}

theorem LlongsSurvive.noLlongs (h : t.LlongsSurvive T T') (hsize : t.size < 2 ^ 31) :
    (t.bmark :: t.body).IsChain (NoLlongs t.cnt) :=
  (isChain_congr t.items wire_eq_image_iff).mp ((writes_iff atLeast_wire hsize).mp h.written)

/-- **LONGLONG arrays survive the wire exactly if they are empty**, in a table that `fields_size`
can count in its `int`. -/
theorem llongsSurvive_iff (hfit : LengthsFit t.bmark t.body) (hsize : t.size < 2 ^ 31) :
    t.LlongsSurvive T T' ↔ (t.bmark :: t.body).IsChain (NoLlongs t.cnt) := by
  constructor
  · intro h
    exact h.noLlongs hsize
  · intro h
    have hle := t.length_le
    refine ⟨?_, ?_, ?_⟩
    · intro buffer hroom
      have hpacket := t.serializePacket_fields T (by omega) buffer (by omega)
      have hwritten : ((t.sealed T).wire T).length = t.length := (t.sealed T).length_wire T
      have hmoves := moves_eq_sizes t.items h
      have hlength : t.length = 44 + moves t.cnt t.bmark t.body := rfl
      have htotal : t.size = 32 + (4 + sizes t.cnt t.bmark t.body + 8) := rfl
      refine ⟨_, _, _, hpacket, t.fieldsSize_fields hsize _, ?_⟩
      change some t.size = some (((t.sealed T).wire T).length : Int)
      rw [hwritten, hlength, htotal]
      congr 1
      omega
    · exact (writes_iff atLeast_wire hsize).mpr ((isChain_congr t.items wire_eq_image_iff).mpr h)
    · exact restores_of_chain (fun hP _ hslot => llongRestored_of_noLlongs hP hslot _) hfit hsize h

/-- A LONGLONG array behind the SHORT that is its length. -/
def llongTable (k : Nat) (memory : List UInt8) (h : 8 * k ≤ memory.length) : PacketTable :=
  ofBody 0 MSG_COMMON 0 1
    [scalarField .short k, ⟨DataType.llong.code, 0, 0, some memory, -1⟩] <| by
    have hp : (⟨DataType.llong.code, 0, 0, some memory, -1⟩ : Field).IsArray .llong memory :=
      ⟨rfl, rfl⟩
    rw [items_cons, items_cons]
    refine ⟨.scalar .short ⟨rfl, rfl⟩, .prefixed .llong memory hp rfl (.inl ⟨rfl, rfl⟩)
      (Int.natCast_nonneg k) ?_, items_nil⟩
    rw [hp.size_eq, Entry.prefixed_elements _ _ rfl, DataType.width]
    change (8 : Int) * k ≤ memory.length
    exact_mod_cast h

/-- The table with no elements is one that survives. -/
theorem llongsSurvive_empty :
    (llongTable 0 [] (by decide)).LlongsSurvive (.build .little) (.build .big) := by
  refine (llongsSurvive_iff ?_ (by decide)).mpr ?_
  · have short : (scalarField .short 0).InRange := by
      intro ty hp
      obtain rfl : ty = .short := DataType.code_injective hp.type.symm
      decide
    exact lengthsFit_cons.mpr ⟨fun h => absurd rfl h.1, lengthsFit_cons.mpr ⟨fun _ => short, by
      simp [LengthsFit]⟩⟩
  · refine .cons_cons ?_ (.cons_cons ?_ (.singleton _))
    · intro memory hp
      exact absurd hp.data (by simp [scalarField])
    · intro memory _
      rfl

/-- One element, `0x0102030405060708` on a little-endian host. -/
theorem llong_lost :
    ¬ (llongTable 1 [8, 7, 6, 5, 4, 3, 2, 1] (by decide)).LlongsSurvive (.build .little)
      (.build .little) := by
  intro h
  have hchain := h.noLlongs (by decide)
  rcases hchain with _ | _ | ⟨_, _ | _ | ⟨harray, _⟩⟩
  exact absurd (harray _ ⟨rfl, rfl⟩) (by decide)

end PacketTable

end Librtaio

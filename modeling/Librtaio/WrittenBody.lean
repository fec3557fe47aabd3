import Librtaio.FieldsSize
import Librtaio.PacketDecode

/-!
# What a table says should be written and restored

A wire format gives every entry its bytes; `spelled` puts them one after the
other. `PacketTable.Writes` says that `serialize_packet` writes a body so, and
`PacketTable.Restores` that the body decoder gets back from it entries in a
given relation to the sender's. When no entry gives more bytes than the format
does, the whole body is right exactly when every entry is
(`spelled_eq_images_iff`), so both are decided entry by entry.
-/

namespace Librtaio

open Bytes Crc32

/-! ### Entries and their bytes -/

/-- The bytes of consecutive entries by the rule `spec` for one entry after another. -/
def spelled (spec : Field → Field → List UInt8) : Field → List Field → List UInt8
  | _, [] => []
  | prev, p :: es => spec prev p ++ spelled spec p es

section Spelled

variable {T : Target} {cnt : Int} {spec : Field → Field → List UInt8} {prev : Field}
  {es ds : List Field}

theorem isChain_congr {P Q : Field → Field → Prop} (hes : Items cnt prev es)
    (h : ∀ {prev p : Field}, Item cnt prev p → (P prev p ↔ Q prev p)) :
    (prev :: es).IsChain P ↔ (prev :: es).IsChain Q := by
  induction es generalizing prev with
  | nil => simp
  | cons p es ih =>
    rw [items_cons] at hes
    rw [List.isChain_cons_cons, List.isChain_cons_cons, h hes.1, ih hes.2]

/-- The rule gives every entry at least the bytes that are written for it. -/
def AtLeast (T : Target) (cnt : Int) (spec : Field → Field → List UInt8) : Prop :=
  ∀ {prev p : Field}, Item cnt prev p → (p.image T cnt prev).length ≤ (spec prev p).length

theorem AtLeast.spelled (h : AtLeast T cnt spec) (hes : Items cnt prev es) :
    (images T cnt prev es).length ≤ (spelled spec prev es).length := by
  induction es generalizing prev with
  | nil => exact le_refl _
  | cons p es ih =>
    rw [items_cons] at hes
    rw [images, Librtaio.spelled, List.length_append, List.length_append]
    exact Nat.add_le_add (h hes.1) (ih hes.2)

/-- The bodies are equal exactly if the entries are. -/
theorem spelled_eq_images_iff (h : AtLeast T cnt spec) (hes : Items cnt prev es) :
    spelled spec prev es = images T cnt prev es ↔
      (prev :: es).IsChain fun prev p => spec prev p = p.image T cnt prev := by
  induction es generalizing prev with
  | nil => simp [spelled, images]
  | cons p es ih =>
    rw [items_cons] at hes
    have hhead := h hes.1
    have htail := h.spelled hes.2
    rw [List.isChain_cons_cons, ← ih hes.2, spelled, images]
    constructor
    · intro heq
      have hlen := congrArg List.length heq
      rw [List.length_append, List.length_append] at hlen
      exact List.append_inj heq (by omega)
    · rintro ⟨hp, hrest⟩
      rw [hp, hrest]

/-- What holds of every entry read from its image holds along the table. -/
theorem along_readsFrom {T' : Target} {P : Field → Field → Prop} {R : Field → Field → Field → Prop}
    (step : ∀ {prev p q : Field}, P prev p → Item cnt prev p → Slot cnt prev p q →
      R prev p (q.readFrom T' (p.elements cnt prev).toNat (p.image T cnt prev)))
    (hP : (prev :: es).IsChain P) (hes : Items cnt prev es) (hslots : Along (Slot cnt) prev es ds) :
    Along R prev es (readsFrom T' cnt prev es ds (images T cnt prev es)) := by
  induction hslots with
  | nil => exact .nil
  | @cons prev p q es ds hpq _ ih =>
    rw [items_cons] at hes
    rw [List.isChain_cons_cons] at hP
    have hlen := hes.1.length_image T
    rw [readsFrom, images, List.take_left' hlen, List.drop_left' hlen]
    exact .cons (step hP.1 hes.1 hpq) (ih hP.2 hes.2)

end Spelled

/-! ### Packets -/

namespace PacketTable

variable (t : PacketTable)

/-- `serialize_packet` writes the body by the rule, between the header and the mark in
front of it and the checksum behind it. -/
def Writes (T : Target) (spec : Field → Field → List UInt8) : Prop :=
  ∀ buffer : List UInt8, t.size ≤ buffer.length →
    ∃ out fields front back,
      serializePacket T (.ofBuffer buffer) t.fields t.len = .ok (ERR_OK, out, fields) ∧
      out.written = front ++ (spelled spec t.bmark t.body ++ back) ∧
      front.length = 36 ∧ back.length = 8

/-- The body decoder restores what `serialize_packet` wrote of the body to entries related
to the sender's, in any table of the same shape. -/
def Restores (T T' : Target) (R : Field → Field → Field → Prop) : Prop :=
  ∀ buffer : List UInt8, t.size ≤ buffer.length → ∀ (dst : t.Dest) (count : Field),
    fieldAt dst.header FIELD_COUNT = .ok count → count.ivalue = t.cnt →
    ∃ out fields s' bmark ds last,
      serializePacket T (.ofBuffer buffer) t.fields t.len = .ok (ERR_OK, out, fields) ∧
      unserializeBodyPacket T' (.ofBuffer (out.written.drop 32) (out.written.length - 32))
        dst.fields t.len true = .ok (ERR_OK, s', dst.header ++ (bmark :: ds ++ last)) ∧
      Along R t.bmark t.body ds

variable {t} {T : Target}

theorem writes_iff {spec : Field → Field → List UInt8} (hatLeast : AtLeast T t.cnt spec)
    (hsize : t.size < 2 ^ 31) :
    t.Writes T spec ↔
      (t.bmark :: t.body).IsChain fun prev p => spec prev p = p.image T t.cnt prev := by
  have hle := t.length_le
  have hlong := hatLeast.spelled t.items
  have himages := t.items.length_images T
  have htotal : t.length = 44 + moves t.cnt t.bmark t.body := rfl
  have hpacket (buffer : List UInt8) (hroom : t.size ≤ buffer.length) :=
    t.serializePacket_fields T (by omega) buffer (by omega)
  have hwritten : (t.sealed T).wire T = ((t.sealed T).headerWire T ++ t.bmark.scalarWire T .long) ++
      (images T t.cnt t.bmark t.body ++ (t.sealed T).bcrc.scalarWire T .llong) := by
    simp only [wire, bodyWire, bodyImage, List.append_assoc]
    rfl
  have hfront : ((t.sealed T).headerWire T ++ t.bmark.scalarWire T .long).length = 36 := by
    rw [List.length_append, length_headerWire, Field.length_scalarWire, DataType.width]
  rw [← spelled_eq_images_iff hatLeast t.items]
  constructor
  · intro h
    obtain ⟨out, fields, front, back, hput, hbody, hfront', hback⟩ :=
      h (List.replicate t.size.toNat 0) (by rw [List.length_replicate]; omega)
    rw [hpacket _ (by rw [List.length_replicate]; omega)] at hput
    obtain ⟨rfl, rfl⟩ : _ = out ∧ _ = fields := by simpa using hput
    have hsame : (t.sealed T).wire T = front ++ (spelled spec t.bmark t.body ++ back) := hbody
    rw [hwritten] at hsame
    have hrest := (List.append_inj hsame (by omega)).2
    have hlast : ((t.sealed T).bcrc.scalarWire T .llong).length = back.length := by
      rw [Field.length_scalarWire, hback, DataType.width]
    exact ((List.append_inj' hrest hlast).1).symm
  · intro h buffer hroom
    refine ⟨_, _, _, (t.sealed T).bcrc.scalarWire T .llong, hpacket buffer hroom, ?_, hfront, ?_⟩
    · rw [h]
      exact hwritten
    · rw [Field.length_scalarWire, DataType.width]

theorem restores_of_chain {T' : Target} {P : Field → Field → Prop}
    {R : Field → Field → Field → Prop}
    (step : ∀ {prev p q : Field}, P prev p → Item t.cnt prev p → Slot t.cnt prev p q →
      R prev p (q.readFrom T' (p.elements t.cnt prev).toNat (p.image T t.cnt prev)))
    (hfit : LengthsFit t.bmark t.body) (hsize : t.size < 2 ^ 31)
    (hP : (t.bmark :: t.body).IsChain P) : t.Restores T T' R := by
  intro buffer hroom dst count hcount hcnt
  have hle := t.length_le
  have hheader := (t.sealed T).length_headerWire T
  have hpacket := t.serializePacket_fields T (by omega) buffer (by omega)
  have hdrop : ((t.sealed T).wire T).drop 32 = (t.sealed T).bodyWire T := List.drop_left' hheader
  have hsplit : ((t.sealed T).wire T).length - 32 = ((t.sealed T).bodyWire T).length := by
    rw [← hdrop, List.length_drop]
  have hbody := own_body_decoded (T := T)
    (s := .ofBuffer (((t.sealed T).wire T).drop 32) (((t.sealed T).wire T).length - 32)) hfit
    (by omega) dst T' true [] dst.isHeader hcount hcnt rfl
    (by rw [hdrop, hsplit, List.append_nil]; exact List.take_length)
  have hmark : t.bmark.moved t.cnt t.hcrc = (t.bmark.scalarWire T .long).length := by
    rw [t.bmark_long.moved_eq, Field.length_scalarWire]
  rw [readsFrom, bodyImage, hmark, List.take_left, List.drop_left] at hbody
  exact ⟨_, _, _, _, _, _, hpacket, hbody, along_readsFrom step hP t.items dst.slots⟩

end PacketTable

end Librtaio

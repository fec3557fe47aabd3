import Librtaio.Computation
import Librtaio.SessionSteps

/-!
# Copies of whole tables (`copy_fields`)

`copy_fields` stops at the first entry whose type is not positive, every other function at
the first one whose type is negative. `TYPE_CHAR` is 0, so a copy ends before the first
`TYPE_CHAR` entry; a table without one is copied whole, and then nothing that walks the copy
sees a difference.
-/

namespace Librtaio

variable {es after after' : List Field} {term term' : Field}

/-! ### What `copy_fields` does -/

/-- The entries it copies, and the place it goes on at. -/
theorem copyLoop_entries (src : List Field) :
    ∀ (es dest : List Field) (n : Nat), (∀ p ∈ es, 0 < p.type) → n + es.length ≤ dest.length →
      copyLoop false n (es ++ src) dest =
        copyLoop false (n + es.length) src (dest.take n ++ es ++ dest.drop (n + es.length)) := by
  intro es
  induction es with
  | nil => intro dest n _ _; simp
  | cons p es ih =>
    intro dest n hes hroom
    rw [List.length_cons] at hroom
    have hp := hes p List.mem_cons_self
    have htail := ih (dest.set n p) (n + 1) (fun q hq => hes q (List.mem_cons_of_mem _ hq))
      (by rw [List.length_set]; omega)
    have htake : (dest.set n p).take (n + 1) = dest.take n ++ [p] := by
      rw [List.take_add_one, List.take_set_of_le le_rfl, List.getElem?_set_self (by omega)]
      rfl
    have hdrop : (dest.set n p).drop (n + 1 + es.length) = dest.drop (n + 1 + es.length) :=
      List.drop_set_of_lt (by omega)
    rw [List.cons_append, copyLoop, if_neg (by omega), if_pos (by omega)]
    simp only [Bool.false_eq_true, false_and, if_false]
    rw [htail, htake, hdrop, List.length_cons]
    simp [Nat.add_assoc, Nat.add_comm 1]

/-- An entry whose type is not positive ends the copy, whatever follows. -/
theorem copyFields_stops {dest : List Field} {stop d : Field} (hes : ∀ p ∈ es, 0 < p.type)
    (hstop : ¬ stop.type > 0) (hd : dest[es.length]? = some d) :
    copyFields dest (es ++ stop :: after) false =
      .ok (es.length, es ++ { d with type := -1 } :: dest.drop (es.length + 1)) := by
  obtain ⟨hroom, -⟩ := List.getElem?_eq_some_iff.mp hd
  have hcopy := copyLoop_entries (stop :: after) es dest 0 hes (by omega)
  rw [copyLoop, if_pos hstop, Nat.zero_add, List.take_zero, List.nil_append] at hcopy
  have hrest : dest.drop es.length = d :: dest.drop (es.length + 1) := by
    rw [← List.getElem_cons_drop hroom, (List.getElem?_eq_some_iff.mp hd).2]
  have hread : fieldAt (es ++ dest.drop es.length) es.length = .ok d := by
    simp [fieldAt, hrest]
  rw [copyFields, hcopy, ok_bind]
  simp only [Bool.false_eq_true, if_false, hread, ok_bind]
  simp [hrest]

/-! ### What walks a table -/

/-- The code and the stream that `serialize_packet` leaves are the same. -/
def SamePacket (a b : Int × OutputStream × List Field) : Prop := a.1 = b.1 ∧ a.2.1 = b.2.1

/-- What follows the terminator, and what is in it, is not seen by `fields_size`. -/
theorem sizeLoop_terminated (hterm : term.type < 0) (hterm' : term'.type < 0) :
    ∀ (es : List Field) (cnt : Int) (n : Nat) (prev : Option Field) (sz : Sizes),
      sizeLoop cnt n prev sz (es ++ term :: after) =
        sizeLoop cnt n prev sz (es ++ term' :: after') := by
  intro es
  induction es with
  | nil =>
    intro cnt n prev sz
    rw [List.nil_append, List.nil_append, sizeLoop, sizeLoop, if_pos hterm, if_pos hterm']
  | cons p es ih =>
    intro cnt n prev sz
    simp only [List.cons_append, sizeLoop, ih]

theorem fieldAt_append (rest : List Field) {i : Nat} (hi : i < es.length) :
    fieldAt (es ++ rest) i = fieldAt es i := by
  rw [fieldAt, fieldAt, List.getElem?_append_left hi]

theorem fieldsSize_terminated (hterm : term.type < 0) (hterm' : term'.type < 0)
    (hcount : FIELD_COUNT < es.length) (sz : Sizes) :
    fieldsSize (es ++ term :: after) sz = fieldsSize (es ++ term' :: after') sz := by
  have hloop := @sizeLoop_terminated after after' term term' hterm hterm' es
  simp only [fieldsSize, fieldAt_append _ hcount, hloop]

/-- Only entry FIELD_COUNT of the whole table is read. -/
theorem serializeField_congr {fields fields' : List Field}
    (hcount : fieldAt fields FIELD_COUNT = fieldAt fields' FIELD_COUNT) (T : Target)
    (prev : Option Field) (p : Field) (out : OutputStream) :
    serializeField T fields prev p out = serializeField T fields' prev p out := by
  simp only [serializeField, hcount]

theorem serializeLoop_terminated {fields fields' : List Field}
    (hcount : fieldAt fields FIELD_COUNT = fieldAt fields' FIELD_COUNT)
    (hterm : term.type < 0) (hterm' : term'.type < 0) (T : Target) (len : Int) :
    ∀ (es : List Field) (n : Nat) (prev : Option Field) (bodyBase : Option Nat)
      (out : OutputStream),
      Agree SamePacket (serializeLoop T fields len n prev bodyBase out (es ++ term :: after))
        (serializeLoop T fields' len n prev bodyBase out (es ++ term' :: after')) := by
  intro es
  induction es with
  | nil =>
    intro n prev bodyBase out
    rw [List.nil_append, List.nil_append, serializeLoop, serializeLoop, if_pos hterm,
      if_pos hterm']
    exact .ok ⟨rfl, rfl⟩
  | cons p es ih =>
    intro n prev bodyBase out
    rw [List.cons_append, List.cons_append, serializeLoop, serializeLoop]
    split
    · exact .ok ⟨rfl, rfl⟩
    · simp only [serializeField_congr hcount]
      refine Agree.bind (.refl _) ?_
      rintro ⟨ret, out⟩ _ rfl
      cases ret with
      | some code => exact .ok ⟨rfl, rfl⟩
      | none =>
        simp only
        split
        · exact .ok ⟨rfl, rfl⟩
        · refine Agree.bind (ih _ _ _ _) ?_
          rintro ⟨code, out, rest⟩ ⟨code', out', rest'⟩ hsame
          exact .ok hsame

/-! ### Whole copies -/

/-- `copy_fields(dest, src, false)` of the source `es ++ rest` makes the entries `es` of the destination,
ends it there, and the destination is then encoded as the source is. -/
def CopiesWhole (dest es rest : List Field) : Prop :=
  ∃ fields, copyFields dest (es ++ rest) false = .ok (es.length, fields) ∧
    (∃ d, dest[es.length]? = some d ∧
      fields = es ++ { d with type := -1 } :: dest.drop (es.length + 1)) ∧
    (FIELD_COUNT < es.length →
      (∀ sz, fieldsSize fields sz = fieldsSize (es ++ rest) sz) ∧
      ∀ T out len, Agree SamePacket (serializePacket T out fields len)
        (serializePacket T out (es ++ rest) len))

theorem copiesWhole_of_pos {dest : List Field} (hes : ∀ p ∈ es, 0 < p.type) (hterm : term.type < 0)
    (hroom : es.length < dest.length) : CopiesWhole dest es (term :: after) := by
  have hd : dest[es.length]? = some dest[es.length] := List.getElem?_eq_getElem hroom
  have hend : ({ dest[es.length] with type := -1 } : Field).type < 0 := show (-1 : Int) < 0 by decide
  refine ⟨_, copyFields_stops hes (by omega) hd, ⟨_, hd, rfl⟩, fun hcount => ⟨fun sz => ?_, ?_⟩⟩
  · exact fieldsSize_terminated hend hterm hcount sz
  · intro T out len
    exact serializeLoop_terminated (by rw [fieldAt_append _ hcount, fieldAt_append _ hcount])
      hend hterm T len es 0 none none out

/-- The copy ends before the first `TYPE_CHAR` entry. -/
theorem not_copiesWhole {dest rest : List Field} (hes : ∀ p ∈ es, 0 ≤ p.type)
    (hroom : es.length < dest.length) (hchar : ∃ p ∈ es, p.type = DataType.char.code) :
    ¬ CopiesWhole dest es rest := by
  obtain ⟨stop, pre, post, rfl, hpre, hstop⟩ :
      ∃ stop pre post, es = pre ++ stop :: post ∧ (∀ p ∈ pre, 0 < p.type) ∧ ¬ stop.type > 0 := by
    obtain ⟨p, hp, htype⟩ := hchar
    have hfind : (es.find? fun p => decide (¬ p.type > 0)).isSome := by
      rw [List.find?_isSome]
      exact ⟨p, hp, by rw [htype]; decide⟩
    obtain ⟨stop, hstop⟩ := Option.isSome_iff_exists.mp hfind
    obtain ⟨hneg, pre, post, hsplit, hpre⟩ := List.find?_eq_some_iff_append.mp hstop
    exact ⟨stop, pre, post, hsplit, fun q hq => by simpa using hpre q hq, by simpa using hneg⟩
  rintro ⟨fields, hcopy, -⟩
  have hlength : (pre ++ stop :: post).length = pre.length + (post.length + 1) := by simp
  have hd := List.getElem?_eq_getElem (show pre.length < dest.length by omega)
  rw [List.append_assoc, List.cons_append, copyFields_stops hpre hstop hd] at hcopy
  have hreturned := congrArg Prod.fst (Except.ok.inj hcopy)
  simp only [hlength] at hreturned
  omega

/-- **Whole copies.** A table is copied whole exactly if none of its entries has type `TYPE_CHAR`;
a copy of the header changes exactly the header. -/
theorem copyFields_whole {dest : List Field} (hes : ∀ p ∈ es, 0 ≤ p.type) (hterm : term.type < 0)
    (hroom : es.length < dest.length) :
    (CopiesWhole dest es (term :: after) ↔ ∀ p ∈ es, p.type ≠ DataType.char.code) ∧
    ∀ hs rest, IsHeader hs → FIELD_HCRC < dest.length →
      copyFields dest (hs ++ rest) true = .ok (FIELD_HCRC, hs ++ dest.drop (FIELD_HCRC + 1)) := by
  refine ⟨⟨fun hcopies p hp hchar => ?_, fun hno => ?_⟩, ?_⟩
  · exact not_copiesWhole hes hroom ⟨p, hp, hchar⟩ hcopies
  · refine copiesWhole_of_pos (fun p hp => ?_) hterm hroom
    have hne : p.type ≠ 0 := hno p hp
    have hnonneg := hes p hp
    omega
  · intro hs rest hhs hdest
    exact copyFields_header hhs rest hdest

/-- A request without a body of its own, copied into a table that is longer. -/
theorem copyFields_request :
    CopiesWhole (List.replicate 12 (scalarField .long 0))
      (msgHeader 0 MSG_COMMON 0 1 ++ [scalarField .llong 0]) [⟨-1, 0, 0, none, 0⟩] ∧
    copyFields (List.replicate 12 (scalarField .long 0))
      ((msgHeader 0 MSG_COMMON 0 1).take FIELD_BMARK ++ msgTail) true =
        .ok (FIELD_HCRC, (msgHeader 0 MSG_COMMON 0 1).take FIELD_BMARK ++
          (List.replicate 12 (scalarField .long 0)).drop (FIELD_HCRC + 1)) := by
  have hwhole := @copyFields_whole (msgHeader 0 MSG_COMMON 0 1 ++ [scalarField .llong 0]) []
    ⟨-1, 0, 0, none, 0⟩ (List.replicate 12 (scalarField .long 0)) (by decide) (by decide)
    (by decide)
  exact ⟨hwhole.1.mpr (by decide), hwhole.2 _ _ (isHeader_msgHeader 0 MSG_COMMON 0 1) (by decide)⟩

/-- A `TYPE_CHAR` entry in the body is where the copy ends. -/
theorem copyFields_char :
    ¬ CopiesWhole (List.replicate 12 (scalarField .long 0))
      (msgHeader 0 MSG_COMMON 0 1 ++ [scalarField .char 65, scalarField .llong 0])
      [⟨-1, 0, 0, none, 0⟩] :=
  not_copiesWhole (by decide) (by decide) (by decide)

end Librtaio

import Librtaio.Bytes
import Librtaio.Crc32

/-!
# Bursts and the CRC-32

A shift of the remainder is linear in exclusive or and loses nothing: the
polynomial's top bit marks that a one was shifted out. So the remainder after a
message determines the one before it, and the remainder after at most four
bytes determines the bytes. Two messages that differ within four consecutive
bytes (`Burst`) therefore have different checksums (`crc32_burst`).
-/

namespace Librtaio.Crc32

open Bytes

/-! ### The division is linear -/

theorem shift_xor (a b : BitVec 32) : shift (a ^^^ b) = shift a ^^^ shift b := by
  have hcancel (x y p : BitVec 32) : (x ^^^ p) ^^^ (y ^^^ p) = x ^^^ y := by
    calc
      (x ^^^ p) ^^^ (y ^^^ p) = (x ^^^ y) ^^^ (p ^^^ p) := by ac_rfl
      _ = x ^^^ y := by rw [BitVec.xor_self, BitVec.xor_zero]
  simp only [shift, BitVec.getLsbD_xor, BitVec.ushiftRight_xor_distrib]
  cases a.getLsbD 0 <;> cases b.getLsbD 0 <;> simp only [Bool.xor_false, Bool.xor_true,
    Bool.false_eq_true, Bool.not_true, Bool.not_false, if_true, if_false]
  · ac_rfl
  · ac_rfl
  · exact (hcancel _ _ _).symm

/-- A one that is shifted out comes back as the top bit. -/
theorem shift_top (a : BitVec 32) : (shift a).getLsbD 31 = a.getLsbD 0 := by
  have hpolynomial : polynomial.getLsbD 31 = true := by decide
  have hmoved : (a >>> 1).getLsbD 31 = false := by
    rw [BitVec.getLsbD_ushiftRight]
    exact BitVec.getLsbD_of_ge a 32 (by omega)
  cases hbit : a.getLsbD 0
  · simpa only [shift, hbit, Bool.false_eq_true, if_false] using hmoved
  · simp only [shift, hbit, if_true, BitVec.getLsbD_xor, hmoved, hpolynomial, Bool.false_xor]

theorem shift_eq_zero {a : BitVec 32} (h : shift a = 0#32) : a = 0#32 := by
  have hlow : a.getLsbD 0 = false := by
    rw [← shift_top, h]
    rfl
  have hhigh : a >>> 1 = 0#32 := by
    simpa only [shift, hlow, Bool.false_eq_true, if_false] using h
  apply BitVec.eq_of_getLsbD_eq
  intro i _
  cases i with
  | zero => simpa using hlow
  | succ i =>
    have hbit := congrArg (·.getLsbD i) hhigh
    simpa [BitVec.getLsbD_ushiftRight, Nat.add_comm] using hbit

theorem shifts_xor (n : Nat) (a b : BitVec 32) :
    shifts n (a ^^^ b) = shifts n a ^^^ shifts n b := by
  induction n generalizing a b with
  | zero => rfl
  | succ n ih => simp only [shifts, shift_xor, ih]

theorem shifts_injective (n : Nat) : Function.Injective (shifts n) := by
  -- a linear map is injective if nothing else goes to zero
  have hzero : ∀ n a, shifts n a = 0#32 → a = 0#32 := by
    intro n
    induction n with
    | zero => exact fun a h => h
    | succ n ih => exact fun a h => shift_eq_zero (ih _ h)
  intro a b h
  apply BitVec.xor_eq_zero_iff.mp
  apply hzero n
  rw [shifts_xor, h, BitVec.xor_self]

theorem shifts_add (m n : Nat) (a : BitVec 32) : shifts (m + n) a = shifts n (shifts m a) := by
  induction m generalizing a with
  | zero => rw [Nat.zero_add, shifts]
  | succ m ih => rw [Nat.succ_add, shifts, shifts, ih]

/-- A word whose low bits are clear only moves down. -/
theorem shifts_clear (n : Nat) {a : BitVec 32} (h : ∀ i, i < n → a.getLsbD i = false) :
    shifts n a = a >>> n := by
  induction n generalizing a with
  | zero => simp [shifts]
  | succ n ih =>
    have hmoved : shift a = a >>> 1 := by
      simp only [shift, h 0 (by omega), Bool.false_eq_true, if_false]
    rw [shifts, hmoved, ih, ← BitVec.shiftRight_add, Nat.add_comm]
    intro i hi
    rw [BitVec.getLsbD_ushiftRight]
    exact h (1 + i) (by omega)

/-! ### The bytes of a word -/

/-- At most four bytes as the word the remainder takes them in. -/
def word (bs : List UInt8) : BitVec 32 := BitVec.ofNat 32 (ofLeBytes bs)

theorem word_cons (b : UInt8) (bs : List UInt8) :
    word (b :: bs) = b.toBitVec.setWidth 32 ^^^ (word bs <<< 8) := by
  have hb : b.toNat < 2 ^ 8 := b.toNat_lt
  apply BitVec.eq_of_getLsbD_eq
  intro i hi
  have hsplit : ofLeBytes (b :: bs) = 2 ^ 8 * ofLeBytes bs + b.toNat := by
    rw [ofLeBytes]
    omega
  have hbyte : b.toBitVec.getLsbD i = b.toNat.testBit i := rfl
  rw [word, BitVec.getLsbD_ofNat, hsplit, Nat.testBit_two_pow_mul_add _ hb, BitVec.getLsbD_xor,
    BitVec.getLsbD_setWidth, BitVec.getLsbD_shiftLeft, word, BitVec.getLsbD_ofNat, hbyte]
  by_cases hlow : i < 8
  · simp [hi, hlow]
  · have hzero : b.toNat.testBit i = false :=
      Nat.testBit_lt_two_pow (hb.trans_le (Nat.pow_le_pow_right (by decide) (by omega)))
    simp [hi, hlow, hzero, show i - 8 < 32 by omega]

/-- Bytes of the same number that make the same word are the same. -/
theorem word_injective {bs bs' : List UInt8} (hlen : bs.length = bs'.length)
    (hfour : bs.length ≤ 4) (h : word bs = word bs') : bs = bs' := by
  have hlt {cs : List UInt8} (hcs : cs.length ≤ 4) : ofLeBytes cs < 2 ^ 32 := by
    have hbound : 256 ^ cs.length ≤ 256 ^ 4 := Nat.pow_le_pow_right (by decide) hcs
    exact (ofLeBytes_lt cs).trans_le hbound
  have hnat := congrArg BitVec.toNat h
  simp only [word, BitVec.toNat_ofNat] at hnat
  rw [Nat.mod_eq_of_lt (hlt hfour), Nat.mod_eq_of_lt (hlt (hlen ▸ hfour))] at hnat
  calc
    bs = leBytes bs.length (ofLeBytes bs) := (leBytes_ofLeBytes bs).symm
    _ = leBytes bs'.length (ofLeBytes bs') := by rw [hlen, hnat]
    _ = bs' := leBytes_ofLeBytes bs'

/-! ### The remainder of a message -/

theorem update_append (c : BitVec 32) (bs cs : List UInt8) :
    update c (bs ++ cs) = update (update c bs) cs := List.foldl_append

/-- At most four bytes are taken in as one word. -/
theorem update_word (c : BitVec 32) (bs : List UInt8) (hfour : bs.length ≤ 4) :
    update c bs = shifts (8 * bs.length) (c ^^^ word bs) := by
  induction bs generalizing c with
  | nil => simp [update, shifts, word, ofLeBytes]
  | cons b bs ih =>
    rw [List.length_cons] at hfour
    have hup : shifts 8 (word bs <<< 8) = word bs := by
      rw [shifts_clear 8 (fun i hi => by simp [hi])]
      have hsmall : ofLeBytes bs < 2 ^ 24 := by
        have hbound : 256 ^ bs.length ≤ 256 ^ 3 := Nat.pow_le_pow_right (by decide) (by omega)
        exact (ofLeBytes_lt bs).trans_le hbound
      apply BitVec.eq_of_toNat_eq
      simp only [word, BitVec.toNat_ushiftRight, BitVec.toNat_shiftLeft, BitVec.toNat_ofNat,
        Nat.shiftLeft_eq, Nat.shiftRight_eq_div_pow]
      omega
    have hstep : step c b ^^^ word bs = shifts 8 (c ^^^ word (b :: bs)) := by
      rw [word_cons, ← BitVec.xor_assoc, shifts_xor, hup, step]
    calc
      update c (b :: bs) = update (step c b) bs := rfl
      _ = shifts (8 * bs.length) (step c b ^^^ word bs) := ih _ (by omega)
      _ = shifts (8 * (b :: bs).length) (c ^^^ word (b :: bs)) := by
        rw [hstep, ← shifts_add, List.length_cons, Nat.mul_succ, Nat.add_comm 8]

theorem update_injective (bs : List UInt8) : Function.Injective (update · bs) := by
  induction bs with
  | nil => exact fun c c' h => h
  | cons b bs ih =>
    intro c c' h
    have hstep : step c b = step c' b := ih h
    exact (BitVec.xor_left_inj _).mp (shifts_injective 8 hstep)

/-! ### Bursts -/

/-- Messages of one length that differ at most in the four bytes from `i` on. -/
structure Burst (i : Nat) (m m' : List UInt8) : Prop where
  length : m'.length = m.length
  before : m'.take i = m.take i
  after : m'.drop (i + 4) = m.drop (i + 4)

section Burst

variable {i n : Nat} {m m' : List UInt8}

/-- The bytes behind the burst are the same. -/
theorem Burst.drop_eq (h : Burst i m m') (hn : i + 4 ≤ n) : m'.drop n = m.drop n := by
  have hdrop := congrArg (List.drop (n - (i + 4))) h.after
  rwa [List.drop_drop, List.drop_drop, Nat.add_sub_cancel' hn] at hdrop

/-- The bytes in front of it are. -/
theorem Burst.take_eq (h : Burst i m m') (hn : n ≤ i) : m'.take n = m.take n := by
  have htake := congrArg (List.take n) h.before
  rwa [List.take_take, List.take_take, Nat.min_eq_left hn] at htake

theorem Burst.take (h : Burst i m m') (n : Nat) : Burst i (m.take n) (m'.take n) where
  length := by rw [List.length_take, List.length_take, h.length]
  before := by rw [List.take_take, List.take_take, Nat.min_comm, ← List.take_take, h.before,
    List.take_take]
  after := by rw [List.drop_take, List.drop_take, h.after]

end Burst

/-- **The checksum tells bursts apart.** -/
theorem crc32_burst {i : Nat} {m m' : List UInt8} (h : Burst i m m') (hcrc : crc32 m' = crc32 m) :
    m' = m := by
  have hsplit (cs : List UInt8) : cs = cs.take i ++ ((cs.drop i).take 4 ++ cs.drop (i + 4)) := by
    rw [← List.drop_drop, List.take_append_drop, List.take_append_drop]
  have hupdate : update 0xFFFFFFFF#32 m' = update 0xFFFFFFFF#32 m :=
    (BitVec.xor_left_inj _).mp hcrc
  have hlen : ((m'.drop i).take 4).length = ((m.drop i).take 4).length := by
    simp only [List.length_take, List.length_drop, h.length]
  have hfour : ((m.drop i).take 4).length ≤ 4 := List.length_take_le _ _
  rw [hsplit m', hsplit m, h.before, h.after] at hupdate ⊢
  rw [update_append, update_append, update_append, update_append] at hupdate
  have hburst := update_injective _ hupdate
  rw [update_word _ _ (hlen ▸ hfour), update_word _ _ hfour, hlen] at hburst
  have hword := (BitVec.xor_right_inj _).mp (shifts_injective _ hburst)
  rw [word_injective hlen (hlen ▸ hfour) hword]

end Librtaio.Crc32

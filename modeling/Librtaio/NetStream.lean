import Librtaio.Bytes

/-!
# Byte order (`common/net_stream.cpp`)

`swap_2`, `swap_4` and `swap_8` exchange the bytes of a word: the first two in a
copy of the word's memory, the third by two 32-bit swaps and a shift. A host is
little endian when the first byte of the `int` 1 is 1. Every one of them
reverses the word's memory (`IsSwap`), so swapping on a little-endian host and
not swapping on a big-endian one both put the network order into memory.
-/

namespace Librtaio

open Bytes

/-- The host a program is built for and how it is built. -/
structure Target where
  order : ByteOrder
  /-- `NDEBUG` is defined, so that `assert` is compiled out. -/
  ndebug : Bool
  /-- What a cast of an out-of-range `float` to `uint32_t` yields. -/
  undefULong : BitVec 32 → BitVec 32
  /-- What a cast of an out-of-range `double` to `uint64_t` yields. -/
  undefULongLong : BitVec 64 → BitVec 64

/-- The Makefile's build, with `assert`, on a host whose casts out of range yield 0. -/
def Target.build (order : ByteOrder) : Target := ⟨order, false, fun _ => 0, fun _ => 0⟩

def swap2 (o : ByteOrder) (v : BitVec 16) : BitVec 16 :=
  match o.store 2 v.toNat with
  | [a0, a1] => BitVec.ofNat 16 (o.load [a1, a0])
  | arr => BitVec.ofNat 16 (o.load arr)

def swap4 (o : ByteOrder) (v : BitVec 32) : BitVec 32 :=
  match o.store 4 v.toNat with
  | [a0, a1, a2, a3] => BitVec.ofNat 32 (o.load [a3, a2, a1, a0])
  | arr => BitVec.ofNat 32 (o.load arr)

def swap8 (o : ByteOrder) (v : BitVec 64) : BitVec 64 :=
  let low := (v &&& 0x00000000FFFFFFFF#64).setWidth 32
  let high := ((v &&& 0xFFFFFFFF00000000#64) >>> 32).setWidth 32
  (swap4 o high).setWidth 64 + ((swap4 o low).setWidth 64 <<< 32)

def isLittleEndian (o : ByteOrder) : Bool := (o.store 4 1).head? == some 1

@[simp] theorem isLittleEndian_little : isLittleEndian .little = true := rfl

@[simp] theorem isLittleEndian_big : isLittleEndian .big = false := rfl

/-! ### Swapping reverses memory -/

/-- A function on words of `w` bytes that reverses their bytes in memory. -/
def IsSwap (o : ByteOrder) (w : Nat) (swap : BitVec (8 * w) → BitVec (8 * w)) : Prop :=
  ∀ v, o.store w (swap v).toNat = (o.store w v.toNat).reverse

theorem pow_256_eq (w : Nat) : 256 ^ w = 2 ^ (8 * w) := by
  rw [pow_mul]
  rfl

/-- Memory holding a word is read back as that word. -/
theorem toNat_load (o : ByteOrder) {w : Nat} {bs : List UInt8} (h : bs.length = w) :
    (BitVec.ofNat (8 * w) (o.load bs)).toNat = o.load bs := by
  have hlt := o.load_lt bs
  rw [h, pow_256_eq] at hlt
  simpa using Nat.mod_eq_of_lt hlt

theorem store_toNat_load (o : ByteOrder) {w : Nat} {bs : List UInt8} (h : bs.length = w) :
    o.store w (BitVec.ofNat (8 * w) (o.load bs)).toNat = bs := by
  rw [toNat_load o h]
  subst h
  exact o.store_load bs

theorem isSwap_id (o : ByteOrder) : IsSwap o 1 id := by
  intro v
  have hlen := o.length_store 1 v.toNat
  rcases List.length_eq_one_iff.mp hlen with ⟨a, ha⟩
  simp [ha]

theorem swap2_isSwap (o : ByteOrder) : IsSwap o 2 (swap2 o) := by
  intro v
  have hlen := o.length_store 2 v.toNat
  obtain ⟨a0, a1, ha⟩ : ∃ a0 a1, o.store 2 v.toNat = [a0, a1] := by
    match h : o.store 2 v.toNat with
    | [a0, a1] => exact ⟨a0, a1, rfl⟩
    | [] | [_] | _ :: _ :: _ :: _ => simp [h] at hlen
  have hswap : swap2 o v = BitVec.ofNat (8 * 2) (o.load [a1, a0]) := by
    rw [swap2, ha]
  rw [hswap, store_toNat_load o (by rfl), ha]
  rfl

theorem swap4_isSwap (o : ByteOrder) : IsSwap o 4 (swap4 o) := by
  intro v
  have hlen := o.length_store 4 v.toNat
  obtain ⟨a0, a1, a2, a3, ha⟩ : ∃ a0 a1 a2 a3, o.store 4 v.toNat = [a0, a1, a2, a3] := by
    match h : o.store 4 v.toNat with
    | [a0, a1, a2, a3] => exact ⟨a0, a1, a2, a3, rfl⟩
    | [] | [_] | [_, _] | [_, _, _] | _ :: _ :: _ :: _ :: _ :: _ => simp [h] at hlen
  have hswap : swap4 o v = BitVec.ofNat (8 * 4) (o.load [a3, a2, a1, a0]) := by
    rw [swap4, ha]
  rw [hswap, store_toNat_load o (by rfl), ha]
  rfl

theorem swap8_halves (o : ByteOrder) (v : BitVec 64) :
    (swap8 o v).toNat =
      (swap4 o (BitVec.ofNat 32 (v.toNat / 2 ^ 32))).toNat +
        2 ^ 32 * (swap4 o (BitVec.ofNat 32 v.toNat)).toNat := by
  have hlow : (v &&& 0x00000000FFFFFFFF#64).setWidth 32 = BitVec.ofNat 32 v.toNat := by
    apply BitVec.eq_of_toNat_eq
    have hmask : (0x00000000FFFFFFFF : Nat) = 2 ^ 32 - 1 := rfl
    simp only [BitVec.toNat_setWidth, BitVec.toNat_and, BitVec.toNat_ofNat]
    rw [Nat.mod_eq_of_lt (by decide : (0x00000000FFFFFFFF : Nat) < 2 ^ 64), hmask,
      Nat.and_two_pow_sub_one_eq_mod]
    omega
  have hhigh : ((v &&& 0xFFFFFFFF00000000#64) >>> 32).setWidth 32 =
      BitVec.ofNat 32 (v.toNat / 2 ^ 32) := by
    apply BitVec.eq_of_getLsbD_eq
    intro i hi
    have hmask : (0xFFFFFFFF00000000#64).getLsbD (32 + i) = true := by
      have h : (0xFFFFFFFF00000000#64) = BitVec.allOnes 64 <<< 32 := by decide
      rw [h, BitVec.getLsbD_shiftLeft, BitVec.getLsbD_allOnes]
      simp only [Bool.and_eq_true, decide_eq_true_eq, Bool.not_eq_true', decide_eq_false_iff_not]
      omega
    simp only [BitVec.getLsbD_setWidth, BitVec.getLsbD_ushiftRight, BitVec.getLsbD_and, hmask,
      Bool.and_true, hi, decide_true, Bool.true_and, BitVec.getLsbD_ofNat]
    rw [Nat.testBit_div_two_pow, BitVec.getLsbD, Nat.add_comm]
  have h4 := (swap4 o (BitVec.ofNat 32 (v.toNat / 2 ^ 32))).isLt
  have h4' := (swap4 o (BitVec.ofNat 32 v.toNat)).isLt
  simp only [swap8, hlow, hhigh, BitVec.toNat_add, BitVec.toNat_shiftLeft, BitVec.toNat_setWidth,
    Nat.shiftLeft_eq]
  omega

theorem swap8_isSwap (o : ByteOrder) : IsSwap o 8 (swap8 o) := by
  intro v
  have hv := v.isLt
  have h4 := (swap4 o (BitVec.ofNat 32 (v.toNat / 2 ^ 32))).isLt
  have hlow := swap4_isSwap o (BitVec.ofNat 32 v.toNat)
  have hhigh := swap4_isSwap o (BitVec.ofNat 32 (v.toNat / 2 ^ 32))
  -- a word of eight bytes is its low half followed by its high half
  have hsplit (n m : Nat) (hn : n < 2 ^ 32) :
      leBytes 8 (n + 2 ^ 32 * m) = leBytes 4 n ++ leBytes 4 m := by
    rw [leBytes_add 4 4]
    congr 1
    · rw [← leBytes_mod 4 (n + 2 ^ 32 * m)]
      congr 1
      omega
    · congr 1
      omega
  have hparts : v.toNat = v.toNat % 2 ^ 32 + 2 ^ 32 * (v.toNat / 2 ^ 32) := by omega
  have hmodl : leBytes 4 (BitVec.ofNat 32 v.toNat).toNat = leBytes 4 (v.toNat % 2 ^ 32) := by
    simp
  have hmodh : leBytes 4 (BitVec.ofNat 32 (v.toNat / 2 ^ 32)).toNat =
      leBytes 4 (v.toNat / 2 ^ 32) := by
    rw [BitVec.toNat_ofNat, Nat.mod_eq_of_lt (by omega)]
  have hword : leBytes 8 v.toNat =
      leBytes 4 (v.toNat % 2 ^ 32) ++ leBytes 4 (v.toNat / 2 ^ 32) := by
    conv => lhs; rw [hparts]
    exact hsplit _ _ (Nat.mod_lt _ (by decide))
  rw [swap8_halves]
  cases o
  · simp only [ByteOrder.store] at hlow hhigh ⊢
    rw [hsplit _ _ h4, hhigh, hlow, hword, List.reverse_append, hmodl, hmodh]
  · simp only [ByteOrder.store, beBytes] at hlow hhigh ⊢
    have hlow' := congrArg List.reverse hlow
    have hhigh' := congrArg List.reverse hhigh
    simp only [List.reverse_reverse] at hlow' hhigh'
    rw [hsplit _ _ h4, hhigh', hlow', hword, hmodl, hmodh]
    simp

/-! ### Network order on every host -/

section NetworkOrder

variable {o : ByteOrder} {w : Nat} {swap : BitVec (8 * w) → BitVec (8 * w)}

/-- What a host stores for an outgoing word is its network order. -/
theorem IsSwap.store_out (h : IsSwap o w swap) (v : BitVec (8 * w)) :
    o.store w (if isLittleEndian o then swap v else v).toNat = beBytes w v.toNat := by
  cases o
  · simpa [ByteOrder.store, beBytes] using h v
  · rfl

/-- What a host makes of an incoming word is the number its bytes spell. -/
theorem IsSwap.load_in (h : IsSwap o w swap) {bs : List UInt8} (hlen : bs.length = w) :
    (if isLittleEndian o then swap (BitVec.ofNat (8 * w) (o.load bs))
      else BitVec.ofNat (8 * w) (o.load bs)).toNat = ofBeBytes bs := by
  cases o
  · have hs := h (BitVec.ofNat (8 * w) (ofLeBytes bs))
    have hmem : leBytes w (BitVec.ofNat (8 * w) (ofLeBytes bs)).toNat = bs :=
      store_toNat_load .little hlen
    simp only [ByteOrder.store, hmem] at hs
    have hval := congrArg ofLeBytes hs
    rw [ofLeBytes_leBytes, pow_256_eq, Nat.mod_eq_of_lt (BitVec.isLt _)] at hval
    simpa [ByteOrder.load, ofBeBytes] using hval
  · exact toNat_load .big hlen

/-- Swapping an incoming word in place flips its memory. -/
theorem IsSwap.store_in (h : IsSwap o w swap) {bs : List UInt8} (hlen : bs.length = w) :
    o.store w (if isLittleEndian o then swap (BitVec.ofNat (8 * w) (o.load bs))
      else BitVec.ofNat (8 * w) (o.load bs)).toNat = o.flip bs := by
  cases o
  · have hs := h (BitVec.ofNat (8 * w) (ByteOrder.little.load bs))
    rw [store_toNat_load .little hlen] at hs
    simpa [ByteOrder.flip] using hs
  · exact store_toNat_load .big hlen

end NetworkOrder

end Librtaio

import Mathlib.Tactic.Ring

/-!
# Words and the bytes they are stored as

A host keeps a word of `w` bytes in memory in its own byte order, and a wire
format fixes one order for every host. This file has the two orders over
naturals, the round trips between a word and its bytes, and the conversion of
a block of words from the native to the network order, which is an involution.
-/

namespace Librtaio.Bytes

/-- The `w` bytes of `n`, least significant first; higher bits are dropped. -/
def leBytes : Nat → Nat → List UInt8
  | 0, _ => []
  | w + 1, n => UInt8.ofNat n :: leBytes w (n / 256)

def ofLeBytes : List UInt8 → Nat
  | [] => 0
  | b :: bs => b.toNat + 256 * ofLeBytes bs

/-- The `w` bytes of `n`, most significant first (network order). -/
def beBytes (w n : Nat) : List UInt8 := (leBytes w n).reverse

def ofBeBytes (bs : List UInt8) : Nat := ofLeBytes bs.reverse

@[simp] theorem length_leBytes (w n : Nat) : (leBytes w n).length = w := by
  induction w generalizing n with
  | zero => rfl
  | succ w ih => simp only [leBytes, List.length_cons, ih]

@[simp] theorem length_beBytes (w n : Nat) : (beBytes w n).length = w := by
  simp [beBytes]

theorem ofLeBytes_lt (bs : List UInt8) : ofLeBytes bs < 256 ^ bs.length := by
  induction bs with
  | nil => simp [ofLeBytes]
  | cons b bs ih =>
    have hb : b.toNat < 256 := b.toNat_lt
    rw [ofLeBytes, List.length_cons, pow_succ]
    omega

theorem ofBeBytes_lt (bs : List UInt8) : ofBeBytes bs < 256 ^ bs.length := by
  simpa [ofBeBytes] using ofLeBytes_lt bs.reverse

theorem ofLeBytes_leBytes (w n : Nat) : ofLeBytes (leBytes w n) = n % 256 ^ w := by
  induction w generalizing n with
  | zero => simp [leBytes, ofLeBytes, Nat.mod_one]
  | succ w ih =>
    rw [leBytes, ofLeBytes, ih, pow_succ', Nat.mod_mul]
    simp

theorem ofBeBytes_beBytes (w n : Nat) : ofBeBytes (beBytes w n) = n % 256 ^ w := by
  simp [ofBeBytes, beBytes, ofLeBytes_leBytes]

theorem leBytes_ofLeBytes (bs : List UInt8) : leBytes bs.length (ofLeBytes bs) = bs := by
  induction bs with
  | nil => rfl
  | cons b bs ih =>
    have hb : b.toNat < 256 := b.toNat_lt
    rw [List.length_cons, leBytes, ofLeBytes]
    have hhead : UInt8.ofNat (b.toNat + 256 * ofLeBytes bs) = b := by
      apply UInt8.toNat_inj.mp
      simp
    have htail : (b.toNat + 256 * ofLeBytes bs) / 256 = ofLeBytes bs := by omega
    rw [hhead, htail, ih]

theorem beBytes_ofBeBytes (bs : List UInt8) : beBytes bs.length (ofBeBytes bs) = bs := by
  have h := leBytes_ofLeBytes bs.reverse
  rw [List.length_reverse] at h
  simp [beBytes, ofBeBytes, h]

theorem ofLeBytes_append (bs cs : List UInt8) :
    ofLeBytes (bs ++ cs) = ofLeBytes bs + 256 ^ bs.length * ofLeBytes cs := by
  induction bs with
  | nil => simp [ofLeBytes]
  | cons b bs ih =>
    rw [List.cons_append, ofLeBytes, ih, ofLeBytes, List.length_cons, pow_succ]
    ring

/-- The last bytes are the low part of the number. -/
theorem ofBeBytes_append_mod (bs cs : List UInt8) :
    ofBeBytes (bs ++ cs) % 256 ^ cs.length = ofBeBytes cs := by
  have hlt := ofLeBytes_lt cs.reverse
  rw [List.length_reverse] at hlt
  rw [ofBeBytes, List.reverse_append, ofLeBytes_append, List.length_reverse, Nat.add_mul_mod_self_left,
    Nat.mod_eq_of_lt hlt, ofBeBytes]

theorem ofBeBytes_inj {bs cs : List UInt8} (hlen : bs.length = cs.length) :
    ofBeBytes bs = ofBeBytes cs ↔ bs = cs := by
  refine ⟨fun h => ?_, fun h => h ▸ rfl⟩
  calc
    bs = beBytes bs.length (ofBeBytes bs) := (beBytes_ofBeBytes bs).symm
    _ = beBytes cs.length (ofBeBytes cs) := by rw [hlen, h]
    _ = cs := beBytes_ofBeBytes cs

/-- The bytes of a word are those of its low part followed by those of its high
part. -/
theorem leBytes_add (v w n : Nat) :
    leBytes (v + w) n = leBytes v n ++ leBytes w (n / 256 ^ v) := by
  induction v generalizing n with
  | zero => simp [leBytes]
  | succ v ih =>
    rw [Nat.succ_add, leBytes, leBytes, ih, List.cons_append, pow_succ',
      Nat.div_div_eq_div_mul]

theorem leBytes_mod (w n : Nat) : leBytes w (n % 256 ^ w) = leBytes w n := by
  have h := leBytes_ofLeBytes (leBytes w n)
  rwa [length_leBytes, ofLeBytes_leBytes] at h

/-! ### The byte order of a host -/

/-- The order in which a host stores the bytes of a word. -/
inductive ByteOrder where
  | little
  | big
deriving DecidableEq, Repr

namespace ByteOrder

def store : ByteOrder → Nat → Nat → List UInt8
  | .little, w, n => leBytes w n
  | .big, w, n => beBytes w n

def load : ByteOrder → List UInt8 → Nat
  | .little, bs => ofLeBytes bs
  | .big, bs => ofBeBytes bs

/-- Native order to network order, and back. -/
def flip : ByteOrder → List UInt8 → List UInt8
  | .little, bs => bs.reverse
  | .big, bs => bs

@[simp] theorem length_store (o : ByteOrder) (w n : Nat) : (o.store w n).length = w := by
  cases o <;> simp [store]

@[simp] theorem length_flip (o : ByteOrder) (bs : List UInt8) :
    (o.flip bs).length = bs.length := by
  cases o <;> simp [flip]

@[simp] theorem flip_flip (o : ByteOrder) (bs : List UInt8) : o.flip (o.flip bs) = bs := by
  cases o <;> simp [flip]

theorem store_load (o : ByteOrder) (bs : List UInt8) : o.store bs.length (o.load bs) = bs := by
  cases o
  · exact leBytes_ofLeBytes bs
  · exact beBytes_ofBeBytes bs

theorem load_store (o : ByteOrder) (w n : Nat) : o.load (o.store w n) = n % 256 ^ w := by
  cases o
  · exact ofLeBytes_leBytes w n
  · exact ofBeBytes_beBytes w n

theorem load_lt (o : ByteOrder) (bs : List UInt8) : o.load bs < 256 ^ bs.length := by
  cases o
  · exact ofLeBytes_lt bs
  · exact ofBeBytes_lt bs

theorem flip_store (o : ByteOrder) (w n : Nat) : o.flip (o.store w n) = beBytes w n := by
  cases o <;> rfl

theorem load_flip (o : ByteOrder) (bs : List UInt8) : o.load (o.flip bs) = ofBeBytes bs := by
  cases o <;> rfl

/-- The first `k` words of `w` bytes of a block, each one flipped. -/
def flipWords (o : ByteOrder) (w : Nat) : Nat → List UInt8 → List UInt8
  | 0, _ => []
  | k + 1, m => o.flip (m.take w) ++ flipWords o w k (m.drop w)

theorem length_flipWords (o : ByteOrder) (w : Nat) :
    ∀ (k : Nat) (m : List UInt8), w * k ≤ m.length → (o.flipWords w k m).length = w * k := by
  intro k
  induction k with
  | zero => intro m _; simp [flipWords]
  | succ k ih =>
    intro m hm
    rw [Nat.mul_succ] at hm
    have htail := ih (m.drop w) (by simp; omega)
    simp only [flipWords, List.length_append, length_flip, List.length_take, htail]
    rw [Nat.mul_succ]
    omega

theorem flipWords_append (o : ByteOrder) (w : Nat) :
    ∀ (k : Nat) (m r : List UInt8), w * k ≤ m.length →
      o.flipWords w k (m ++ r) = o.flipWords w k m := by
  intro k
  induction k with
  | zero => intro m r _; rfl
  | succ k ih =>
    intro m r hm
    rw [Nat.mul_succ] at hm
    have hw : w ≤ m.length := by omega
    simp only [flipWords, List.take_append_of_le_length hw, List.drop_append_of_le_length hw]
    rw [ih _ _ (by simp; omega)]

/-- **Flipping a block twice gives it back.** -/
theorem flipWords_flipWords (o : ByteOrder) (w : Nat) :
    ∀ (k : Nat) (m : List UInt8), w * k ≤ m.length →
      o.flipWords w k (o.flipWords w k m) = m.take (w * k) := by
  intro k
  induction k with
  | zero => intro m _; simp [flipWords]
  | succ k ih =>
    intro m hm
    rw [Nat.mul_succ] at hm
    have hw : w ≤ m.length := by omega
    have hhead : (o.flip (m.take w)).length = w := by simp [hw]
    have htail := ih (m.drop w) (by simp; omega)
    rw [flipWords, flipWords, List.take_left' hhead, List.drop_left' hhead, flip_flip, htail,
      Nat.mul_succ, Nat.add_comm (w * k) w, List.take_add]

/-- The numbers the first `k` words of a block spell. -/
def loadWords (o : ByteOrder) (w : Nat) : Nat → List UInt8 → List Nat
  | 0, _ => []
  | k + 1, m => o.load (m.take w) :: loadWords o w k (m.drop w)

theorem loadWords_flipWords (o : ByteOrder) (w : Nat) :
    ∀ (k : Nat) (m r : List UInt8), w * k ≤ m.length →
      o.loadWords w k (o.flipWords w k m ++ r) = big.loadWords w k m := by
  intro k
  induction k with
  | zero => intro m r _; rfl
  | succ k ih =>
    intro m r hm
    rw [Nat.mul_succ] at hm
    have hw : w ≤ m.length := by omega
    have hhead : (o.flip (m.take w)).length = w := by simp [hw]
    have htail := ih (m.drop w) r (by simp; omega)
    rw [flipWords, List.append_assoc, loadWords, List.take_left' hhead, List.drop_left' hhead,
      load_flip, htail]
    rfl

/-- The words of a host are those of their wire image. -/
theorem big_loadWords_flipWords (o : ByteOrder) (w k : Nat) {m : List UInt8}
    (hm : w * k ≤ m.length) : big.loadWords w k (o.flipWords w k m) = o.loadWords w k m := by
  have hwire := o.loadWords_flipWords w k (o.flipWords w k m) (m.drop (w * k))
    (by rw [o.length_flipWords w k m hm])
  rw [o.flipWords_flipWords w k m hm, List.take_append_drop] at hwire
  exact hwire.symm

theorem length_loadWords (o : ByteOrder) (w k : Nat) (m : List UInt8) :
    (o.loadWords w k m).length = k := by
  induction k generalizing m with
  | zero => rfl
  | succ k ih => rw [loadWords, List.length_cons, ih]

theorem loadWords_add (o : ByteOrder) (w n k : Nat) (m : List UInt8) :
    o.loadWords w (n + k) m = o.loadWords w n m ++ o.loadWords w k (m.drop (w * n)) := by
  induction n generalizing m with
  | zero => simp [loadWords]
  | succ n ih =>
    rw [Nat.succ_add, loadWords, ih, loadWords, List.cons_append, List.drop_drop, Nat.mul_succ,
      Nat.add_comm w]

/-- The wire image of a block spells its words. -/
theorem flipWords_eq_flatMap (o : ByteOrder) (w : Nat) :
    ∀ (k : Nat) (m : List UInt8), w * k ≤ m.length →
      o.flipWords w k m = (o.loadWords w k m).flatMap (beBytes w) := by
  intro k
  induction k with
  | zero => intro m _; rfl
  | succ k ih =>
    intro m hm
    rw [Nat.mul_succ] at hm
    have hword : (m.take w).length = w := by
      rw [List.length_take]
      omega
    have hhead : o.flip (m.take w) = beBytes w (o.load (m.take w)) := by
      have hstore := o.store_load (m.take w)
      rw [hword] at hstore
      rw [← o.flip_store, hstore]
    rw [flipWords, loadWords, List.flatMap_cons, hhead, ih _ (by rw [List.length_drop]; omega)]

end ByteOrder

/-! ### One block on two hosts -/

/-- Blocks of one length that hold the same words of `w` bytes, each in its own host's order. -/
structure SameWords (o o' : ByteOrder) (w : Nat) (m m' : List UInt8) : Prop where
  length_eq : m'.length = m.length
  words : o'.loadWords w (m.length / w) m' = o.loadWords w (m.length / w) m

namespace SameWords

variable {o o' : ByteOrder} {w n : Nat} {m m' bs : List UInt8}

/-- The first words and those behind them are the same. -/
theorem split (h : SameWords o o' w m m') (hw : 0 < w) (hn : w * n ≤ m.length) :
    o'.loadWords w n m' = o.loadWords w n m ∧
      o'.loadWords w (m.length / w - n) (m'.drop (w * n)) =
        o.loadWords w (m.length / w - n) (m.drop (w * n)) := by
  have hle : n ≤ m.length / w := (Nat.le_div_iff_mul_le hw).mpr (by rwa [Nat.mul_comm])
  have hwords := h.words
  rw [show m.length / w = n + (m.length / w - n) by omega, ByteOrder.loadWords_add,
    ByteOrder.loadWords_add] at hwords
  exact List.append_inj hwords (by rw [ByteOrder.length_loadWords, ByteOrder.length_loadWords])

/-- The same words have the same wire image. -/
theorem flipWords (h : SameWords o o' w m m') (hw : 0 < w) (hn : w * n ≤ m.length) :
    o'.flipWords w n m' = o.flipWords w n m := by
  rw [o'.flipWords_eq_flatMap _ _ _ (by rw [h.length_eq]; exact hn), (h.split hw hn).1,
    o.flipWords_eq_flatMap _ _ _ hn]

/-- Words read from one wire image into the front of both blocks. -/
theorem overwrite (h : SameWords o o' w m m') (hw : 0 < w) (hn : w * n ≤ m.length)
    (hbs : w * n ≤ bs.length) :
    SameWords o o' w (o.flipWords w n bs ++ m.drop (w * n))
      (o'.flipWords w n bs ++ m'.drop (w * n)) := by
  have hlen := o.length_flipWords w n bs hbs
  have hlen' := o'.length_flipWords w n bs hbs
  have hle : n ≤ m.length / w := (Nat.le_div_iff_mul_le hw).mpr (by rwa [Nat.mul_comm])
  have htotal : (o.flipWords w n bs ++ m.drop (w * n)).length = m.length := by
    rw [List.length_append, List.length_drop, hlen]
    omega
  constructor
  · rw [htotal, List.length_append, List.length_drop, hlen', h.length_eq]
    omega
  · rw [htotal, show m.length / w = n + (m.length / w - n) by omega, ByteOrder.loadWords_add,
      ByteOrder.loadWords_add, List.drop_left' hlen, List.drop_left' hlen',
      ByteOrder.loadWords_flipWords _ _ _ _ _ hbs, ByteOrder.loadWords_flipWords _ _ _ _ _ hbs,
      (h.split hw hn).2]

end SameWords

end Librtaio.Bytes

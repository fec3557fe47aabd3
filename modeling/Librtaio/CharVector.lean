import Librtaio.Streams

/-!
# Byte vectors

The buffers of the server and of the client are `std::vector<char>`s that are
resized to a peer's `int` and written through pointers to their elements.
-/

namespace Librtaio

/-- `std::vector<char>`: its allocated storage and its size. -/
@[ext] structure CharVector where
  storage : List UInt8
  size : Nat
  size_le : size ≤ storage.length
deriving DecidableEq

namespace CharVector

def empty : CharVector := ⟨[], 0, le_refl _⟩

def clear (v : CharVector) : CharVector := ⟨v.storage, 0, Nat.zero_le _⟩

/-- `resize` of an `int`: a negative one is a `size_t` beyond `max_size`. New elements are
zero; they go into the storage there is, or into a new one of the size asked for. -/
def resize (v : CharVector) (n : Int) : Except Exit CharVector :=
  if n < 0 then .error .exception
  else .ok ⟨v.storage.take (min v.size n.toNat) ++ List.replicate (n.toNat - v.size) 0 ++
      v.storage.drop n.toNat, n.toNat, by
    have h := v.size_le
    simp only [List.length_append, List.length_take, List.length_replicate, List.length_drop]
    omega⟩

/-- The socket's store of the bytes it received at `&v[offset]`. -/
def store (v : CharVector) (offset : Nat) (bs : List UInt8) : Except Fault CharVector :=
  if h : offset + bs.length ≤ v.storage.length then
    .ok ⟨v.storage.take offset ++ bs ++ v.storage.drop (offset + bs.length), v.size, by
      have hsize := v.size_le
      simp only [List.length_append, List.length_take, List.length_drop]
      omega⟩
  else .error .outOfBounds

theorem resize_neg {v : CharVector} {n : Int} (h : n < 0) : v.resize n = .error .exception :=
  if_pos h

/-- A cleared buffer takes its new size, over the storage it has if that is enough. -/
theorem resize_clear (v : CharVector) {n : Int} (h : 0 ≤ n) :
    ∃ w, v.clear.resize n = .ok w ∧ (w.size : Int) = n ∧
      v.storage.length ≤ w.storage.length := by
  refine ⟨_, if_neg (by omega), Int.toNat_of_nonneg h, ?_⟩
  simp only [clear, List.length_append, List.length_take, List.length_replicate, List.length_drop]
  omega

theorem store_fit (v : CharVector) (offset : Nat) (bs : List UInt8)
    (h : offset + bs.length ≤ v.storage.length) :
    ∃ w, v.store offset bs = .ok w ∧ w.size = v.size ∧
      w.storage = v.storage.take offset ++ bs ++ v.storage.drop (offset + bs.length) ∧
      w.storage.length = v.storage.length := by
  refine ⟨_, dif_pos h, rfl, rfl, ?_⟩
  simp only [List.length_append, List.length_take, List.length_drop]
  omega

end CharVector

end Librtaio

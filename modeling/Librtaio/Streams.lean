import Librtaio.FloatCast
import Librtaio.NetStream

/-!
# Buffer streams (`common/io_streambuf.h`, `input_stream.cpp`, `output_stream.cpp`)

A stream buffer is a fixed block of bytes and a position in it, here the bytes
before the position and the bytes after it. Running off the end calls
`overflow` or `underflow`, which execute `assert(0)`: with assertions the
process aborts, without them `overflow` returns its argument (so the byte
counts as written and is stored nowhere) and `underflow` returns `EOF` (so the
read comes up short and the stream fails).

Words go through a native variable, so both streams take and give the bytes a
host has in memory; the lemmas at the end state them in network order.
-/

namespace Librtaio

open Bytes FloatCast

/-- Ways a call does not return. -/
inductive Fault where
  | assertion      -- `assert(0)`: the process aborts
  | signedOverflow -- signed integer overflow: undefined behaviour
  | outOfBounds    -- an access outside the object: undefined behaviour
deriving DecidableEq, Repr

/-- Ways a handler or a client call does not return. -/
inductive Exit where
  | exception             -- an exception leaves it
  | fault (fault : Fault)
deriving DecidableEq, Repr

/-- Run a computation that can only fault. -/
def orFault {α : Type} : Except Fault α → Except Exit α
  | .ok a => .ok a
  | .error fault => .error (.fault fault)

@[simp] theorem orFault_ok {α : Type} (a : α) : orFault (.ok a) = .ok a := rfl

@[simp] theorem orFault_error {α : Type} (fault : Fault) :
    orFault (.error fault : Except Fault α) = .error (.fault fault) := rfl

@[simp] theorem ok_bind {ε α β : Type} (a : α) (f : α → Except ε β) :
    (Except.ok a >>= f) = f a := rfl

@[simp] theorem error_bind {ε α β : Type} (e : ε) (f : α → Except ε β) :
    ((Except.error e : Except ε α) >>= f) = .error e := rfl

/-- `EOF` as a stream buffer returns it. -/
def eof : Int := -1

/-! ### Output -/

/-- An `output_stream` over its `ostreambuf`. -/
structure OutputStream where
  /-- The bytes before the put pointer. -/
  written : List UInt8
  room : List UInt8
  bad : Bool
deriving DecidableEq, Repr

namespace OutputStream

def ofBuffer (buffer : List UInt8) : OutputStream := ⟨[], buffer, false⟩

/-- The whole buffer, as the program finds it after the writes. -/
def buffer (s : OutputStream) : List UInt8 := s.written ++ s.room

def overflow (T : Target) (ch : Int) : Except Fault Int :=
  if T.ndebug then .ok ch else .error .assertion

/-- `xsputn` once the buffer is full: one `overflow` for each byte. -/
def overflowAll (T : Target) : List UInt8 → Except Fault Nat
  | [] => .ok 0
  | b :: bs => do
    let ch ← overflow T b.toNat
    if ch = eof then .ok 0
    else do
      let n ← overflowAll T bs
      .ok (n + 1)

/-- `streambuf::xsputn`, with the number of bytes it counts as written. -/
def xsputn (T : Target) (s : OutputStream) (bs : List UInt8) : Except Fault (Nat × OutputStream) := do
  let copied := bs.take s.room.length
  let n ← overflowAll T (bs.drop s.room.length)
  .ok (copied.length + n, { s with written := s.written ++ copied, room := s.room.drop bs.length })

/-- `ostream::write`, with the stream's state as a truth value. -/
def write (T : Target) (s : OutputStream) (bs : List UInt8) : Except Fault (Bool × OutputStream) :=
  if s.bad then .ok (false, s)
  else do
    let (n, s) ← s.xsputn T bs
    let s := if n = bs.length then s else { s with bad := true }
    .ok (!s.bad, s)

/-- Write a word from a native variable, swapped on a little-endian host. -/
def writeWord (T : Target) (w : Nat) (swap : BitVec (8 * w) → BitVec (8 * w)) (s : OutputStream)
    (x : BitVec (8 * w)) : Except Fault (Bool × OutputStream) :=
  s.write T (T.order.store w (if isLittleEndian T.order then swap x else x).toNat)

def write1 (T : Target) (s : OutputStream) (x : BitVec 8) := writeWord T 1 id s x
def write2 (T : Target) (s : OutputStream) (x : BitVec 16) := writeWord T 2 (swap2 T.order) s x
def write4 (T : Target) (s : OutputStream) (x : BitVec 32) := writeWord T 4 (swap4 T.order) s x
def write8 (T : Target) (s : OutputStream) (x : BitVec 64) := writeWord T 8 (swap8 T.order) s x

def writeByte (T : Target) (s : OutputStream) (b : BitVec 8) := s.write1 T b
def writeChar (T : Target) (s : OutputStream) (c : BitVec 8) := s.write1 T c
def writeUchar (T : Target) (s : OutputStream) (c : BitVec 8) := s.write1 T c
def writeShort (T : Target) (s : OutputStream) (i : BitVec 16) := s.write2 T i
def writeUshort (T : Target) (s : OutputStream) (i : BitVec 16) := s.write2 T i
def writeLong (T : Target) (s : OutputStream) (i : BitVec 32) := s.write4 T i
def writeUlong (T : Target) (s : OutputStream) (i : BitVec 32) := s.write4 T i
def writeLlong (T : Target) (s : OutputStream) (i : BitVec 64) := s.write8 T i
def writeUllong (T : Target) (s : OutputStream) (i : BitVec 64) := s.write8 T i

/-- The value is cast to an integer, not its bits. -/
def writeFloat (T : Target) (s : OutputStream) (i : BitVec 32) :=
  s.write4 T (floatToUnsigned (T.undefULong i) i)

/-- The value is cast to an integer, not its bits. -/
def writeDouble (T : Target) (s : OutputStream) (i : BitVec 64) :=
  s.write8 T (doubleToUnsigned (T.undefULongLong i) i)

/-- The loop of `write_array`: `count` words from memory, with the number of
words that were written. -/
def writeLoop (o : ByteOrder) (w : Nat)
    (put : OutputStream → BitVec (8 * w) → Except Fault (Bool × OutputStream)) :
    Nat → List UInt8 → OutputStream → Except Fault (Nat × OutputStream)
  | 0, _, s => .ok (0, s)
  | count + 1, x, s =>
    if x.length < w then .error .outOfBounds
    else do
      let (ret, s) ← put s (BitVec.ofNat (8 * w) (o.load (x.take w)))
      let (n, s) ← writeLoop o w put count (x.drop w) s
      .ok (if ret then n + 1 else n, s)

def writeArray (T : Target) (s : OutputStream) (x : List UInt8) (size count : Nat) :
    Except Fault (Bool × OutputStream) := do
  let (retCount, s) ← match size with
    | 1 => writeLoop T.order 1 (fun s p => s.write1 T p) count x s
    | 2 => writeLoop T.order 2 (fun s p => s.write2 T p) count x s
    | 4 => writeLoop T.order 4 (fun s p => s.write4 T p) count x s
    | 8 => writeLoop T.order 8 (fun s p => s.write8 T p) count x s
    | _ => .ok (0, s)
  .ok (retCount == count, s)

def writeByteArray (T : Target) (s : OutputStream) (x : List UInt8) (length : Nat) :=
  s.writeArray T x 1 length
def writeCharArray (T : Target) (s : OutputStream) (x : List UInt8) (length : Nat) :=
  s.writeArray T x 1 length
def writeUcharArray (T : Target) (s : OutputStream) (x : List UInt8) (length : Nat) :=
  s.writeArray T x 1 length
def writeShortArray (T : Target) (s : OutputStream) (x : List UInt8) (length : Nat) :=
  s.writeArray T x 2 length
def writeUshortArray (T : Target) (s : OutputStream) (x : List UInt8) (length : Nat) :=
  s.writeArray T x 2 length
def writeLongArray (T : Target) (s : OutputStream) (x : List UInt8) (length : Nat) :=
  s.writeArray T x 4 length
/-- The element width is 4, as in `write_long_array`. -/
def writeLlongArray (T : Target) (s : OutputStream) (x : List UInt8) (length : Nat) :=
  s.writeArray T x 4 length
def writeUllongArray (T : Target) (s : OutputStream) (x : List UInt8) (length : Nat) :=
  s.writeArray T x 8 length
def writeFloatArray (T : Target) (s : OutputStream) (x : List UInt8) (length : Nat) :=
  s.writeArray T x 4 length
def writeDoubleArray (T : Target) (s : OutputStream) (x : List UInt8) (length : Nat) :=
  s.writeArray T x 8 length

end OutputStream

/-! ### Input -/

/-- An `input_stream` over its `istreambuf`. -/
structure InputStream where
  /-- The bytes before the get pointer. -/
  consumed : List UInt8
  rest : List UInt8
  /-- How far the buffer's window reaches past the end of the memory it is set on. -/
  beyond : Nat
  good : Bool
deriving DecidableEq, Repr

namespace InputStream

/-- A stream over the first `len` bytes of a block of memory. -/
def ofBuffer (memory : List UInt8) (len : Nat) : InputStream :=
  ⟨[], memory.take len, len - memory.length, true⟩

theorem ofBuffer_inj {memory : List UInt8} {m n : Nat} :
    ofBuffer memory m = ofBuffer memory n ↔ m = n := by
  refine ⟨fun h => ?_, fun h => h ▸ rfl⟩
  have hrest := congrArg (fun s => s.rest.length) h
  have hbeyond := congrArg beyond h
  simp only [ofBuffer, List.length_take] at hrest hbeyond
  omega

def underflow (T : Target) : Except Fault Int :=
  if T.ndebug then .ok eof else .error .assertion

/-- The get pointer moved on by `n` bytes. -/
def advance (s : InputStream) (n : Nat) : InputStream :=
  { s with consumed := s.consumed ++ s.rest.take n, rest := s.rest.drop n }

/-- `streambuf::xsgetn` into the block `x`, with the number of bytes it got. -/
def xsgetn (T : Target) (s : InputStream) (x : List UInt8) (n : Nat) :
    Except Fault (Nat × List UInt8 × InputStream) :=
  let got := s.rest.take n
  if s.rest.length < n ∧ 0 < s.beyond then .error .outOfBounds
  else if x.length < got.length then .error .outOfBounds
  else if s.rest.length < n then do
    let _ ← underflow T
    .ok (got.length, got ++ x.drop got.length, s.advance n)
  else .ok (n, got ++ x.drop n, s.advance n)

/-- `istream::read`, with the stream's state as a truth value. -/
def read (T : Target) (s : InputStream) (x : List UInt8) (n : Int) :
    Except Fault (Bool × List UInt8 × InputStream) :=
  if !s.good then .ok (false, x, s)
  else if n < 0 then .ok (false, x, { s with good := false })
  else do
    let (got, x, s) ← s.xsgetn T x n.toNat
    let s := if got = n.toNat then s else { s with good := false }
    .ok (s.good, x, s)

/-- Read a word into a native variable, swapped on a little-endian host. -/
def readWord (T : Target) (w : Nat) (swap : BitVec (8 * w) → BitVec (8 * w)) (s : InputStream)
    (x : BitVec (8 * w)) : Except Fault (Bool × BitVec (8 * w) × InputStream) := do
  let (ret, tmp, s) ← s.read T (T.order.store w x.toNat) w
  let val := BitVec.ofNat (8 * w) (T.order.load tmp)
  .ok (ret, if ret && isLittleEndian T.order then swap val else val, s)

def read1 (T : Target) (s : InputStream) (x : BitVec 8) := readWord T 1 id s x
def read2 (T : Target) (s : InputStream) (x : BitVec 16) := readWord T 2 (swap2 T.order) s x
def read4 (T : Target) (s : InputStream) (x : BitVec 32) := readWord T 4 (swap4 T.order) s x
def read8 (T : Target) (s : InputStream) (x : BitVec 64) := readWord T 8 (swap8 T.order) s x

def readByte (T : Target) (s : InputStream) (b : BitVec 8) := s.read1 T b
def readChar (T : Target) (s : InputStream) (c : BitVec 8) := s.read1 T c
def readUchar (T : Target) (s : InputStream) (c : BitVec 8) := s.read1 T c
def readShort (T : Target) (s : InputStream) (i : BitVec 16) := s.read2 T i
def readUshort (T : Target) (s : InputStream) (i : BitVec 16) := s.read2 T i
def readLong (T : Target) (s : InputStream) (i : BitVec 32) := s.read4 T i
def readUlong (T : Target) (s : InputStream) (i : BitVec 32) := s.read4 T i
def readLlong (T : Target) (s : InputStream) (i : BitVec 64) := s.read8 T i
def readUllong (T : Target) (s : InputStream) (i : BitVec 64) := s.read8 T i
def readFloat (T : Target) (s : InputStream) (i : BitVec 32) := s.read4 T i
def readDouble (T : Target) (s : InputStream) (i : BitVec 64) := s.read8 T i

/-- The swapping loops of `read_array`: the first `count` words of memory. -/
def swapLoop (o : ByteOrder) (w : Nat) (swap : BitVec (8 * w) → BitVec (8 * w)) :
    Nat → List UInt8 → List UInt8
  | 0, x => x
  | count + 1, x =>
    o.store w (swap (BitVec.ofNat (8 * w) (o.load (x.take w)))).toNat ++
      swapLoop o w swap count (x.drop w)

/-- `read_array`; the byte count is a `size_t` that `read` takes as a signed size. -/
def readArray (T : Target) (s : InputStream) (x : List UInt8) (size count : Nat) :
    Except Fault (Bool × List UInt8 × InputStream) := do
  let bytes : BitVec 64 := BitVec.ofNat 64 (size * count)
  let (ret, x, s) ← s.read T x bytes.toInt
  if ret && isLittleEndian T.order then
    let x := match size with
      | 2 => swapLoop T.order 2 (swap2 T.order) count x
      | 4 => swapLoop T.order 4 (swap4 T.order) count x
      | 8 => swapLoop T.order 8 (swap8 T.order) count x
      | _ => x
    .ok (ret, x, s)
  else .ok (ret, x, s)

def readByteArray (T : Target) (s : InputStream) (x : List UInt8) (length : Nat) :=
  s.readArray T x 1 length
def readCharArray (T : Target) (s : InputStream) (x : List UInt8) (length : Nat) :=
  s.readArray T x 1 length
def readUcharArray (T : Target) (s : InputStream) (x : List UInt8) (length : Nat) :=
  s.readArray T x 1 length
def readShortArray (T : Target) (s : InputStream) (x : List UInt8) (length : Nat) :=
  s.readArray T x 2 length
def readUshortArray (T : Target) (s : InputStream) (x : List UInt8) (length : Nat) :=
  s.readArray T x 2 length
def readLongArray (T : Target) (s : InputStream) (x : List UInt8) (length : Nat) :=
  s.readArray T x 4 length
/-- The element width is 4, as in `read_long_array`. -/
def readLlongArray (T : Target) (s : InputStream) (x : List UInt8) (length : Nat) :=
  s.readArray T x 4 length
def readUllongArray (T : Target) (s : InputStream) (x : List UInt8) (length : Nat) :=
  s.readArray T x 8 length
def readFloatArray (T : Target) (s : InputStream) (x : List UInt8) (length : Nat) :=
  s.readArray T x 4 length
def readDoubleArray (T : Target) (s : InputStream) (x : List UInt8) (length : Nat) :=
  s.readArray T x 8 length

end InputStream

/-! ### Writing

In network order: what a write puts in the buffer, if it fits or if the build
drops what does not fit. -/

namespace OutputStream

def append (s : OutputStream) (bs : List UInt8) : OutputStream :=
  { s with written := s.written ++ bs, room := s.room.drop bs.length }

@[simp] theorem append_written (s : OutputStream) (bs : List UInt8) :
    (s.append bs).written = s.written ++ bs := rfl

@[simp] theorem append_room (s : OutputStream) (bs : List UInt8) :
    (s.append bs).room = s.room.drop bs.length := rfl

@[simp] theorem append_bad (s : OutputStream) (bs : List UInt8) : (s.append bs).bad = s.bad := rfl

@[simp] theorem append_nil (s : OutputStream) : s.append [] = s := by simp [append]

theorem append_append (s : OutputStream) (bs cs : List UInt8) :
    (s.append bs).append cs = s.append (bs ++ cs) := by
  simp [append]

/-- The bytes go into the buffer as far as there is room for them. -/
def store (s : OutputStream) (bs : List UInt8) : OutputStream :=
  { s with written := s.written ++ bs.take s.room.length, room := s.room.drop bs.length }

@[simp] theorem store_bad (s : OutputStream) (bs : List UInt8) : (s.store bs).bad = s.bad := rfl

@[simp] theorem store_nil (s : OutputStream) : s.store [] = s := by simp [store]

theorem store_eq_append {s : OutputStream} {bs : List UInt8} (hroom : bs.length ≤ s.room.length) :
    s.store bs = s.append bs := by
  rw [store, append, List.take_of_length_le hroom]

theorem store_store (s : OutputStream) (bs cs : List UInt8) :
    (s.store bs).store cs = s.store (bs ++ cs) := by
  simp [store, List.take_append]

/-- A write of `n` bytes returns: there is room for them, or no byte too many aborts. -/
def Takes (T : Target) (s : OutputStream) (n : Nat) : Prop := T.ndebug = true ∨ n ≤ s.room.length

section Store

variable {T : Target} {s : OutputStream} {bs : List UInt8} {m n : Nat}

theorem Takes.mono (h : s.Takes T n) (hle : m ≤ n) : s.Takes T m := h.imp_right hle.trans

/-- What is left of the room takes the bytes that are left. -/
theorem Takes.store (h : s.Takes T (bs.length + n)) : (s.store bs).Takes T n := by
  refine h.imp_right fun hroom => ?_
  simp only [OutputStream.store, List.length_drop]
  omega

theorem overflowAll_ndebug (hndebug : T.ndebug = true) (bs : List UInt8) :
    overflowAll T bs = .ok bs.length := by
  induction bs with
  | nil => rfl
  | cons b bs ih =>
    have hch : ¬ ((b.toNat : Int) = eof) := by simp only [eof]; omega
    simp [overflowAll, overflow, hndebug, hch, ih]

theorem write_store (hbad : s.bad = false) (htakes : s.Takes T bs.length) :
    s.write T bs = .ok (true, s.store bs) := by
  have hoverflow : overflowAll T (bs.drop s.room.length) = .ok (bs.drop s.room.length).length := by
    rcases htakes with hndebug | hroom
    · exact overflowAll_ndebug hndebug _
    · rw [List.drop_of_length_le hroom]
      rfl
  have hcount : (bs.take s.room.length).length + (bs.drop s.room.length).length = bs.length := by
    rw [← List.length_append, List.take_append_drop]
  simp only [write, hbad, Bool.false_eq_true, if_false, xsputn, hoverflow, ok_bind, hcount, if_true]
  rw [store, hbad, Bool.not_false]

theorem writeWord_store {w : Nat} {swap : BitVec (8 * w) → BitVec (8 * w)} (x : BitVec (8 * w))
    (hswap : IsSwap T.order w swap) (hbad : s.bad = false) (htakes : s.Takes T w) :
    writeWord T w swap s x = .ok (true, s.store (beBytes w x.toNat)) := by
  rw [writeWord, hswap.store_out]
  exact write_store hbad (by simpa using htakes)

theorem write1_store (x : BitVec 8) (hbad : s.bad = false) (htakes : s.Takes T 1) :
    s.write1 T x = .ok (true, s.store (beBytes 1 x.toNat)) :=
  writeWord_store (w := 1) x (isSwap_id T.order) hbad htakes

theorem write2_store (x : BitVec 16) (hbad : s.bad = false) (htakes : s.Takes T 2) :
    s.write2 T x = .ok (true, s.store (beBytes 2 x.toNat)) :=
  writeWord_store (w := 2) x (swap2_isSwap T.order) hbad htakes

theorem write4_store (x : BitVec 32) (hbad : s.bad = false) (htakes : s.Takes T 4) :
    s.write4 T x = .ok (true, s.store (beBytes 4 x.toNat)) :=
  writeWord_store (w := 4) x (swap4_isSwap T.order) hbad htakes

theorem write8_store (x : BitVec 64) (hbad : s.bad = false) (htakes : s.Takes T 8) :
    s.write8 T x = .ok (true, s.store (beBytes 8 x.toNat)) :=
  writeWord_store (w := 8) x (swap8_isSwap T.order) hbad htakes

end Store

section Loop

variable {T : Target} {w : Nat}
  {put : OutputStream → BitVec (8 * w) → Except Fault (Bool × OutputStream)}

theorem writeLoop_store (hput : ∀ s x, s.bad = false → s.Takes T w →
      put s x = .ok (true, s.store (beBytes w x.toNat))) :
    ∀ (count : Nat) (x : List UInt8) (s : OutputStream), s.bad = false →
      w * count ≤ x.length → s.Takes T (w * count) →
      writeLoop T.order w put count x s = .ok (count, s.store (T.order.flipWords w count x)) := by
  intro count
  induction count with
  | zero => intro x s _ _ _; simp [writeLoop, ByteOrder.flipWords]
  | succ count ih =>
    intro x s hbad hx htakes
    rw [Nat.mul_succ] at hx htakes
    have hword : (x.take w).length = w := by simp; omega
    have hhead : beBytes w (BitVec.ofNat (8 * w) (T.order.load (x.take w))).toNat =
        T.order.flip (x.take w) := by
      rw [← T.order.flip_store, store_toNat_load T.order hword]
    have hflip : (T.order.flip (x.take w)).length = w := by simp [hword]
    have htail := ih (x.drop w) (s.store (T.order.flip (x.take w))) hbad (by simp; omega)
      (Takes.store (htakes.mono (by omega)))
    rw [writeLoop, if_neg (by omega), hput s _ hbad (htakes.mono (by omega)), ok_bind, hhead]
    simp only [htail, ok_bind, store_store, ByteOrder.flipWords, if_true]

/-- A loop over more elements than the memory has runs past its end, if it gets there. -/
theorem writeLoop_outside (o : ByteOrder) :
    ∀ (count : Nat) (x : List UInt8) (s : OutputStream), x.length < w * count →
      ∃ fault, writeLoop o w put count x s = .error fault := by
  intro count
  induction count with
  | zero => intro x s hx; omega
  | succ count ih =>
    intro x s hx
    rw [Nat.mul_succ] at hx
    by_cases hword : x.length < w
    · exact ⟨.outOfBounds, by rw [writeLoop, if_pos hword]⟩
    · cases hwrite : put s (BitVec.ofNat (8 * w) (o.load (x.take w))) with
      | error fault => exact ⟨fault, by rw [writeLoop, if_neg hword, hwrite, error_bind]⟩
      | ok written =>
        obtain ⟨fault, htail⟩ := ih (x.drop w) written.2 (by simp; omega)
        refine ⟨fault, ?_⟩
        rw [writeLoop, if_neg hword, hwrite, ok_bind]
        simp only [htail, error_bind]

end Loop

/-- The element widths the array functions use. -/
def WordSize (size : Nat) : Prop := size = 1 ∨ size = 2 ∨ size = 4 ∨ size = 8

section Arrays

variable {T : Target} {s : OutputStream} {x : List UInt8} {size count : Nat}

theorem writeArray_store (hsize : WordSize size) (hbad : s.bad = false)
    (hx : size * count ≤ x.length) (htakes : s.Takes T (size * count)) :
    s.writeArray T x size count = .ok (true, s.store (T.order.flipWords size count x)) := by
  rcases hsize with rfl | rfl | rfl | rfl
  · have hloop := @writeLoop_store T 1 (fun s p => s.write1 T p) (fun _ p => write1_store p)
      count x s hbad hx htakes
    simp only [writeArray, hloop, ok_bind, BEq.rfl]
  · have hloop := @writeLoop_store T 2 (fun s p => s.write2 T p) (fun _ p => write2_store p)
      count x s hbad hx htakes
    simp only [writeArray, hloop, ok_bind, BEq.rfl]
  · have hloop := @writeLoop_store T 4 (fun s p => s.write4 T p) (fun _ p => write4_store p)
      count x s hbad hx htakes
    simp only [writeArray, hloop, ok_bind, BEq.rfl]
  · have hloop := @writeLoop_store T 8 (fun s p => s.write8 T p) (fun _ p => write8_store p)
      count x s hbad hx htakes
    simp only [writeArray, hloop, ok_bind, BEq.rfl]

theorem writeArray_outside (hsize : WordSize size) (hx : x.length < size * count) :
    ∃ fault, s.writeArray T x size count = .error fault := by
  rcases hsize with rfl | rfl | rfl | rfl
  · obtain ⟨fault, hloop⟩ := @writeLoop_outside 1 (fun s p => s.write1 T p) T.order count x s hx
    exact ⟨fault, by simp only [writeArray, hloop, error_bind]⟩
  · obtain ⟨fault, hloop⟩ := @writeLoop_outside 2 (fun s p => s.write2 T p) T.order count x s hx
    exact ⟨fault, by simp only [writeArray, hloop, error_bind]⟩
  · obtain ⟨fault, hloop⟩ := @writeLoop_outside 4 (fun s p => s.write4 T p) T.order count x s hx
    exact ⟨fault, by simp only [writeArray, hloop, error_bind]⟩
  · obtain ⟨fault, hloop⟩ := @writeLoop_outside 8 (fun s p => s.write8 T p) T.order count x s hx
    exact ⟨fault, by simp only [writeArray, hloop, error_bind]⟩

end Arrays

end OutputStream

/-! ### Reading within the buffer -/

namespace InputStream

@[simp] theorem advance_rest (s : InputStream) (n : Nat) : (s.advance n).rest = s.rest.drop n := rfl

@[simp] theorem advance_consumed (s : InputStream) (n : Nat) :
    (s.advance n).consumed = s.consumed ++ s.rest.take n := rfl

@[simp] theorem advance_good (s : InputStream) (n : Nat) : (s.advance n).good = s.good := rfl

@[simp] theorem advance_beyond (s : InputStream) (n : Nat) : (s.advance n).beyond = s.beyond := rfl

theorem read_fit {T : Target} {s : InputStream} {x : List UInt8} {n : Nat} (hgood : s.good = true)
    (hrest : n ≤ s.rest.length) (hx : n ≤ x.length) :
    s.read T x n = .ok (true, s.rest.take n ++ x.drop n, s.advance n) := by
  have hgot : (s.rest.take n).length = n := by simp [hrest]
  have hneg : ¬ ((n : Int) < 0) := by omega
  have hshort : ¬ s.rest.length < n := by omega
  simp [read, xsgetn, hgood, hneg, hgot, hshort, Nat.not_lt.mpr hx]

/-- With assertions, a read of more than is left does not return: it runs past the
destination, or it aborts. -/
theorem read_short {T : Target} {s : InputStream} {x : List UInt8} {n : Nat}
    (hdebug : T.ndebug = false) (hgood : s.good = true) (hbeyond : s.beyond = 0)
    (hrest : s.rest.length < n) :
    s.read T x n = .error (if x.length < s.rest.length then .outOfBounds else .assertion) := by
  have hneg : ¬ ((n : Int) < 0) := by omega
  have hgot : (s.rest.take n).length = s.rest.length := by simp; omega
  by_cases hx : x.length < s.rest.length
  · simp [read, xsgetn, hgood, hneg, hbeyond, hgot, hx]
  · simp [read, xsgetn, hgood, hneg, hbeyond, hgot, hrest, hx, underflow, hdebug]

theorem read_overrun {T : Target} {s : InputStream} {x : List UInt8} {n : Nat}
    (hgood : s.good = true) (hrest : n ≤ s.rest.length) (hx : x.length < n) :
    s.read T x n = .error .outOfBounds := by
  have hneg : ¬ ((n : Int) < 0) := by omega
  have hgot : (s.rest.take n).length = n := by simp [hrest]
  have hshort : ¬ s.rest.length < n := by omega
  simp [read, xsgetn, hgood, hneg, hgot, hshort, hx]

section Words

variable {T : Target} {w : Nat} {swap : BitVec (8 * w) → BitVec (8 * w)} {s : InputStream}

theorem readWord_fit (x : BitVec (8 * w)) (hswap : IsSwap T.order w swap) (hgood : s.good = true)
    (hrest : w ≤ s.rest.length) :
    readWord T w swap s x =
      .ok (true, BitVec.ofNat (8 * w) (ofBeBytes (s.rest.take w)), s.advance w) := by
  have hlen : (s.rest.take w).length = w := by simp [hrest]
  have htmp : s.rest.take w ++ (T.order.store w x.toNat).drop w = s.rest.take w := by
    rw [List.drop_of_length_le (by simp), List.append_nil]
  have hval := hswap.load_in hlen
  rw [readWord, read_fit hgood hrest (by simp), ok_bind]
  simp only [htmp, Bool.true_and]
  congr 3
  apply BitVec.eq_of_toNat_eq
  rw [hval, BitVec.toNat_ofNat, Nat.mod_eq_of_lt]
  have hlt := ofBeBytes_lt (s.rest.take w)
  rwa [hlen, pow_256_eq] at hlt

theorem readWord_short (x : BitVec (8 * w)) (hdebug : T.ndebug = false) (hgood : s.good = true)
    (hbeyond : s.beyond = 0) (hrest : s.rest.length < w) :
    readWord T w swap s x = .error .assertion := by
  rw [readWord, read_short hdebug hgood hbeyond hrest, error_bind,
    if_neg (by simpa using Nat.le_of_lt hrest)]

end Words

theorem swapLoop_eq {w : Nat} {swap : BitVec (8 * w) → BitVec (8 * w)}
    (hswap : IsSwap .little w swap) :
    ∀ (count : Nat) (x : List UInt8), w * count ≤ x.length →
      swapLoop .little w swap count x =
        ByteOrder.flipWords .little w count x ++ x.drop (w * count) := by
  intro count
  induction count with
  | zero => intro x _; simp [swapLoop, ByteOrder.flipWords]
  | succ count ih =>
    intro x hx
    rw [Nat.mul_succ] at hx
    have hword : (x.take w).length = w := by simp; omega
    have hhead := hswap.store_in hword
    simp only [isLittleEndian_little, if_true] at hhead
    have htail := ih (x.drop w) (by simp; omega)
    rw [swapLoop, hhead, htail, ByteOrder.flipWords, List.append_assoc, List.drop_drop,
      Nat.mul_succ, Nat.add_comm w]

theorem flipWords_big (w : Nat) :
    ∀ (count : Nat) (x : List UInt8), w * count ≤ x.length →
      ByteOrder.flipWords .big w count x = x.take (w * count) := by
  intro count
  induction count with
  | zero => intro x _; simp [ByteOrder.flipWords]
  | succ count ih =>
    intro x hx
    rw [Nat.mul_succ] at hx
    rw [ByteOrder.flipWords, ih _ (by simp; omega), ByteOrder.flip, Nat.mul_succ,
      Nat.add_comm (w * count), List.take_add]

theorem flipWords_one (o : ByteOrder) :
    ∀ (count : Nat) (x : List UInt8), count ≤ x.length → o.flipWords 1 count x = x.take count := by
  intro count
  induction count with
  | zero => intro x _; simp [ByteOrder.flipWords]
  | succ count ih =>
    intro x hx
    cases x with
    | nil => simp at hx
    | cons b x =>
      have htail := ih x (by simpa using hx)
      cases o <;> simp [ByteOrder.flipWords, ByteOrder.flip, htail]

section Arrays

variable {T : Target} {s : InputStream} {x : List UInt8} {size count : Nat}

theorem toInt_bytes (hbytes : size * count < 2 ^ 63) :
    (BitVec.ofNat 64 (size * count)).toInt = ((size * count : Nat) : Int) := by
  have hlt : size * count < 2 ^ 64 := by omega
  rw [BitVec.toInt_eq_toNat_of_lt] <;> rw [BitVec.toNat_ofNat, Nat.mod_eq_of_lt hlt]
  omega

theorem readArray_fit (hsize : OutputStream.WordSize size) (hbytes : size * count < 2 ^ 63)
    (hgood : s.good = true) (hrest : size * count ≤ s.rest.length) (hx : size * count ≤ x.length) :
    s.readArray T x size count =
      .ok (true, T.order.flipWords size count s.rest ++ x.drop (size * count),
        s.advance (size * count)) := by
  have hread := read_fit (T := T) hgood hrest hx
  have hlen : (s.rest.take (size * count)).length = size * count := by simp [hrest]
  -- the words that are swapped in place are the ones that were read
  have hflip : T.order.flipWords size count (s.rest.take (size * count)) =
      T.order.flipWords size count s.rest := by
    have happ := T.order.flipWords_append size count (s.rest.take (size * count))
      (s.rest.drop (size * count)) (by omega)
    rw [List.take_append_drop] at happ
    exact happ.symm
  have hloop {swap : BitVec (8 * size) → BitVec (8 * size)} (hswap : IsSwap .little size swap) :
      swapLoop .little size swap count (s.rest.take (size * count) ++ x.drop (size * count)) =
        ByteOrder.flipWords .little size count (s.rest.take (size * count)) ++
          x.drop (size * count) := by
    rw [swapLoop_eq hswap _ _ (by simp [hlen]),
      ByteOrder.flipWords_append _ _ _ _ _ (by omega), List.drop_left' hlen]
  simp only [readArray, toInt_bytes hbytes, hread, ok_bind, Bool.true_and]
  cases ho : T.order
  · rw [ho] at hflip
    rw [isLittleEndian_little, if_pos rfl]
    rcases hsize with rfl | rfl | rfl | rfl
    · rw [flipWords_one _ _ _ (by omega)]
      simp
    · simp only [hloop (swap2_isSwap .little), hflip]
    · simp only [hloop (swap4_isSwap .little), hflip]
    · simp only [hloop (swap8_isSwap .little), hflip]
  · rw [isLittleEndian_big, if_neg (by decide), flipWords_big _ _ _ hrest]

/-- With assertions, an array read returns only if its elements are left in the
stream and fit into the destination. -/
theorem readArray_error (hdebug : T.ndebug = false) (hbytes : size * count < 2 ^ 63)
    (hgood : s.good = true) (hbeyond : s.beyond = 0)
    (h : ¬ (size * count ≤ s.rest.length ∧ size * count ≤ x.length)) :
    ∃ fault, s.readArray T x size count = .error fault := by
  simp only [readArray, toInt_bytes hbytes]
  by_cases hrest : size * count ≤ s.rest.length
  · have hx : x.length < size * count := by omega
    exact ⟨_, by rw [read_overrun hgood hrest hx, error_bind]⟩
  · exact ⟨_, by rw [read_short hdebug hgood hbeyond (Nat.lt_of_not_le hrest), error_bind]⟩

end Arrays

end InputStream

end Librtaio

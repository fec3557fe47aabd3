import Librtaio.ShortBuffers
import Mathlib.Data.List.Forall2

/-!
# The typed streams (`src/common/output_stream.cpp`, `src/common/input_stream.cpp`)

Whatever is written with the functions of `output_stream`, one call after
another, the functions of `input_stream` read back on every host. Beyond the
end of a buffer the two classes differ: a write is not refused, and a read
that was refused refuses all that follow.
-/

namespace Librtaio

open Bytes FloatCast

/-- The types of `write_byte` to `write_double`. -/
inductive ScalarType where
  | byte | char | uchar | short | ushort | long | ulong | llong | ullong | float | double
deriving DecidableEq

/-- The types of `write_byte_array` to `write_double_array`. -/
inductive ArrayType where
  | byte | char | uchar | short | ushort | long | llong | ullong | float | double
deriving DecidableEq

namespace ScalarType

def width : ScalarType → Nat
  | byte | char | uchar => 1
  | short | ushort => 2
  | long | ulong | float => 4
  | llong | ullong | double => 8

/-- The bits that are written for those of a value. -/
def image (T : Target) : (ty : ScalarType) → BitVec (8 * ty.width) → BitVec (8 * ty.width)
  | float, i => floatToUnsigned (T.undefULong i) i
  | double, i => doubleToUnsigned (T.undefULongLong i) i
  | byte, i | char, i | uchar, i | short, i | ushort, i | long, i | ulong, i | llong, i
  | ullong, i => i

end ScalarType

/-- The element width that the array functions pass on; those of LONGLONG arrays pass that of a
LONG. -/
def ArrayType.width : ArrayType → Nat
  | byte | char | uchar => 1
  | short | ushort => 2
  | long | llong | float => 4
  | ullong | double => 8

/-- What a call is given: a variable, as its bits, or some memory and a number of elements. -/
inductive Operand where
  | scalar (ty : ScalarType) (i : BitVec (8 * ty.width))
  | array (ty : ArrayType) (x : List UInt8) (length : Nat)

namespace Operand

def size : Operand → Nat
  | scalar ty _ => ty.width
  | array ty _ length => ty.width * length

/-- The elements are in the memory. -/
def Valid : Operand → Prop
  | scalar _ _ => True
  | array ty x length => ty.width * length ≤ x.length ∧ x.length < 2 ^ 63

/-- The call of `output_stream` with the operand. -/
def write (T : Target) (s : OutputStream) : Operand → Except Fault (Bool × OutputStream)
  | scalar .byte b => s.writeByte T b
  | scalar .char c => s.writeChar T c
  | scalar .uchar c => s.writeUchar T c
  | scalar .short i => s.writeShort T i
  | scalar .ushort i => s.writeUshort T i
  | scalar .long i => s.writeLong T i
  | scalar .ulong i => s.writeUlong T i
  | scalar .llong i => s.writeLlong T i
  | scalar .ullong i => s.writeUllong T i
  | scalar .float i => s.writeFloat T i
  | scalar .double i => s.writeDouble T i
  | array .byte x length => s.writeByteArray T x length
  | array .char x length => s.writeCharArray T x length
  | array .uchar x length => s.writeUcharArray T x length
  | array .short x length => s.writeShortArray T x length
  | array .ushort x length => s.writeUshortArray T x length
  | array .long x length => s.writeLongArray T x length
  | array .llong x length => s.writeLlongArray T x length
  | array .ullong x length => s.writeUllongArray T x length
  | array .float x length => s.writeFloatArray T x length
  | array .double x length => s.writeDoubleArray T x length

/-- The variable after a read. -/
def ofScalar (ty : ScalarType) :
    Except Fault (Bool × BitVec (8 * ty.width) × InputStream) →
      Except Fault (Bool × Operand × InputStream)
  | .ok (ret, i, s) => .ok (ret, scalar ty i, s)
  | .error fault => .error fault

/-- The memory after a read. -/
def ofArray (ty : ArrayType) (length : Nat) :
    Except Fault (Bool × List UInt8 × InputStream) → Except Fault (Bool × Operand × InputStream)
  | .ok (ret, x, s) => .ok (ret, array ty x length, s)
  | .error fault => .error fault

/-- The call of `input_stream` into the operand. -/
def read (T : Target) (s : InputStream) : Operand → Except Fault (Bool × Operand × InputStream)
  | scalar .byte b => ofScalar .byte (s.readByte T b)
  | scalar .char c => ofScalar .char (s.readChar T c)
  | scalar .uchar c => ofScalar .uchar (s.readUchar T c)
  | scalar .short i => ofScalar .short (s.readShort T i)
  | scalar .ushort i => ofScalar .ushort (s.readUshort T i)
  | scalar .long i => ofScalar .long (s.readLong T i)
  | scalar .ulong i => ofScalar .ulong (s.readUlong T i)
  | scalar .llong i => ofScalar .llong (s.readLlong T i)
  | scalar .ullong i => ofScalar .ullong (s.readUllong T i)
  | scalar .float i => ofScalar .float (s.readFloat T i)
  | scalar .double i => ofScalar .double (s.readDouble T i)
  | array .byte x length => ofArray .byte length (s.readByteArray T x length)
  | array .char x length => ofArray .char length (s.readCharArray T x length)
  | array .uchar x length => ofArray .uchar length (s.readUcharArray T x length)
  | array .short x length => ofArray .short length (s.readShortArray T x length)
  | array .ushort x length => ofArray .ushort length (s.readUshortArray T x length)
  | array .long x length => ofArray .long length (s.readLongArray T x length)
  | array .llong x length => ofArray .llong length (s.readLlongArray T x length)
  | array .ullong x length => ofArray .ullong length (s.readUllongArray T x length)
  | array .float x length => ofArray .float length (s.readFloatArray T x length)
  | array .double x length => ofArray .double length (s.readDoubleArray T x length)

/-- One call after another, with what they return. -/
def writeAll (T : Target) : List Operand → OutputStream → Except Fault (List Bool × OutputStream)
  | [], s => .ok ([], s)
  | operand :: operands, s => do
    let (ret, s) ← operand.write T s
    let (rets, s) ← writeAll T operands s
    .ok (ret :: rets, s)

/-- One call after another, with what they return and what they read. -/
def readAll (T : Target) :
    List Operand → InputStream → Except Fault (List Bool × List Operand × InputStream)
  | [], s => .ok ([], [], s)
  | operand :: operands, s => do
    let (ret, operand, s) ← operand.read T s
    let (rets, operands, s) ← readAll T operands s
    .ok (ret :: rets, operand :: operands, s)

/-- What an operand is on the wire. -/
def wire (T : Target) : Operand → List UInt8
  | scalar ty i => beBytes ty.width (ty.image T i).toNat
  | array ty x length => T.order.flipWords ty.width length x

def wires (T : Target) (operands : List Operand) : List UInt8 := operands.flatMap (wire T)

def sizes (operands : List Operand) : Nat := (operands.map size).sum

@[simp] theorem wires_nil (T : Target) : wires T [] = [] := rfl

@[simp] theorem wires_cons (T : Target) (operand : Operand) (operands : List Operand) :
    wires T (operand :: operands) = operand.wire T ++ wires T operands := List.flatMap_cons

@[simp] theorem sizes_nil : sizes [] = 0 := rfl

@[simp] theorem sizes_cons (operand : Operand) (operands : List Operand) :
    sizes (operand :: operands) = operand.size + sizes operands := by
  simp [sizes]

theorem length_wire (T : Target) {operand : Operand} (h : operand.Valid) :
    (operand.wire T).length = operand.size := by
  cases operand with
  | scalar ty i => exact length_beBytes _ _
  | array ty x length => exact T.order.length_flipWords _ _ _ h.1

theorem length_wires (T : Target) {operands : List Operand}
    (h : ∀ operand ∈ operands, operand.Valid) :
    (wires T operands).length = sizes operands := by
  induction operands with
  | nil => rfl
  | cons operand operands ih =>
    rw [List.forall_mem_cons] at h
    rw [wires_cons, sizes_cons, List.length_append, length_wire T h.1, ih h.2]

end Operand

/-! ### Writing past the end -/

namespace OutputStream

variable {T : Target} {s : OutputStream}

/-- Of two writes of which both do not fit, the first one does, or not even that. -/
theorem not_takes_store {bs : List UInt8} {n : Nat} (htakes : s.Takes T bs.length)
    (hfull : ¬ s.Takes T (bs.length + n)) : ¬ (s.store bs).Takes T n := by
  rintro (hndebug | hroom)
  · exact hfull (.inl hndebug)
  · rcases htakes with hndebug | hfits
    · exact hfull (.inl hndebug)
    · simp only [store, List.length_drop] at hroom
      exact hfull (.inr (by omega))

/-- An assertion stops a write that does not fit. -/
theorem write_full {bs : List UInt8} (hbad : s.bad = false) (hfull : ¬ s.Takes T bs.length) :
    s.write T bs = .error .assertion := by
  simp only [Takes, not_or, Bool.not_eq_true, Nat.not_le] at hfull
  obtain ⟨hdebug, hroom⟩ := hfull
  obtain ⟨b, rest, hdrop⟩ : ∃ b rest, bs.drop s.room.length = b :: rest := by
    rcases hdrop : bs.drop s.room.length with _ | ⟨b, rest⟩
    · rw [List.drop_eq_nil_iff] at hdrop
      omega
    · exact ⟨b, rest, rfl⟩
  simp [write, xsputn, hbad, hdrop, overflowAll, overflow, hdebug]

theorem writeWord_full {w : Nat} {swap : BitVec (8 * w) → BitVec (8 * w)} (x : BitVec (8 * w))
    (hswap : IsSwap T.order w swap) (hbad : s.bad = false) (hfull : ¬ s.Takes T w) :
    writeWord T w swap s x = .error .assertion := by
  rw [writeWord, hswap.store_out]
  exact write_full hbad (by simpa using hfull)

/-- A word function: it stores the word, or an assertion stops it. -/
structure StoresWord (T : Target) (w : Nat)
    (put : OutputStream → BitVec (8 * w) → Except Fault (Bool × OutputStream)) : Prop where
  store : ∀ s x, s.bad = false → s.Takes T w → put s x = .ok (true, s.store (beBytes w x.toNat))
  full : ∀ s x, s.bad = false → ¬ s.Takes T w → put s x = .error .assertion

theorem storesWord {w : Nat} {swap : BitVec (8 * w) → BitVec (8 * w)}
    (hswap : IsSwap T.order w swap) : StoresWord T w (writeWord T w swap) where
  store := fun _ x hbad htakes => writeWord_store x hswap hbad htakes
  full := fun _ x hbad hfull => writeWord_full x hswap hbad hfull

theorem write1_storesWord (T : Target) : StoresWord T 1 (write1 T) :=
  storesWord (w := 1) (isSwap_id T.order)

theorem write2_storesWord (T : Target) : StoresWord T 2 (write2 T) :=
  storesWord (w := 2) (swap2_isSwap T.order)

theorem write4_storesWord (T : Target) : StoresWord T 4 (write4 T) :=
  storesWord (w := 4) (swap4_isSwap T.order)

theorem write8_storesWord (T : Target) : StoresWord T 8 (write8 T) :=
  storesWord (w := 8) (swap8_isSwap T.order)

theorem writeLoop_full {w : Nat}
    {put : OutputStream → BitVec (8 * w) → Except Fault (Bool × OutputStream)}
    (hput : StoresWord T w put) :
    ∀ (count : Nat) (x : List UInt8) (s : OutputStream), s.bad = false → w * count ≤ x.length →
      ¬ s.Takes T (w * count) → writeLoop T.order w put count x s = .error .assertion := by
  intro count
  induction count with
  | zero =>
    intro x s _ _ hfull
    exact absurd (.inr (Nat.zero_le _)) hfull
  | succ count ih =>
    intro x s hbad hx hfull
    rw [Nat.mul_succ, Nat.add_comm] at hx hfull
    have hword : ¬ x.length < w := by omega
    rw [writeLoop, if_neg hword]
    by_cases htakes : s.Takes T w
    · -- the element fits, and one behind it does not
      have hhead := hput.store s (BitVec.ofNat (8 * w) (T.order.load (x.take w))) hbad htakes
      set bs := beBytes w (BitVec.ofNat (8 * w) (T.order.load (x.take w))).toNat with hbs
      have hlength : bs.length = w := length_beBytes _ _
      rw [← hlength] at htakes
      have hlater : ¬ (s.store bs).Takes T (w * count) :=
        OutputStream.not_takes_store htakes (by rw [hlength]; exact hfull)
      have htail := ih (x.drop w) (s.store bs) hbad (by rw [List.length_drop]; omega) hlater
      rw [hhead, ok_bind]
      simp only [htail, error_bind]
    · rw [hput.full s _ hbad htakes, error_bind]

theorem writeArray_full {x : List UInt8} {size count : Nat} (hsize : WordSize size)
    (hbad : s.bad = false) (hx : size * count ≤ x.length) (hfull : ¬ s.Takes T (size * count)) :
    s.writeArray T x size count = .error .assertion := by
  rcases hsize with rfl | rfl | rfl | rfl
  · have hloop := writeLoop_full (write1_storesWord T) count x s hbad hx hfull
    simp only [writeArray, hloop, error_bind]
  · have hloop := writeLoop_full (write2_storesWord T) count x s hbad hx hfull
    simp only [writeArray, hloop, error_bind]
  · have hloop := writeLoop_full (write4_storesWord T) count x s hbad hx hfull
    simp only [writeArray, hloop, error_bind]
  · have hloop := writeLoop_full (write8_storesWord T) count x s hbad hx hfull
    simp only [writeArray, hloop, error_bind]

end OutputStream

namespace Operand

variable {T T' : Target} {s : OutputStream} {operand : Operand} {operands : List Operand}

theorem wordSize_width (ty : ArrayType) : OutputStream.WordSize ty.width := by
  cases ty <;> simp [ArrayType.width, OutputStream.WordSize]

/-- All the scalar functions write one word of the type's width. -/
theorem write_scalar (T : Target) (s : OutputStream) (ty : ScalarType) (i : BitVec (8 * ty.width)) :
    ∃ swap, IsSwap T.order ty.width swap ∧
      (scalar ty i).write T s = OutputStream.writeWord T ty.width swap s (ty.image T i) := by
  cases ty with
  | byte | char | uchar => exact ⟨_, isSwap_id T.order, rfl⟩
  | short | ushort => exact ⟨_, swap2_isSwap T.order, rfl⟩
  | long | ulong | float => exact ⟨_, swap4_isSwap T.order, rfl⟩
  | llong | ullong | double => exact ⟨_, swap8_isSwap T.order, rfl⟩

theorem write_array (T : Target) (s : OutputStream) (ty : ArrayType) (x : List UInt8)
    (length : Nat) :
    (array ty x length).write T s = s.writeArray T x ty.width length := by
  cases ty <;> rfl

/-- A call stores the operand's bytes, if they fit or if the build drops what does not fit. -/
theorem write_store (h : operand.Valid) (hbad : s.bad = false) (htakes : s.Takes T operand.size) :
    operand.write T s = .ok (true, s.store (operand.wire T)) := by
  cases operand with
  | scalar ty i =>
    obtain ⟨swap, hswap, hwrite⟩ := write_scalar T s ty i
    rw [hwrite]
    exact OutputStream.writeWord_store _ hswap hbad htakes
  | array ty x length =>
    rw [write_array]
    exact OutputStream.writeArray_store (wordSize_width ty) hbad h.1 htakes

theorem write_full (h : operand.Valid) (hbad : s.bad = false) (hfull : ¬ s.Takes T operand.size) :
    operand.write T s = .error .assertion := by
  cases operand with
  | scalar ty i =>
    obtain ⟨swap, hswap, hwrite⟩ := write_scalar T s ty i
    rw [hwrite]
    exact OutputStream.writeWord_full _ hswap hbad hfull
  | array ty x length =>
    rw [write_array]
    exact OutputStream.writeArray_full (wordSize_width ty) hbad h.1 hfull

theorem writeAll_store (h : ∀ operand ∈ operands, operand.Valid) (hbad : s.bad = false)
    (htakes : s.Takes T (sizes operands)) :
    writeAll T operands s = .ok (List.replicate operands.length true, s.store (wires T operands)) := by
  induction operands generalizing s with
  | nil => simp [writeAll]
  | cons operand operands ih =>
    rw [List.forall_mem_cons] at h
    rw [sizes_cons] at htakes
    have hhead := write_store h.1 hbad (htakes.mono (Nat.le_add_right _ _))
    rw [← length_wire T h.1] at htakes
    have htail := ih h.2 (s := s.store (operand.wire T)) hbad htakes.store
    rw [writeAll, hhead, ok_bind]
    simp only [htail, ok_bind, OutputStream.store_store, wires_cons, List.length_cons,
      List.replicate_succ]

theorem writeAll_full (h : ∀ operand ∈ operands, operand.Valid) (hbad : s.bad = false)
    (hfull : ¬ s.Takes T (sizes operands)) : writeAll T operands s = .error .assertion := by
  induction operands generalizing s with
  | nil => exact absurd (.inr (Nat.zero_le _)) hfull
  | cons operand operands ih =>
    rw [List.forall_mem_cons] at h
    rw [sizes_cons] at hfull
    rw [writeAll]
    by_cases htakes : s.Takes T operand.size
    · have hlater : ¬ (s.store (operand.wire T)).Takes T (sizes operands) := by
        rw [← length_wire T h.1] at htakes hfull
        exact OutputStream.not_takes_store htakes hfull
      have htail := ih h.2 (s := s.store (operand.wire T)) hbad hlater
      rw [write_store h.1 hbad htakes, ok_bind]
      simp only [htail, error_bind]
    · rw [write_full h.1 hbad htakes, error_bind]

end Operand

/-! ### Reading past the end -/

namespace InputStream

variable {T : Target} {s : InputStream}

theorem readArray_short {x : List UInt8} {size count : Nat} (hdebug : T.ndebug = false)
    (hgood : s.good = true) (hbeyond : s.beyond = 0)
    (hbytes : size * count < 2 ^ 63) (hrest : s.rest.length < size * count)
    (hx : size * count ≤ x.length) : s.readArray T x size count = .error .assertion := by
  have hfits : ¬ x.length < s.rest.length := by omega
  simp only [readArray, toInt_bytes hbytes, read_short hdebug hgood hbeyond hrest, error_bind,
    if_neg hfits]

end InputStream

namespace Operand

variable {T T' : Target} {s : InputStream} {operand : Operand} {operands : List Operand}

/-- The operand after its bytes were read into it. -/
def fill (T : Target) (bs : List UInt8) : Operand → Operand
  | scalar ty _ => scalar ty (BitVec.ofNat (8 * ty.width) (ofBeBytes (bs.take ty.width)))
  | array ty x length =>
    array ty (T.order.flipWords ty.width length bs ++ x.drop (ty.width * length)) length

/-- The operand after fewer bytes than it takes were stored over it, as they are. -/
def tear (T : Target) (bs : List UInt8) : Operand → Operand
  | scalar ty i => scalar ty (BitVec.ofNat (8 * ty.width) (T.order.load
      (bs ++ (T.order.store ty.width i.toNat).drop bs.length)))
  | array ty x length => array ty (bs ++ x.drop bs.length) length

/-- All the scalar functions read one word of the type's width. -/
theorem read_scalar (T : Target) (s : InputStream) (ty : ScalarType) (i : BitVec (8 * ty.width)) :
    ∃ swap, IsSwap T.order ty.width swap ∧
      (scalar ty i).read T s = ofScalar ty (InputStream.readWord T ty.width swap s i) := by
  cases ty with
  | byte | char | uchar => exact ⟨_, isSwap_id T.order, rfl⟩
  | short | ushort => exact ⟨_, swap2_isSwap T.order, rfl⟩
  | long | ulong | float => exact ⟨_, swap4_isSwap T.order, rfl⟩
  | llong | ullong | double => exact ⟨_, swap8_isSwap T.order, rfl⟩

theorem read_array (T : Target) (s : InputStream) (ty : ArrayType) (x : List UInt8) (length : Nat) :
    (array ty x length).read T s = ofArray ty length (s.readArray T x ty.width length) := by
  cases ty <;> rfl

theorem read_fit (h : operand.Valid) (hgood : s.good = true) (hrest : operand.size ≤ s.rest.length) :
    operand.read T s = .ok (true, operand.fill T s.rest, s.advance operand.size) := by
  cases operand with
  | scalar ty i =>
    obtain ⟨swap, hswap, hread⟩ := read_scalar T s ty i
    rw [hread, InputStream.readWord_fit i hswap hgood hrest]
    rfl
  | array ty x length =>
    rw [read_array, InputStream.readArray_fit (wordSize_width ty) (h.1.trans_lt h.2) hgood hrest h.1]
    rfl

/-- A stream that has failed leaves the operand as it is. -/
theorem read_failed (hfailed : s.good = false) (operand : Operand) :
    operand.read T s = .ok (false, operand, s) := by
  cases operand with
  | scalar ty i =>
    obtain ⟨swap, -, hread⟩ := read_scalar T s ty i
    rw [hread, InputStream.readWord_failed hfailed]
    rfl
  | array ty x length =>
    rw [read_array, InputStream.readArray_failed hfailed]
    rfl

theorem read_torn (h : operand.Valid) (hndebug : T.ndebug = true) (hgood : s.good = true)
    (hbeyond : s.beyond = 0) (hrest : s.rest.length < operand.size) :
    operand.read T s = .ok (false, operand.tear T s.rest, s.fail operand.size) := by
  cases operand with
  | scalar ty i =>
    obtain ⟨swap, -, hread⟩ := read_scalar T s ty i
    have hrest : s.rest.length < ty.width := hrest
    rw [hread, InputStream.readWord_cut hndebug hgood hbeyond hrest]
    rfl
  | array ty x length =>
    have hrest : s.rest.length < ty.width * length := hrest
    rw [read_array, InputStream.readArray_cut (h.1.trans_lt h.2) hndebug hgood hbeyond hrest
      (hrest.le.trans h.1)]
    rfl

theorem read_short (h : operand.Valid) (hdebug : T.ndebug = false) (hgood : s.good = true)
    (hbeyond : s.beyond = 0) (hrest : s.rest.length < operand.size) :
    operand.read T s = .error .assertion := by
  cases operand with
  | scalar ty i =>
    obtain ⟨swap, -, hread⟩ := read_scalar T s ty i
    rw [hread, InputStream.readWord_short i hdebug hgood hbeyond hrest]
    rfl
  | array ty x length =>
    rw [read_array, InputStream.readArray_short hdebug hgood hbeyond (h.1.trans_lt h.2) hrest h.1]
    rfl

/-- The operands after their bytes were read into them. -/
def fillAll (T : Target) : List UInt8 → List Operand → List Operand
  | _, [] => []
  | bs, operand :: operands => operand.fill T bs :: fillAll T (bs.drop operand.size) operands

theorem readAll_fit (h : ∀ operand ∈ operands, operand.Valid) (hgood : s.good = true)
    (hrest : sizes operands ≤ s.rest.length) :
    readAll T operands s = .ok (List.replicate operands.length true, fillAll T s.rest operands,
      s.advance (sizes operands)) := by
  induction operands generalizing s with
  | nil => simp [readAll, fillAll, InputStream.advance]
  | cons operand operands ih =>
    rw [List.forall_mem_cons] at h
    rw [sizes_cons] at hrest
    have hhead := read_fit (T := T) h.1 hgood (by omega)
    have htail := ih h.2 (s := s.advance operand.size) hgood
      (by rw [InputStream.advance_rest, List.length_drop]; omega)
    have hadvance : (s.advance operand.size).advance (sizes operands) =
        s.advance (sizes (operand :: operands)) := by
      simp [InputStream.advance, List.take_add, List.append_assoc]
    rw [readAll, hhead, ok_bind]
    simp only [htail, ok_bind, hadvance, InputStream.advance_rest, List.length_cons,
      List.replicate_succ, fillAll]

theorem readAll_failed (hfailed : s.good = false) (operands : List Operand) :
    readAll T operands s = .ok (List.replicate operands.length false, operands, s) := by
  induction operands with
  | nil => rfl
  | cons operand operands ih =>
    rw [readAll, read_failed hfailed, ok_bind]
    simp only [ih, ok_bind, List.length_cons, List.replicate_succ]

/-- With assertions, reads of more than is left do not return. -/
theorem readAll_aborts (h : ∀ operand ∈ operands, operand.Valid) (hdebug : T.ndebug = false)
    (hgood : s.good = true) (hbeyond : s.beyond = 0) (hshort : s.rest.length < sizes operands) :
    readAll T operands s = .error .assertion := by
  induction operands generalizing s with
  | nil => exact absurd hshort (Nat.not_lt_zero _)
  | cons operand operands ih =>
    rw [List.forall_mem_cons] at h
    rw [sizes_cons] at hshort
    rw [readAll]
    rcases Nat.lt_or_ge s.rest.length operand.size with hrest | hrest
    · rw [read_short h.1 hdebug hgood hbeyond hrest, error_bind]
    · have htail := ih h.2 (s := s.advance operand.size) hgood hbeyond
        (by rw [InputStream.advance_rest, List.length_drop]; omega)
      rw [read_fit h.1 hgood hrest, ok_bind]
      simp only [htail, error_bind]

/-- What reads of more than is left come to without assertions: some are served, the next one is
torn, and those behind it are refused. -/
structure Broken (T : Target) (s : InputStream) (operands front : List Operand) (operand : Operand)
    (later : List Operand) (front' : List Operand) (s' : InputStream) : Prop where
  operands_eq : operands = front ++ operand :: later
  served : readAll T front s = .ok (List.replicate front.length true, front', s')
  short : s'.rest.length < operand.size
  broken : readAll T operands s = .ok (List.replicate front.length true ++
    List.replicate (later.length + 1) false, front' ++ operand.tear T s'.rest :: later,
      s'.fail operand.size)

theorem readAll_broken (h : ∀ operand ∈ operands, operand.Valid) (hndebug : T.ndebug = true)
    (hgood : s.good = true) (hbeyond : s.beyond = 0) (hshort : s.rest.length < sizes operands) :
    ∃ front operand later front' s', Broken T s operands front operand later front' s' := by
  induction operands generalizing s with
  | nil => exact absurd hshort (Nat.not_lt_zero _)
  | cons operand operands ih =>
    rw [List.forall_mem_cons] at h
    rw [sizes_cons] at hshort
    rcases Nat.lt_or_ge s.rest.length operand.size with hrest | hrest
    · refine ⟨[], operand, operands, [], s, rfl, rfl, hrest, ?_⟩
      rw [readAll, read_torn h.1 hndebug hgood hbeyond hrest, ok_bind]
      have hfailed := readAll_failed (T := T) (s := s.fail operand.size) rfl operands
      simp only [hfailed, ok_bind]
      rfl
    · have hhead := read_fit (T := T) h.1 hgood hrest
      obtain ⟨front, next, later, front', s', hoperands, hserved, hnext, hbroken⟩ :=
        ih h.2 (s := s.advance operand.size) hgood hbeyond
          (by rw [InputStream.advance_rest, List.length_drop]; omega)
      refine ⟨operand :: front, next, later, operand.fill T s.rest :: front', s', ?_, ?_, hnext, ?_⟩
      · rw [hoperands, List.cons_append]
      · rw [readAll, hhead, ok_bind]
        simp only [hserved, ok_bind]
        rfl
      · rw [readAll, hhead, ok_bind]
        simp only [hbroken, ok_bind]
        rfl

/-! ### From one host to another -/

/-- An operand of the other host that one is read into. -/
inductive Slot : Operand → Operand → Prop where
  | scalar (ty : ScalarType) (i old : BitVec (8 * ty.width)) : Slot (.scalar ty i) (.scalar ty old)
  | array (ty : ArrayType) (x old : List UInt8) (length : Nat)
      (hold : Valid (.array ty old length)) :
      Slot (.array ty x length) (.array ty old length)

/-- What is read into a slot: the bits that were written; or the same words of the width that is
passed on, each in the order of its host, before what was behind them. -/
inductive Restored (T T' : Target) : Operand → Operand → Operand → Prop where
  | scalar (ty : ScalarType) (i old : BitVec (8 * ty.width)) :
      Restored T T' (.scalar ty i) (.scalar ty old) (.scalar ty (ty.image T i))
  | array (ty : ArrayType) (x old new : List UInt8) (length : Nat)
      (helements : T'.order.loadWords ty.width length new = T.order.loadWords ty.width length x)
      (hlength : new.length = old.length)
      (hbehind : new.drop (ty.width * length) = old.drop (ty.width * length)) :
      Restored T T' (.array ty x length) (.array ty old length) (.array ty new length)

/-- The operands one by one. -/
inductive AllRestored (T T' : Target) : List Operand → List Operand → List Operand → Prop where
  | nil : AllRestored T T' [] [] []
  | cons {operand slot operand' : Operand} {operands slots operands' : List Operand}
      (h : Restored T T' operand slot operand')
      (hs : AllRestored T T' operands slots operands') :
      AllRestored T T' (operand :: operands) (slot :: slots) (operand' :: operands')

theorem Slot.valid {slot : Operand} (h : Slot operand slot) : slot.Valid := by
  cases h with
  | scalar ty i old => trivial
  | array ty x old length hold => exact hold

theorem Slot.size {slot : Operand} (h : Slot operand slot) : slot.size = operand.size := by
  cases h <;> rfl

/-- What is on the wire is read into the slot. -/
theorem Slot.restored {slot : Operand} (h : Slot operand slot) (hvalid : operand.Valid)
    (bs : List UInt8) :
    Restored T T' operand slot (slot.fill T' (operand.wire T ++ bs)) := by
  cases h with
  | scalar ty i old =>
    have hbits : BitVec.ofNat (8 * ty.width)
        (ofBeBytes ((beBytes ty.width (ty.image T i).toNat ++ bs).take ty.width)) = ty.image T i := by
      apply BitVec.eq_of_toNat_eq
      rw [List.take_left' (length_beBytes _ _), ofBeBytes_beBytes, BitVec.toNat_ofNat, pow_256_eq,
        Nat.mod_mod, Nat.mod_eq_of_lt (ty.image T i).isLt]
    rw [fill, wire, hbits]
    exact .scalar ty i old
  | array ty x old length hold =>
    have hwire := T.order.length_flipWords ty.width length x hvalid.1
    have hflip : (T'.order.flipWords ty.width length
        (T.order.flipWords ty.width length x ++ bs)).length = ty.width * length :=
      T'.order.length_flipWords _ _ _ (by rw [List.length_append, hwire]; omega)
    rw [fill, wire]
    refine .array ty x old _ length ?_ ?_ ?_
    · have hbig : ByteOrder.big.flipWords ty.width length (T.order.flipWords ty.width length x) =
          T.order.flipWords ty.width length x := by
        rw [InputStream.flipWords_big _ _ _ hwire.ge, List.take_of_length_le hwire.le]
      have hwords := ByteOrder.big.loadWords_flipWords ty.width length _ bs hwire.ge
      rw [hbig] at hwords
      rw [T'.order.loadWords_flipWords _ _ _ _ (by rw [List.length_append, hwire]; omega), hwords,
        T.order.big_loadWords_flipWords _ _ hvalid.1]
    · rw [List.length_append, List.length_drop, hflip]
      have := hold.1
      omega
    · rw [List.drop_left' hflip]

theorem allRestored (h : ∀ operand ∈ operands, operand.Valid) {slots : List Operand}
    (hslots : List.Forall₂ Slot operands slots) (bs : List UInt8) :
    AllRestored T T' operands slots (fillAll T' (wires T operands ++ bs) slots) := by
  induction hslots with
  | nil => exact .nil
  | @cons operand slot operands slots hslot hslots ih =>
    rw [List.forall_mem_cons] at h
    have hlength : (operand.wire T).length = slot.size := by rw [length_wire T h.1, hslot.size]
    rw [fillAll, wires_cons, List.append_assoc, List.drop_left' hlength]
    exact .cons (hslot.restored h.1 _) (ih h.2)

theorem sizes_slots {slots : List Operand} (hslots : List.Forall₂ Slot operands slots) :
    sizes slots = sizes operands := by
  induction hslots with
  | nil => rfl
  | cons hslot hslots ih => rw [sizes_cons, sizes_cons, hslot.size, ih]

theorem valid_slots {slots : List Operand} (hslots : List.Forall₂ Slot operands slots) :
    ∀ slot ∈ slots, slot.Valid := by
  induction hslots with
  | nil => exact List.forall_mem_nil _
  | cons hslot hslots ih => exact List.forall_mem_cons.mpr ⟨hslot.valid, ih⟩

/-- **Round trip.** Whatever calls write into a buffer with room for it, the same calls of another
host read back: all succeed, and restore what was written and no more memory than that. Of a
LONGLONG array that is the first half. -/
theorem round_trip (h : ∀ operand ∈ operands, operand.Valid) {slots : List Operand}
    (hslots : List.Forall₂ Slot operands slots) {buffer : List UInt8}
    (hroom : sizes operands ≤ buffer.length) :
    ∃ s operands' r,
      writeAll T operands (.ofBuffer buffer) = .ok (List.replicate operands.length true, s) ∧
      readAll T' slots (.ofBuffer s.buffer s.buffer.length) =
        .ok (List.replicate operands.length true, operands', r) ∧
      AllRestored T T' operands slots operands' ∧ r.consumed = s.written := by
  have hlength := length_wires T h
  have htakes : (OutputStream.ofBuffer buffer).Takes T (sizes operands) := .inr hroom
  have hwrite := writeAll_store h rfl htakes
  set s := (OutputStream.ofBuffer buffer).store (wires T operands) with hs
  have hwritten : s.written = wires T operands := by
    change [] ++ (wires T operands).take buffer.length = _
    rw [List.nil_append, List.take_of_length_le (by omega)]
  have hbuffer : s.buffer = wires T operands ++ s.room := by rw [OutputStream.buffer, hwritten]
  set r := InputStream.ofBuffer s.buffer s.buffer.length with hr
  have hrest : r.rest = wires T operands ++ s.room := by
    change s.buffer.take s.buffer.length = _
    rw [List.take_length, hbuffer]
  have hread := readAll_fit (T := T') (valid_slots hslots) (s := r) rfl
    (by rw [sizes_slots hslots, hrest, List.length_append]; omega)
  rw [← hslots.length_eq, hrest] at hread
  refine ⟨s, _, _, hwrite, hread, allRestored h hslots s.room, ?_⟩
  rw [InputStream.advance_consumed, sizes_slots hslots, hrest, List.take_left' hlength, hwritten]
  exact List.nil_append _

theorem round_trip_two :
    ∃ s operands' r,
      writeAll (.build .little) [.scalar .long 5, .array .llong [1, 2, 3, 4, 5, 6, 7, 8] 1]
          (.ofBuffer (List.replicate 9 0)) = .ok ([true, true], s) ∧
        readAll (.build .big) [.scalar .long 0, .array .llong [0, 0, 0, 0, 9, 9, 9, 9] 1]
          (.ofBuffer s.buffer s.buffer.length) = .ok ([true, true], operands', r) ∧
        AllRestored (.build .little) (.build .big)
          [.scalar .long 5, .array .llong [1, 2, 3, 4, 5, 6, 7, 8] 1]
          [.scalar .long 0, .array .llong [0, 0, 0, 0, 9, 9, 9, 9] 1] operands' ∧
        r.consumed = s.written :=
  round_trip (by simp [Valid, ArrayType.width])
    (.cons (.scalar _ _ _) (.cons (.array _ _ _ _ ⟨by decide, by decide⟩) .nil)) (by decide)

/-- **Writes beyond the end.** A build without assertions takes every call for a success, and what
does not fit into the buffer is not there; one with assertions stops if anything does not fit. -/
theorem writes_eq (h : ∀ operand ∈ operands, operand.Valid) (buffer : List UInt8) :
    writeAll T operands (.ofBuffer buffer) =
      if T.ndebug = true ∨ sizes operands ≤ buffer.length then
        .ok (List.replicate operands.length true,
          ⟨(wires T operands).take buffer.length, buffer.drop (sizes operands), false⟩)
      else .error .assertion := by
  have htakes : (OutputStream.ofBuffer buffer).Takes T (sizes operands) ↔
      T.ndebug = true ∨ sizes operands ≤ buffer.length := Iff.rfl
  split
  · next hfits =>
    rw [writeAll_store h rfl (htakes.mpr hfits), ← length_wires T h]
    rfl
  · next hfull => exact writeAll_full h rfl fun hfits => hfull (htakes.mp hfits)

theorem writes_eq_two :
    writeAll (.build .big) [.scalar .short 5, .array .char [1, 2] 2] (.ofBuffer [9, 9, 9]) =
      if (Target.build .big).ndebug = true ∨
          sizes [.scalar .short 5, .array .char [1, 2] 2] ≤ [9, 9, 9].length then
        .ok ([true, true],
          ⟨(wires (.build .big) [.scalar .short 5, .array .char [1, 2] 2]).take 3,
            [9, 9, 9].drop (sizes [.scalar .short 5, .array .char [1, 2] 2]), false⟩)
      else .error .assertion :=
  writes_eq (by simp [Valid, ArrayType.width]) [9, 9, 9]

/-- **Reads beyond the end.** A build with assertions stops; one without serves the calls that there
is enough for, tears the next operand, and refuses every later call without touching its operand. -/
theorem reads_broken (h : ∀ operand ∈ operands, operand.Valid) {memory : List UInt8} {len : Nat}
    (hlen : len ≤ memory.length) (hshort : len < sizes operands) :
    (T.ndebug = false → readAll T operands (.ofBuffer memory len) = .error .assertion) ∧
      (T.ndebug = true → ∃ front operand later front' s',
        Broken T (.ofBuffer memory len) operands front operand later front' s') := by
  have hbeyond : (InputStream.ofBuffer memory len).beyond = 0 := Nat.sub_eq_zero_of_le hlen
  have hrest : (InputStream.ofBuffer memory len).rest.length < sizes operands := by
    change (memory.take len).length < _
    rw [List.length_take, Nat.min_eq_left hlen]
    exact hshort
  exact ⟨fun hdebug => readAll_aborts h hdebug rfl hbeyond hrest,
    fun hndebug => readAll_broken h hndebug rfl hbeyond hrest⟩

theorem reads_broken_two :
    ∃ front operand later front' s', Broken (.release .little)
      (.ofBuffer [1, 2, 3] 3) [.scalar .short 0, .scalar .short 0] front operand later front' s' :=
  (@reads_broken (.release .little) [.scalar .short 0, .scalar .short 0]
    (by simp [Valid]) [1, 2, 3] 3 (by decide) (by decide)).2 rfl

end Operand

end Librtaio

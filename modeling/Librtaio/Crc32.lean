/-!
# The standard reflected CRC-32

The checksum with polynomial `0x04C11DB7` in its reflected form, initial
remainder and final mask all ones: one shift of the remainder for each bit,
least significant bit of each byte first.
-/

namespace Librtaio.Crc32

/-- The generator polynomial, bits reflected. -/
def polynomial : BitVec 32 := 0xEDB88320#32

/-- One bit of the division. -/
def shift (crc : BitVec 32) : BitVec 32 :=
  if crc.getLsbD 0 then (crc >>> 1) ^^^ polynomial else crc >>> 1

/-- `n` bits of the division. -/
def shifts : Nat → BitVec 32 → BitVec 32
  | 0, crc => crc
  | n + 1, crc => shifts n (shift crc)

/-- One byte of the message. -/
def step (crc : BitVec 32) (b : UInt8) : BitVec 32 :=
  shifts 8 (crc ^^^ b.toBitVec.setWidth 32)

/-- The remainder of a message, from a given remainder. -/
def update (crc : BitVec 32) (bs : List UInt8) : BitVec 32 := bs.foldl step crc

/-- The checksum of a message. -/
def crc32 (bs : List UInt8) : BitVec 32 :=
  update 0xFFFFFFFF#32 bs ^^^ 0xFFFFFFFF#32

-- the check value of the standard: the nine digits "123456789"
example : crc32 [0x31, 0x32, 0x33, 0x34, 0x35, 0x36, 0x37, 0x38, 0x39] = 0xCBF43926#32 := by
  decide +kernel

end Librtaio.Crc32

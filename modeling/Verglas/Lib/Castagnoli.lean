import Mathlib.Init

/-!
# CRC-32C

The checksum with the Castagnoli polynomial, bit by bit.
-/

/-- One byte of CRC-32C. -/
def castagnoliByte (crc : UInt32) (byte : UInt8) : UInt32 :=
  (List.range 8).foldl
    (fun crc _ => if crc &&& 1 = 1 then (crc >>> 1) ^^^ 0x82f63b78 else crc >>> 1)
    (crc ^^^ byte.toUInt32)

/-- CRC-32C. -/
def castagnoli (bytes : List UInt8) : UInt32 :=
  bytes.foldl castagnoliByte 0xffffffff ^^^ 0xffffffff

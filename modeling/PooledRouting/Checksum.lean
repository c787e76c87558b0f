/-!
# The CRC-32 checksum

The reflected cyclic redundancy check with the polynomial `0xEDB88320`:
the register starts and ends inverted and takes in the UTF-8 bytes of a
text, lowest bit first.
-/

namespace PooledRouting.Checksum

/-- One bit of the division: the register moves down by one, and the
polynomial is subtracted if a one fell out. -/
def shift (register : UInt32) : UInt32 :=
  if register &&& 1 = 1 then (register >>> 1) ^^^ 0xEDB88320 else register >>> 1

/-- The register after one more byte. -/
def feed (register : UInt32) (byte : UInt8) : UInt32 :=
  Nat.repeat shift 8 (register ^^^ byte.toUInt32)

/-- The checksum of a list of bytes. -/
def ofBytes (bytes : List UInt8) : UInt32 :=
  bytes.foldl feed 0xFFFFFFFF ^^^ 0xFFFFFFFF

/-- The checksum of a text. -/
def ofText (s : String) : UInt32 :=
  ofBytes s.toUTF8.data.toList

/-- The check value of the polynomial. -/
example :
    ofBytes [49, 50, 51, 52, 53, 54, 55, 56, 57] = 0xCBF43926 := by
  decide +kernel

end PooledRouting.Checksum

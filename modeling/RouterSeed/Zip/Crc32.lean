/-
The checksum of zip entries: the cyclic redundancy check with the
reversed polynomial 0xEDB88320, starting from and finally complemented
with all ones.
-/
import RouterSeed.Bytes

namespace RouterSeed.Zip

/-- One step of the division: shift out a bit, and subtract the
polynomial if it was set. -/
def crcShift (crc : UInt32) : UInt32 :=
  if crc &&& 1 = 1 then (crc >>> 1) ^^^ 0xEDB88320 else crc >>> 1

/-- What eight steps do to each low byte. -/
def crcTable : Array UInt32 :=
  Array.ofFn fun i : Fin 256 => (List.range 8).foldl (fun crc _ => crcShift crc) (UInt32.ofNat i)

/-- Take one more byte into the checksum. -/
def crcStep (crc : UInt32) (b : UInt8) : UInt32 :=
  crcTable.getD ((crc ^^^ b.toUInt32) &&& 0xFF).toNat 0 ^^^ (crc >>> 8)

/-- The checksum of a byte string. -/
def crc32 (data : Bytes) : UInt32 := data.foldl crcStep 0xFFFFFFFF ^^^ 0xFFFFFFFF

end RouterSeed.Zip

/-
Writing zip archives.

The local headers with their data come first, then the directory, then
the end record. Where there are too many entries for it, or the
directory lies too far into the file, a long end record and its locator
come before the end record; an entry that lies too far into the file has
its offset in an extra field.

Names that are not ASCII are marked as UTF-8. Files are readable by
everyone and writable by their owner.

The sizes of an entry always take four bytes, so an entry that is too
long for them, before or after it was compressed, is refused and nothing
is written.

How data are compressed is left open: `writeWith` takes the compressor,
and `write` is the one with stored blocks.
-/
import RouterSeed.Deflate.Stored
import RouterSeed.Failure
import RouterSeed.Zip.Crc32
import RouterSeed.Zip.Entry

namespace RouterSeed.Zip

/-- An entry ready to be written: its name and data in their final form. -/
structure Packed where
  name : Bytes
  isAscii : Bool
  modified : DosTime
  checksum : UInt32
  size : Nat
  contents : Bytes

/-- Compress an entry with the given compressor. -/
def Entry.packWith (compress : Bytes → Bytes) (e : Entry) : Packed where
  name := Bytes.ofString e.name
  isAscii := e.name.toList.all fun c => c.toNat < 128
  modified := e.modified
  checksum := crc32 e.data
  size := e.data.length
  contents := compress e.data

/-- Compress an entry. -/
def Entry.pack (e : Entry) : Packed := e.packWith Deflate.deflate

namespace Packed

/-- Whether the sizes of the entry do not fit into its headers. -/
def isOversized (p : Packed) : Bool := maxShort < p.size || maxShort < p.contents.length

-- ========================================================== headers

/-- The version of the format that is needed to read the entry. -/
def version (offset : Nat) : Nat := if maxShort < offset then 45 else 20

/-- The part that both headers share. -/
def shared (p : Packed) (offset extraLength : Nat) : Bytes :=
  Bytes.ofNatLE 2 (version offset)
    ++ Bytes.ofNatLE 2 (if p.isAscii then 0 else utf8Flag)
    ++ Bytes.ofNatLE 2 deflatedMethod
    ++ Bytes.ofNatLE 2 p.modified.time.toNat
    ++ Bytes.ofNatLE 2 p.modified.date.toNat
    ++ Bytes.ofNatLE 4 p.checksum.toNat
    ++ Bytes.ofNatLE 4 p.contents.length
    ++ Bytes.ofNatLE 4 p.size
    ++ Bytes.ofNatLE 2 p.name.length
    ++ Bytes.ofNatLE 2 extraLength

/-- The local header and the data of an entry. -/
def localPart (p : Packed) (offset : Nat) : Bytes :=
  localSignature ++ p.shared offset 0 ++ p.name ++ p.contents

/-- The extra field of an entry that lies beyond four bytes of offset. -/
def extra (offset : Nat) : Bytes :=
  if maxShort < offset then
    Bytes.ofNatLE 2 longSizesField ++ Bytes.ofNatLE 2 8 ++ Bytes.ofNatLE 8 offset
  else []

/-- Made by version 4.6 on a system whose files have modes. -/
def madeBy : Nat := 0x032E

/-- The attributes of a regular file with mode 644. -/
def attributes : Nat := 0o100644 * 65536

/-- The directory record of an entry that lies at `offset`. -/
def directoryRecord (p : Packed) (offset : Nat) : Bytes :=
  directorySignature
    ++ Bytes.ofNatLE 2 madeBy
    ++ p.shared offset (extra offset).length
    ++ Bytes.ofNatLE 2 0
    ++ Bytes.ofNatLE 2 0
    ++ Bytes.ofNatLE 2 0
    ++ Bytes.ofNatLE 4 attributes
    ++ Bytes.ofNatLE 4 (min offset maxShort)
    ++ p.name
    ++ extra offset

/-- How many bytes an entry takes before the directory. -/
def length (p : Packed) : Nat := localHeaderSize + p.name.length + p.contents.length

end Packed

-- =========================================================== layout

/-- The entries with the offsets they get, the first one at `offset`. -/
def place (offset : Nat) : List Packed → List (Packed × Nat)
  | [] => []
  | p :: rest => (p, offset) :: place (offset + p.length) rest

/-- The long end record of a directory, with its locator. -/
def longEnd (count size offset : Nat) : Bytes :=
  longEndSignature
    ++ Bytes.ofNatLE 8 44
    ++ Bytes.ofNatLE 2 46 ++ Bytes.ofNatLE 2 46
    ++ Bytes.ofNatLE 4 0 ++ Bytes.ofNatLE 4 0
    ++ Bytes.ofNatLE 8 count ++ Bytes.ofNatLE 8 count
    ++ Bytes.ofNatLE 8 size ++ Bytes.ofNatLE 8 offset
    ++ locatorSignature
    ++ Bytes.ofNatLE 4 0 ++ Bytes.ofNatLE 8 (offset + size) ++ Bytes.ofNatLE 4 1

/-- The end record of a directory, without comment. -/
def shortEnd (count size offset : Nat) : Bytes :=
  endSignature
    ++ Bytes.ofNatLE 2 0 ++ Bytes.ofNatLE 2 0
    ++ Bytes.ofNatLE 2 (min count maxShortCount) ++ Bytes.ofNatLE 2 (min count maxShortCount)
    ++ Bytes.ofNatLE 4 (min size maxShort) ++ Bytes.ofNatLE 4 (min offset maxShort)
    ++ Bytes.ofNatLE 2 0

/-- Whether a directory needs a long end record. -/
def needsLongEnd (count size offset : Nat) : Bool :=
  maxShortCount < count || maxShort < max size offset

/-- The bytes of an archive of the given entries. -/
def layout (packed : List Packed) : Bytes :=
  let placed := place 0 packed
  let locals := (placed.map fun (p, offset) => p.localPart offset).flatten
  let directory := (placed.map fun (p, offset) => p.directoryRecord offset).flatten
  let count := packed.length
  locals ++ directory
    ++ (if needsLongEnd count directory.length locals.length then
          longEnd count directory.length locals.length
        else [])
    ++ shortEnd count directory.length locals.length

/-- The archive of the given entries, compressed with the given
compressor, unless one of them is too long. -/
def writeWith (compress : Bytes → Bytes) (entries : List Entry) : Except Failure Bytes :=
  let packed := entries.map (Entry.packWith compress)
  if packed.any Packed.isOversized then .error (.io .oversizedEntry) else .ok (layout packed)

/-- The archive of the given entries. -/
def write (entries : List Entry) : Except Failure Bytes := writeWith Deflate.deflate entries

end RouterSeed.Zip

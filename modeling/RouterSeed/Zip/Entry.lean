/-
Zip entries, and the fixed parts of the format that writing and reading
share.

Numbers in an archive are little-endian. An entry appears twice: a local
header with its data, and a record in the directory at the end; both
carry the same twenty-six bytes, from the version that is needed to read
the entry to the length of its extra field.
-/
import RouterSeed.Bytes
import RouterSeed.Zip.DosTime

namespace RouterSeed.Zip

/-- A file in an archive. -/
structure Entry where
  name : String
  modified : DosTime
  data : Bytes
  deriving DecidableEq, Repr

-- ======================================================= signatures

def localSignature : Bytes := [0x50, 0x4B, 0x03, 0x04]
def directorySignature : Bytes := [0x50, 0x4B, 0x01, 0x02]
def endSignature : Bytes := [0x50, 0x4B, 0x05, 0x06]
def longEndSignature : Bytes := [0x50, 0x4B, 0x06, 0x06]
def locatorSignature : Bytes := [0x50, 0x4B, 0x06, 0x07]

-- ============================================================ sizes

/-- The size of a local header without its name. -/
def localHeaderSize : Nat := 30

/-- The size of a directory record without its name. -/
def directoryRecordSize : Nat := 46

/-- The size of the end record without its comment. -/
def endRecordSize : Nat := 22

/-- The size of the locator of a long end record. -/
def locatorSize : Nat := 20

/-- The size of a long end record. -/
def longEndRecordSize : Nat := 56

/-- The largest number of entries in an end record, which also says to
look for a long one. -/
def maxShortCount : Nat := 0xFFFF

/-- The largest size or offset of four bytes, which also says to look for
a long one. -/
def maxShort : Nat := 0xFFFFFFFF

-- ============================================================ codes

/-- The method of an entry whose data is there as it is. -/
def storedMethod : Nat := 0

/-- The method of an entry whose data is deflated. -/
def deflatedMethod : Nat := 8

/-- The method that stands for an encryption of its own. -/
def encryptedMethod : Nat := 99

/-- The flag of an encrypted entry. -/
def encryptedFlag : Nat := 0x0001

/-- The flag of an entry whose name is UTF-8. -/
def utf8Flag : Nat := 0x0800

/-- The kind of extra field that carries long sizes and offsets. -/
def longSizesField : Nat := 0x0001

/-- The kind of extra field that describes an encryption. -/
def encryptionField : Nat := 0x9901

end RouterSeed.Zip

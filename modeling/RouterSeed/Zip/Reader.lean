/-
Reading zip archives, foreign ones included.

Reading starts at the end: the last end record in the file counts, and
what follows its comment is ignored. Bytes in front of the archive shift
every offset by the same amount, which is found by comparing where the
directory is with where it says it is. A long end record counts if its
locator stands right before an end record that ends the file.

An entry is what the directory says it is; of the local header only the
lengths are used, to find the data. Sizes that are announced are not
relied on, checksums are checked.
-/
import RouterSeed.Deflate.Inflate
import RouterSeed.Failure
import RouterSeed.Text.CodePage437
import RouterSeed.Text.Utf8
import RouterSeed.Zip.Crc32
import RouterSeed.Zip.Entry

namespace RouterSeed.Zip

-- =========================================================== access

/-- The bytes of an archive, to be read at any position. -/
abbrev Image := Array UInt8

namespace Image

/-- The `length` bytes from position `start`, if they are all there. -/
def slice? (image : Image) (start length : Nat) : Option Bytes :=
  if start + length ≤ image.size then some (image.extract start (start + length)).toList else none

/-- As many of the `length` bytes from position `start` as are there. -/
def upTo (image : Image) (start length : Nat) : Bytes :=
  (image.extract start (start + length)).toList

/-- The number of `width` bytes at position `start`. -/
def number? (image : Image) (start width : Nat) : Option Nat :=
  (image.slice? start width).map Bytes.toNatLE

end Image

-- ====================================================== end records

/-- An end record. -/
structure EndRecord where
  position : Nat
  disk : Nat
  directoryDisk : Nat
  entriesHere : Nat
  entries : Nat
  size : Nat
  offset : Nat
  commentLength : Nat

/-- A field holds the value that refers to a long end record. -/
def EndRecord.isSaturated (e : EndRecord) : Bool :=
  e.disk = maxShortCount || e.directoryDisk = maxShortCount || e.entriesHere = maxShortCount
    || e.entries = maxShortCount || e.size = maxShort || e.offset = maxShort

/-- Look for the signature of an end record from `position` down, at most
`tries` times. -/
def findEnd? (image : Image) : (tries position : Nat) → Option Nat
  | 0, _ => none
  | tries + 1, position =>
    if image.slice? position 4 = some endSignature then some position
    else
      match position with
      | 0 => none
      | position + 1 => findEnd? image tries position

/-- Read the end record at a position; its comment has to be there. -/
def endAt? (image : Image) (position : Nat) : Option EndRecord := do
  let disk ← image.number? (position + 4) 2
  let directoryDisk ← image.number? (position + 6) 2
  let entriesHere ← image.number? (position + 8) 2
  let entries ← image.number? (position + 10) 2
  let size ← image.number? (position + 12) 4
  let offset ← image.number? (position + 16) 4
  let commentLength ← image.number? (position + 20) 2
  let _ ← image.slice? (position + endRecordSize) commentLength
  some { position, disk, directoryDisk, entriesHere, entries, size, offset, commentLength }

/-- Where the directory starts, how many records it has, and by how much
the offsets in them are shifted. -/
structure Directory where
  start : Nat
  count : Nat
  shift : Nat

/-- The locator of a long end record: its disk and its offset. -/
def locator? (image : Image) (e : EndRecord) : Option (Nat × Nat) := do
  let distance := locatorSize + endRecordSize + e.commentLength
  if image.size < distance then none
  else
    let start := image.size - distance
    if image.slice? start 4 ≠ some locatorSignature then none
    else
      let disk ← image.number? (start + 4) 4
      let offset ← image.number? (start + 8) 8
      some (disk, offset)

/-- Look for the signature of a long end record from `position` up, at
`tries` positions. -/
def findLongEnd? (image : Image) : (tries position : Nat) → Option Nat
  | 0, _ => none
  | tries + 1, position =>
    if image.slice? position 4 = some longEndSignature then some position
    else findLongEnd? image tries (position + 1)

/-- The directory that a long end record describes. It is looked for
between the offset in its locator and the end record. -/
def longDirectory (image : Image) (e : EndRecord) (offset : Nat) :
    Except ArchiveFault Directory := do
  if e.position < longEndRecordSize + 4 then .error .badDirectory
  else
    let last := e.position - (longEndRecordSize + 4)
    match findLongEnd? image (last + 1 - offset) offset with
    | none => .error .badDirectory
    | some position =>
      let fields : Option (Nat × Nat × Nat × Nat) := do
        some (← image.number? (position + 16) 4, ← image.number? (position + 20) 4,
          ← image.number? (position + 32) 8, ← image.number? (position + 48) 8)
      match fields with
      | none => .error .badDirectory
      | some (disk, directoryDisk, count, directoryOffset) =>
        let shift := position - offset
        if disk ≠ directoryDisk then .error .unsupported
        else if 2 ^ 64 ≤ directoryOffset + shift then .error .badDirectory
        else .ok ⟨directoryOffset + shift, count, shift⟩

/-- Find the directory. -/
def directory (image : Image) : Except ArchiveFault Directory := do
  if image.size < endRecordSize then .error .noDirectory
  else
    match (findEnd? image 65536 (image.size - endRecordSize)).bind (endAt? image) with
    | none => .error .noDirectory
    | some e =>
      if !e.isSaturated && e.disk ≠ e.directoryDisk then .error .unsupported
      else
        match locator? image e with
        | some (disk, offset) =>
          if !e.isSaturated && e.disk ≠ disk then .error .unsupported
          else longDirectory image e offset
        | none =>
          if e.position < e.size + e.offset then .error .badDirectory
          else .ok ⟨e.position - e.size, e.entriesHere, e.position - e.size - e.offset⟩

-- ================================================ directory records

/-- What the directory says about an entry. -/
structure Record where
  flags : Nat
  method : Nat
  modified : DosTime
  checksum : Nat
  compressedSize : Nat
  size : Nat
  name : Bytes
  offset : Nat

/-- Take a long size from an extra field, if the short one refers to it.
`none` in place of the rest says that the field ends too soon. -/
def takeLong (short : Nat) (field : Option Bytes) : Nat × Option Bytes :=
  match field with
  | none => (short, none)
  | some field =>
    if short ≠ maxShort then (short, some field)
    else if field.length < 8 then (short, none)
    else (Bytes.toNatLE (field.take 8), some (field.drop 8))

/-- An encryption field is refused, whether it is well formed or not;
one that ends too soon is ignored. -/
def refusesEncryption (length : Nat) (field : Bytes) : Bool := length ≠ 7 || 7 ≤ field.length

/-- Take what the extra fields say into a record. Fields that end too
soon end the reading. Every field takes four bytes at least. -/
def Record.withExtra (r : Record) : (fuel : Nat) → (extra : Bytes) → Except ArchiveFault Record
  | 0, _ => .ok r
  | fuel + 1, extra =>
    if extra.length < 4 then .ok r
    else
      let kind := Bytes.toNatLE (extra.take 2)
      let length := Bytes.toNatLE ((extra.drop 2).take 2)
      let field := extra.drop 4
      if kind = longSizesField then
        let (size, left) := takeLong r.size (some field)
        let (compressedSize, left) := takeLong r.compressedSize left
        let (offset, left) := takeLong r.offset left
        let r := { r with size, compressedSize, offset }
        match left with
        | none => .ok r
        | some left => r.withExtra fuel (left.drop (length - (field.length - left.length)))
      else if kind = encryptionField then
        if refusesEncryption length field then .error .unsupported else .ok r
      else r.withExtra fuel (field.drop length)

/-- Read the record at a position, and say how long it is. -/
def recordAt? (image : Image) (position : Nat) : Option (Record × Bytes × Nat) := do
  let signature ← image.slice? position 4
  if signature ≠ directorySignature then none
  else
    let flags ← image.number? (position + 8) 2
    let method ← image.number? (position + 10) 2
    let time ← image.number? (position + 12) 2
    let date ← image.number? (position + 14) 2
    let checksum ← image.number? (position + 16) 4
    let compressedSize ← image.number? (position + 20) 4
    let size ← image.number? (position + 24) 4
    let nameLength ← image.number? (position + 28) 2
    let extraLength ← image.number? (position + 30) 2
    let commentLength ← image.number? (position + 32) 2
    let offset ← image.number? (position + 42) 4
    let name ← image.slice? (position + directoryRecordSize) nameLength
    let extra ← image.slice? (position + directoryRecordSize + nameLength) extraLength
    let length := directoryRecordSize + nameLength + extraLength + commentLength
    let _ ← image.slice? position length
    let modified := ⟨UInt16.ofNat date, UInt16.ofNat time⟩
    some ({ flags, method, modified, checksum, compressedSize, size, name, offset }, extra, length)

/-- Read the record at a position with its extra fields, and move its
offset to where the archive starts. -/
def fullRecordAt (image : Image) (position shift : Nat) : Except ArchiveFault (Record × Nat) :=
  match recordAt? image position with
  | none => .error .badDirectory
  | some (r, extra, length) => do
    let r ← r.withExtra extra.length extra
    if r.method = encryptedMethod then .error .unsupported
    else if 2 ^ 64 ≤ r.offset + shift then .error .badDirectory
    else .ok ({ r with offset := r.offset + shift }, length)

/-- Read `count` records one after the other. -/
def records (image : Image) (shift : Nat) : (count position : Nat) →
    Except ArchiveFault (List Record)
  | 0, _ => .ok []
  | count + 1, position => do
    let (r, length) ← fullRecordAt image position shift
    let rest ← records image shift count (position + length)
    .ok (r :: rest)

-- ========================================================== entries

/-- Where the data of an entry starts, from its local header. -/
def dataStart? (image : Image) (offset : Nat) : Option Nat := do
  let signature ← image.slice? offset 4
  if signature ≠ localSignature then none
  else
    let nameLength ← image.number? (offset + 26) 2
    let extraLength ← image.number? (offset + 28) 2
    some (offset + localHeaderSize + nameLength + extraLength)

/-- The name of an entry as text. -/
def Record.nameText (r : Record) : String :=
  if r.flags / utf8Flag % 2 = 1 then Text.decodeLossy r.name else Text.CodePage437.decode r.name

/-- Read the entry of a record. -/
def Record.entry (r : Record) (image : Image) : Except ArchiveFault Entry :=
  if r.flags % 2 = encryptedFlag then .error .encrypted
  else
    match dataStart? image r.offset with
    | none => .error .badEntry
    | some start => do
      let contents := image.upTo start r.compressedSize
      let data ←
        if r.method = storedMethod then .ok contents
        else if r.method = deflatedMethod then
          match Deflate.inflate? contents with
          | some data => .ok data
          | none => .error .badData
        else .error .unsupported
      if (crc32 data).toNat = r.checksum then .ok ⟨r.nameText, r.modified, data⟩
      else .error .badChecksum

/-- The entries of an archive, in the order of its directory. -/
def read (archive : Bytes) : Except ArchiveFault (List Entry) := do
  let image := archive.toArray
  let found ← directory image
  let all ← records image found.shift found.count found.start
  all.mapM fun r => r.entry image

end RouterSeed.Zip

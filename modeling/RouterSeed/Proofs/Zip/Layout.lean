/-
What a written archive has where, seen from the reader.

`Has` says that the bytes of a part stand at a position. A part that is
put together from others is taken apart from the front (`Has.split`,
`Has.number`, `Has.signature`), each field leaving the rest at the
position behind it; what the reader gets at a position is the field that
stands there (`Has.slice?`, `Has.number?`, `Has.upTo`).

So every record that is written comes back wherever it stands: the local
header of an entry (`dataStart?_localPart`), its directory record with
the offset from the extra field (`fullRecordAt_directoryRecord`), the end
record (`endAt?_shortEnd`), and the long one with its locator
(`longDirectory_of_longEndAt`, `locator?_of_longEndAt`).

Consumed by RoundTrip.lean, which puts the archive together.
-/
import RouterSeed.Zip.Reader
import RouterSeed.Zip.Writer

namespace RouterSeed.Zip

variable {image : Image} {position width n : Nat} {part more : Bytes}

-- =========================================================== positions

namespace Image

/-- The bytes of the part stand at the position. -/
def Has (image : Image) (position : Nat) (part : Bytes) : Prop :=
  ∃ before after, image.toList = before ++ (part ++ after) ∧ before.length = position

/-- A part that stands in an image fits into it. -/
theorem Has.length_le (h : image.Has position part) : position + part.length ≤ image.size := by
  obtain ⟨before, after, himage, rfl⟩ := h
  have hsize := congrArg List.length himage
  rw [Array.length_toList, List.length_append, List.length_append] at hsize
  omega

/-- A part is cut out from between what precedes it and what follows. -/
private theorem toList_extract_append (before after : Bytes)
    (h : image.toList = before ++ (part ++ after)) :
    (image.extract before.length (before.length + part.length)).toList = part := by
  rw [Array.toList_extract, List.extract_eq_take_drop, h, List.drop_left,
    Nat.add_sub_cancel_left, List.take_left]

/-- Reading up to its length gives the part. -/
theorem Has.upTo (h : image.Has position part) : image.upTo position part.length = part := by
  obtain ⟨before, after, himage, rfl⟩ := h
  exact toList_extract_append before after himage

theorem Has.slice? (h : image.Has position part) :
    image.slice? position part.length = some part := by
  unfold Image.slice?
  rw [if_pos h.length_le]
  exact congrArg some h.upTo

/-- Of two parts in a row, the second stands where the first ends. -/
theorem Has.split (h : image.Has position (part ++ more)) :
    image.Has position part ∧ image.Has (position + part.length) more := by
  obtain ⟨before, after, himage, rfl⟩ := h
  refine ⟨⟨before, more ++ after, ?_, rfl⟩, before ++ part, after, ?_, List.length_append⟩
  · rw [himage, List.append_assoc]
  · rw [himage, List.append_assoc, List.append_assoc]

/-- A number is read where it stands. -/
theorem Has.number? (h : image.Has position (Bytes.ofNatLE width n)) (hn : n < 256 ^ width) :
    image.number? position width = some n := by
  have hslice := h.slice?
  rw [Bytes.length_ofNatLE] at hslice
  unfold Image.number?
  rw [hslice, Option.map_some, Bytes.toNatLE_ofNatLE, Nat.mod_eq_of_lt hn]

/-- A number in front of the rest. -/
theorem Has.number (h : image.Has position (Bytes.ofNatLE width n ++ more)) (hn : n < 256 ^ width) :
    image.number? position width = some n ∧ image.Has (position + width) more := by
  obtain ⟨hfirst, hrest⟩ := h.split
  rw [Bytes.length_ofNatLE] at hrest
  exact ⟨hfirst.number? hn, hrest⟩

/-- A signature in front of the rest. -/
theorem Has.signature (h : image.Has position (part ++ more)) (hlength : part.length = 4) :
    image.slice? position 4 = some part ∧ image.Has (position + 4) more := by
  obtain ⟨hfirst, hrest⟩ := h.split
  have hslice := hfirst.slice?
  rw [hlength] at hslice hrest
  exact ⟨hslice, hrest⟩

end Image

-- ============================================================= reading

/-- One step of reading that succeeds. -/
theorem bind_of_eq_some {α β : Type} {x : Option α} {f : α → Option β} {a : α} {b : Option β}
    (first : x = some a) (second : f a = b) : (x >>= f) = b := by
  rw [first]
  exact second

-- ============================================================= entries

namespace Packed

variable {p : Packed} {offset extraLength : Nat}

/-- The fields of the headers have room for the entry. -/
structure Fits (p : Packed) : Prop where
  name : p.name.length ≤ 65535
  size : p.size ≤ maxShort
  contents : p.contents.length ≤ maxShort

/-- What the directory says about the entry, if it lies at `offset`. -/
def record (p : Packed) (offset : Nat) : Record where
  flags := if p.isAscii then 0 else utf8Flag
  method := deflatedMethod
  modified := p.modified
  checksum := p.checksum.toNat
  compressedSize := p.contents.length
  size := p.size
  name := p.name
  offset

/-- The part that both headers share stands at a position. -/
structure SharedAt (image : Image) (position : Nat) (p : Packed) (extraLength : Nat) : Prop where
  flags : image.number? (position + 2) 2 = some (if p.isAscii then 0 else utf8Flag)
  method : image.number? (position + 4) 2 = some deflatedMethod
  time : image.number? (position + 6) 2 = some p.modified.time.toNat
  date : image.number? (position + 8) 2 = some p.modified.date.toNat
  checksum : image.number? (position + 10) 4 = some p.checksum.toNat
  compressedSize : image.number? (position + 14) 4 = some p.contents.length
  size : image.number? (position + 18) 4 = some p.size
  nameLength : image.number? (position + 22) 2 = some p.name.length
  extraLength : image.number? (position + 24) 2 = some extraLength

/-- The fields that both headers share are read where they stand. -/
private theorem sharedAt_of_has (hp : p.Fits) (hextra : extraLength < 65536)
    (h : image.Has position (p.shared offset extraLength ++ more)) :
    SharedAt image position p extraLength ∧ image.Has (position + 26) more := by
  obtain ⟨hname, hsize, hcontents⟩ := hp
  unfold maxShort at hsize hcontents
  have hversion : version offset < 256 ^ 2 := by
    unfold version
    split <;> decide
  have hflag : (if p.isAscii then 0 else utf8Flag) < 256 ^ 2 := by
    split <;> decide
  unfold shared at h
  simp only [List.append_assoc] at h
  -- Field after field is read, and the rest is what stands behind it.
  obtain ⟨-, h⟩ := h.number hversion
  obtain ⟨hflags, h⟩ := h.number hflag
  obtain ⟨hmethod, h⟩ := h.number (by decide)
  obtain ⟨htime, h⟩ := h.number p.modified.time.toNat_lt
  obtain ⟨hdate, h⟩ := h.number p.modified.date.toNat_lt
  obtain ⟨hchecksum, h⟩ := h.number p.checksum.toNat_lt
  obtain ⟨hcompressed, h⟩ := h.number (by omega)
  obtain ⟨hsize, h⟩ := h.number (by omega)
  obtain ⟨hnameLength, h⟩ := h.number (by omega)
  obtain ⟨hextraLength, h⟩ := h.number hextra
  exact ⟨⟨hflags, hmethod, htime, hdate, hchecksum, hcompressed, hsize, hnameLength,
    hextraLength⟩, h⟩

-- ======================================================= local headers

/-- The fields that both headers share take 26 bytes. -/
theorem length_shared (p : Packed) (offset extraLength : Nat) :
    (p.shared offset extraLength).length = 26 := by
  unfold shared
  simp only [List.length_append, Bytes.length_ofNatLE]

/-- An entry takes its header, its name and its contents. -/
theorem length_localPart (p : Packed) (offset : Nat) : (p.localPart offset).length = p.length := by
  unfold localPart length localHeaderSize
  simp only [List.length_append, length_shared]
  rfl

/-- The data of an entry are where its local header says. -/
theorem dataStart?_localPart (hp : p.Fits) (h : image.Has offset (p.localPart offset)) :
    ∃ start, dataStart? image offset = some start ∧ image.Has start p.contents := by
  unfold localPart at h
  simp only [List.append_assoc] at h
  obtain ⟨hsignature, h⟩ := h.signature rfl
  obtain ⟨hshared, h⟩ := sharedAt_of_has hp (by decide) h
  obtain ⟨-, h⟩ := h.split
  refine ⟨offset + localHeaderSize + p.name.length + 0, ?_, h⟩
  unfold dataStart?
  refine bind_of_eq_some hsignature ?_
  rw [if_neg fun h => h rfl]
  refine bind_of_eq_some hshared.nameLength ?_
  exact bind_of_eq_some hshared.extraLength rfl

-- =================================================== directory records

theorem length_extra_le (offset : Nat) : (extra offset).length ≤ 12 := by
  unfold extra
  split
  · simp only [List.length_append, Bytes.length_ofNatLE]
    decide
  · exact Nat.zero_le _

/-- A record takes its fixed part, its name and its extra field. -/
theorem length_directoryRecord (p : Packed) (offset : Nat) :
    (p.directoryRecord offset).length
      = directoryRecordSize + p.name.length + (extra offset).length + 0 := by
  unfold directoryRecord directoryRecordSize
  simp only [List.length_append, length_shared, Bytes.length_ofNatLE]
  rfl

/-- A directory record comes back, with an offset that fits into it. -/
private theorem recordAt?_directoryRecord (hp : p.Fits)
    (h : image.Has position (p.directoryRecord offset)) :
    recordAt? image position
      = some (p.record (min offset maxShort), extra offset, (p.directoryRecord offset).length) := by
  have hwhole := h.slice?
  rw [length_directoryRecord] at hwhole ⊢
  have hshort := length_extra_le offset
  have hoffset : min offset maxShort < 256 ^ 4 :=
    Nat.lt_of_le_of_lt (Nat.min_le_right _ _) (by decide)
  unfold directoryRecord at h
  simp only [List.append_assoc] at h
  obtain ⟨hsignature, h⟩ := h.signature rfl
  obtain ⟨-, h⟩ := h.number (by decide)
  obtain ⟨hshared, h⟩ := sharedAt_of_has hp (by omega) h
  obtain ⟨hcomment, h⟩ := h.number (by decide)
  obtain ⟨-, h⟩ := h.number (by decide)
  obtain ⟨-, h⟩ := h.number (by decide)
  obtain ⟨-, h⟩ := h.number (by decide)
  obtain ⟨hplace, h⟩ := h.number hoffset
  obtain ⟨hname, hextra⟩ := h.split
  -- The reader takes the fields in the order in which they were written.
  unfold recordAt?
  refine bind_of_eq_some hsignature ?_
  rw [if_neg fun h => h rfl]
  refine bind_of_eq_some hshared.flags ?_
  refine bind_of_eq_some hshared.method ?_
  refine bind_of_eq_some hshared.time ?_
  refine bind_of_eq_some hshared.date ?_
  refine bind_of_eq_some hshared.checksum ?_
  refine bind_of_eq_some hshared.compressedSize ?_
  refine bind_of_eq_some hshared.size ?_
  refine bind_of_eq_some hshared.nameLength ?_
  refine bind_of_eq_some hshared.extraLength ?_
  refine bind_of_eq_some hcomment ?_
  refine bind_of_eq_some hplace ?_
  refine bind_of_eq_some hname.slice? ?_
  refine bind_of_eq_some hextra.slice? ?_
  refine bind_of_eq_some hwhole ?_
  rw [UInt16.ofNat_toNat, UInt16.ofNat_toNat]
  rfl

/-- The entry does not look as if it had a long size, where it has an
extra field. -/
def IsUnmarked (p : Packed) (offset : Nat) : Prop :=
  maxShort < offset → p.size ≠ maxShort ∧ p.contents.length ≠ maxShort

instance (p : Packed) (offset : Nat) : Decidable (p.IsUnmarked offset) := by
  unfold IsUnmarked
  infer_instance

private theorem takeLong_of_ne {short : Nat} (h : short ≠ maxShort) (field : Bytes) :
    takeLong short (some field) = (short, some field) := if_pos h

/-- A marker is replaced by the long number. -/
private theorem takeLong_ofNatLE (h : offset < 2 ^ 64) :
    takeLong maxShort (some (Bytes.ofNatLE 8 offset)) = (offset, some []) := by
  have hlength : (Bytes.ofNatLE 8 offset).length = 8 := Bytes.length_ofNatLE 8 offset
  have hall : (Bytes.ofNatLE 8 offset).length ≤ 8 := Nat.le_of_eq hlength
  have hvalue : Bytes.toNatLE (Bytes.ofNatLE 8 offset) = offset := by
    rw [Bytes.toNatLE_ofNatLE]
    exact Nat.mod_eq_of_lt h
  unfold takeLong
  dsimp only
  rw [if_neg fun h => h rfl, hlength, if_neg (Nat.lt_irrefl 8), List.take_of_length_le hall,
    List.drop_of_length_le hall, hvalue]

/-- What an extra field with an offset says goes to the sizes that refer
to it first, and to the offset last. -/
private theorem withExtra_of_long {r : Record} {size compressedSize place : Nat}
    {afterSize afterCompressed left : Option Bytes} (hlong : maxShort < offset)
    (hsize : takeLong r.size (some (Bytes.ofNatLE 8 offset)) = (size, afterSize))
    (hcompressed : takeLong r.compressedSize afterSize = (compressedSize, afterCompressed))
    (hplace : takeLong r.offset afterCompressed = (place, left))
    (hleft : ∀ rest, left = some rest → rest = []) :
    r.withExtra (extra offset).length (extra offset)
      = .ok { r with size, compressedSize, offset := place } := by
  have hfour : (Bytes.ofNatLE 2 longSizesField ++ Bytes.ofNatLE 2 8).length = 4 := rfl
  have hlength : (extra offset).length = 11 + 1 := by
    unfold extra
    rw [if_pos hlong, List.length_append, hfour, Bytes.length_ofNatLE]
  have hfield : (extra offset).drop 4 = Bytes.ofNatLE 8 offset := by
    unfold extra
    rw [if_pos hlong]
    exact List.drop_left' hfour
  have hkind : Bytes.toNatLE ((extra offset).take 2) = longSizesField := by
    unfold extra
    rw [if_pos hlong]
    rfl
  rw [hlength, Record.withExtra, if_neg (by omega)]
  dsimp only
  rw [hkind, if_pos rfl, hfield, hsize]
  dsimp only
  rw [hcompressed]
  dsimp only
  rw [hplace]
  cases left with
  | none => rfl
  | some rest =>
    dsimp only
    rw [hleft rest rfl, List.drop_nil, Record.withExtra, if_pos (by decide)]

/-- An offset that does not fit into a record is in its extra field. -/
private theorem withExtra_extra (hoffset : offset < 2 ^ 64) (hunmarked : p.IsUnmarked offset) :
    (p.record (min offset maxShort)).withExtra (extra offset).length (extra offset)
      = .ok (p.record offset) := by
  by_cases hlong : maxShort < offset
  · obtain ⟨hsize, hcontents⟩ := hunmarked hlong
    rw [Nat.min_eq_right (Nat.le_of_lt hlong)]
    exact withExtra_of_long hlong (takeLong_of_ne hsize _) (takeLong_of_ne hcontents _)
      (takeLong_ofNatLE hoffset) fun rest hrest => (Option.some.inj hrest).symm
  · have hmin : min offset maxShort = offset := Nat.min_eq_left (Nat.not_lt.mp hlong)
    unfold extra
    rw [if_neg hlong, hmin]
    rfl

/-- A size that looks as if it were long takes the offset from the extra
field. What is left for the offset is the value that refers to the field,
and the entry is looked for there. -/
private theorem withExtra_extra_of_marked (hoffset : offset < 2 ^ 64)
    (hmarked : ¬p.IsUnmarked offset) :
    ∃ r, (p.record (min offset maxShort)).withExtra (extra offset).length (extra offset) = .ok r
      ∧ r.method = deflatedMethod ∧ r.offset = maxShort := by
  obtain ⟨hlong, hsizes⟩ := Classical.not_imp.mp hmarked
  -- once the one long number is taken, nothing is left for the offset
  have hlost : ∀ left : Option Bytes, left = some [] ∨ left = none →
      takeLong maxShort left = (maxShort, none) := by
    rintro left (rfl | rfl)
    · rfl
    · rfl
  have hnone : ∀ rest : Bytes, none = some rest → rest = [] := by rintro rest ⟨⟩
  rw [Nat.min_eq_right (Nat.le_of_lt hlong)]
  -- The number goes to the first field that carries the marker, and the offset comes last.
  by_cases hsize : p.size = maxShort
  · have hfirst : takeLong (p.record maxShort).size (some (Bytes.ofNatLE 8 offset))
        = (offset, some []) := by
      rw [← takeLong_ofNatLE hoffset, ← hsize]
      rfl
    by_cases hcontents : p.contents.length = maxShort
    · have hsecond : takeLong (p.record maxShort).compressedSize (some []) = (maxShort, none) := by
        rw [← hlost (some []) (.inl rfl), ← hcontents]
        rfl
      exact ⟨_, withExtra_of_long hlong hfirst hsecond (hlost none (.inr rfl)) hnone, rfl, rfl⟩
    · exact ⟨_, withExtra_of_long hlong hfirst (takeLong_of_ne hcontents [])
        (hlost (some []) (.inl rfl)) hnone, rfl, rfl⟩
  · have hcontents : p.contents.length = maxShort :=
      Decidable.byContradiction fun hne => hsizes ⟨hsize, hne⟩
    have hsecond : takeLong (p.record maxShort).compressedSize (some (Bytes.ofNatLE 8 offset))
        = (offset, some []) := by
      rw [← takeLong_ofNatLE hoffset, ← hcontents]
      rfl
    exact ⟨_, withExtra_of_long hlong (takeLong_of_ne hsize _) hsecond
      (hlost (some []) (.inl rfl)) hnone, rfl, rfl⟩

/-- The directory record of such an entry comes back with a wrong offset. -/
theorem fullRecordAt_of_marked (hp : p.Fits) (hoffset : offset < 2 ^ 64)
    (hmarked : ¬p.IsUnmarked offset) (h : image.Has position (p.directoryRecord offset)) :
    ∃ r, fullRecordAt image position 0 = .ok (r, (p.directoryRecord offset).length)
      ∧ r.offset = maxShort := by
  obtain ⟨r, hextra, hmethod, hplace⟩ := withExtra_extra_of_marked hoffset hmarked
  refine ⟨{ r with offset := r.offset + 0 }, ?_, hplace⟩
  unfold fullRecordAt
  rw [recordAt?_directoryRecord hp h]
  dsimp only
  rw [hextra]
  dsimp only [bind, Except.bind]
  rw [if_neg (by rw [hmethod]; decide), if_neg (by rw [hplace]; decide)]

/-- A directory record comes back with the offset of the entry. -/
theorem fullRecordAt_directoryRecord (hp : p.Fits) (hoffset : offset < 2 ^ 64)
    (hunmarked : p.IsUnmarked offset) (h : image.Has position (p.directoryRecord offset)) :
    fullRecordAt image position 0 = .ok (p.record offset, (p.directoryRecord offset).length) := by
  have hmethod : ¬(p.record offset).method = encryptedMethod := by
    show ¬deflatedMethod = encryptedMethod
    decide
  have hplace : ¬2 ^ 64 ≤ (p.record offset).offset + 0 := Nat.not_le.mpr hoffset
  unfold fullRecordAt
  rw [recordAt?_directoryRecord hp h]
  dsimp only
  rw [withExtra_extra hoffset hunmarked]
  dsimp only [bind, Except.bind]
  rw [if_neg hmethod, if_neg hplace]
  rfl

end Packed

-- ========================================================= end records

section

variable {count size offset : Nat} {e : EndRecord}

/-- The end record has a fixed length. -/
theorem length_shortEnd (count size offset : Nat) :
    (shortEnd count size offset).length = endRecordSize := by
  unfold shortEnd
  simp only [List.length_append, Bytes.length_ofNatLE]
  rfl

theorem length_longEnd (count size offset : Nat) :
    (longEnd count size offset).length = longEndRecordSize + locatorSize := by
  unfold longEnd
  simp only [List.length_append, Bytes.length_ofNatLE]
  rfl

/-- The end record of a directory, as it is read. -/
def endRecord (position count size offset : Nat) : EndRecord where
  position
  disk := 0
  directoryDisk := 0
  entriesHere := min count maxShortCount
  entries := min count maxShortCount
  size := min size maxShort
  offset := min offset maxShort
  commentLength := 0

/-- An end record comes back, with the numbers that fit into it. -/
theorem endAt?_shortEnd (h : image.Has position (shortEnd count size offset)) :
    endAt? image position = some (endRecord position count size offset) := by
  have hcount : min count maxShortCount < 256 ^ 2 :=
    Nat.lt_of_le_of_lt (Nat.min_le_right _ _) (by decide)
  have hshort : ∀ n, min n maxShort < 256 ^ 4 := fun n =>
    Nat.lt_of_le_of_lt (Nat.min_le_right _ _) (by decide)
  rw [← List.append_nil (shortEnd count size offset)] at h
  unfold shortEnd at h
  simp only [List.append_assoc] at h
  obtain ⟨-, h⟩ := h.signature rfl
  obtain ⟨hdisk, h⟩ := h.number (by decide)
  obtain ⟨hdirectoryDisk, h⟩ := h.number (by decide)
  obtain ⟨hhere, h⟩ := h.number hcount
  obtain ⟨hentries, h⟩ := h.number hcount
  obtain ⟨hsize, h⟩ := h.number (hshort size)
  obtain ⟨hoffset, h⟩ := h.number (hshort offset)
  obtain ⟨hcomment, h⟩ := h.number (by decide)
  unfold endAt?
  refine bind_of_eq_some hdisk ?_
  refine bind_of_eq_some hdirectoryDisk ?_
  refine bind_of_eq_some hhere ?_
  refine bind_of_eq_some hentries ?_
  refine bind_of_eq_some hsize ?_
  refine bind_of_eq_some hoffset ?_
  refine bind_of_eq_some hcomment ?_
  exact bind_of_eq_some h.slice? rfl

/-- A long end record and its locator stand at a position. -/
structure LongEndAt (image : Image) (position count size offset : Nat) : Prop where
  signature : image.slice? position 4 = some longEndSignature
  disk : image.number? (position + 16) 4 = some 0
  directoryDisk : image.number? (position + 20) 4 = some 0
  entries : image.number? (position + 32) 8 = some count
  start : image.number? (position + 48) 8 = some offset
  locator : image.slice? (position + 56) 4 = some locatorSignature
  locatorDisk : image.number? (position + 60) 4 = some 0
  place : image.number? (position + 64) 8 = some (offset + size)

/-- The long end record and its locator are read where they stand. -/
theorem longEndAt_of_has (hcount : count < 2 ^ 64) (hplace : offset + size < 2 ^ 64)
    (h : image.Has position (longEnd count size offset)) :
    LongEndAt image position count size offset := by
  have hsize : size < 256 ^ 8 := by omega
  have hoffset : offset < 256 ^ 8 := by omega
  unfold longEnd at h
  simp only [List.append_assoc] at h
  obtain ⟨hsignature, h⟩ := h.signature rfl
  obtain ⟨-, h⟩ := h.number (by decide)
  obtain ⟨-, h⟩ := h.number (by decide)
  obtain ⟨-, h⟩ := h.number (by decide)
  obtain ⟨hdisk, h⟩ := h.number (by decide)
  obtain ⟨hdirectoryDisk, h⟩ := h.number (by decide)
  obtain ⟨-, h⟩ := h.number hcount
  obtain ⟨hentries, h⟩ := h.number hcount
  obtain ⟨-, h⟩ := h.number hsize
  obtain ⟨hstart, h⟩ := h.number hoffset
  obtain ⟨hlocator, h⟩ := h.signature rfl
  obtain ⟨hlocatorDisk, h⟩ := h.number (by decide)
  obtain ⟨hend, -⟩ := h.number hplace
  exact ⟨hsignature, hdisk, hdirectoryDisk, hentries, hstart, hlocator, hlocatorDisk, hend⟩

/-- A locator right before the end of the file is found. -/
theorem locator?_of_longEndAt (hcomment : e.commentLength = 0)
    (hsize : image.size = position + 98) (h : LongEndAt image position count size offset) :
    locator? image e = some (0, offset + size) := by
  have hstart : image.size - (locatorSize + endRecordSize + 0) = position + 56 := by
    rw [hsize]
    rfl
  have hlong : ¬image.size < locatorSize + endRecordSize + 0 := by
    rw [hsize]
    exact Nat.not_lt.mpr (Nat.le_trans (by decide) (Nat.le_add_left 98 position))
  unfold locator?
  rw [hcomment]
  dsimp only
  rw [if_neg hlong, hstart, if_neg fun hne => hne h.locator]
  refine bind_of_eq_some h.locatorDisk ?_
  exact bind_of_eq_some h.place rfl

/-- A long end record that stands where its locator says comes back. -/
theorem longDirectory_of_longEndAt (hposition : e.position = position + 76)
    (hoffset : offset < 2 ^ 64) (h : LongEndAt image position count size offset) :
    longDirectory image e position = .ok ⟨offset, count, 0⟩ := by
  have hroom : ¬e.position < longEndRecordSize + 4 := by
    rw [hposition]
    exact Nat.not_lt.mpr (Nat.le_trans (by decide) (Nat.le_add_left 76 position))
  -- the record stands where the search begins
  have htries : e.position - (longEndRecordSize + 4) + 1 - position = 16 + 1 := by
    rw [hposition]
    unfold longEndRecordSize
    omega
  unfold longDirectory
  rw [if_neg hroom]
  dsimp only
  rw [htries, findLongEnd?, if_pos h.signature]
  dsimp only
  rw [h.disk, h.directoryDisk, h.entries, h.start]
  dsimp only [bind, Option.bind]
  rw [Nat.sub_self, Nat.add_zero, if_neg fun hne => hne rfl, if_neg (Nat.not_le.mpr hoffset)]

end

end RouterSeed.Zip

/-
Archives are read back.

The reader finds the directory from the end of the archive
(`directory_of_parts`), and in it one record for each entry
(`records_directoryPart`). The offset in a record is the sum of the
lengths of the entries before it, so the local part of the entry stands
there (`has_localPart`), and its data are inflated, checked and named as
they were (`entry_record`). Both walks are inductions on the entries with
the position that has been reached so far; `read_archive` puts them
together.

`Fits` collects what the format has no room for, and a locator that
nobody wrote. Whether the sizes of the entries look like a mark is kept
apart from it (`Unmarked`): where they do, everything up to the directory
is found all the same (`isArchiveOf`), which is what Marked starts from.
-/
import RouterSeed.Deflate.Inflate
import RouterSeed.Proofs.Text.Utf8
import RouterSeed.Proofs.Zip.Layout

namespace RouterSeed

-- =============================================================== names

/-- The lower half of the code page is ASCII. -/
private theorem Text.CodePage437.toChar_ofNat : ∀ n < 0x80, toChar
    (UInt8.ofNat n) = Char.ofNat n := by
  decide +kernel

/-- Code page 437 is ASCII in its lower half. -/
private theorem Text.CodePage437.decode_ofString {text : String}
    (h : text.toList.all (fun c => c.toNat < 128) = true) : decode (Bytes.ofString text) = text := by
  have hchars : ∀ chars : List Char, (∀ c ∈ chars, c.toNat < 128) →
      (chars.flatMap String.utf8EncodeChar).map toChar = chars := by
    intro chars hall
    induction chars with
    | nil => rfl
    | cons c chars ih =>
      have hc := hall c List.mem_cons_self
      have hbytes := Text.utf8EncodeChar_ofNat c.toNat hc
      rw [Char.ofNat_toNat] at hbytes
      rw [List.flatMap_cons, List.map_append, hbytes, ih fun c hc => hall c (List.mem_cons_of_mem _ hc),
        List.map_singleton, toChar_ofNat _ hc, Char.ofNat_toNat]
      rfl
  have hall : ∀ c ∈ text.toList, c.toNat < 128 := fun c hc =>
    of_decide_eq_true (List.all_eq_true.mp h c hc)
  unfold decode Bytes.ofString
  rw [hchars _ hall, String.ofList_toList]

namespace Zip

variable {compress : Bytes → Bytes} {entries : List Entry} {e : Entry} {image : Image}
  {offset position start : Nat}

/-- A name is marked as UTF-8 unless both ways to read it agree. -/
private theorem nameText_record (compress : Bytes → Bytes) (e : Entry) (offset : Nat) :
    ((e.packWith compress).record offset).nameText = e.name := by
  have hname : ((e.packWith compress).record offset).name = Bytes.ofString e.name := rfl
  unfold Record.nameText
  rw [hname]
  -- The flag tells whether the name is read as UTF-8 or in the code page, and both read
  -- ASCII alike.
  cases hascii : e.name.toList.all fun c => c.toNat < 128 with
  | true =>
    have hflags : ((e.packWith compress).record offset).flags = 0 := by
      unfold Packed.record Entry.packWith
      rw [hascii]
      rfl
    rw [hflags, if_neg (by decide), Text.CodePage437.decode_ofString hascii]
  | false =>
    have hflags : ((e.packWith compress).record offset).flags = utf8Flag := by
      unfold Packed.record Entry.packWith
      rw [hascii]
      rfl
    rw [hflags, if_pos (by decide), Text.decodeLossy_ofString]

-- ============================================================= entries

/-- An entry comes back from its local part. -/
private theorem entry_record (hinverse : ∀ data, Deflate.inflate? (compress data) = some data)
    (hp : (e.packWith compress).Fits)
    (h : image.Has offset ((e.packWith compress).localPart offset)) :
    ((e.packWith compress).record offset).entry image = .ok e := by
  obtain ⟨start, hstart, hcontents⟩ := Packed.dataStart?_localPart hp h
  have hflags : ¬((e.packWith compress).record offset).flags % 2 = encryptedFlag := by
    unfold Packed.record
    dsimp only
    split <;> decide
  have hplace : ((e.packWith compress).record offset).offset = offset := rfl
  have hmethod : ((e.packWith compress).record offset).method = deflatedMethod := rfl
  have hinflated : Deflate.inflate? (image.upTo start ((e.packWith compress).record offset).compressedSize)
      = some e.data := by
    refine (congrArg Deflate.inflate? hcontents.upTo).trans ?_
    exact hinverse e.data
  have hchecksum : (crc32 e.data).toNat = ((e.packWith compress).record offset).checksum := rfl
  unfold Record.entry
  rw [if_neg hflags, hplace, hstart]
  dsimp only
  rw [hmethod, if_neg (by decide), if_pos rfl, hinflated]
  dsimp only [bind, Except.bind]
  rw [if_pos hchecksum, nameText_record]
  rfl

/-- Every local part stands at the offset that its entry got. -/
private theorem has_localPart {packed : List Packed} {more : Bytes}
    (h : image.Has start (((place start packed).map fun x => x.1.localPart x.2).flatten ++ more)) :
    ∀ x ∈ place start packed, image.Has x.2 (x.1.localPart x.2) := by
  induction packed generalizing start with
  | nil => exact fun x hx => absurd hx List.not_mem_nil
  | cons p packed ih =>
    rw [place, List.map_cons, List.flatten_cons, List.append_assoc] at h
    obtain ⟨hfirst, hrest⟩ := h.split
    rw [Packed.length_localPart] at hrest
    intro x hx
    rcases List.mem_cons.mp hx with rfl | hx
    · exact hfirst
    · exact ih hrest x hx

/-- Every entry is found behind its record. -/
private theorem mapM_entry (hinverse : ∀ data, Deflate.inflate? (compress data) = some data)
    (h : ∀ x ∈ place start (entries.map (Entry.packWith compress)),
      x.1.Fits ∧ image.Has x.2 (x.1.localPart x.2)) :
    ((place start (entries.map (Entry.packWith compress))).map fun x => x.1.record x.2).mapM
      (fun r => r.entry image) = .ok entries := by
  induction entries generalizing start with
  | nil => rfl
  | cons e entries ih =>
    rw [List.map_cons, place] at h ⊢
    obtain ⟨hfits, hlocal⟩ := h _ List.mem_cons_self
    rw [List.map_cons, List.mapM_cons, entry_record hinverse hfits hlocal,
      ih fun x hx => h x (List.mem_cons_of_mem _ hx)]
    rfl

-- =========================================================== directory

/-- The directory of the entries with their offsets. -/
def directoryPart (placed : List (Packed × Nat)) : Bytes :=
  (placed.map fun x => x.1.directoryRecord x.2).flatten

/-- The records of a directory are read in their order. -/
private theorem records_directoryPart {placed : List (Packed × Nat)} {more : Bytes}
    (hplaced : ∀ x ∈ placed, x.1.Fits ∧ x.2 < 2 ^ 64 ∧ x.1.IsUnmarked x.2)
    (h : image.Has position (directoryPart placed ++ more)) :
    records image 0 placed.length position = .ok (placed.map fun x => x.1.record x.2) := by
  induction placed generalizing position with
  | nil => rfl
  | cons x placed ih =>
    obtain ⟨hfits, hoffset, hmarked⟩ := hplaced x List.mem_cons_self
    unfold directoryPart at h
    rw [List.map_cons, List.flatten_cons, List.append_assoc] at h
    obtain ⟨hfirst, hrest⟩ := h.split
    rw [List.length_cons, records, Packed.fullRecordAt_directoryRecord hfits hoffset hmarked hfirst]
    dsimp only [bind, Except.bind]
    rw [ih (fun x hx => hplaced x (List.mem_cons_of_mem _ hx)) hrest]
    rfl

/-- The bytes of a locator stand where the reader looks for one. -/
def CarriesLocator (archive : Bytes) : Prop :=
  42 ≤ archive.length ∧ Bytes.slice (archive.length - 42) 4 archive = [0x50, 0x4B, 0x06, 0x07]

instance (archive : Bytes) : Decidable (CarriesLocator archive) := by
  unfold CarriesLocator
  infer_instance

/-- Where no locator stands, none is found. -/
private theorem locator?_eq_none {record : EndRecord} (hcomment : record.commentLength = 0)
    (h : ¬CarriesLocator image.toList) : locator? image record = none := by
  unfold locator?
  rw [hcomment]
  dsimp only
  by_cases hshort : image.size < locatorSize + endRecordSize + 0
  · rw [if_pos hshort]
  · have hlong : locatorSize + endRecordSize ≤ image.size := Nat.not_lt.mp hshort
    have hfour : image.size - (locatorSize + endRecordSize + 0) + 4 ≤ image.size := by
      unfold locatorSize endRecordSize at *
      omega
    have hslice : image.slice? (image.size - (locatorSize + endRecordSize + 0)) 4
        ≠ some locatorSignature := by
      unfold Image.slice?
      rw [if_pos hfour, Array.toList_extract, List.extract_eq_take_drop, Nat.add_sub_cancel_left]
      exact fun hsome => h ⟨hlong, Option.some.inj hsome⟩
    rw [if_neg hshort, if_pos hslice]

private theorem findEnd?_of_slice? (h : image.slice? position 4 = some endSignature) (tries : Nat) :
    findEnd? image (tries + 1) position = some position := by
  unfold findEnd?
  rw [if_pos h]

section

variable {count size : Nat}

/-- The end record that closes a file is the one that counts. -/
private theorem findEnd?_shortEnd (h : image.Has position (shortEnd count size offset))
    (hend : image.size = position + endRecordSize) :
    (findEnd? image 65536 (image.size - endRecordSize)).bind (endAt? image)
      = some (endRecord position count size offset) := by
  have hrecord := endAt?_shortEnd h
  unfold shortEnd at h
  simp only [List.append_assoc] at h
  rw [hend, Nat.add_sub_cancel, findEnd?_of_slice? (h.signature rfl).1 65535, Option.bind_some,
    hrecord]

/-- Where a locator refers to a long end record, that one describes the
directory. -/
private theorem directory_of_locator {start : Nat}
    (h : image.Has position (shortEnd count size offset))
    (hend : image.size = position + endRecordSize)
    (hlocator : locator? image (endRecord position count size offset) = some (0, start)) :
    directory image = longDirectory image (endRecord position count size offset) start := by
  have hroom : ¬image.size < endRecordSize := by omega
  unfold directory
  rw [if_neg hroom, findEnd?_shortEnd h hend]
  dsimp only
  rw [hlocator]
  dsimp only
  rw [if_neg (by simp [endRecord]), if_neg (by simp [endRecord])]

/-- Without a locator the end record says where the directory is, if its
numbers fit into it. -/
private theorem directory_of_no_locator (h : image.Has (offset + size) (shortEnd count size offset))
    (hend : image.size = offset + size + endRecordSize)
    (hlocator : locator? image (endRecord (offset + size) count size offset) = none)
    (hshort : needsLongEnd count size offset = false) :
    directory image = .ok ⟨offset, count, 0⟩ := by
  have hroom : ¬image.size < endRecordSize := by omega
  unfold needsLongEnd at hshort
  simp only [Bool.or_eq_false_iff, decide_eq_false_iff_not, Nat.not_lt, Nat.max_le] at hshort
  obtain ⟨hcount, hsize, hoffset⟩ := hshort
  have hrecord : endRecord (offset + size) count size offset
      = ⟨offset + size, 0, 0, count, count, size, offset, 0⟩ := by
    unfold endRecord
    rw [Nat.min_eq_left hcount, Nat.min_eq_left hsize, Nat.min_eq_left hoffset]
  unfold directory
  rw [if_neg hroom, findEnd?_shortEnd h hend]
  dsimp only
  rw [hlocator, hrecord]
  dsimp only
  rw [if_neg (by simp), if_neg (by omega), Nat.add_sub_cancel, Nat.sub_self]

end

/-- The directory of an archive is found from its end. -/
private theorem directory_of_parts {locals records : Bytes} {count : Nat}
    (himage : image.toList = locals ++ records
      ++ (if needsLongEnd count records.length locals.length then
            longEnd count records.length locals.length
          else [])
      ++ shortEnd count records.length locals.length)
    (hcount : count < 2 ^ 64) (hsize : image.size < 2 ^ 64)
    (hlocator : CarriesLocator image.toList →
      needsLongEnd count records.length locals.length = true) :
    directory image = .ok ⟨locals.length, count, 0⟩ := by
  have hlength := congrArg List.length himage
  rw [Array.length_toList, List.length_append, List.length_append, List.length_append,
    length_shortEnd] at hlength
  -- Without a long end there is no locator to be found; with one, the search finds its own.
  cases hlong : needsLongEnd count records.length locals.length with
  | false =>
    have hnone : ¬CarriesLocator image.toList := fun hcarries =>
      Bool.false_ne_true (hlong.symm.trans (hlocator hcarries))
    rw [hlong, if_neg Bool.false_ne_true] at himage hlength
    have hends : image.Has (locals.length + records.length)
        (shortEnd count records.length locals.length) :=
      ⟨locals ++ records, [], by rw [himage, List.append_nil, List.append_nil], List.length_append⟩
    exact directory_of_no_locator hends hlength (locator?_eq_none rfl hnone) hlong
  | true =>
    rw [hlong, if_pos rfl] at himage hlength
    have hstands : image.Has (locals.length + records.length)
        (longEnd count records.length locals.length) :=
      ⟨locals ++ records, shortEnd count records.length locals.length,
        by rw [himage, List.append_assoc], List.length_append⟩
    have hends : image.Has (locals.length + records.length
        + (longEnd count records.length locals.length).length)
        (shortEnd count records.length locals.length) :=
      ⟨locals ++ records ++ longEnd count records.length locals.length, [],
        by rw [himage, List.append_nil], by rw [List.length_append, List.length_append]⟩
    rw [length_longEnd] at hlength hends
    have hrecord := longEndAt_of_has hcount (by omega) hstands
    rw [directory_of_locator hends hlength (locator?_of_longEndAt rfl hlength hrecord)]
    exact longDirectory_of_longEndAt rfl (by omega) hrecord

-- ============================================================= archives

/-- The entries with the offsets they get in their archive. -/
def placed (compress : Bytes → Bytes) (entries : List Entry) : List (Packed × Nat) :=
  place 0 (entries.map (Entry.packWith compress))

/-- The local parts of the entries with their offsets. -/
def localParts (placed : List (Packed × Nat)) : Bytes :=
  (placed.map fun x => x.1.localPart x.2).flatten

/-- The archive of the entries has a long end record and its locator. -/
def WritesLocator (compress : Bytes → Bytes) (entries : List Entry) : Prop :=
  needsLongEnd entries.length (directoryPart (placed compress entries)).length
    (localParts (placed compress entries)).length = true

instance (compress : Bytes → Bytes) (entries : List Entry) :
    Decidable (WritesLocator compress entries) := by
  unfold WritesLocator
  infer_instance

/-- What is written when no entry is too long. -/
def archive (compress : Bytes → Bytes) (entries : List Entry) : Bytes :=
  layout (entries.map (Entry.packWith compress))

/-- The format has room for the entries, and their archive carries no
locator that was not written. -/
structure Fits (compress : Bytes → Bytes) (entries : List Entry) : Prop where
  names : ∀ e ∈ entries, (Bytes.ofString e.name).length ≤ 65535
  data : ∀ e ∈ entries, e.data.length < 2 ^ 32
  contents : ∀ e ∈ entries, (compress e.data).length < 2 ^ 32
  length : (archive compress entries).length < 2 ^ 64
  locator : CarriesLocator (archive compress entries) → WritesLocator compress entries

/-- No entry that starts beyond four bytes of offset has a size, before or
after it was compressed, that says to look for a long one. -/
def Unmarked (compress : Bytes → Bytes) (entries : List Entry) : Prop :=
  ∀ x ∈ placed compress entries, x.1.IsUnmarked x.2

instance (compress : Bytes → Bytes) (entries : List Entry) :
    Decidable (Unmarked compress entries) := by
  unfold Unmarked
  infer_instance

private theorem length_place (start : Nat) (packed : List Packed) :
    (place start packed).length = packed.length := by
  induction packed generalizing start with
  | nil => rfl
  | cons p packed ih => rw [place, List.length_cons, List.length_cons, ih]

theorem length_placed (compress : Bytes → Bytes) (entries : List Entry) :
    (placed compress entries).length = entries.length := by
  rw [placed, length_place, List.length_map]

private theorem fst_mem_of_mem_place {packed : List Packed} {x : Packed × Nat}
    (h : x ∈ place start packed) :
    x.1 ∈ packed := by
  induction packed generalizing start with
  | nil => exact absurd h List.not_mem_nil
  | cons p packed ih =>
    rcases List.mem_cons.mp h with rfl | h
    · exact List.mem_cons_self
    · exact List.mem_cons_of_mem p (ih h)

/-- An entry is too large with its data or with what they are compressed to. -/
private theorem any_isOversized_iff (compress : Bytes → Bytes) (entries : List Entry) :
    (entries.map (Entry.packWith compress)).any Packed.isOversized = true
      ↔ ∃ e ∈ entries, 2 ^ 32 ≤ e.data.length ∨ 2 ^ 32 ≤ (compress e.data).length := by
  rw [List.any_map, List.any_eq_true]
  refine exists_congr fun e => and_congr_right fun _ => ?_
  show (decide (maxShort < e.data.length) || decide (maxShort < (compress e.data).length)) = true ↔ _
  rw [Bool.or_eq_true, decide_eq_true_iff, decide_eq_true_iff]
  exact Iff.rfl

/-- Writing fails exactly if an entry is too long, before or after it was
compressed. -/
theorem writeWith_eq_error_iff {failure : Failure} :
    writeWith compress entries = .error failure ↔ failure = .io .oversizedEntry
      ∧ ∃ e ∈ entries, 2 ^ 32 ≤ e.data.length ∨ 2 ^ 32 ≤ (compress e.data).length := by
  rw [← any_isOversized_iff]
  unfold writeWith
  dsimp only
  split
  next hlong =>
    rw [hlong]
    simp [eq_comm]
  next hshort => exact iff_of_false nofun fun h => hshort h.2

/-- An archive that fits is written. -/
theorem Fits.writeWith_eq (h : Fits compress entries) :
    writeWith compress entries = .ok (archive compress entries) := by
  unfold writeWith
  dsimp only
  rw [if_neg]
  · rfl
  rw [any_isOversized_iff]
  rintro ⟨e, he, hdata | hcontents⟩
  · exact Nat.not_le.mpr (h.data e he) hdata
  · exact Nat.not_le.mpr (h.contents e he) hcontents

/-- An archive consists of the entries, the directory, a long end where one
is needed, and the end. -/
theorem archive_eq (compress : Bytes → Bytes) (entries : List Entry) :
    archive compress entries
      = localParts (placed compress entries) ++ directoryPart (placed compress entries)
        ++ (if needsLongEnd entries.length (directoryPart (placed compress entries)).length
              (localParts (placed compress entries)).length then
            longEnd entries.length (directoryPart (placed compress entries)).length
              (localParts (placed compress entries)).length
          else [])
        ++ shortEnd entries.length (directoryPart (placed compress entries)).length
          (localParts (placed compress entries)).length := by
  unfold archive layout
  rw [List.length_map]
  rfl

/-- Each entry of an archive that fits has a name and sizes that fit its
headers. -/
theorem Fits.packed (h : Fits compress entries) {x : Packed × Nat}
    (hx : x ∈ placed compress entries) : x.1.Fits := by
  obtain ⟨e, he, hpacked⟩ := List.mem_map.mp (fst_mem_of_mem_place hx)
  rw [← hpacked]
  exact ⟨h.names e he, Nat.le_of_lt_succ (h.data e he), Nat.le_of_lt_succ (h.contents e he)⟩

private theorem length_le_length_localParts (compress : Bytes → Bytes) (entries : List Entry) :
    entries.length ≤ (localParts (placed compress entries)).length := by
  have hnonempty : ∀ part ∈ (placed compress entries).map fun x => x.1.localPart x.2, part ≠ [] := by
    intro part hpart
    obtain ⟨x, -, rfl⟩ := List.mem_map.mp hpart
    exact List.cons_ne_nil _ _
  have hparts := Bytes.length_le_length_flatten hnonempty
  rwa [List.length_map, length_placed] at hparts

/-- What the reader finds of the entries before it looks at any of them. -/
structure IsArchiveOf (image : Image) (compress : Bytes → Bytes) (entries : List Entry) : Prop where
  found : directory image = .ok ⟨(localParts (placed compress entries)).length, entries.length, 0⟩
  records : ∃ more, image.Has (localParts (placed compress entries)).length
    (directoryPart (placed compress entries) ++ more)
  entries : ∀ x ∈ placed compress entries, x.1.Fits ∧ x.2 < 2 ^ 64
    ∧ image.Has x.2 (x.1.localPart x.2)

/-- The directory of an archive is found, and all parts are where they were
put. -/
theorem isArchiveOf (h : Fits compress entries) :
    IsArchiveOf (archive compress entries).toArray compress entries := by
  obtain ⟨image, himage⟩ : ∃ image : Image, image = (archive compress entries).toArray := ⟨_, rfl⟩
  have hwritten : image.toList = archive compress entries := by rw [himage]
  have hsize : image.size < 2 ^ 64 := by
    rw [← Array.length_toList, hwritten]
    exact h.length
  have hcount : entries.length ≤ image.size := by
    rw [← Array.length_toList, hwritten, archive_eq]
    have := length_le_length_localParts compress entries
    simp only [List.length_append]
    omega
  -- The local parts come first, the directory right behind them.
  have hlocals : image.Has 0 (localParts (placed compress entries) ++ _) :=
    ⟨[], [], by rw [hwritten, archive_eq, List.append_assoc, List.append_assoc, List.append_nil,
      List.nil_append], rfl⟩
  have hrecords := hlocals.split.2
  rw [Nat.zero_add] at hrecords
  have hparts := has_localPart hlocals
  rw [← himage]
  constructor
  case found =>
    exact directory_of_parts (hwritten.trans (archive_eq compress entries)) (by omega) hsize
      (by rw [hwritten]; exact h.locator)
  case records => exact ⟨_, hrecords⟩
  case entries =>
    intro x hx
    have hinside := (hparts x hx).length_le
    exact ⟨h.packed hx, by omega, hparts x hx⟩

/-- The entries of an archive are those that were written. -/
theorem read_archive (hinverse : ∀ data, Deflate.inflate? (compress data) = some data)
    (h : Fits compress entries) (unmarked : Unmarked compress entries) :
    read (archive compress entries) = .ok entries := by
  obtain ⟨hfound, ⟨more, hrecords⟩, hentries⟩ := isArchiveOf h
  have hall := records_directoryPart
    (fun x hx => ⟨(hentries x hx).1, (hentries x hx).2.1, unmarked x hx⟩) hrecords
  rw [length_placed] at hall
  unfold read
  dsimp only
  rw [hfound]
  dsimp only [bind, Except.bind]
  rw [hall]
  dsimp only
  exact mapM_entry hinverse fun x hx => ⟨(hentries x hx).1, (hentries x hx).2.2⟩

/-- A compressor matters for the data of the entries only. -/
theorem placed_congr {other : Bytes → Bytes} (same : ∀ e ∈ entries, compress e.data = other e.data) :
    placed compress entries = placed other entries := by
  refine congrArg (place 0) (List.map_congr_left fun e he => ?_)
  unfold Entry.packWith
  rw [same e he]

/-- Whether it fits depends on what the data are compressed to, and on
nothing else of the compressor. -/
theorem Fits.congr {other : Bytes → Bytes} (same : ∀ e ∈ entries, compress e.data = other e.data)
    (h : Fits other entries) : Fits compress entries := by
  have hplaced := placed_congr same
  have hwritten : archive compress entries = archive other entries := by
    rw [archive_eq, hplaced, ← archive_eq]
  refine ⟨h.names, h.data, fun e he => same e he ▸ h.contents e he, hwritten ▸ h.length, ?_⟩
  unfold WritesLocator
  rw [hwritten, hplaced]
  exact h.locator

end Zip

end RouterSeed

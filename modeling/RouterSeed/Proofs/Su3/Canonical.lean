/-
The one form that reading and writing again brings a container into.

A header has bytes that no field is kept in. They are passed over when a
container is read and written as zero, and a short version is read as it
is and written padded. So what comes out of the trip is what went in
with those bytes cleared and the padding put in (`canonicalForm`), which
is said here of byte strings alone. Nothing else is lost: every other
byte of the header is read into a field and written back from it
(`header_contents`), and the four fields are all that follows.

A byte string is its own canonical form if it has nothing to clear and
nothing to pad, and those are all that is ever written
(`isCanonical_of_encode`).

Consumed by Coverage, which asks what the signature of a container that
was read covers.
-/
import RouterSeed.Proofs.Su3.RoundTrip

namespace RouterSeed.Su3.File

-- ======================================================= unused bytes

/-- Where a header has bytes that no field is kept in. -/
def unusedPositions : List Nat := [6, 12, 14, 24, 26] ++ List.range' 28 12

/-- The bytes with the unused ones of the header cleared. -/
def clearUnused (data : Bytes) : Bytes :=
  data.mapIdx fun position byte => if position ∈ unusedPositions then 0 else byte

/-- Clearing changes no length. -/
@[simp] theorem length_clearUnused (data : Bytes) :
    (clearUnused data).length = data.length := by
  unfold clearUnused
  exact List.length_mapIdx

/-- The unused bytes become zero, and the others stay. -/
theorem getElem?_clearUnused (data : Bytes) (position : Nat) :
    (clearUnused data)[position]?
      = data[position]?.map fun byte => if position ∈ unusedPositions then 0 else byte := by
  unfold clearUnused
  exact List.getElem?_mapIdx

private theorem getElem?_slice (start length : Nat) (data : Bytes) (i : Nat) :
    (Bytes.slice start length data)[i]? = if i < length then data[start + i]? else none := by
  unfold Bytes.slice
  rw [List.getElem?_take, List.getElem?_drop]

/-- Where all bytes are used nothing is cleared. -/
theorem slice_clearUnused_of_used {start length : Nat}
    (used : ∀ i < length, start + i ∉ unusedPositions) (data : Bytes) :
    Bytes.slice start length (clearUnused data) = Bytes.slice start length data := by
  apply List.ext_getElem?
  intro i
  rw [getElem?_slice, getElem?_slice, getElem?_clearUnused]
  by_cases hi : i < length
  · rw [if_pos hi, if_pos hi]
    simp only [used i hi, if_false, Option.map_id']
  · rw [if_neg hi, if_neg hi]

/-- Where no byte is used all of them are cleared. -/
private theorem slice_clearUnused_of_unused {start length : Nat} {data : Bytes}
    (unused : ∀ i < length, start + i ∈ unusedPositions) (h : start + length ≤ data.length) :
    Bytes.slice start length (clearUnused data) = List.replicate length 0 := by
  apply List.ext_getElem?
  intro i
  rw [getElem?_slice, getElem?_clearUnused, List.getElem?_replicate]
  by_cases hi : i < length
  · rw [if_pos hi, if_pos hi, List.getElem?_eq_getElem (by omega)]
    simp only [unused i hi, if_true, Option.map_some]
  · rw [if_neg hi, if_neg hi]

/-- Nothing after the header is cleared. -/
theorem drop_clearUnused {position : Nat} (h : headerSize ≤ position) (data : Bytes) :
    (clearUnused data).drop position = data.drop position := by
  have hbound : ∀ p ∈ unusedPositions, p < headerSize := by decide
  apply List.ext_getElem?
  intro i
  have hused : position + i ∉ unusedPositions := by
    intro hmem
    have := hbound _ hmem
    omega
  rw [List.getElem?_drop, List.getElem?_drop, getElem?_clearUnused]
  simp only [hused, if_false, Option.map_id']

-- ==================================================== the header again

/-- A header number, written in as many bytes as it was read from. -/
private theorem ofNat_field (data : Bytes) (position width : Nat)
    (h : position + width ≤ data.length) :
    Bytes.ofNat width (field data position width) = Bytes.slice position width data := by
  have hback := Bytes.ofNat_toNat (Bytes.slice position width data)
  rw [length_slice h] at hback
  exact hback

/-- A field of one byte is that byte. -/
private theorem slice_one {data : Bytes} {position : Nat} (h : position < data.length) :
    Bytes.slice position 1 data = [byteAt data position] := by
  unfold Bytes.slice byteAt
  rw [List.drop_eq_getElem_cons h, List.take_succ_cons, List.take_zero,
    List.getD_eq_getElem?_getD, List.getElem?_eq_getElem h, Option.getD_some]

/-- The byte that a header writes for a number it read from one byte. -/
private theorem ofNat_field_one {data : Bytes} {position : Nat} (h : position < data.length) :
    UInt8.ofNat (field data position 1) = byteAt data position := by
  have hback := ofNat_field data position 1 h
  rw [slice_one h] at hback
  exact List.head_eq_of_cons_eq hback

/-- The code of a signature type that was read is the one it was read
from. -/
private theorem code_contents (data : Bytes) :
    (contents data).signatureType.code.toNat = field data 8 2 := by
  have hcode : (contents data).signatureType.code = UInt16.ofNat (field data 8 2) :=
    SignatureType.code_ofCode _
  have hbound : field data 8 2 < 256 ^ 2 := field_lt data 8 2
  rw [hcode, UInt16.toNat_ofNat']
  exact Nat.mod_eq_of_lt hbound

/-- Bytes of the header that no field is kept in, cleared. -/
private theorem slice_unused {data : Bytes} (h : IsContainer data) (start length : Nat)
    (header : start + length ≤ headerSize)
    (unused : ∀ i < length, start + i ∈ unusedPositions) :
    Bytes.slice start length (clearUnused data) = List.replicate length 0 :=
  slice_clearUnused_of_unused unused (Nat.le_trans header h.hasHeader)

/-- A header number that is kept in several bytes, written again. -/
private theorem slice_number {data : Bytes} (h : IsContainer data) (start length : Nat)
    (header : start + length ≤ headerSize)
    (used : ∀ i < length, start + i ∉ unusedPositions) :
    Bytes.slice start length (clearUnused data)
      = Bytes.ofNat length (field data start length) := by
  rw [slice_clearUnused_of_used used, ofNat_field data start length]
  exact Nat.le_trans header h.hasHeader

/-- A header value that is kept in one byte. -/
private theorem slice_byte {data : Bytes} (h : IsContainer data) (position : Nat)
    (header : position < headerSize) (used : ∀ i < 1, position + i ∉ unusedPositions) :
    Bytes.slice position 1 (clearUnused data) = [byteAt data position] := by
  rw [slice_clearUnused_of_used used, slice_one]
  exact Nat.lt_of_lt_of_le header h.hasHeader

/-- What a header says before the length of its version. -/
private theorem slice_front {data : Bytes} (h : IsContainer data) :
    Bytes.slice 0 13 (clearUnused data)
      = magic ++ [0, (contents data).format]
        ++ Bytes.ofNat 2 (contents data).signatureType.code.toNat
        ++ Bytes.ofNat 2 (contents data).signature.length ++ [0] := by
  obtain ⟨-, -, -, hsignature⟩ := length_contents h
  have hmagic : Bytes.slice 0 6 (clearUnused data) = magic := by
    rw [slice_clearUnused_of_used (by decide)]
    exact (take_magic_iff data).mpr h.hasMagic
  -- the header is taken apart at the borders of its fields
  have hcut : Bytes.slice 0 13 (clearUnused data)
      = Bytes.slice 0 6 (clearUnused data) ++ Bytes.slice 6 1 (clearUnused data)
        ++ Bytes.slice 7 1 (clearUnused data) ++ Bytes.slice 8 2 (clearUnused data)
        ++ Bytes.slice 10 2 (clearUnused data) ++ Bytes.slice 12 1 (clearUnused data) := by
    simp only [slice_append_slice 0]
  rw [hcut, hmagic, slice_unused h 6 1 (by decide) (by decide),
    slice_byte h 7 (by decide) (by decide), slice_number h 8 2 (by decide) (by decide),
    slice_number h 10 2 (by decide) (by decide), slice_unused h 12 1 (by decide) (by decide),
    code_contents, hsignature]
  rfl

/-- What a header says after the length of its version. -/
private theorem slice_back {data : Bytes} (h : IsContainer data) :
    Bytes.slice 14 26 (clearUnused data)
      = [0, UInt8.ofNat (contents data).signerId.length]
        ++ Bytes.ofNat 8 (contents data).content.length
        ++ [0, (contents data).fileType.code, 0, (contents data).contentType.code]
        ++ List.replicate 12 0 := by
  obtain ⟨-, hsignerId, hcontent, -⟩ := length_contents h
  have hlength : 40 ≤ data.length := h.hasHeader
  have hfileType : (contents data).fileType.code = byteAt data 25 := FileType.code_ofCode _
  have hcontentType : (contents data).contentType.code = byteAt data 27 :=
    ContentType.code_ofCode _
  have hcut : Bytes.slice 14 26 (clearUnused data)
      = Bytes.slice 14 1 (clearUnused data) ++ Bytes.slice 15 1 (clearUnused data)
        ++ Bytes.slice 16 8 (clearUnused data) ++ Bytes.slice 24 1 (clearUnused data)
        ++ Bytes.slice 25 1 (clearUnused data) ++ Bytes.slice 26 1 (clearUnused data)
        ++ Bytes.slice 27 1 (clearUnused data) ++ Bytes.slice 28 12 (clearUnused data) := by
    simp only [slice_append_slice 14]
  rw [hcut, slice_unused h 14 1 (by decide) (by decide),
    slice_byte h 15 (by decide) (by decide), slice_number h 16 8 (by decide) (by decide),
    slice_unused h 24 1 (by decide) (by decide), slice_byte h 25 (by decide) (by decide),
    slice_unused h 26 1 (by decide) (by decide), slice_byte h 27 (by decide) (by decide),
    slice_unused h 28 12 (by decide) (by decide), hsignerId, ofNat_field_one (by omega), hcontent,
    hfileType, hcontentType]
  rfl

/-- All bytes of a header come back but for the unused ones and for the
length of the version, which is that of the version as it is written. -/
private theorem header_contents {data : Bytes} (h : IsContainer data) :
    (contents data).header
      = ((clearUnused data).set 13 (UInt8.ofNat (contents data).versionLength)).take
          headerSize := by
  have hlength : 13 < (clearUnused data).length := by
    have hheader : 40 ≤ data.length := h.hasHeader
    rw [length_clearUnused]
    omega
  have hfront : (clearUnused data).take 13 = Bytes.slice 0 13 (clearUnused data) := rfl
  have hback : ((clearUnused data).drop 14).take 26 = Bytes.slice 14 26 (clearUnused data) := rfl
  have hsize : headerSize = ((clearUnused data).take 13).length + 27 := by
    rw [List.length_take_of_le (Nat.le_of_lt hlength)]
    rfl
  rw [List.set_eq_take_append_cons_drop, if_pos hlength, hsize, List.take_length_add_append,
    List.take_succ_cons, hback, hfront, slice_front h, slice_back h]
  unfold header
  simp only [List.append_assoc, List.cons_append, List.nil_append]

-- =================================================== the canonical form

/-- A container with its unused bytes cleared and a short version padded
to the shortest that is written. -/
def canonicalForm (data : Bytes) : Bytes :=
  let version := field data 13 1
  if version < minVersionLength then
    let announced := (clearUnused data).set 13 (UInt8.ofNat minVersionLength)
    announced.take (headerSize + version) ++ List.replicate (minVersionLength - version) 0
      ++ announced.drop (headerSize + version)
  else clearUnused data

/-- Nothing to clear, and nothing to pad. -/
structure IsCanonical (data : Bytes) : Prop where
  isClear : ∀ position ∈ unusedPositions, byteAt data position = 0
  isPadded : minVersionLength ≤ field data 13 1

instance (data : Bytes) : Decidable (IsCanonical data) :=
  decidable_of_iff
    ((∀ position ∈ unusedPositions, byteAt data position = 0)
      ∧ minVersionLength ≤ field data 13 1)
    ⟨fun ⟨clear, padded⟩ => ⟨clear, padded⟩, fun h => ⟨h.isClear, h.isPadded⟩⟩

/-- What follows the version in a container is written as it was read. -/
private theorem fields_contents {data : Bytes} (h : IsContainer data) :
    (contents data).fields
      = Bytes.slice headerSize (field data 13 1) data
        ++ List.replicate (minVersionLength - field data 13 1) 0
        ++ data.drop (headerSize + field data 13 1) := by
  obtain ⟨hversion, -, -, -⟩ := length_contents h
  have hrest : (contents data).signerId ++ (contents data).content ++ (contents data).signature
      = data.drop (headerSize + field data 13 1) := by
    have hall := append_contents h
    simp only [List.append_assoc] at hall ⊢
    rw [← List.drop_drop, ← hall, List.drop_left' hversion]
  unfold fields Bytes.padTo
  rw [hversion, ← hrest]
  simp only [List.append_assoc]
  rfl

/-- The length of the version is a byte that is not cleared. -/
private theorem set_clearUnused_self {data : Bytes} (h : headerSize ≤ data.length) :
    (clearUnused data).set 13 (UInt8.ofNat (field data 13 1)) = clearUnused data := by
  have hlength : 13 < data.length := Nat.lt_of_lt_of_le (by decide) h
  have hbyte : (clearUnused data)[13]? = some (UInt8.ofNat (field data 13 1)) := by
    have hused : 13 ∉ unusedPositions := by decide
    rw [getElem?_clearUnused, ofNat_field_one hlength]
    unfold byteAt
    simp only [hused, if_false, Option.map_id', List.getD_eq_getElem?_getD,
      List.getElem?_eq_getElem hlength, Option.getD_some]
  obtain ⟨hbound, hget⟩ := List.getElem?_eq_some_iff.mp hbyte
  rw [← hget]
  exact List.set_getElem_self hbound

/-- What was read is written again in canonical form. -/
theorem written_contents {data : Bytes} (h : IsContainer data) :
    (contents data).header ++ (contents data).fields = canonicalForm data := by
  obtain ⟨hversion, -, -, -⟩ := length_contents h
  have hdrop (announced : UInt8) :
      ((clearUnused data).set 13 announced).drop headerSize = data.drop headerSize := by
    rw [List.drop_set_of_lt (by decide), drop_clearUnused (Nat.le_refl _)]
  rw [header_contents h, fields_contents h]
  unfold canonicalForm versionLength Bytes.slice
  rw [hversion]
  dsimp only
  -- Only a version below the minimum is padded, and only then does its length byte change.
  by_cases hshort : field data 13 1 < minVersionLength
  · rw [if_pos hshort, Nat.max_eq_right (Nat.le_of_lt hshort), List.take_add, ← List.drop_drop,
      ← List.drop_drop, hdrop]
    simp only [List.append_assoc]
  · rw [if_neg hshort, Nat.max_eq_left (Nat.not_lt.mp hshort),
      Nat.sub_eq_zero_of_le (Nat.not_lt.mp hshort), List.replicate_zero, List.append_nil,
      ← List.drop_drop, List.take_append_drop, set_clearUnused_self h.hasHeader,
      ← drop_clearUnused (Nat.le_refl headerSize) data, List.take_append_drop]

/-- What was decoded fits its own header. -/
private theorem fits_contents {data : Bytes} (h : IsContainer data) : (contents data).Fits := by
  obtain ⟨hversion, hsignerId, -, hsignature⟩ := length_contents h
  have hversionBound : field data 13 1 < 256 ^ 1 := field_lt data 13 1
  have hsignerIdBound : field data 15 1 < 256 ^ 1 := field_lt data 15 1
  have hsignatureBound : field data 10 2 < 256 ^ 2 := field_lt data 10 2
  unfold Fits versionLength minVersionLength
  omega

/-- Whatever was read can be written, in canonical form. -/
theorem encode_contents {data : Bytes} (h : IsContainer data) :
    (contents data).encode = .ok (canonicalForm data) := by
  rw [encode_of_fits (fits_contents h), written_contents h]

-- ========================================================= fixed points

/-- The canonical form is longer by what the version is short of. -/
private theorem length_canonicalForm {data : Bytes} (h : IsContainer data) :
    (canonicalForm data).length = data.length + (minVersionLength - field data 13 1) := by
  obtain ⟨hversion, hsignerId, hcontent, hsignature⟩ := length_contents h
  have hheader := h.hasHeader
  have hfields := h.hasFields
  unfold declaredTotal at hfields
  rw [← written_contents h, length_written]
  unfold encodedSize versionLength
  omega

/-- Nothing changes where the unused bytes are zero already. -/
theorem clearUnused_eq_self_iff (data : Bytes) :
    clearUnused data = data ↔ ∀ position ∈ unusedPositions, byteAt data position = 0 := by
  unfold byteAt
  constructor
  · intro h position hunused
    rw [List.getD_eq_getElem?_getD, ← h, getElem?_clearUnused]
    cases data[position]? with
    | none => rfl
    | some byte =>
      rw [Option.map_some, if_pos hunused]
      rfl
  · intro h
    apply List.ext_getElem?
    intro position
    rw [getElem?_clearUnused]
    by_cases hunused : position ∈ unusedPositions
    · have hzero := h position hunused
      rw [List.getD_eq_getElem?_getD] at hzero
      cases hbyte : data[position]? with
      | none => rfl
      | some byte =>
        rw [hbyte, Option.getD_some] at hzero
        rw [Option.map_some, if_pos hunused, hzero]
    · simp only [hunused, if_false, Option.map_id']

/-- A container is its own canonical form if it has nothing to clear and
nothing to pad. -/
theorem canonicalForm_eq_self_iff {data : Bytes} (h : IsContainer data) :
    canonicalForm data = data ↔ IsCanonical data := by
  constructor
  · intro hsame
    have hlength := length_canonicalForm h
    rw [hsame] at hlength
    have hpadded : minVersionLength ≤ field data 13 1 := by omega
    have hclear : canonicalForm data = clearUnused data := if_neg (Nat.not_lt.mpr hpadded)
    exact ⟨(clearUnused_eq_self_iff data).mp (hclear.symm.trans hsame), hpadded⟩
  · intro hcanonical
    have hclear : canonicalForm data = clearUnused data :=
      if_neg (Nat.not_lt.mpr hcanonical.isPadded)
    rw [hclear, (clearUnused_eq_self_iff data).mpr hcanonical.isClear]

/-- Unused bytes are written as zero. -/
private theorem byteAt_header_unused (f : File) (rest : Bytes) {position : Nat}
    (h : position ∈ unusedPositions) : byteAt (f.header ++ rest) position = 0 := by
  unfold unusedPositions at h
  rw [List.mem_append, List.mem_range'_1] at h
  rcases h with hgap | ⟨hlow, hhigh⟩
  · simp only [List.mem_cons, List.not_mem_nil, or_false] at hgap
    rcases hgap with rfl | rfl | rfl | rfl | rfl <;> rfl
  · have htail : Bytes.slice 28 12 (f.header ++ rest) = List.replicate 12 0 := rfl
    have hbyte := getElem?_slice 28 12 (f.header ++ rest) (position - 28)
    rw [htail, if_pos (by omega), List.getElem?_replicate, if_pos (by omega),
      Nat.add_sub_cancel' hlow] at hbyte
    unfold byteAt
    rw [List.getD_eq_getElem?_getD, ← hbyte]
    rfl

/-- Only what fits is written, its header first. -/
theorem encode_eq_ok {f : File} {data : Bytes} (h : f.encode = .ok data) :
    f.Fits ∧ data = f.header ++ f.fields := by
  by_cases fits : f.Fits
  · rw [encode_of_fits fits] at h
    exact ⟨fits, (Except.ok.inj h).symm⟩
  · rw [encode_of_not_fits fits] at h
    cases h

/-- Only canonical containers are ever written. -/
theorem isCanonical_of_encode {f : File} {data : Bytes} (h : f.encode = .ok data)
    (short : data.length < 2 ^ 64) : IsContainer data ∧ IsCanonical data := by
  obtain ⟨fits, rfl⟩ := encode_eq_ok h
  rw [length_written] at short
  refine ⟨isContainer_written fits short, ?_, ?_⟩
  · intro position hunused
    exact byteAt_header_unused f f.fields hunused
  · rw [field_header_versionLength fits.1]
    exact Nat.le_max_right _ _

-- ======================================================= the whole trip

/-- What stands in the canonical form is what was read, with its version
padded. -/
private theorem decode_canonicalForm {data : Bytes} (h : IsContainer data)
    (short : (canonicalForm data).length < 2 ^ 64) :
    decode (canonicalForm data) = .ok (contents data).padVersion := by
  have codes : (contents data).HasHeaderCodes :=
    ⟨SignatureType.canonical_ofCode _, FileType.canonical_ofCode _,
      ContentType.canonical_ofCode _⟩
  rw [← written_contents h] at short ⊢
  rw [length_written] at short
  exact decode_written codes (fits_contents h) short

/-- Whatever is read can be written again, and what is written is its
canonical form: itself, exactly if it was canonical already. Those that
are their own form are all that is ever written, and the trip leads
nowhere else when it is made again. -/
theorem encode_decode_canonical (data : Bytes) (short : data.length < 2 ^ 64 - 16) :
    (∀ f, decode data = .ok f →
        f.encode = .ok (canonicalForm data)
          ∧ (f.encode = .ok data ↔ IsCanonical data)
          ∧ ∃ again, decode (canonicalForm data) = .ok again
              ∧ again = f.padVersion
              ∧ again.encode = .ok (canonicalForm data))
      ∧ ((∃ f, decode data = .ok f ∧ IsCanonical data) ↔ ∃ g : File, g.encode = .ok data) := by
  have hdata : data.length < 2 ^ 64 := by omega
  constructor
  · intro f hf
    obtain ⟨hcontainer, rfl⟩ := (decode_eq_ok_iff hdata f).mp hf
    have hencode := encode_contents hcontainer
    have hform : (canonicalForm data).length < 2 ^ 64 := by
      have hlonger := length_canonicalForm hcontainer
      unfold minVersionLength at hlonger
      omega
    have hdecode := decode_canonicalForm hcontainer hform
    -- encoding gives the canonical form, and the canonical form decodes to the padded file
    refine ⟨hencode, ?_, (contents data).padVersion, hdecode, rfl, ?_⟩
    · rw [hencode, Except.ok.injEq]
      exact canonicalForm_eq_self_iff hcontainer
    · obtain ⟨hagain, hcanonical⟩ := isCanonical_of_encode hencode hform
      rw [((decode_eq_ok_iff hform _).mp hdecode).2, encode_contents hagain,
        (canonicalForm_eq_self_iff hagain).mpr hcanonical]
  · constructor
    -- The image of the encoder: the canonical containers, and nothing else.
    · rintro ⟨f, hf, hcanonical⟩
      obtain ⟨hcontainer, rfl⟩ := (decode_eq_ok_iff hdata f).mp hf
      refine ⟨contents data, ?_⟩
      rw [encode_contents hcontainer, (canonicalForm_eq_self_iff hcontainer).mpr hcanonical]
    · rintro ⟨g, hg⟩
      obtain ⟨hcontainer, hcanonical⟩ := isCanonical_of_encode hg hdata
      exact ⟨contents data, decode_of_isContainer hcontainer hdata, hcanonical⟩

/-- A container that somebody else wrote: no unused byte is zero, and the
version is short. -/
def strayHeader : Bytes :=
  magic ++ [9, 0, 0, 6, 0, 2, 9, 2, 9, 1, 0, 0, 0, 0, 0, 0, 0, 3, 9, 0, 9, 3]
    ++ List.replicate 12 9 ++ [0x34, 0x32, 0x61, 1, 2, 3, 7, 8]

theorem isContainer_strayHeader : IsContainer strayHeader := by decide

/-- A container with a stray byte and a short version, which is written
differently from how it was read. -/
theorem encode_decode_canonical_strayHeader :
    strayHeader.length < 2 ^ 64 - 16
      ∧ ∃ f, decode strayHeader = .ok f
          ∧ f.encode ≠ .ok strayHeader
          ∧ f.encode = .ok
              (magic ++ [0, 0, 0, 6, 0, 2, 0, 16, 0, 1, 0, 0, 0, 0, 0, 0, 0, 3, 0, 0, 0, 3]
                ++ List.replicate 12 0 ++ [0x34, 0x32] ++ List.replicate 14 0
                ++ [0x61, 1, 2, 3, 7, 8]) := by
  have short : strayHeader.length < 2 ^ 64 - 16 := by decide
  have hread := decode_of_isContainer isContainer_strayHeader (by decide)
  obtain ⟨hencode, hself, -⟩ := (encode_decode_canonical strayHeader short).1 _ hread
  refine ⟨short, contents strayHeader, hread, ?_, ?_⟩
  · rw [Ne, hself]
    decide
  · rw [hencode]
    exact congrArg Except.ok (by decide)

end RouterSeed.Su3.File

/-
Writing a container and reading it back.

The only thing that the trip changes is the version, which comes back
with the padding it was written with. Nothing that anyone can ask of a
container sees the difference: the padding is cut off again when the
version is shown, and what is signed has it in either case.

The proof goes through the grammar: `isContainer_written` puts what is
written into it, and `contents_written` says what stands there. Every
header number is read back from the bytes it was written as, so those
facts hold by computing; the four fields are found by their lengths.
-/
import RouterSeed.Proofs.Su3.Grammar
import RouterSeed.Su3.Verification

namespace RouterSeed.Su3

-- ============================================================ padding

/-- Bytes that are long enough are not padded. -/
private theorem padTo_of_le {length : Nat} {bytes : Bytes} (h : length ≤ bytes.length) :
    bytes.padTo length = bytes := by
  unfold Bytes.padTo
  rw [Nat.sub_eq_zero_of_le h, List.replicate_zero, List.append_nil]

/-- Padding twice is padding once. -/
private theorem padTo_padTo (length : Nat) (bytes : Bytes) :
    (bytes.padTo length).padTo length = bytes.padTo length := by
  apply padTo_of_le
  rw [Bytes.length_padTo]
  exact Nat.le_max_left _ _

/-- What is trimmed off the end takes the padding with it. -/
private theorem dropWhile_reverse_padTo (length : Nat) (bytes : Bytes) :
    (bytes.padTo length).reverse.dropWhile (· = 0) = bytes.reverse.dropWhile (· = 0) := by
  unfold Bytes.padTo
  rw [List.reverse_append, List.reverse_replicate]
  exact List.dropWhile_append_of_pos (by simp)

namespace File

-- ============================================================ writing

/-- The three codes are ones that a header code can mean. -/
structure HasHeaderCodes (f : File) : Prop where
  signatureType : f.signatureType.Canonical
  fileType : f.fileType.Canonical
  contentType : f.contentType.Canonical

/-- What is written after the header. -/
def fields (f : File) : Bytes :=
  f.version.padTo minVersionLength ++ f.signerId ++ f.content ++ f.signature

/-- How many bytes are written. -/
def encodedSize (f : File) : Nat :=
  headerSize + f.versionLength + f.signerId.length + f.content.length + f.signature.length

private theorem length_header (f : File) : f.header.length = headerSize := rfl

/-- The padded version is as long as the header says. -/
private theorem length_padded_version (f : File) :
    (f.version.padTo minVersionLength).length = f.versionLength := by
  rw [Bytes.length_padTo]
  exact Nat.max_comm _ _

/-- A file that fits is its header and its fields. -/
theorem encode_of_fits {f : File} (h : f.Fits) : f.encode = .ok (f.header ++ f.fields) := by
  have hbody : f.body = .ok (f.header ++ f.version.padTo minVersionLength ++ f.signerId
      ++ f.content) := if_pos h
  have hencode : f.encode = .ok (f.header ++ f.version.padTo minVersionLength ++ f.signerId
      ++ f.content ++ f.signature) := by
    unfold encode
    rw [hbody]
    rfl
  rw [hencode]
  unfold fields
  simp only [List.append_assoc]

/-- A file with a field that is too long for the header is refused. -/
theorem encode_of_not_fits {f : File} (h : ¬ f.Fits) : f.encode = .error .fieldTooLong := by
  have hbody : f.body = .error .fieldTooLong := if_neg h
  unfold encode
  rw [hbody]
  rfl

/-- The padding itself always fits, so only what was there before it can
be too long. -/
theorem not_fits_iff (f : File) :
    ¬ f.Fits ↔ 255 < f.version.length ∨ 255 < f.signerId.length ∨ 65535 < f.signature.length := by
  unfold Fits versionLength minVersionLength
  omega

/-- What is written has the size that was announced. -/
theorem length_written (f : File) : (f.header ++ f.fields).length = f.encodedSize := by
  unfold fields encodedSize
  simp only [List.length_append, length_header, length_padded_version]
  omega

-- ================================================= header, read back

/-- The header's numbers are read back, first the signature type. -/
private theorem field_header_signatureType (f : File) (rest : Bytes) :
    field (f.header ++ rest) 8 2 = f.signatureType.code.toNat := by
  have hread : field (f.header ++ rest) 8 2
      = Bytes.toNat (Bytes.ofNat 2 f.signatureType.code.toNat) := rfl
  rw [hread, Bytes.toNat_ofNat]
  exact Nat.mod_eq_of_lt f.signatureType.code.toNat_lt

/-- The length of the signature is read back where it fits two bytes. -/
theorem field_header_signatureLength {f : File} (h : f.signature.length ≤ 65535) (rest : Bytes) :
    field (f.header ++ rest) 10 2 = f.signature.length := by
  have hread : field (f.header ++ rest) 10 2
      = Bytes.toNat (Bytes.ofNat 2 f.signature.length) := rfl
  rw [hread, Bytes.toNat_ofNat]
  exact Nat.mod_eq_of_lt (by omega)

/-- The length of the version is read back where it fits one. -/
theorem field_header_versionLength {f : File} (h : f.versionLength ≤ 255) (rest : Bytes) :
    field (f.header ++ rest) 13 1 = f.versionLength := by
  have hread : field (f.header ++ rest) 13 1 = Bytes.toNat [UInt8.ofNat f.versionLength] := rfl
  rw [hread]
  simp only [Bytes.toNat, List.foldl_cons, List.foldl_nil, UInt8.toNat_ofNat']
  omega

private theorem field_header_signerIdLength {f : File} (h : f.signerId.length ≤ 255)
    (rest : Bytes) :
    field (f.header ++ rest) 15 1 = f.signerId.length := by
  have hread : field (f.header ++ rest) 15 1 = Bytes.toNat [UInt8.ofNat f.signerId.length] := rfl
  rw [hread]
  simp only [Bytes.toNat, List.foldl_cons, List.foldl_nil, UInt8.toNat_ofNat']
  omega

/-- The length of the content has eight bytes. -/
private theorem field_header_contentLength {f : File} (h : f.content.length < 2 ^ 64)
    (rest : Bytes) :
    field (f.header ++ rest) 16 8 = f.content.length := by
  have hread : field (f.header ++ rest) 16 8
      = Bytes.toNat (Bytes.ofNat 8 f.content.length) := rfl
  rw [hread, Bytes.toNat_ofNat]
  exact Nat.mod_eq_of_lt h

-- ================================================= fields, read back

/-- A slice finds what stands between its two ends. -/
private theorem slice_between {front middle rest : Bytes} {start length : Nat}
    (hstart : front.length = start) (hlength : middle.length = length) :
    Bytes.slice start length (front ++ middle ++ rest) = middle := by
  unfold Bytes.slice
  rw [List.append_assoc, List.drop_left' hstart, List.take_left' hlength]

/-- The fields stand where the lengths say, with the version first. -/
private theorem slice_version (f : File) :
    Bytes.slice headerSize f.versionLength (f.header ++ f.fields)
      = f.version.padTo minVersionLength := by
  have hsplit : f.header ++ f.fields = f.header ++ f.version.padTo minVersionLength
      ++ (f.signerId ++ f.content ++ f.signature) := by
    simp only [fields, List.append_assoc]
  rw [hsplit]
  exact slice_between (length_header f) (length_padded_version f)

/-- The signer id follows the version. -/
private theorem slice_signerId (f : File) :
    Bytes.slice (headerSize + f.versionLength) f.signerId.length (f.header ++ f.fields)
      = f.signerId := by
  have hsplit : f.header ++ f.fields = (f.header ++ f.version.padTo minVersionLength)
      ++ f.signerId ++ (f.content ++ f.signature) := by
    simp only [fields, List.append_assoc]
  rw [hsplit]
  refine slice_between ?_ rfl
  rw [List.length_append, length_header, length_padded_version]

private theorem slice_content (f : File) :
    Bytes.slice (headerSize + f.versionLength + f.signerId.length) f.content.length
      (f.header ++ f.fields) = f.content := by
  have hsplit : f.header ++ f.fields
      = (f.header ++ f.version.padTo minVersionLength ++ f.signerId)
      ++ f.content ++ f.signature := by
    simp only [fields, List.append_assoc]
  rw [hsplit]
  refine slice_between ?_ rfl
  rw [List.length_append, List.length_append, length_header, length_padded_version]

private theorem slice_signature (f : File) :
    Bytes.slice (headerSize + f.versionLength + f.signerId.length + f.content.length)
      f.signature.length (f.header ++ f.fields) = f.signature := by
  have hsplit : f.header ++ f.fields
      = (f.header ++ f.version.padTo minVersionLength ++ f.signerId ++ f.content)
      ++ f.signature ++ [] := by
    simp only [fields, List.append_assoc, List.append_nil]
  rw [hsplit]
  refine slice_between ?_ rfl
  rw [List.length_append, List.length_append, List.length_append, length_header,
    length_padded_version]

-- =============================================== the whole, read back

/-- What is written is a container. -/
theorem isContainer_written {f : File} (fits : f.Fits) (size : f.encodedSize < 2 ^ 64) :
    IsContainer (f.header ++ f.fields) := by
  obtain ⟨hversion, hsignerId, hsignature⟩ := fits
  have hcontent : f.content.length < 2 ^ 64 := by
    unfold encodedSize at size
    omega
  refine ⟨?_, ?_, ?_⟩
  · rw [List.length_append, length_header]
    exact Nat.le_add_right _ _
  · exact ⟨_, rfl⟩
  · unfold declaredTotal
    rw [field_header_versionLength hversion, field_header_signerIdLength hsignerId,
      field_header_contentLength hcontent, field_header_signatureLength hsignature,
      length_written]
    unfold encodedSize
    omega

/-- What stands in a written container is what was written, with the padded
version. -/
private theorem contents_written {f : File} (codes : f.HasHeaderCodes) (fits : f.Fits)
    (size : f.encodedSize < 2 ^ 64) : contents (f.header ++ f.fields) = f.padVersion := by
  obtain ⟨hversion, hsignerId, hsignature⟩ := fits
  have hcontent : f.content.length < 2 ^ 64 := by
    unfold encodedSize at size
    omega
  have hfileType : FileType.ofCode (byteAt (f.header ++ f.fields) 25) = f.fileType :=
    codes.fileType
  have hcontentType : ContentType.ofCode (byteAt (f.header ++ f.fields) 27) = f.contentType :=
    codes.contentType
  unfold contents
  rw [field_header_signatureType, field_header_versionLength hversion,
    field_header_signerIdLength hsignerId, field_header_contentLength hcontent,
    field_header_signatureLength hsignature, UInt16.ofNat_toNat, codes.signatureType, hfileType,
    hcontentType, slice_version, slice_signerId, slice_content, slice_signature]
  rfl

/-- Reading undoes writing, up to the padding of the version. -/
theorem decode_written {f : File} (codes : f.HasHeaderCodes) (fits : f.Fits)
    (size : f.encodedSize < 2 ^ 64) : decode (f.header ++ f.fields) = .ok f.padVersion := by
  rw [decode_of_isContainer (isContainer_written fits size) (by rw [length_written]; exact size),
    contents_written codes fits size]

-- ============================================ what the padding leaves

/-- A version that is long enough is left alone. -/
theorem padVersion_of_le {f : File} (h : minVersionLength ≤ f.version.length) :
    f.padVersion = f := by
  unfold padVersion
  rw [padTo_of_le h]

/-- Padding twice is padding once. -/
private theorem versionLength_padVersion (f : File) :
    f.padVersion.versionLength = f.versionLength := by
  unfold versionLength padVersion
  rw [Bytes.length_padTo]
  omega

/-- What the signature covers has the padding in it already. -/
private theorem body_padVersion (f : File) : f.padVersion.body = f.body := by
  have hfits : f.padVersion.Fits ↔ f.Fits := by
    unfold Fits
    rw [versionLength_padVersion]
    exact Iff.rfl
  have hheader : f.padVersion.header = f.header := by
    unfold header
    rw [versionLength_padVersion]
    rfl
  have hversion : f.padVersion.version.padTo minVersionLength
      = f.version.padTo minVersionLength := padTo_padTo _ _
  unfold body
  rw [hheader, hversion]
  simp only [hfits]
  rfl

/-- The padding is no part of the text. -/
private theorem versionText_padVersion (f : File) : f.padVersion.versionText = f.versionText := by
  unfold versionText padVersion
  rw [dropWhile_reverse_padTo]

/-- The padding does not show. -/
private theorem display_padVersion (f : File) : f.padVersion.display = f.display := by
  unfold display
  rw [versionText_padVersion]
  rfl

/-- Padding the version does not show in what is verified. -/
private theorem verify_padVersion (f : File) (certificate : Certificate) :
    f.padVersion.verify certificate = f.verify certificate := by
  unfold verify
  rw [body_padVersion]
  rfl

private theorem verifyWithKey_padVersion (f : File) (key : PublicKey) :
    f.padVersion.verifyWithKey key = f.verifyWithKey key := by
  unfold verifyWithKey
  rw [body_padVersion]
  rfl

-- ================================================ the whole round trip

/-- Writing fails only for a version, signer id or signature that its
length does not fit, and otherwise reading gives the container back with
its version padded. Neither what is signed nor what is shown nor any
verdict on the signature is another one after the trip. -/
theorem decode_encode (f : File) (codes : f.HasHeaderCodes) (size : f.encodedSize < 2 ^ 64) :
    (f.encode = .error .fieldTooLong ↔
        255 < f.version.length ∨ 255 < f.signerId.length ∨ 65535 < f.signature.length)
      ∧ (f.encode ≠ .error .fieldTooLong →
          ∃ data trip, f.encode = .ok data ∧ decode data = .ok trip
            ∧ trip = { f with version := f.version.padTo minVersionLength }
            ∧ (minVersionLength ≤ f.version.length → trip = f)
            ∧ trip.body = f.body
            ∧ trip.display = f.display
            ∧ (∀ certificate, trip.verify certificate = f.verify certificate)
            ∧ ∀ key, trip.verifyWithKey key = f.verifyWithKey key) := by
  by_cases fits : f.Fits
  · have hencode := encode_of_fits fits
    refine ⟨?_, ?_⟩
    · rw [← not_fits_iff, hencode]
      simp [fits]
    · intro _
      refine ⟨f.header ++ f.fields, f.padVersion, hencode, decode_written codes fits size, rfl,
        padVersion_of_le, body_padVersion f, display_padVersion f, verify_padVersion f,
        verifyWithKey_padVersion f⟩
  · have hencode := encode_of_not_fits fits
    refine ⟨?_, ?_⟩
    · rw [← not_fits_iff]
      exact ⟨fun _ => fits, fun _ => hencode⟩
    · intro hok
      exact absurd hencode hok

/-- A container with a short version and codes that nobody has assigned. -/
def shortVersioned : File where
  format := 0
  signatureType := .unknown 99
  fileType := .unassigned 42
  contentType := .unassigned 200
  version := [0x34, 0x32]
  signerId := [0x61, 0x40, 0x62]
  content := [1, 2, 3]
  signature := [7]

/-- A version of two bytes comes back with its padding, and is displayed as
before. -/
theorem decode_encode_shortVersioned :
    shortVersioned.HasHeaderCodes ∧ shortVersioned.encodedSize < 2 ^ 64
      ∧ shortVersioned.encode ≠ .error .fieldTooLong
      ∧ ∃ data trip, shortVersioned.encode = .ok data ∧ decode data = .ok trip
          ∧ trip.version = [0x34, 0x32] ++ List.replicate 14 0
          ∧ trip.display = shortVersioned.display := by
  have codes : shortVersioned.HasHeaderCodes := ⟨rfl, rfl, rfl⟩
  have size : shortVersioned.encodedSize < 2 ^ 64 := by decide
  have written : shortVersioned.encode ≠ .error .fieldTooLong := by
    rw [encode_of_fits (by decide)]
    intro h
    cases h
  obtain ⟨data, trip, hencode, hdecode, htrip, -, -, hdisplay, -⟩ :=
    (decode_encode shortVersioned codes size).2 written
  refine ⟨codes, size, written, data, trip, hencode, hdecode, ?_, hdisplay⟩
  rw [htrip]
  rfl

end File

end RouterSeed.Su3

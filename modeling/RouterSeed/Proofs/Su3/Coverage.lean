/-
What the signature of a container covers that was read.

A signature is made over everything before it. But whoever verifies a
container has only what was read of it: the message is put together from
the fields, as it would be for writing them. So what is verified is the
canonical form (`body_contents`), and that is what was received only if
what was received is canonical (`body_eq_received_iff`). Then nothing
before the signature can change without the message changing.

Otherwise it can. The unused bytes of a header are under no signature:
all strings that agree but for them are read as one container
(`decode_clearUnused`) and so have one message and one verdict. And a
container with a short version that was signed as it stands is verified
over another message, with the padding in it.
-/
import RouterSeed.Proofs.Su3.Canonical
import RouterSeed.Proofs.Su3.Settling

namespace RouterSeed.Su3.File

-- ======================================================== unused bytes

/-- Two strings that differ in an unused byte only are the same once it
is cleared. -/
private theorem clearUnused_set {position : Nat} (h : position ∈ unusedPositions) (byte : UInt8)
    (data : Bytes) : clearUnused (data.set position byte) = clearUnused data := by
  apply List.ext_getElem?
  intro i
  rw [getElem?_clearUnused, getElem?_clearUnused, List.getElem?_set]
  by_cases hi : position = i
  · subst hi
    by_cases hbound : position < data.length
    · simp only [h, hbound, if_true, Option.map_some, List.getElem?_eq_getElem]
    · simp only [hbound, if_true, if_false, List.getElem?_eq_none (Nat.not_lt.mp hbound)]
  · rw [if_neg hi]

/-- Clearing leaves the numbers of the header. -/
private theorem field_clearUnused {position width : Nat}
    (used : ∀ i < width, position + i ∉ unusedPositions) (data : Bytes) :
    field (clearUnused data) position width = field data position width := by
  unfold field
  rw [slice_clearUnused_of_used used]

private theorem byteAt_clearUnused {position : Nat} (used : position ∉ unusedPositions)
    (data : Bytes) :
    byteAt (clearUnused data) position = byteAt data position := by
  unfold byteAt
  rw [List.getD_eq_getElem?_getD, List.getD_eq_getElem?_getD, getElem?_clearUnused]
  simp only [used, if_false, Option.map_id']

/-- Whoever reads a container does not look at its unused bytes. -/
private theorem decode_clearUnused (data : Bytes) : decode (clearUnused data) = decode data := by
  have hmagic : (clearUnused data).take 6 = data.take 6 :=
    slice_clearUnused_of_used (by decide : ∀ i < 6, 0 + i ∉ unusedPositions) data
  have hlengths : declaredLengths (clearUnused data) = declaredLengths data := by
    unfold declaredLengths
    rw [field_clearUnused (by decide), field_clearUnused (by decide),
      field_clearUnused (by decide), field_clearUnused (by decide)]
  unfold decode
  rw [length_clearUnused, hmagic, hlengths, drop_clearUnused (Nat.le_refl headerSize),
    byteAt_clearUnused (by decide), byteAt_clearUnused (by decide),
    byteAt_clearUnused (by decide), field_clearUnused (by decide)]

-- ====================================================== the signed part

/-- What stands before the signature of a container. -/
def beforeSignature (data : Bytes) : Bytes := data.take (data.length - field data 10 2)

/-- What precedes the announced signature is found. -/
private theorem beforeSignature_append {body signature : Bytes}
    (announced : field (body ++ signature) 10 2 = signature.length) :
    beforeSignature (body ++ signature) = body := by
  unfold beforeSignature
  rw [announced, List.length_append, Nat.add_sub_cancel]
  exact List.take_left

/-- Whatever is written has its signed part before its signature. -/
private theorem body_of_encode {f : File} {data : Bytes} (h : f.encode = .ok data) :
    f.body = .ok (beforeSignature data) ∧ beforeSignature data ++ f.signature = data := by
  obtain ⟨body, hbody, hsame⟩ := bind_eq_ok_iff.mp h
  cases hsame
  have hannounced : field (body ++ f.signature) 10 2 = f.signature.length := by
    obtain ⟨fits, hwritten⟩ := encode_eq_ok h
    rw [hwritten]
    exact field_header_signatureLength fits.2.2 f.fields
  rw [beforeSignature_append hannounced]
  exact ⟨hbody, rfl⟩

/-- What is verified of a container is its canonical form. -/
private theorem body_contents {data : Bytes} (h : IsContainer data) :
    (contents data).body = .ok (beforeSignature (canonicalForm data)) :=
  (body_of_encode (encode_contents h)).1

/-- The signature of a container ends it. -/
private theorem beforeSignature_append_signature {data : Bytes} (h : IsContainer data) :
    beforeSignature data ++ (contents data).signature = data := by
  have hfields := h.hasFields
  have hheader := h.hasHeader
  unfold declaredTotal at hfields
  have hstart : headerSize + field data 13 1 + field data 15 1 + field data 16 8
      = data.length - field data 10 2 := by
    omega
  have hsignature : (contents data).signature = data.drop (data.length - field data 10 2) := by
    unfold contents Bytes.slice
    dsimp only
    rw [hstart]
    apply List.take_of_length_le
    rw [List.length_drop]
    omega
  rw [hsignature]
  exact List.take_append_drop _ _

/-- That is what was received only if nothing of it was cleared or
padded. -/
private theorem beforeSignature_canonicalForm_iff {data : Bytes} (h : IsContainer data) :
    beforeSignature (canonicalForm data) = beforeSignature data ↔ IsCanonical data := by
  rw [← canonicalForm_eq_self_iff h]
  constructor
  · intro hsame
    rw [← (body_of_encode (encode_contents h)).2, hsame]
    exact beforeSignature_append_signature h
  · intro hsame
    rw [hsame]

private theorem verify_of_body {f : File} {body : Bytes} (h : f.body = .ok body)
    (certificate : Certificate) :
    f.verify certificate = verifyCertified certificate f.signatureType body f.signature := by
  unfold verify
  rw [h]
  rfl

-- ==================================================== what is verified

/-- The message that a container is verified over is what was received
before its signature if that was canonical, and never otherwise. Then the
verdict is that of a verifier who looks at what was received, and two
such containers that differ before their signatures have different
messages. But strings that differ in unused bytes only are one container
to every reader, with one message and one verdict. -/
theorem body_eq_received_iff (data : Bytes) (f : File) (short : data.length < 2 ^ 64)
    (read : decode data = .ok f) :
    f.body = .ok (beforeSignature (canonicalForm data))
      ∧ (f.body = .ok (beforeSignature data) ↔ IsCanonical data)
      ∧ (IsCanonical data →
          (∀ certificate, f.verify certificate
              = verifyCertified certificate f.signatureType (beforeSignature data) f.signature)
            ∧ (∀ key, f.verifyWithKey key
              = verifySignature key f.signatureType (beforeSignature data) f.signature)
            ∧ ∀ other g, other.length < 2 ^ 64 → decode other = .ok g → IsCanonical other →
                beforeSignature data ≠ beforeSignature other → f.body ≠ g.body)
      ∧ ∀ other, clearUnused other = clearUnused data → decode other = .ok f := by
  obtain ⟨hcontainer, rfl⟩ := (decode_eq_ok_iff short f).mp read
  have hbody := body_contents hcontainer
  refine ⟨hbody, ?_, ?_, ?_⟩
  · rw [hbody, Except.ok.injEq]
    exact beforeSignature_canonicalForm_iff hcontainer
  -- Where the bytes are canonical, the signature covers what was received.
  · intro hcanonical
    rw [(beforeSignature_canonicalForm_iff hcontainer).mpr hcanonical] at hbody
    refine ⟨verify_of_body hbody, verifyWithKey_of_body hbody, ?_⟩
    intro other g hshort hread hother hdiffer hsame
    obtain ⟨hotherContainer, rfl⟩ := (decode_eq_ok_iff hshort g).mp hread
    have hotherBody := body_contents hotherContainer
    rw [(beforeSignature_canonicalForm_iff hotherContainer).mpr hother] at hotherBody
    rw [hbody, hotherBody] at hsame
    exact hdiffer (Except.ok.inj hsame)
  -- The unused bytes are not read, so they are not covered either.
  · intro other hsame
    rw [← decode_clearUnused other, hsame, decode_clearUnused, read]

/-- A canonical container, and the same one with an unused byte that was
changed on the way. -/
theorem body_eq_received_iff_changedByte :
    ∃ data f, data.length < 2 ^ 64 ∧ decode data = .ok f ∧ IsCanonical data
      ∧ f.body = .ok (beforeSignature data)
      ∧ data.set 6 9 ≠ data
      ∧ decode (data.set 6 9) = .ok f := by
  let data := canonicalForm strayHeader
  have short : data.length < 2 ^ 64 := by decide
  have hcanonical : IsCanonical data := by decide
  have hread : decode data = .ok (contents data) := decode_of_isContainer (by decide) short
  obtain ⟨-, hbody, -, hsame⟩ := body_eq_received_iff data (contents data) short hread
  exact ⟨data, contents data, short, hread, hcanonical, hbody.mpr hcanonical, by decide,
    hsame (data.set 6 9) (clearUnused_set (by decide) 9 data)⟩

/-- Not everything that is received is what is verified: here is a string
whose message is another one, and a string that differs from it before
the signature and has the same message. -/
theorem body_ne_received_strayHeader :
    ∃ f, decode strayHeader = .ok f
      ∧ f.body ≠ .ok (beforeSignature strayHeader)
      ∧ (clearUnused strayHeader).length = strayHeader.length
      ∧ beforeSignature (clearUnused strayHeader) ≠ beforeSignature strayHeader
      ∧ ∃ g, decode (clearUnused strayHeader) = .ok g ∧ g.body = f.body := by
  have hread := decode_of_isContainer isContainer_strayHeader (by decide)
  refine ⟨contents strayHeader, hread, ?_, length_clearUnused strayHeader, by decide,
    contents strayHeader, (decode_clearUnused strayHeader).trans hread, rfl⟩
  rw [body_contents isContainer_strayHeader, Ne, Except.ok.injEq]
  decide

end RouterSeed.Su3.File

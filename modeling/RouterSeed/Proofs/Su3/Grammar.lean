/-
What a container is, said without the reader, and that the reader
accepts exactly that.

`IsContainer` speaks of a byte string alone: the header is there, it
starts with the magic bytes, and the lengths it declares, added as
numbers without bound, are what is left after it. `contents` says where
everything stands in such a string. The reader adds and cuts with 64 bit
numbers, and `decode_eq_ok_iff` says that nothing comes of the
difference: neither does a sum that wraps round pass for a small one, nor
does a cut ever run over the end.

The lengths decide where a container ends, so no container goes on where
another one ends (`eq_of_prefix`).

Consumed by RoundTrip, which shows that what is written is in the
grammar.
-/
import RouterSeed.Su3.File

namespace RouterSeed.Su3.File

-- ======================================================= the grammar

/-- The four lengths that a header declares, added without bound. -/
def declaredTotal (data : Bytes) : Nat :=
  field data 13 1 + field data 15 1 + field data 16 8 + field data 10 2

/-- A byte string is a container: a whole header that starts with the
magic bytes, and exactly as many bytes after it as it declares. -/
structure IsContainer (data : Bytes) : Prop where
  hasHeader : headerSize ≤ data.length
  hasMagic : magic <+: data
  hasFields : declaredTotal data = data.length - headerSize

instance (data : Bytes) : Decidable (IsContainer data) :=
  decidable_of_iff
    (headerSize ≤ data.length ∧ magic <+: data ∧ declaredTotal data = data.length - headerSize)
    ⟨fun ⟨header, magic, fields⟩ => ⟨header, magic, fields⟩,
      fun h => ⟨h.hasHeader, h.hasMagic, h.hasFields⟩⟩

/-- What stands in a container: the header's values, and the four fields
one after the other. -/
def contents (data : Bytes) : File where
  format := byteAt data 7
  signatureType := .ofCode (UInt16.ofNat (field data 8 2))
  fileType := .ofCode (byteAt data 25)
  contentType := .ofCode (byteAt data 27)
  version := Bytes.slice headerSize (field data 13 1) data
  signerId := Bytes.slice (headerSize + field data 13 1) (field data 15 1) data
  content := Bytes.slice (headerSize + field data 13 1 + field data 15 1) (field data 16 8) data
  signature :=
    Bytes.slice (headerSize + field data 13 1 + field data 15 1 + field data 16 8)
      (field data 10 2) data

-- ==================================================== header numbers

/-- A field of so many bytes holds no larger number. -/
theorem field_lt (data : Bytes) (position width : Nat) :
    field data position width < 256 ^ width := by
  have hlength : (Bytes.slice position width data).length ≤ width := by
    unfold Bytes.slice
    rw [List.length_take]
    exact Nat.min_le_left _ _
  exact Nat.lt_of_lt_of_le (Bytes.toNat_lt _) (Nat.pow_le_pow_right (by decide) hlength)

/-- No field of a header is wider than the number it is read into. -/
private theorem toNat_ofNat_field (data : Bytes) (position : Nat) {width : Nat} (h : width ≤ 8) :
    (UInt64.ofNat (field data position width)).toNat = field data position width := by
  have hfield := field_lt data position width
  have hwidth : 256 ^ width ≤ 2 ^ 64 := Nat.pow_le_pow_right (by decide : 0 < 256) h
  rw [UInt64.toNat_ofNat']
  exact Nat.mod_eq_of_lt (by omega)

/-- The sum of the lengths is the declared total. -/
private theorem total_declaredLengths (data : Bytes) :
    (declaredLengths data).total = declaredTotal data := by
  unfold Lengths.total declaredTotal declaredLengths
  dsimp only
  rw [toNat_ofNat_field data 13 (by decide), toNat_ofNat_field data 15 (by decide),
    toNat_ofNat_field data 16 (by decide), toNat_ofNat_field data 10 (by decide)]

-- =========================================================== reading

/-- The cuts that a header declares, where the grammar says that the
fields stand. -/
private theorem cut?_declaredLengths {data : Bytes} (h : IsContainer data) :
    (declaredLengths data).cut? (data.drop headerSize)
      = some ((contents data).version, (contents data).signerId, (contents data).content,
          (contents data).signature) := by
  have hfits : (declaredLengths data).total ≤ (data.drop headerSize).length := by
    apply Nat.le_of_eq
    rw [total_declaredLengths, h.hasFields, List.length_drop]
  rw [Lengths.cut?_of_total_le hfits]
  unfold declaredLengths contents Bytes.slice
  dsimp only
  rw [toNat_ofNat_field data 13 (by decide), toNat_ofNat_field data 15 (by decide),
    toNat_ofNat_field data 16 (by decide), toNat_ofNat_field data 10 (by decide)]
  simp only [List.drop_drop, Nat.add_assoc]

/-- The checked sum of what a container declares is what is left after
its header. -/
private theorem total?_declaredLengths {data : Bytes} (h : IsContainer data)
    (short : data.length < 2 ^ 64) :
    (declaredLengths data).total? = some (UInt64.ofNat (data.length - headerSize)) := by
  rw [Lengths.total?_eq_some_iff, total_declaredLengths, h.hasFields, UInt64.toNat_ofNat',
    Nat.mod_eq_of_lt (by omega)]

/-- The first six bytes are the magic where it stands in front. -/
theorem take_magic_iff (data : Bytes) : data.take 6 = magic ↔ magic <+: data := by
  rw [List.prefix_iff_eq_take]
  exact eq_comm

/-- A container is read as what stands in it. -/
theorem decode_of_isContainer {data : Bytes} (h : IsContainer data)
    (short : data.length < 2 ^ 64) : decode data = .ok (contents data) := by
  have hmagic : data.take 6 = magic := (take_magic_iff data).mpr h.hasMagic
  unfold decode
  rw [if_neg (Nat.not_lt.mpr h.hasHeader), if_neg (not_not_intro hmagic)]
  dsimp only
  rw [total?_declaredLengths h short]
  dsimp only
  rw [if_neg (UInt64.lt_irrefl _), if_neg (UInt64.lt_irrefl _), cut?_declaredLengths h]
  rfl

/-- What is no container is refused, and told to be none. -/
private theorem decode_of_not_isContainer {data : Bytes} (h : ¬ IsContainer data)
    (short : data.length < 2 ^ 64) :
    ∃ fault, decode data = .error (.malformedContainer fault) := by
  unfold decode
  split
  · exact ⟨_, rfl⟩
  split
  · exact ⟨_, rfl⟩
  next hheader hmagic =>
    dsimp only
    split
    · exact ⟨_, rfl⟩
    next declared htotal =>
      split
      · exact ⟨_, rfl⟩
      split
      · exact ⟨_, rfl⟩
      next hless hgreater =>
        -- equal as 64 bit numbers, and both are exact
        exfalso
        apply h
        have hexact := Lengths.total?_eq_some_iff.mp htotal
        rw [total_declaredLengths] at hexact
        rw [UInt64.lt_iff_toNat_lt, UInt64.toNat_ofNat'] at hless hgreater
        refine ⟨Nat.not_lt.mp hheader, (take_magic_iff data).mp (Decidable.not_not.mp hmagic), ?_⟩
        omega

/-- The reader accepts the grammar, no more and no less. -/
theorem decode_eq_ok_iff {data : Bytes} (short : data.length < 2 ^ 64) (f : File) :
    decode data = .ok f ↔ IsContainer data ∧ f = contents data := by
  by_cases h : IsContainer data
  · rw [decode_of_isContainer h short]
    simp only [Except.ok.injEq, h, true_and]
    exact eq_comm
  · obtain ⟨fault, hfault⟩ := decode_of_not_isContainer h short
    rw [hfault]
    simp [h]

-- ======================================================== the fields

/-- A slice that ends within the data has all its bytes. -/
theorem length_slice {start length : Nat} {data : Bytes} (h : start + length ≤ data.length) :
    (Bytes.slice start length data).length = length := by
  unfold Bytes.slice
  rw [List.length_take, List.length_drop]
  omega

/-- Abutting slices glue into one. -/
theorem slice_append_slice (start length more : Nat) (data : Bytes) :
    Bytes.slice start length data ++ Bytes.slice (start + length) more data
      = Bytes.slice start (length + more) data := by
  unfold Bytes.slice
  rw [← List.drop_drop, List.take_add]

/-- The fields have the lengths that the header declares, so each of them
ends within the data. -/
theorem length_contents {data : Bytes} (h : IsContainer data) :
    (contents data).version.length = field data 13 1
      ∧ (contents data).signerId.length = field data 15 1
      ∧ (contents data).content.length = field data 16 8
      ∧ (contents data).signature.length = field data 10 2 := by
  have hheader := h.hasHeader
  have hfields := h.hasFields
  unfold declaredTotal at hfields
  refine ⟨length_slice ?_, length_slice ?_, length_slice ?_, length_slice ?_⟩
  all_goals omega

/-- The four fields are all that follows the header. -/
theorem append_contents {data : Bytes} (h : IsContainer data) :
    (contents data).version ++ (contents data).signerId ++ (contents data).content
      ++ (contents data).signature = data.drop headerSize := by
  have hfields := h.hasFields
  unfold declaredTotal at hfields
  unfold contents
  dsimp only
  rw [slice_append_slice, Nat.add_assoc headerSize, slice_append_slice, Nat.add_assoc headerSize,
    slice_append_slice]
  unfold Bytes.slice
  rw [hfields]
  exact List.take_of_length_le (Nat.le_of_eq List.length_drop)

-- ========================================================== prefixes

/-- What follows a field does not change it. -/
private theorem field_append {data : Bytes} {position width : Nat}
    (h : position + width ≤ data.length)
    (more : Bytes) : field (data ++ more) position width = field data position width := by
  unfold field Bytes.slice
  rw [List.drop_append_of_le_length (by omega),
    List.take_append_of_le_length (by rw [List.length_drop]; omega)]

/-- A container is no proper beginning of another one: the header, which
they share, says where it ends. -/
private theorem eq_of_prefix {data other : Bytes} (hdata : IsContainer data)
    (hother : IsContainer other)
    (h : data <+: other) : data = other := by
  obtain ⟨more, rfl⟩ := h
  have hheader : 40 ≤ data.length := hdata.hasHeader
  have hsame : declaredTotal (data ++ more) = declaredTotal data := by
    unfold declaredTotal
    rw [field_append (by omega), field_append (by omega), field_append (by omega),
      field_append (by omega)]
  have hlength : (data ++ more).length - headerSize = data.length - headerSize := by
    rw [← hother.hasFields, ← hdata.hasFields, hsame]
  have hmore : more.length = 0 := by
    rw [List.length_append] at hlength
    unfold headerSize at hlength
    omega
  rw [List.eq_nil_of_length_eq_zero hmore, List.append_nil]

-- ================================================== the whole grammar

/-- The reader accepts exactly the containers, as what stands in them.
The fields have their declared lengths and make up all that follows the
header; everything else is told to be malformed. The checked sum is the
sum without bound or none at all, and where it is what is left after the
header every cut finds its bytes. What is accepted ends where its header
says, so it is no beginning of anything else that is accepted. -/
theorem decode_accepts_grammar (data : Bytes) (short : data.length < 2 ^ 64) :
    (∀ f, decode data = .ok f ↔ IsContainer data ∧ f = contents data)
      ∧ (IsContainer data →
          (contents data).version.length = field data 13 1
            ∧ (contents data).signerId.length = field data 15 1
            ∧ (contents data).content.length = field data 16 8
            ∧ (contents data).signature.length = field data 10 2
            ∧ (contents data).version ++ (contents data).signerId ++ (contents data).content
                ++ (contents data).signature = data.drop headerSize)
      ∧ (¬ IsContainer data → ∃ fault, decode data = .error (.malformedContainer fault))
      ∧ (∀ sum, (declaredLengths data).total? = some sum ↔ declaredTotal data = sum.toNat)
      ∧ (declaredTotal data = (data.drop headerSize).length →
          (declaredLengths data).cut? (data.drop headerSize) ≠ none)
      ∧ ∀ other : Bytes, other.length < 2 ^ 64 → ∀ f g, decode data = .ok f →
          decode other = .ok g → data <+: other → data = other := by
  refine ⟨decode_eq_ok_iff short, ?_, fun h => decode_of_not_isContainer h short, ?_, ?_, ?_⟩
  · intro h
    obtain ⟨hversion, hsignerId, hcontent, hsignature⟩ := length_contents h
    exact ⟨hversion, hsignerId, hcontent, hsignature, append_contents h⟩
  · intro sum
    rw [Lengths.total?_eq_some_iff, total_declaredLengths]
  · intro h
    have hfits : (declaredLengths data).total = (data.drop headerSize).length :=
      (total_declaredLengths data).trans h
    rw [Lengths.cut?_of_total_le (Nat.le_of_eq hfits)]
    intro hnone
    cases hnone
  · intro other hother f g hf hg
    have hdata := ((decode_eq_ok_iff short f).mp hf).1
    have hother := ((decode_eq_ok_iff hother g).mp hg).1
    exact eq_of_prefix hdata hother

/-- A header alone, whose version of one byte and content of 2^64 - 1
bytes add up to nothing in 64 bits. -/
def wrappingHeader : Bytes :=
  magic ++ [0, 0, 0, 6, 0, 0, 0, 1, 0, 0] ++ List.replicate 8 0xFF ++ List.replicate 16 0

/-- A sum that wraps round to just what is left is refused; a container
with all four fields is read. -/
theorem decode_accepts_grammar_at_wrap :
    (wrappingHeader.length < 2 ^ 64 ∧ ¬ IsContainer wrappingHeader
      ∧ ∃ fault, decode wrappingHeader = .error (.malformedContainer fault))
    ∧ ∃ data : Bytes, data.length < 2 ^ 64 ∧ IsContainer data
        ∧ decode data = .ok (contents data) := by
  constructor
  · refine ⟨by decide, by decide, ?_⟩
    exact (decode_accepts_grammar wrappingHeader (by decide)).2.2.1 (by decide)
  · let data : Bytes :=
      magic ++ [0, 0, 0, 6, 0, 2, 0, 1, 0, 3, 0, 0, 0, 0, 0, 0, 0, 4]
        ++ List.replicate 16 0 ++ [1, 2, 2, 2, 3, 3, 3, 3, 4, 4]
    refine ⟨data, by decide, by decide, ?_⟩
    exact ((decode_accepts_grammar data (by decide)).1 (contents data)).mpr ⟨by decide, rfl⟩

end RouterSeed.Su3.File

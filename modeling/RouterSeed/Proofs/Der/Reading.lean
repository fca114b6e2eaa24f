/-
What is written is read back.

`Reads r bytes rest a` says of one input that the reader takes `bytes`
from its front, gives `a` and leaves `rest`. Readers put one after the
other take their bytes one after the other (`Reads.bind`), and a reader
of a content becomes one of the whole element (`Reads.within`), so that
a round trip is put together in the order of the fields and never opens
an element again.

A field that may be missing is told by what comes instead of it. That is
why the rest is part of the statement: `reads_context_none` and
`reads_atEnd_false` look at its first byte.

No encoding is longer than `maxLength`, and a longer one is not read.
The bound is asked for once, of the whole input, and every part of it
inherits it.

Consumed by the round trips of keys and certificates.
-/
import RouterSeed.Der.Oid

namespace RouterSeed.Der

-- ============================================================ lengths

/-- A length is read back in either form: one byte below 128, else the
number of its bytes and then these. -/
theorem decodeLength_encodeLength {n : Nat} (h : n ≤ maxLength) (rest : Bytes) :
    decodeLength (encodeLength n ++ rest) = some (n, rest) := by
  unfold encodeLength
  split
  next hshort =>
    have hlead : UInt8.ofNat n < 0x80 := by
      rw [UInt8.lt_iff_toNat_lt, UInt8.toNat_ofNat']
      show n % 256 < 128
      omega
    have hvalue : (UInt8.ofNat n).toNat = n := by
      rw [UInt8.toNat_ofNat']
      omega
    rw [List.singleton_append, decodeLength, if_pos hlead, hvalue]
  next hlong =>
    have hpos : 0 < Bytes.widthOf n := Nat.succ_pos _
    -- lengths stay below 2 ^ 28, so four bytes are enough
    have hwidth : Bytes.widthOf n ≤ 4 := by
      apply Bytes.widthOf_le (by decide)
      exact Nat.lt_of_le_of_lt h (by decide)
    have hvalue : (UInt8.ofNat (0x80 + Bytes.widthOf n)).toNat = 0x80 + Bytes.widthOf n := by
      rw [UInt8.toNat_ofNat']
      omega
    have hlead : ¬UInt8.ofNat (0x80 + Bytes.widthOf n) < 0x80 := by
      rw [UInt8.lt_iff_toNat_lt, hvalue]
      show ¬0x80 + Bytes.widthOf n < 128
      omega
    have htake : (Bytes.ofNatMinimal n ++ rest).take (Bytes.widthOf n) = Bytes.ofNatMinimal n :=
      List.take_left' (Bytes.length_ofNatMinimal n)
    have hdrop : (Bytes.ofNatMinimal n ++ rest).drop (Bytes.widthOf n) = rest :=
      List.drop_left' (Bytes.length_ofNatMinimal n)
    rw [List.cons_append, decodeLength, if_neg hlead]
    dsimp only
    rw [hvalue, Nat.add_sub_cancel_left, htake, hdrop, Bytes.toNat_ofNatMinimal,
      Bytes.length_ofNatMinimal, if_neg]
    omega

/-- Four bytes of length, and one that counts them. -/
private theorem length_encodeLength_le {n : Nat} (h : n ≤ maxLength) :
    (encodeLength n).length ≤ 5 := by
  have hwidth : Bytes.widthOf n ≤ 4 :=
    Bytes.widthOf_le (by decide) (Nat.lt_of_le_of_lt h (by decide))
  unfold encodeLength
  split
  · exact Nat.le_add_left 1 4
  · rw [List.length_cons, Bytes.length_ofNatMinimal]
    omega

-- =========================================================== elements

/-- What a tag and a length add to the content. -/
theorem length_encode_le (tag : UInt8) {content : Bytes} (h : content.length ≤ maxLength) :
    (encode tag content).length ≤ content.length + 6 := by
  have := length_encodeLength_le h
  unfold encode Element.encode
  rw [List.length_cons, List.length_append]
  dsimp only
  omega

@[simp] theorem knownTag_explicitTag {number : Nat} (h : number < 31) :
    knownTag (explicitTag number) = true := by
  have hall : ∀ number < 31, knownTag (explicitTag number) = true := by decide
  exact hall number h

private theorem contextNumber?_explicitTag {number : Nat} (h : number < 31) :
    contextNumber? (explicitTag number) = some number := by
  have hall : ∀ number < 31, contextNumber? (explicitTag number) = some number := by decide
  exact hall number h

namespace Element

theorem length_encode_le (e : Element) : e.content.length ≤ e.encode.length := by
  unfold encode
  rw [List.length_cons, List.length_append]
  omega

/-- An element is read back, whatever follows it. -/
theorem decode_encode_append {e : Element} (tag : knownTag e.tag = true)
    (short : e.content.length ≤ maxLength) (rest : Bytes) :
    decode (e.encode ++ rest) = some (e, rest) := by
  unfold encode
  rw [List.cons_append, List.append_assoc, decode, tag, decodeLength_encodeLength short]
  have htake : (e.content ++ rest).take e.content.length = e.content := List.take_left
  have hdrop : (e.content ++ rest).drop e.content.length = rest := List.drop_left
  simp [htake, hdrop]

end Element

-- ============================================================ readers

/-- The reader takes `bytes` from the front of an input and leaves `rest`
of it. Nothing is said of an input that is too long. -/
def Reads {α : Type} (r : Reader α) (bytes rest : Bytes) (a : α) : Prop :=
  (bytes ++ rest).length ≤ maxLength → r (bytes ++ rest) = some (a, rest)

section

variable {α β : Type} {r : Reader α} {bytes more rest : Bytes} {a : α} {b : β}

theorem reads_pure (a : α) (rest : Bytes) : Reads (pure a : Reader α) [] rest a := fun _ => rfl

/-- Readers in a row read what was written in a row. -/
theorem Reads.bind {next : α → Reader β} (first : Reads r bytes (more ++ rest) a)
    (second : Reads (next a) more rest b) : Reads (r >>= next) (bytes ++ more) rest b := by
  intro short
  rw [List.append_assoc] at short ⊢
  have hshort : (more ++ rest).length ≤ maxLength := by
    rw [List.length_append] at short
    omega
  show (r (bytes ++ (more ++ rest))).bind _ = _
  rw [first short]
  exact second hshort

/-- A last step that takes nothing. -/
theorem Reads.bind_last {next : α → Reader β} (first : Reads r bytes rest a)
    (second : Reads (next a) [] rest b) : Reads (r >>= next) bytes rest b := by
  have hboth := first.bind second
  rwa [List.append_nil] at hboth

/-- A last step that only puts together what was read. -/
theorem Reads.bind_pure {f : α → β} (first : Reads r bytes rest a) :
    Reads (r >>= fun a => pure (f a)) bytes rest (f a) :=
  first.bind_last (reads_pure (f a) rest)

/-- A step that looks at the input without taking anything. -/
theorem Reads.bind_peek {next : α → Reader β} (first : Reads r [] (bytes ++ rest) a)
    (second : Reads (next a) bytes rest b) : Reads (r >>= next) bytes rest b := by
  show Reads _ ([] ++ bytes) rest b
  exact first.bind second

/-- What is read to the end is all of it. -/
theorem whole_of_reads (h : Reads r bytes [] a) (short : bytes.length ≤ maxLength) :
    whole r bytes = some a := by
  have hread := h (by rwa [List.append_nil])
  rw [List.append_nil] at hread
  unfold whole
  rw [hread]

private theorem length_le_of_encode {tag : UInt8} {content : Bytes}
    (short : (encode tag content ++ rest).length ≤ maxLength) : content.length ≤ maxLength := by
  have := Element.length_encode_le ⟨tag, content⟩
  unfold encode at short
  rw [List.length_append] at short
  dsimp only at this
  omega

/-- An element is read as such. -/
theorem reads_element {e : Element} (tag : knownTag e.tag = true) :
    Reads element e.encode rest e := by
  intro short
  exact Element.decode_encode_append tag (length_le_of_encode short) rest

/-- With a known tag, only the content is handed on. -/
theorem reads_tagged {tag : UInt8} (known : knownTag tag = true) {content : Bytes} :
    Reads (tagged tag) (encode tag content) rest content := by
  intro short
  have hread := reads_element (e := ⟨tag, content⟩) known short
  show (element (Element.encode ⟨tag, content⟩ ++ rest)).bind _ = _
  rw [hread]
  show (if tag = tag then pure content else failure : Reader Bytes) rest = _
  rw [if_pos rfl]
  rfl

/-- What is read of a content is read of the element with that content. -/
theorem Reads.within {tag : UInt8} (known : knownTag tag = true) (h : Reads r bytes [] a) :
    Reads (within tag r) (encode tag bytes) rest a := by
  intro short
  have hbytes : bytes.length ≤ maxLength := length_le_of_encode short
  refine (reads_tagged known).bind_last ?_ short
  rw [whole_of_reads h hbytes]
  exact reads_pure a rest

-- ======================================================== repetitions

theorem reads_atEnd_nil : Reads atEnd [] [] true := fun _ => rfl

theorem reads_atEnd_false (h : rest ≠ []) : Reads atEnd [] rest false := by
  intro _
  show some (rest.isEmpty, rest) = _
  rw [List.isEmpty_eq_false_iff.mpr h]

/-- Values one after the other are read one after the other. -/
private theorem reads_manyUpTo {encode : α → Bytes} {values : List α}
    (each : ∀ a ∈ values, encode a ≠ [] ∧ ∀ rest, Reads r (encode a) rest a) :
    ∀ fuel, values.length ≤ fuel → Reads (manyUpTo r fuel) (values.map encode).flatten [] values := by
  induction values with
  | nil =>
    intro fuel _
    cases fuel with
    | zero => exact fun _ => rfl
    | succ fuel => exact fun _ => rfl
  | cons a values ih =>
    intro fuel hfuel
    obtain ⟨hne, hread⟩ := each a List.mem_cons_self
    cases fuel with
    | zero => simp at hfuel
    | succ fuel =>
      have hrest := ih (fun b hb => each b (List.mem_cons_of_mem a hb)) fuel (by simpa using hfuel)
      rw [List.map_cons, List.flatten_cons]
      unfold manyUpTo
      -- there is an element left, so this is not the end
      apply Reads.bind_peek (reads_atEnd_false (by simp [hne]))
      exact (hread _).bind hrest.bind_pure

/-- A series is read to its end, element by element. -/
theorem reads_many {encode : α → Bytes} {values : List α}
    (each : ∀ a ∈ values, encode a ≠ [] ∧ ∀ rest, Reads r (encode a) rest a) :
    Reads (many r) (values.map encode).flatten [] values := by
  have hfuel : values.length ≤ (values.map encode).flatten.length := by
    rw [← List.length_map (f := encode)]
    apply Bytes.length_le_length_flatten
    intro part hpart
    obtain ⟨a, ha, rfl⟩ := List.mem_map.mp hpart
    exact (each a ha).1
  intro short
  have hread := reads_manyUpTo each _ hfuel short
  show manyUpTo r ((values.map encode).flatten ++ []).length _ = _
  rw [List.append_nil] at hread ⊢
  exact hread

-- ===================================================== optional fields

/-- What does not start with a context-specific element up to the given
number. -/
def LacksContext (number : Nat) : Bytes → Prop
  | [] => True
  | tag :: _ => knownTag tag = true ∧ ∀ n, contextNumber? tag = some n → number < n

/-- A field with a larger number is not taken for one with a smaller number. -/
theorem lacksContext_explicit {number above : Nat} (habove : above < 31) (h : number < above)
    (content rest : Bytes) : LacksContext number (encode (explicitTag above) content ++ rest) := by
  refine ⟨knownTag_explicitTag habove, ?_⟩
  intro n hn
  rw [contextNumber?_explicitTag habove] at hn
  cases hn
  exact h

/-- An optional field that is not there is passed over. -/
theorem reads_context_none {number : Nat} (h : LacksContext number rest) :
    Reads (context? number) [] rest none := by
  intro _
  show contextUpTo number rest.length rest = _
  cases rest with
  | nil => rfl
  | cons tag more =>
    obtain ⟨hknown, hnumber⟩ := h
    show (if !knownTag tag then failure else _ : Reader (Option Element)) (tag :: more) = _
    rw [hknown]
    cases hcontext : contextNumber? tag with
    | none => rfl
    | some n =>
      show (if number < n then pure none else _ : Reader (Option Element)) (tag :: more) = _
      rw [if_pos (hnumber n hcontext)]
      rfl

/-- One that is there is taken, since numbers go up. -/
theorem reads_context_some {number : Nat} (h : number < 31) {content : Bytes} :
    Reads (context? number) (encode (explicitTag number) content) rest
      (some ⟨explicitTag number, content⟩) := by
  intro short
  have hread := reads_element (e := ⟨explicitTag number, content⟩) (knownTag_explicitTag h) short
  obtain ⟨more, hinput⟩ :
      ∃ more, encode (explicitTag number) content ++ rest = explicitTag number :: more := ⟨_, rfl⟩
  have hinput' : Element.encode ⟨explicitTag number, content⟩ ++ rest
      = explicitTag number :: more := hinput
  rw [hinput'] at hread
  rw [hinput]
  show (if !knownTag (explicitTag number) then failure else _ : Reader (Option Element))
    (explicitTag number :: more) = _
  rw [knownTag_explicitTag h, contextNumber?_explicitTag h]
  -- it is neither a smaller number nor a larger one
  show (if number < number then pure none else if number = number then some <$> element else _
    : Reader (Option Element)) (explicitTag number :: more) = _
  rw [if_neg (Nat.lt_irrefl _), if_pos rfl]
  show (element (explicitTag number :: more)).bind _ = _
  rw [hread]
  rfl

/-- The same for a field whose content is read on. -/
theorem Reads.explicit {number : Nat} (hnumber : number < 31) (h : Reads r bytes [] a) :
    Reads (explicit? number r) (encode (explicitTag number) bytes) rest (some a) := by
  intro short
  have hbytes : bytes.length ≤ maxLength := length_le_of_encode short
  refine (reads_context_some hnumber).bind_last ?_ short
  dsimp only
  rw [if_pos rfl, whole_of_reads h hbytes]
  exact reads_pure (some a) rest

/-- Implicit bits that are left out are read as none. -/
theorem reads_implicitBits_none {number : Nat} (h : LacksContext number rest) :
    Reads (implicitBits? number) [] rest none := by
  unfold implicitBits?
  apply Reads.bind_peek (reads_context_none h)
  exact reads_pure none rest

end

-- ============================================================ integers

/-- A content without a sign bit and without a spare zero stands for the
number with these bytes. -/
theorem unsignedOfContent_of_lt {lead : UInt8} {rest : Bytes} (hlead : lead < 0x80)
    (hshort : rest ≠ [] → lead ≠ 0) :
    unsignedOfContent (lead :: rest) = some (Bytes.toNat (lead :: rest)) := by
  cases rest with
  | nil =>
    rw [unsignedOfContent, if_pos hlead]
    simp [Bytes.toNat]
  | cons next rest =>
    rw [unsignedOfContent, if_pos hlead]
    · exact List.cons_ne_nil _ _
    · intro b more hzero _
      exact hshort (List.cons_ne_nil _ _) hzero

/-- A number comes back from its content: a zero byte stands in front of it
if it would look negative. -/
theorem unsignedOfContent_unsignedContent (n : Nat) :
    unsignedOfContent (unsignedContent n) = some n := by
  have hlength := Bytes.length_ofNatMinimal n
  have hvalue := Bytes.toNat_ofNatMinimal n
  unfold unsignedContent
  dsimp only
  split
  next lead rest hdigits =>
    rw [hdigits] at hvalue ⊢
    split
    next hlead =>
      rw [unsignedOfContent_of_lt hlead, hvalue]
      -- a zero in front of other digits would be spare
      intro hrest
      apply Bytes.ofNatMinimal_lead_ne_zero _ hdigits
      rintro rfl
      rw [hdigits] at hlength
      exact hrest (List.length_eq_zero_iff.mp (Nat.succ.inj hlength))
    next hlead =>
      rw [unsignedOfContent, if_neg hlead, hvalue]
  next hdigits =>
    rw [hdigits] at hlength
    exact absurd hlength (Nat.succ_ne_zero _).symm

/-- A number is read back. -/
theorem reads_unsigned (n : Nat) (rest : Bytes) : Reads unsigned (encodeUnsigned n) rest n := by
  apply (reads_tagged rfl).bind_last
  rw [unsignedOfContent_unsignedContent]
  exact reads_pure n rest

private theorem length_unsignedContent_le (n : Nat) :
    (unsignedContent n).length ≤ Bytes.widthOf n + 1 := by
  have hlength := Bytes.length_ofNatMinimal n
  unfold unsignedContent
  dsimp only
  split
  next hdigits =>
    rw [hdigits] at hlength ⊢
    split
    · omega
    · rw [List.length_cons]
      omega
  next => omega

/-- A number of a given width, its tag, its length and a byte for the sign. -/
theorem length_encodeUnsigned_le {n width : Nat} (hwidth : 0 < width) (hmax : width < maxLength)
    (h : n < 256 ^ width) : (encodeUnsigned n).length ≤ width + 7 := by
  have hcontent := length_unsignedContent_le n
  have hn := Bytes.widthOf_le hwidth h
  have hshort : (unsignedContent n).length ≤ maxLength := by omega
  have := length_encode_le integerTag hshort
  unfold encodeUnsigned
  omega

/-- A first byte that is neither all zeros nor all ones is not one too many. -/
theorem isShortestInteger_cons {lead : UInt8} (hzero : lead ≠ 0x00) (hfull : lead ≠ 0xFF)
    (rest : Bytes) : isShortestInteger (lead :: rest) = true := by
  unfold isShortestInteger
  split
  next h => cases h
  next => rfl
  next h => cases h; exact absurd rfl hzero
  next h => cases h; exact absurd rfl hfull
  next => rfl

-- ======================================= bit strings and identifiers

@[simp] theorem BitString.bytes?_ofBytes (bytes : Bytes) :
    (BitString.ofBytes bytes).bytes? = some bytes := rfl

/-- Whole bytes are read back as bits. -/
theorem reads_bitString (bytes rest : Bytes) :
    Reads bitString (BitString.ofBytes bytes).encode rest (BitString.ofBytes bytes) := by
  intro short
  have hread : tagged bitStringTag (encode bitStringTag (0 :: bytes) ++ rest)
      = some (0 :: bytes, rest) := reads_tagged rfl short
  show (tagged bitStringTag (encode bitStringTag (0 :: bytes) ++ rest)).bind _ = _
  rw [hread]
  rfl

/-- The content is that of an identifier. -/
def Oid.Valid (oid : Oid) : Prop := Oid.ofContent oid.content = some oid

instance (oid : Oid) : Decidable oid.Valid := by unfold Oid.Valid; infer_instance

/-- An object id is read back if its parts are valid. -/
theorem reads_oid {oid : Oid} (h : oid.Valid) (rest : Bytes) : Reads Der.oid oid.encode rest oid := by
  apply (reads_tagged rfl).bind_last
  rw [h]
  exact reads_pure oid rest

end RouterSeed.Der

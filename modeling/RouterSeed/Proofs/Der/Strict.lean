/-
What is read is what would have been written.

Reading is strict: there is one encoding of each value, and nothing else
is taken for it. `TakesOnly r encode` says so of a reader, that whatever
it takes from the front of an input is the encoding of what it gives.
It is the other half of `Reads`, and it is put together in the same way,
field by field.

So a pair of numbers is read of a signature exactly if the signature is
the encoding of that pair (`SignaturePair.decode?_eq_some_iff`), and a
signature that was changed anywhere in its encoding is either another
pair or none.
-/
import RouterSeed.Crypto.Ecdsa
import RouterSeed.Proofs.Der.Reading

namespace RouterSeed

namespace Bytes

/-- Bytes are read on from any number that was there before. -/
private theorem foldl_toNat (bytes : Bytes) (n : Nat) :
    bytes.foldl (fun n b => n * 256 + b.toNat) n = n * 256 ^ bytes.length + toNat bytes := by
  unfold toNat
  induction bytes generalizing n with
  | nil => simp
  | cons b rest ih =>
    rw [List.foldl_cons, List.foldl_cons, ih, ih (0 * 256 + b.toNat), List.length_cons,
      Nat.pow_succ]
    grind

/-- The first byte counts most. -/
private theorem toNat_cons (lead : UInt8) (rest : Bytes) :
    toNat (lead :: rest) = lead.toNat * 256 ^ rest.length + toNat rest := by
  rw [← foldl_toNat]
  unfold toNat
  rw [List.foldl_cons, Nat.zero_mul, Nat.zero_add]

/-- Digits without a zero in front are as many as the number needs. -/
private theorem widthOf_toNat {lead : UInt8} {rest : Bytes} (h : lead ≠ 0 ∨ rest = []) :
    widthOf (toNat (lead :: rest)) = rest.length + 1 := by
  have hle : widthOf (toNat (lead :: rest)) ≤ rest.length + 1 :=
    widthOf_le (Nat.succ_pos _) (toNat_lt _)
  rcases h with hlead | rfl
  · have hpos : 1 ≤ lead.toNat := by
      apply Nat.pos_of_ne_zero
      intro hzero
      exact hlead (UInt8.toNat_inj.mp hzero)
    have hpow : 256 ^ rest.length ≤ toNat (lead :: rest) := by
      rw [toNat_cons]
      exact Nat.le_trans (Nat.le_mul_of_pos_left _ hpos) (Nat.le_add_right _ _)
    have hlt := Nat.lt_of_le_of_lt hpow (lt_pow_widthOf (toNat (lead :: rest)))
    have := (Nat.pow_lt_pow_iff_right (by decide : 1 < 256)).mp hlt
    omega
  · exact Nat.le_antisymm hle (Nat.succ_pos _)

/-- Bytes of the least width are the ones that a number is written in. -/
private theorem ofNatMinimal_toNat {bytes : Bytes} (h : widthOf (toNat bytes) = bytes.length) :
    ofNatMinimal (toNat bytes) = bytes := by
  rw [ofNatMinimal, h]
  exact ofNat_toNat bytes

end Bytes

namespace Der

-- ============================================================ lengths

/-- Only the shortest form of a length is read. -/
theorem eq_encodeLength_of_decodeLength {bytes rest : Bytes} {n : Nat}
    (h : decodeLength bytes = some (n, rest)) : bytes = encodeLength n ++ rest := by
  cases bytes with
  | nil => cases h
  | cons lead bytes =>
    rw [decodeLength] at h
    split at h
    next hshort =>
      cases h
      have hlt : lead.toNat < 128 := hshort
      rw [encodeLength, if_pos hlt, UInt8.ofNat_toNat]
      rfl
    next hlong =>
      have hle : 0x80 ≤ lead.toNat := Nat.le_of_not_lt hlong
      dsimp only at h
      split at h
      · cases h
      next hform =>
        obtain ⟨rfl, rfl⟩ := Prod.mk.inj (Option.some.inj h)
        simp only [not_or, Nat.not_lt, Decidable.not_not] at hform
        -- the long form is refused for small lengths, and with zeros in front
        obtain ⟨-, -, hdigits, hlarge, hminimal, -⟩ := hform
        have hlead : UInt8.ofNat (0x80 + (lead.toNat - 0x80)) = lead := by
          rw [Nat.add_sub_cancel' hle, UInt8.ofNat_toNat]
        rw [encodeLength, if_neg (Nat.not_lt.mpr hlarge), hminimal, hlead,
          Bytes.ofNatMinimal_toNat (hminimal.trans hdigits.symm), List.cons_append,
          List.take_append_drop]

-- ============================================================ readers

/-- The reader takes nothing but the encoding of what it gives. -/
def TakesOnly {α : Type} (r : Reader α) (encode : α → Bytes) : Prop :=
  ∀ bytes a rest, r bytes = some (a, rest) → bytes = encode a ++ rest

section

variable {α : Type} {r : Reader α} {encode : α → Bytes}

/-- An element is only read from what is written for it. -/
theorem takesOnly_element : TakesOnly element Element.encode := by
  intro bytes e rest h
  cases bytes with
  | nil => cases h
  | cons tag bytes =>
    change Element.decode _ = _ at h
    rw [Element.decode] at h
    split at h
    · cases h
    · obtain ⟨⟨length, more⟩, hlength, h⟩ := Option.bind_eq_some_iff.mp h
      dsimp only at h
      split at h
      · cases h
      next hcontent =>
        cases h
        rw [eq_encodeLength_of_decodeLength hlength, Element.encode, Decidable.not_not.mp hcontent,
          List.cons_append, List.append_assoc, List.take_append_drop]

private theorem takesOnly_tagged (tag : UInt8) : TakesOnly (tagged tag) (Der.encode tag) := by
  intro bytes content rest h
  obtain ⟨⟨e, more⟩, he, h⟩ := Option.bind_eq_some_iff.mp h
  dsimp only at h
  split at h
  next htag =>
    cases h
    subst htag
    exact takesOnly_element bytes e rest he
  next => cases h

/-- What is used up by a reader is the encoding of what it gave. -/
theorem TakesOnly.eq_of_whole (strict : TakesOnly r encode) {bytes : Bytes} {a : α}
    (h : whole r bytes = some a) : bytes = encode a := by
  unfold whole at h
  split at h
  next hread =>
    cases h
    rw [strict _ _ _ hread, List.append_nil]
  next => cases h

/-- What is strict inside is strict with a tag around it. -/
theorem TakesOnly.within (strict : TakesOnly r encode) (tag : UInt8) :
    TakesOnly (within tag r) (fun a => Der.encode tag (encode a)) := by
  intro bytes a rest h
  obtain ⟨⟨content, more⟩, hcontent, h⟩ := Option.bind_eq_some_iff.mp h
  dsimp only at h
  cases hwhole : whole r content with
  | none =>
    rw [hwhole] at h
    cases h
  | some value =>
    rw [hwhole] at h
    cases h
    show bytes = Der.encode tag (encode a) ++ rest
    rw [← strict.eq_of_whole hwhole]
    exact takesOnly_tagged tag _ _ _ hcontent

end

-- =========================================================== integers

/-- Only the shortest content is read as a number. -/
theorem eq_unsignedContent_of_unsignedOfContent {content : Bytes} {n : Nat}
    (h : unsignedOfContent content = some n) : content = unsignedContent n := by
  have minimal : ∀ {lead : UInt8} {rest : Bytes}, lead ≠ 0 ∨ rest = [] →
      Bytes.ofNatMinimal (Bytes.toNat (lead :: rest)) = lead :: rest := fun hlead =>
    Bytes.ofNatMinimal_toNat (Bytes.widthOf_toNat hlead)
  unfold unsignedOfContent at h
  unfold unsignedContent
  -- The cases are those of the reader: one byte, a zero in front of a large one, or
  -- several; each asks that nothing could be left out.
  split at h
  · cases h
  next b =>
    split at h
    next hb =>
      cases h
      have hvalue : b.toNat = Bytes.toNat [b] := by simp [Bytes.toNat]
      rw [hvalue, minimal (.inr rfl)]
      exact (if_pos hb).symm
    next => cases h
  next b rest =>
    split at h
    next => cases h
    next hb =>
      cases h
      have hlead : b ≠ 0 := by
        rintro rfl
        exact hb (by decide)
      rw [minimal (.inl hlead)]
      exact (if_neg hb).symm
  next b rest hsingle hzero =>
    split at h
    next hb =>
      cases h
      have hlead : b ≠ 0 := by
        rintro rfl
        cases rest with
        | nil => exact hsingle rfl
        | cons next rest => exact hzero _ _ rfl rfl
      rw [minimal (.inl hlead)]
      exact (if_pos hb).symm
    next => cases h

/-- A number is only read from what is written for it. -/
theorem takesOnly_unsigned : TakesOnly unsigned encodeUnsigned := by
  intro bytes n rest h
  obtain ⟨⟨content, more⟩, hcontent, h⟩ := Option.bind_eq_some_iff.mp h
  dsimp only at h
  cases hvalue : unsignedOfContent content with
  | none =>
    rw [hvalue] at h
    cases h
  | some value =>
    rw [hvalue] at h
    cases h
    rw [encodeUnsigned, ← eq_unsignedContent_of_unsignedOfContent hvalue]
    exact takesOnly_tagged integerTag _ _ _ hcontent

end Der

-- ================================================== pairs of numbers

namespace SignaturePair

/-- The two numbers of a pair, without the sequence around them. -/
def reader : Der.Reader SignaturePair := do
  let r ← Der.unsigned
  let s ← Der.unsigned
  pure ⟨r, s⟩

/-- Both numbers are read back. -/
theorem reads_reader (p : SignaturePair) (rest : Bytes) :
    Der.Reads reader (Der.encodeUnsigned p.r ++ Der.encodeUnsigned p.s) rest p :=
  (Der.reads_unsigned p.r _).bind (Der.reads_unsigned p.s rest).bind_pure

private theorem takesOnly_reader :
    Der.TakesOnly reader fun p => Der.encodeUnsigned p.r ++ Der.encodeUnsigned p.s := by
  intro bytes p rest h
  obtain ⟨⟨r, more⟩, hr, h⟩ := Option.bind_eq_some_iff.mp h
  obtain ⟨⟨s, last⟩, hs, h⟩ := Option.bind_eq_some_iff.mp h
  cases h
  rw [Der.takesOnly_unsigned _ _ _ hr, Der.takesOnly_unsigned _ _ _ hs, List.append_assoc]

private theorem encode_eq (p : SignaturePair) :
    p.encode = Der.encode Der.sequenceTag (Der.encodeUnsigned p.r ++ Der.encodeUnsigned p.s) := by
  unfold encode Der.sequence
  simp

/-- A pair is read from its own bytes and from no others. -/
private theorem whole_reader_iff {bytes : Bytes} {p : SignaturePair}
    (short : bytes.length ≤ Der.maxLength) :
    Der.whole (Der.within Der.sequenceTag reader) bytes = some p ↔ bytes = p.encode := by
  constructor
  · intro h
    rw [encode_eq]
    exact (takesOnly_reader.within Der.sequenceTag).eq_of_whole h
  · rintro rfl
    refine Der.whole_of_reads ?_ short
    rw [encode_eq]
    exact (reads_reader p []).within rfl

/-- A pair is read of its encoding and of nothing else. -/
theorem decode?_eq_some_iff {bytes : Bytes} {p : SignaturePair}
    (short : bytes.length ≤ Der.maxLength) :
    decode? bytes = some p ↔ bytes = p.encode ∧ 0 < p.r ∧ 0 < p.s := by
  rw [← whole_reader_iff short]
  constructor
  · intro h
    obtain ⟨read, hread, h⟩ := Option.bind_eq_some_iff.mp h
    split at h
    · cases h
    · cases h
      refine ⟨hread, ?_⟩
      omega
  · rintro ⟨hread, hr, hs⟩
    refine Option.bind_eq_some_iff.mpr ⟨p, hread, if_neg ?_⟩
    omega

end SignaturePair

/-- On a curve both numbers are below its order as well. -/
theorem Ecdsa.decode?_eq_some_iff {c : Curve.Params} {bytes : Bytes} {p : SignaturePair}
    (short : bytes.length ≤ Der.maxLength) :
    decode? c bytes = some p
      ↔ bytes = p.encode ∧ 0 < p.r ∧ 0 < p.s ∧ p.r < c.order ∧ p.s < c.order := by
  constructor
  · intro h
    obtain ⟨read, hread, h⟩ := Option.bind_eq_some_iff.mp h
    split at h
    next hsmall =>
      cases h
      obtain ⟨hbytes, hr, hs⟩ := (SignaturePair.decode?_eq_some_iff short).mp hread
      exact ⟨hbytes, hr, hs, hsmall⟩
    next => cases h
  · rintro ⟨hbytes, hr, hs, hsmall⟩
    have hread := (SignaturePair.decode?_eq_some_iff short).mpr ⟨hbytes, hr, hs⟩
    exact Option.bind_eq_some_iff.mpr ⟨p, hread, if_pos hsmall⟩

end RouterSeed

/-
What counts in a key file.

The blocks of a key file are looked through twice, once for a key and
once for a certificate, and each time the first block of the kind is
taken (`Pem.IsFirst`). The key is decoded before the certificate, so of
two bad blocks the key is the one that is told about, wherever they
stand; and where there is no certificate, one is issued for the key. No
other block is looked into: whatever else is put in, taken out or moved
about, the same identity is loaded (`ofBlocks_congr`).

Which blocks a file has is a matter of `Pem.Spells`.
-/
import RouterSeed.Proofs.Identity.Certified
import RouterSeed.Proofs.Pem.Spelling

namespace RouterSeed

-- ========================================================= first blocks

namespace Pem

/-- The block is the first one of its kind. -/
def IsFirst (kind : Block → Bool) (b : Block) (blocks : List Block) : Prop :=
  kind b = true ∧ ∃ before after, blocks = before ++ b :: after ∧ ∀ other ∈ before, kind other = false

/-- A search finds the first block of its kind. -/
private theorem find?_eq_some_iff_isFirst {kind : Block → Bool} {b : Block} {blocks : List Block} :
    blocks.find? kind = some b ↔ IsFirst kind b blocks := by
  rw [List.find?_eq_some_iff_append]
  simp only [IsFirst, Bool.not_eq_true']

end Pem

namespace SigningIdentity

open Pem (IsFirst find?_eq_some_iff_isFirst)

variable {tree : FileTree} {path signerId : String} {text : Bytes} {inputs : IssueInputs}
  {blocks others : List Pem.Block} {b : Pem.Block} {key : PrivateKey} {failure : Failure}

/-- Whether a block says that it holds a certificate. -/
def holdsCertificate (block : Pem.Block) : Bool := block.tag = Certificate.pemTag

-- ============================================================= failures

/-- A key that is given is not missing. -/
private theorem issue_ne_missingSigningKey (signerId : String) (key : PrivateKey)
    (inputs : IssueInputs) :
    issue signerId key inputs ≠ .error .missingSigningKey := by
  intro h
  rcases bind_eq_error_iff.mp h with hissued | ⟨certificate, -, hmade⟩
  · unfold issueCertificate at hissued
    split at hissued
    · cases hissued
    split at hissued
    · cases hissued
    split at hissued
    · cases hissued
    rcases bind_eq_error_iff.mp hissued with hsigned | ⟨signature, -, hmade⟩
    · rcases Su3.signWith_eq_error hsigned with h | h | h <;> cases h
    · cases hmade
  · cases hmade

/-- A key block that is refused is a malformed certificate, whatever is
wrong with it. -/
private theorem malformed_of_keyOfBlock (h : keyOfBlock b = .error failure) :
    ∃ reason, failure = .malformedCertificate reason := by
  unfold keyOfBlock at h
  split at h
  · split at h
    next => cases h
    next =>
      cases h
      exact ⟨_, rfl⟩
  · split at h
    next => cases h
    next =>
      cases h
      exact ⟨_, rfl⟩

/-- A certificate block that is refused is a malformed certificate, whatever
is wrong with it. -/
private theorem malformed_of_ofBlock {c : Pem.Block} (h : Certificate.ofBlock c = .error failure) :
    ∃ reason, failure = .malformedCertificate reason := by
  unfold Certificate.ofBlock at h
  split at h
  · cases h
    exact ⟨_, rfl⟩
  · split at h
    next => cases h
    next =>
      cases h
      exact ⟨_, rfl⟩

-- =============================================================== blocks

/-- There are two tags for keys. -/
private theorem holdsKey_eq_false_iff :
    holdsKey b = false ↔ b.tag ≠ rsaKeyTag ∧ b.tag ≠ keyTag := by
  simp [holdsKey]

/-- Without a key block nothing else is looked at. -/
private theorem ofBlocks_of_keyless (h : ∀ b ∈ blocks, holdsKey b = false) (signerId : String)
    (inputs : IssueInputs) : ofBlocks signerId blocks inputs = .error .missingSigningKey := by
  have hnone : blocks.find? holdsKey = none :=
    List.find?_eq_none.mpr fun b hb => by rw [h b hb]; exact Bool.false_ne_true
  unfold ofBlocks
  rw [hnone]

/-- What the blocks come to once there is a key block. -/
private theorem ofBlocks_of_isFirst (h : IsFirst holdsKey b blocks) (signerId : String)
    (inputs : IssueInputs) :
    ofBlocks signerId blocks inputs = keyOfBlock b >>= fun key =>
      match blocks.find? holdsCertificate with
      | none => issue signerId key inputs
      | some c => Certificate.ofBlock c >>= fun certificate => .ok ⟨signerId, key, certificate⟩ := by
  unfold ofBlocks
  rw [find?_eq_some_iff_isFirst.mpr h]
  rfl

/-- A bad key ends the matter, whatever other blocks say. -/
theorem ofBlocks_of_badKey (h : IsFirst holdsKey b blocks) (hbad : keyOfBlock b = .error failure)
    (signerId : String) (inputs : IssueInputs) :
    ofBlocks signerId blocks inputs = .error failure := by
  rw [ofBlocks_of_isFirst h, hbad]
  rfl

/-- Without a certificate block, one is issued. -/
theorem ofBlocks_of_uncertified (h : IsFirst holdsKey b blocks) (hkey : keyOfBlock b = .ok key)
    (hnone : ∀ c ∈ blocks, c.tag ≠ Certificate.pemTag) (signerId : String) (inputs : IssueInputs) :
    ofBlocks signerId blocks inputs = issue signerId key inputs := by
  have habsent : blocks.find? holdsCertificate = none :=
    List.find?_eq_none.mpr fun c hc => by simpa [holdsCertificate] using hnone c hc
  rw [ofBlocks_of_isFirst h, hkey, habsent]
  rfl

/-- With a certificate block, the certificate is taken as it is. -/
theorem ofBlocks_of_certified {c : Pem.Block} (h : IsFirst holdsKey b blocks)
    (hkey : keyOfBlock b = .ok key) (hc : IsFirst holdsCertificate c blocks) (signerId : String)
    (inputs : IssueInputs) :
    ofBlocks signerId blocks inputs = Certificate.ofBlock c >>= fun certificate =>
      .ok ⟨signerId, key, certificate⟩ := by
  rw [ofBlocks_of_isFirst h, hkey, find?_eq_some_iff_isFirst.mpr hc]
  rfl

/-- No key is missing where there is a block for one. -/
private theorem ofBlocks_ne_missingSigningKey (h : IsFirst holdsKey b blocks) (signerId : String)
    (inputs : IssueInputs) : ofBlocks signerId blocks inputs ≠ .error .missingSigningKey := by
  intro hmissing
  rw [ofBlocks_of_isFirst h] at hmissing
  rcases bind_eq_error_iff.mp hmissing with hbad | ⟨key, -, hrest⟩
  · obtain ⟨reason, hreason⟩ := malformed_of_keyOfBlock hbad
    cases hreason
  · split at hrest
    next => exact issue_ne_missingSigningKey _ _ _ hrest
    next =>
      rcases bind_eq_error_iff.mp hrest with hbad | ⟨certificate, -, hmade⟩
      · obtain ⟨reason, hreason⟩ := malformed_of_ofBlock hbad
        cases hreason
      · cases hmade

/-- The key is missing exactly if no block says that it holds one. -/
theorem ofBlocks_eq_missingSigningKey_iff :
    ofBlocks signerId blocks inputs = .error .missingSigningKey
      ↔ ∀ b ∈ blocks, b.tag ≠ rsaKeyTag ∧ b.tag ≠ keyTag := by
  simp only [← holdsKey_eq_false_iff]
  refine ⟨fun h => ?_, fun h => ofBlocks_of_keyless h signerId inputs⟩
  cases hfirst : blocks.find? holdsKey with
  | none =>
    intro b hb
    exact Bool.eq_false_iff.mpr (List.find?_eq_none.mp hfirst b hb)
  | some b => exact absurd h (ofBlocks_ne_missingSigningKey (find?_eq_some_iff_isFirst.mp hfirst) _ _)

/-- Only the first block of each kind counts, and what an issue takes from
outside only where something is issued. -/
theorem ofBlocks_congr (hkey : blocks.find? holdsKey = others.find? holdsKey)
    (hcertificate : blocks.find? holdsCertificate = others.find? holdsCertificate)
    {more : IssueInputs} (hinputs : more = inputs ∨ (others.find? holdsCertificate).isSome = true)
    (signerId : String) : ofBlocks signerId blocks inputs = ofBlocks signerId others more := by
  cases hfirst : others.find? holdsKey with
  | none =>
    have habsent : ∀ b ∈ others, holdsKey b = false := fun b hb =>
      Bool.eq_false_iff.mpr (List.find?_eq_none.mp hfirst b hb)
    have habsent' : ∀ b ∈ blocks, holdsKey b = false := fun b hb =>
      Bool.eq_false_iff.mpr (List.find?_eq_none.mp (hkey.trans hfirst) b hb)
    rw [ofBlocks_of_keyless habsent, ofBlocks_of_keyless habsent']
  | some b =>
    rw [ofBlocks_of_isFirst (find?_eq_some_iff_isFirst.mp (hkey.trans hfirst)),
      ofBlocks_of_isFirst (find?_eq_some_iff_isFirst.mp hfirst), hcertificate]
    -- the inputs are drawn on only where a certificate has to be issued
    rcases hinputs with rfl | hsome
    · rfl
    · obtain ⟨c, hc⟩ := Option.isSome_iff_exists.mp hsome
      rw [hc]

-- ============================================================== verdict

/-- Under its own tag, a certificate is what its bytes are. -/
theorem ofBlock_of_holdsCertificate {c : Pem.Block} (h : holdsCertificate c = true) :
    Certificate.ofBlock c = match Certificate.decode? c.contents with
      | some certificate => .ok certificate
      | none => .error (.malformedCertificate .notDer) := by
  unfold Certificate.ofBlock
  exact if_neg (by simpa [holdsCertificate] using h)

/-- What is loaded from a key file depends on its first key block and its
first certificate block only.

Without a key block the key is missing, and only then. If the first key
block does not decode, that is the failure, whatever else is there; then
it is the first certificate block that has to decode. Both together are
the identity, and where there is no certificate one is issued. Every
text that spells blocks is read as these blocks. Two files with the same
first blocks give the same, in whatever order and with whatever other
blocks, also for other random numbers and another time unless a
certificate has to be issued. -/
theorem load_takes_first_blocks (signerId : String) :
    (∀ (tree : FileTree) (path : String) (text : Bytes) (blocks : List Pem.Block)
        (inputs : IssueInputs), tree.read path = .ok text → Pem.decodeAll text = .ok blocks →
      let loaded := load tree path signerId inputs
      (loaded = .error .missingSigningKey
          ↔ ∀ b ∈ blocks, b.tag ≠ "RSA PRIVATE KEY" ∧ b.tag ≠ "PRIVATE KEY")
        ∧ ∀ keyBlock, IsFirst holdsKey keyBlock blocks →
          (∀ failure, keyOfBlock keyBlock = .error failure →
            loaded = .error failure ∧ ∃ reason, failure = .malformedCertificate reason)
          ∧ ∀ key, keyOfBlock keyBlock = .ok key →
            ((∀ b ∈ blocks, b.tag ≠ "CERTIFICATE") → loaded = issue signerId key inputs)
            ∧ ∀ c, IsFirst holdsCertificate c blocks →
              (Certificate.decode? c.contents = none →
                ∃ reason, loaded = .error (.malformedCertificate reason))
              ∧ ∀ certificate, Certificate.decode? c.contents = some certificate →
                loaded = .ok ⟨signerId, key, certificate⟩)
      ∧ (∀ (blocks : List Pem.Block) (text : Bytes), Pem.Spells blocks text →
        Pem.decodeAll text = .ok blocks)
      ∧ ∀ (tree other : FileTree) (path otherPath : String) (text otherText : Bytes)
          (blocks others : List Pem.Block) (inputs more : IssueInputs),
        tree.read path = .ok text → Pem.decodeAll text = .ok blocks →
        other.read otherPath = .ok otherText → Pem.decodeAll otherText = .ok others →
        blocks.find? holdsKey = others.find? holdsKey →
        blocks.find? holdsCertificate = others.find? holdsCertificate →
        (more = inputs ∨ (others.find? holdsCertificate).isSome = true) →
          load tree path signerId inputs = load other otherPath signerId more := by
  refine ⟨?verdict, fun _ _ => Pem.decodeAll_of_spells, ?same⟩
  case verdict =>
    intro tree path text blocks inputs hread hblocks
    rw [load_eq hread hblocks]
    refine ⟨ofBlocks_eq_missingSigningKey_iff, fun keyBlock hfirst => ⟨?bad, ?good⟩⟩
    case bad =>
      intro failure hbad
      exact ⟨ofBlocks_of_badKey hfirst hbad signerId inputs, malformed_of_keyOfBlock hbad⟩
    case good =>
      intro key hkey
      refine ⟨fun hnone => ofBlocks_of_uncertified hfirst hkey hnone signerId inputs,
        fun c hc => ?_⟩
      rw [ofBlocks_of_certified hfirst hkey hc, ofBlock_of_holdsCertificate hc.1]
      constructor
      · intro hdecode
        rw [hdecode]
        exact ⟨_, rfl⟩
      · intro certificate hdecode
        rw [hdecode]
        rfl
  -- Nothing but the two first blocks goes into the verdict, so files that agree on them are
  -- loaded alike.
  case same =>
    intro tree other path otherPath text otherText blocks others inputs more hread hblocks
      hreadOther hothers hkey hcertificate hinputs
    rw [load_eq hread hblocks, load_eq hreadOther hothers]
    exact ofBlocks_congr hkey hcertificate hinputs signerId

/-- A certificate in front of everything, a note, a key, and after it
bytes that are no key. -/
def shuffledBlocks (c : Certificate) (form : Bytes) : List Pem.Block :=
  [c.toBlock, ⟨"X-NOTE", [1, 2]⟩, ⟨rsaKeyTag, form⟩, ⟨keyTag, [0]⟩]

private theorem isTag_of_mem_shuffledBlocks {c : Certificate} {form : Bytes} {b : Pem.Block}
    (h : b ∈ shuffledBlocks c form) : Pem.IsTag b.tag := by
  have htags : ∀ tag ∈ [Certificate.pemTag, "X-NOTE", rsaKeyTag, keyTag], Pem.IsTag tag := by
    have hall : ∀ tag ∈ [Certificate.pemTag, "X-NOTE", rsaKeyTag, keyTag], tag ≠ ""
        ∧ ¬Pem.dashes <:+: Bytes.ofString tag
        ∧ (Bytes.ofString tag).getLast? ≠ some Pem.dash := by
      decide +kernel
    exact fun tag htag => ⟨(hall tag htag).1, (hall tag htag).2.1, (hall tag htag).2.2⟩
  exact htags b.tag (List.mem_map_of_mem (f := Pem.Block.tag) h)

/-- A key file with its blocks out of order and others between them, and
three that are refused or completed. -/
theorem load_takes_first_blocks_shuffled :
    ∃ (c : Certificate) (form : Bytes),
      PrivateForm.encodeRsa? sampleKey = some form
        ∧ (∀ inputs, load (keyFile ((shuffledBlocks c form).map Pem.encode).flatten) "k.pem" "a@b"
          inputs = .ok ⟨"a@b", .rsa sampleKey, c⟩)
        ∧ (∀ inputs, load (keyFile (Pem.encode ⟨rsaKeyTag, form⟩ ++ c.toPem)) "k.pem" "a@b"
          inputs = .ok ⟨"a@b", .rsa sampleKey, c⟩)
        ∧ (∃ reason, load (keyFile ((shuffledBlocks c form).reverse.map Pem.encode).flatten) "k.pem"
          "a@b" sampleInputs = .error (.malformedCertificate reason))
        ∧ load (keyFile c.toPem) "k.pem" "a@b" sampleInputs = .error .missingSigningKey := by
  obtain ⟨hverdict, hspelled, hsame⟩ := load_takes_first_blocks "a@b"
  have hwritable : (PrivateForm.encodeRsa? sampleKey).isSome = true := by decide +kernel
  obtain ⟨form, hform⟩ := Option.isSome_iff_exists.mp hwritable
  obtain ⟨c, hc, hshort⟩ := exists_issueCertificate_sampleKey
  have hdecode : Certificate.decode? c.toBlock.contents = some c :=
    Certificate.decode?_encode (readable_of_issueCertificate hc) hshort
  have hkey : keyOfBlock ⟨rsaKeyTag, form⟩ = .ok (.rsa sampleKey) :=
    keyOfBlock_rsa hform isConsistent_sampleKey
  -- every selection of these blocks is read as it was written
  have hblocks (blocks : List Pem.Block) (h : ∀ b ∈ blocks, b ∈ shuffledBlocks c form) :
      Pem.decodeAll (blocks.map Pem.encode).flatten = .ok blocks :=
    hspelled _ _ (Pem.spells_encode (fun b hb => isTag_of_mem_shuffledBlocks (h b hb))
      (show Pem.dash ∉ [] from List.not_mem_nil))
  have hshuffled := hblocks (shuffledBlocks c form) fun b hb => hb
  have hfirstKey : IsFirst holdsKey ⟨rsaKeyTag, form⟩ (shuffledBlocks c form) :=
    ⟨rfl, [c.toBlock, ⟨"X-NOTE", [1, 2]⟩], [⟨keyTag, [0]⟩], rfl, by
      simp only [List.mem_cons, List.not_mem_nil, or_false]
      rintro b (rfl | rfl) <;> rfl⟩
  have hfirstCertificate : IsFirst holdsCertificate c.toBlock (shuffledBlocks c form) :=
    ⟨rfl, [], _, rfl, nofun⟩
  have hloads (inputs : IssueInputs) :
      load (keyFile ((shuffledBlocks c form).map Pem.encode).flatten) "k.pem" "a@b" inputs
        = .ok ⟨"a@b", .rsa sampleKey, c⟩ := by
    obtain ⟨-, hfound⟩ := hverdict _ _ _ _ inputs (read_keyFile _) hshuffled
    obtain ⟨-, hgood⟩ := hfound _ hfirstKey
    exact ((hgood _ hkey).2 _ hfirstCertificate).2 _ hdecode
  refine ⟨c, form, hform, hloads, ?plain, ?badKeyFirst, ?keyless⟩
  case plain =>
    intro inputs
    have hplain := hblocks [⟨rsaKeyTag, form⟩, c.toBlock] (by
      simp only [List.mem_cons, List.not_mem_nil, or_false]
      rintro b (rfl | rfl) <;> simp [shuffledBlocks])
    simp only [List.map_cons, List.map_nil, List.flatten_cons, List.flatten_nil,
      List.append_nil] at hplain
    have hmoved := hsame _ _ _ _ _ _ _ _ inputs inputs (read_keyFile _) hplain (read_keyFile _)
      hshuffled rfl rfl (.inl rfl)
    exact hmoved.trans (hloads inputs)
  case badKeyFirst =>
    have hreversed := hblocks (shuffledBlocks c form).reverse fun b hb => List.mem_reverse.mp hb
    have hfirst : IsFirst holdsKey ⟨keyTag, [0]⟩ (shuffledBlocks c form).reverse :=
      ⟨rfl, [], _, rfl, nofun⟩
    have hbad : keyOfBlock ⟨keyTag, [0]⟩ = .error (.malformedCertificate .unsupportedPrivateKey) :=
      rfl
    obtain ⟨-, hfound⟩ := hverdict _ _ _ _ sampleInputs (read_keyFile _) hreversed
    exact ⟨_, ((hfound _ hfirst).1 _ hbad).1⟩
  case keyless =>
    have hcertificate := hblocks [c.toBlock] (by simp [shuffledBlocks])
    rw [List.map_singleton, List.flatten_singleton] at hcertificate
    refine (hverdict _ _ _ _ sampleInputs (read_keyFile _) hcertificate).1.mpr ?_
    simp only [List.mem_singleton]
    rintro b rfl
    exact ⟨show Certificate.pemTag ≠ _ by decide, show Certificate.pemTag ≠ _ by decide⟩

end SigningIdentity

end RouterSeed


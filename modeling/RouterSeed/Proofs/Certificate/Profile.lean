/-
What an issued certificate says, read off the certificate.

`Profile` is said of a certificate from anywhere: its names, its
extensions as their readers understand them, its key and its dates. Every
certificate that is issued has it, whatever the signer id is made of
(`profile_of_issueCertificate`). The readers see the values of the
extensions only, so that a profile does not depend on how the
certificate was put together.

The signature of a certificate is one of the key's own. For RSA it is
known to verify; for the curves that is assumed of the key, as everywhere
(`VerifiesOwn`).

A certificate whose body just fits into the longest encoding may itself
be too long to be written. Then there is nothing to read back, and that
is the only such case (`length_encode_le_of_issueCertificate`).

Consumed by the proofs about identities.
-/
import RouterSeed.Proofs.Certificate.RoundTrip
import RouterSeed.Proofs.Su3.OwnSignatures

namespace RouterSeed

open Der (Reads Oid Element BitString)
open Su3 (SignatureType VerifiesOwn)

-- ========================================================== extensions

/-- The numbers of the bits that are set, the highest one of the first
byte being number zero. -/
def Der.BitString.setBits (b : BitString) : List Nat :=
  (List.range (8 * b.bytes.length - b.unused.toNat)).filter fun i =>
    (b.bytes.getD (i / 8) 0).toNat.testBit (7 - i % 8)

namespace Certificate

/-- The extension with the given identifier. -/
def extension? (c : Certificate) (oid : Oid) : Option Extension :=
  (c.body.extensions.getD []).find? fun e => e.oid = oid

/-- Whether the certificate may sign others; one with a limit on how many
may follow is not read. -/
def isAuthority? (c : Certificate) : Option Bool := do
  let e ← c.extension? basicConstraintsOid
  Der.whole (Der.within Der.sequenceTag Extension.flag) e.value

/-- What the key may be used for, by number. -/
def usages? (c : Certificate) : Option (List Nat) := do
  let e ← c.extension? keyUsageOid
  let bits ← Der.whole Der.bitString e.value
  some bits.setBits

/-- Whom the key identifies. -/
def purposes? (c : Certificate) : Option (List Oid) := do
  let e ← c.extension? extendedKeyUsageOid
  Der.whole (Der.within Der.sequenceTag (Der.many Der.oid)) e.value

/-- The identifier of the subject's key. -/
def subjectKeyId? (c : Certificate) : Option Bytes := do
  let e ← c.extension? subjectKeyIdOid
  Der.whole (Der.tagged Der.octetStringTag) e.value

/-- The certificate of a signer for a key: issued by its subject, who is
named by the signer id, for signing data (zero) and certificates (five). -/
structure Profile (c : Certificate) (signerId : String) (key : PublicKey) : Prop where
  selfIssued : c.body.issuer = c.body.subject
  subject : c.body.subject =
    [[⟨countryOid, ⟨Der.printableStringTag, Bytes.ofString "XX"⟩⟩],
      [⟨organizationOid, ⟨Der.utf8StringTag, Bytes.ofString "I2P Anonymous Network"⟩⟩],
      [⟨organizationalUnitOid, ⟨Der.utf8StringTag, Bytes.ofString "I2P"⟩⟩],
      [⟨localityOid, ⟨Der.utf8StringTag, Bytes.ofString "XX"⟩⟩],
      [⟨commonNameOid, ⟨Der.utf8StringTag, Bytes.ofString signerId⟩⟩]]
  subjectKeyId : c.subjectKeyId? = some (Bytes.ofString signerId)
  authority : c.isAuthority? = some true
  usages : c.usages? = some [0, 5]
  purposes : c.purposes? = some [clientAuthOid, serverAuthOid]
  lifetime : c.body.validity.notAfter.seconds - c.body.validity.notBefore.seconds
    = 3652 * 24 * 60 * 60
  serial : c.body.serial.length = 16
    ∧ ∃ n, 0 < n ∧ Der.unsignedOfContent c.body.serial = some n
  publicKey : c.publicKey = .ok key

end Certificate

-- ============================================================= parts

/-- A time that can be written is the one it was made of, in either of its
forms. -/
private theorem Der.Time.seconds_of_ofSeconds? {seconds : Nat} {t : Der.Time}
    (h : Der.Time.ofSeconds? seconds = some t) : t.seconds = seconds := by
  have hdate : t.date = Calendar.DateTime.ofSeconds seconds := by
    unfold Der.Time.ofSeconds? at h
    dsimp only at h
    split at h
    · cases h
      rfl
    · split at h
      · cases h
        rfl
      · cases h
  unfold Der.Time.seconds
  rw [hdate, Calendar.DateTime.seconds_ofSeconds]

/-- A number whose first byte is not zero is not zero. -/
private theorem Bytes.toNat_pos {lead : UInt8} (hlead : lead ≠ 0) (rest : Bytes) :
    0 < Bytes.toNat (lead :: rest) := by
  -- later bytes never make the number smaller
  have hgrows : ∀ (bytes : Bytes) (n : Nat), n ≤ bytes.foldl (fun n b => n * 256 + b.toNat) n := by
    intro bytes
    induction bytes with
    | nil => exact fun n => Nat.le_refl n
    | cons b bytes ih =>
      intro n
      have := ih (n * 256 + b.toNat)
      rw [List.foldl_cons]
      omega
  have hpos : 0 < lead.toNat := by
    rw [Nat.pos_iff_ne_zero]
    intro hzero
    exact hlead (UInt8.toNat_inj.mp hzero)
  have := hgrows rest (0 * 256 + lead.toNat)
  unfold Bytes.toNat
  rw [List.foldl_cons]
  omega

/-- Any 16 bytes of randomness give a positive number of 16 bytes. -/
theorem unsignedOfContent_serialNumber (random : Nat) :
    (serialNumber random).length = 16
      ∧ ∃ n, 0 < n ∧ Der.unsignedOfContent (serialNumber random) = some n := by
  obtain ⟨lead, rest, hserial, hlength, hzero, hsign⟩ := serialNumber_eq_cons random
  rw [hserial, List.length_cons, hlength]
  exact ⟨rfl, _, Bytes.toNat_pos hzero rest, Der.unsignedOfContent_of_lt hsign fun _ => hzero⟩

/-- The four extensions have four object ids, so each is found under its
own. -/
private theorem extension?_issued (c : Certificate) (signerId : String)
    (h : c.body.extensions
      = some [basicConstraints, keyUsage, extendedKeyUsage, subjectKeyId signerId]) :
    c.extension? basicConstraintsOid = some basicConstraints
      ∧ c.extension? keyUsageOid = some keyUsage
      ∧ c.extension? extendedKeyUsageOid = some extendedKeyUsage
      ∧ c.extension? subjectKeyIdOid = some (subjectKeyId signerId) := by
  have hdifferent : [basicConstraintsOid, keyUsageOid, extendedKeyUsageOid, subjectKeyIdOid].Nodup := by
    decide +kernel
  simp only [List.nodup_cons, List.mem_cons, List.not_mem_nil, or_false, not_or] at hdifferent
  obtain ⟨⟨h₁, h₂, h₃⟩, ⟨h₄, h₅⟩, h₆, -⟩ := hdifferent
  unfold Certificate.extension?
  rw [h, Option.getD_some]
  simp [basicConstraints, keyUsage, extendedKeyUsage, subjectKeyId, h₁, h₂, h₃, h₄, h₅, h₆]

/-- A part is no longer than the sequence it is in. -/
private theorem Der.length_le_sequence {part : Bytes} {parts : List Bytes} (h : part ∈ parts) :
    part.length ≤ (Der.sequence parts).length :=
  Nat.le_trans (List.sublist_flatten_of_mem h).length_le
    (Der.Element.length_encode_le ⟨Der.sequenceTag, parts.flatten⟩)

private theorem Der.length_le_encode (tag : UInt8) (content : Bytes) :
    content.length ≤ (Der.encode tag content).length :=
  Der.Element.length_encode_le ⟨tag, content⟩

/-- Certificates are not issued for DSA keys. -/
private theorem family_ne_dsa_of_issuingAlgorithm? {key : PrivateKey}
    {algorithm : AlgorithmIdentifier × Digest.Algorithm}
    (h : issuingAlgorithm? key = some algorithm) : key.family ≠ .dsa := by
  cases key with
  | dsa key => cases h
  | _ => exact nofun

-- ============================================================ profile

variable {signerId : String} {key : PrivateKey} {inputs : IssueInputs} {c : Certificate}

/-- The value of the key identifier is inside the body. -/
private theorem length_subjectKeyId_le {extensions : List Extension}
    (h : c.body.extensions = some extensions) (hmem : subjectKeyId signerId ∈ extensions) :
    (subjectKeyId signerId).value.length ≤ c.body.encode.length := by
  calc (subjectKeyId signerId).value.length
      ≤ (Der.encode Der.octetStringTag (subjectKeyId signerId).value).length :=
        Der.length_le_encode _ _
    _ ≤ (subjectKeyId signerId).encode.length :=
        Der.length_le_sequence (List.mem_cons_of_mem _ (List.mem_cons_of_mem _ List.mem_cons_self))
    _ ≤ (Der.sequence (extensions.map Extension.encode)).length :=
        Der.length_le_sequence (List.mem_map_of_mem hmem)
    _ ≤ (Der.encode (Der.explicitTag 3) (Der.sequence (extensions.map Extension.encode))).length :=
        Der.length_le_encode _ _
    _ ≤ c.body.encode.length := by
        apply Der.length_le_sequence
        rw [h]
        simp

/-- An issued certificate has the profile of its signer and key: what was
put into the body is what the readers of a certificate find there. -/
theorem profile_of_issueCertificate (hkey : key.IsConsistent)
    (h : issueCertificate signerId key inputs = .ok c) : c.Profile signerId key.publicKey := by
  obtain ⟨algorithm, digest, body, signature, halgorithm, hbody, hshort, -, rfl⟩ :=
    issueCertificate_eq_ok h
  obtain ⟨notBefore, hnotBefore, hbody⟩ := Option.bind_eq_some_iff.mp hbody
  obtain ⟨notAfter, hnotAfter, hbody⟩ := Option.bind_eq_some_iff.mp hbody
  obtain ⟨hauthority, husages, hpurposes, hkeyId⟩ :=
    extension?_issued ⟨body, algorithm, .ofBytes signature⟩ signerId (by cases hbody; rfl)
  -- The key id is part of the body, so it is short enough to be read back.
  have hvalue : (subjectKeyId signerId).value.length ≤ body.encode.length :=
    length_subjectKeyId_le (c := ⟨body, algorithm, .ofBytes signature⟩) (by cases hbody; rfl)
      (by simp)
  constructor
  case selfIssued => cases hbody; rfl
  case subject => cases hbody; rfl
  case subjectKeyId =>
    unfold Certificate.subjectKeyId?
    rw [hkeyId]
    exact Der.whole_of_reads (Der.reads_tagged rfl) (Nat.le_trans hvalue hshort)
  case authority =>
    unfold Certificate.isAuthority?
    rw [hauthority]
    decide +kernel
  case usages =>
    unfold Certificate.usages?
    rw [husages]
    decide +kernel
  case purposes =>
    unfold Certificate.purposes?
    rw [hpurposes]
    decide +kernel
  case lifetime =>
    cases hbody
    show notAfter.seconds - notBefore.seconds = _
    rw [Der.Time.seconds_of_ofSeconds? hnotBefore, Der.Time.seconds_of_ofSeconds? hnotAfter]
    unfold certificateLifetime
    push_cast
    omega
  case serial => cases hbody; exact unsignedOfContent_serialNumber inputs.serialRandom
  case publicKey =>
    cases hbody
    unfold Certificate.publicKey
    dsimp only
    rw [SubjectKey.publicKey_ofPublicKey hkey (family_ne_dsa_of_issuingAlgorithm? halgorithm)]
    rfl

-- ============================================================= length

/-- Two numbers of at most 66 bytes, each with a tag and a length. -/
theorem SignaturePair.length_encode_le {p : SignaturePair} (hr : p.r < 256 ^ 66)
    (hs : p.s < 256 ^ 66) : p.encode.length ≤ 152 := by
  have hlength : ∀ n < 256 ^ 66, (Der.encodeUnsigned n).length ≤ 66 + 7 :=
    fun n hn => Der.length_encodeUnsigned_le (by decide) (by decide) hn
  have hcontent : [Der.encodeUnsigned p.r, Der.encodeUnsigned p.s].flatten.length ≤ 146 := by
    simp only [List.flatten_cons, List.flatten_nil, List.append_nil, List.length_append]
    exact Nat.add_le_add (hlength _ hr) (hlength _ hs)
  exact Nat.le_trans (Der.length_encode_le Der.sequenceTag (Nat.le_trans hcontent (by decide)))
    (Nat.add_le_add_right hcontent 6)

/-- Both numbers of a signature are below the order of the curve. -/
private theorem Ecdsa.lt_order_of_sign? {params : Curve.Params} {scalar random : Nat}
    {digest : Bytes}
    {p : SignaturePair} (horder : 0 < params.order)
    (h : sign? params scalar digest random = some p) : p.r < params.order ∧ p.s < params.order := by
  obtain ⟨point, -, h⟩ := Option.bind_eq_some_iff.mp h
  obtain ⟨inverse, -, h⟩ := Option.bind_eq_some_iff.mp h
  dsimp only at h
  split at h
  · cases h
  · cases h
    exact ⟨Nat.mod_lt _ horder, Nat.mod_lt _ horder⟩

/-- No key that certificates are issued for makes long signatures. -/
theorem Su3.length_signWith_le {digest : Digest.Algorithm} {message signature : Bytes} {random : Nat}
    (hkey : key.IsConsistent) (hfamily : key.family ≠ .dsa)
    (h : signWith key digest message random = .ok signature) : signature.length ≤ 512 := by
  cases key with
  -- an RSA signature is as long as the modulus
  | rsa key =>
    have hsize : Number.bitLength key.modulus ≤ 4096 := hkey.1.1
    rw [Rsa.length_sign (signWith_rsa_eq_ok h)]
    show (Number.bitLength key.modulus + 7) / 8 ≤ 512
    omega
  | ecdsa key =>
    have horder : 0 < key.curve.params.order ∧ key.curve.params.order ≤ 256 ^ 66 := by
      cases key.curve <;> decide
    unfold signWith at h
    dsimp only at h
    split at h
    next pair hpair =>
      cases h
      obtain ⟨hr, hs⟩ := Ecdsa.lt_order_of_sign? horder.1 hpair
      have := SignaturePair.length_encode_le (Nat.lt_of_lt_of_le hr horder.2)
        (Nat.lt_of_lt_of_le hs horder.2)
      exact Nat.le_trans this (by decide)
    next => cases h
  | dsa key => exact absurd rfl hfamily

/-- Signature and algorithm add less than a kilobyte to the body. -/
theorem length_encode_le_of_issueCertificate (hkey : key.IsConsistent)
    (h : issueCertificate signerId key inputs = .ok c)
    (hroom : c.body.encode.length + 1024 ≤ Der.maxLength) : c.encode.length ≤ Der.maxLength := by
  obtain ⟨algorithm, digest, body, signature, halgorithm, -, -, hsigned, rfl⟩ :=
    issueCertificate_eq_ok h
  have hsignature : signature.length ≤ 512 :=
    Su3.length_signWith_le hkey (family_ne_dsa_of_issuingAlgorithm? halgorithm) hsigned
  -- there are three algorithms to issue with, each with a short name
  have hname : algorithm.encode.length ≤ 64 := by
    cases key with
    | rsa key => cases halgorithm; decide +kernel
    | ecdsa key =>
      unfold issuingAlgorithm? at halgorithm
      dsimp only at halgorithm
      split at halgorithm <;> cases halgorithm <;> decide +kernel
    | dsa key => cases halgorithm
  have hmax : Der.maxLength = 268435455 := rfl
  have hbits : (BitString.ofBytes signature).content.length = signature.length + 1 :=
    List.length_cons
  have hshort : (BitString.ofBytes signature).content.length ≤ Der.maxLength := by omega
  have hsigned := Der.length_encode_le Der.bitStringTag hshort
  have hcontent : ([body.encode, algorithm.encode, (BitString.ofBytes signature).encode].flatten).length
      ≤ body.encode.length + 583 := by
    unfold BitString.encode
    simp only [List.flatten_cons, List.flatten_nil, List.length_append, List.length_nil]
    omega
  dsimp only at hroom
  have := Der.length_encode_le Der.sequenceTag (Nat.le_trans hcontent (by omega))
  exact Nat.le_trans this (by omega)

-- =================================================== the own signature

/-- How a certificate is signed is one of the signature types. -/
theorem exists_type_of_issuingAlgorithm? {algorithm : AlgorithmIdentifier}
    {digest : Digest.Algorithm} (h : issuingAlgorithm? key = some (algorithm, digest)) :
    ∃ t : SignatureType, t.digestFor key.family = .ok digest
      ∧ selfDigest? key.publicKey = some digest := by
  cases key with
  | rsa key =>
    cases h
    exact ⟨.rsaSha256, rfl, rfl⟩
  | ecdsa key =>
    obtain ⟨curve, scalar, point⟩ := key
    cases curve with
    | p256 =>
      cases h
      exact ⟨.ecdsaSha256P256, rfl, rfl⟩
    | p384 =>
      cases h
      exact ⟨.ecdsaSha384P384, rfl, rfl⟩
    | p521 => cases h
  | dsa key => cases h

/-- The certificate names the key and the digest that its signature was made
with. -/
theorem verifySelf_of_issueCertificate (hkey : key.IsConsistent) (hown : ∀ t, VerifiesOwn key t)
    (h : issueCertificate signerId key inputs = .ok c) : c.verifySelf = .ok () := by
  have hpublic := (profile_of_issueCertificate hkey h).publicKey
  obtain ⟨algorithm, digest, body, signature, halgorithm, -, -, hsigned, rfl⟩ :=
    issueCertificate_eq_ok h
  obtain ⟨t, hdigest, hself⟩ := exists_type_of_issuingAlgorithm? halgorithm
  -- The body was signed as a message of the matching type is, so what holds of those
  -- signatures holds of this one.
  have hmessage : Su3.signMessage key t body.encode inputs.signatureRandom = .ok signature := by
    unfold Su3.signMessage
    rw [hdigest]
    exact hsigned
  have hverified := hown t _ _ _ hmessage
  unfold Su3.verifySignature at hverified
  rw [PrivateKey.family_publicKey, hdigest] at hverified
  unfold Certificate.verifySelf
  rw [hpublic]
  dsimp only [bind, Except.bind]
  rw [hself]
  exact hverified

-- ============================================================ verdict

/-- An issued certificate is read back as it is, if it can be written at
all, has the profile of the signer and the key, and verifies under the
key it carries. Keys of the other two families are refused. -/
theorem issued_certificate_carries_signer_and_key :
    (∀ (signerId : String) (key : PrivateKey) (inputs : IssueInputs) (c : Certificate),
      key.IsConsistent → issueCertificate signerId key inputs = .ok c →
        (c.body.encode.length + 1024 ≤ Der.maxLength → c.encode.length ≤ Der.maxLength)
          ∧ (c.encode.length ≤ Der.maxLength → Certificate.decode? c.encode = some c)
          ∧ c.Profile signerId key.publicKey
          ∧ c.algorithm = c.body.algorithm
          ∧ ((∀ t, VerifiesOwn key t) → c.verifySelf = .ok ()))
      ∧ ∀ (signerId : String) (key : PrivateKey) (inputs : IssueInputs),
        key.family = .dsa ∨ key.family = .ecdsa .p521 →
          issueCertificate signerId key inputs = .error .keyTypeMismatch := by
  refine ⟨fun signerId key inputs c hkey h => ⟨?room, ?read, ?profile, ?algorithm, ?signature⟩, ?refused⟩
  case room => exact length_encode_le_of_issueCertificate hkey h
  case read => exact Certificate.decode?_encode (readable_of_issueCertificate h)
  case profile => exact profile_of_issueCertificate hkey h
  -- the algorithm stands in the certificate twice
  case algorithm =>
    obtain ⟨algorithm, _, body, _, -, hbody, -, -, rfl⟩ := issueCertificate_eq_ok h
    obtain ⟨_, -, hbody⟩ := Option.bind_eq_some_iff.mp hbody
    obtain ⟨_, -, hbody⟩ := Option.bind_eq_some_iff.mp hbody
    cases hbody
    rfl
  case signature => exact fun hown => verifySelf_of_issueCertificate hkey hown h
  case refused =>
    intro signerId key inputs hfamily
    have hnone : issuingAlgorithm? key = none := by
      cases key with
      | rsa key => rcases hfamily with hfamily | hfamily <;> cases hfamily
      | ecdsa key =>
        obtain ⟨curve, scalar, point⟩ := key
        rcases hfamily with hfamily | hfamily <;> cases hfamily
        rfl
      | dsa key => rfl
    unfold issueCertificate
    rw [hnone]

theorem issued_certificate_carries_signer_and_key_sampleKey :
    ∃ c, issueCertificate "a@b" (.rsa sampleKey) sampleInputs = .ok c
      ∧ Certificate.decode? c.encode = some c
      ∧ c.Profile "a@b" (PrivateKey.rsa sampleKey).publicKey
      ∧ c.verifySelf = .ok ()
      ∧ issueCertificate "a@b" (.dsa Su3.smallKey) sampleInputs = .error .keyTypeMismatch := by
  obtain ⟨c, hc, hshort⟩ := exists_issueCertificate_sampleKey
  obtain ⟨-, hread, hprofile, -, hverified⟩ :=
    issued_certificate_carries_signer_and_key.1 "a@b" (.rsa sampleKey) _ c isConsistent_sampleKey hc
  exact ⟨c, hc, hread hshort, hprofile, hverified (Su3.verifiesOwn_rsa sampleKey),
    issued_certificate_carries_signer_and_key.2 "a@b" (.dsa Su3.smallKey) _ (.inl rfl)⟩

end RouterSeed

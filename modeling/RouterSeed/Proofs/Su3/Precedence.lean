/-
The order in which signing and verifying look for faults.

Callers tell failures apart by their constructor, so it matters which of
several faults is the one that is told. There is one order. Signing: the
signature type is known, the key is of its family, the fields fit the
header; then the key makes a signature or does not. Verifying: the fields
fit, the type is known, there is a key to verify with, it is of the
family of the type, the signature can be read at all, it matches.

What a type asks for stands in `Asks`, apart from the function that looks
it up, and `Pairing` lists what can come of a type and a key family.
`Verdict` lists what can come of verifying, every way with the checks
that went well before it. So a failure is the verdict exactly if its own
check is the first that fails (`verifyFound_eq_iff`), and nothing after
that unfolds a check. For signing the ways are those of `Settling`.

Whether a signature can be read at all is said without a reader: it is
the encoding of a pair of numbers in range (`Encodes`), which is what
strict reading amounts to.
-/
import RouterSeed.Proofs.Der.Strict
import RouterSeed.Proofs.Su3.Settling
import RouterSeed.Su3.Verification

namespace RouterSeed.Su3

-- ============================================================= pairing

/-- The key family and the digest that a signature type asks for. -/
inductive Asks : SignatureType → KeyFamily → Digest.Algorithm → Prop
  | dsaSha1 : Asks .dsaSha1 .dsa .sha1
  | ecdsaSha256P256 : Asks .ecdsaSha256P256 (.ecdsa .p256) .sha256
  | ecdsaSha384P384 : Asks .ecdsaSha384P384 (.ecdsa .p384) .sha384
  | ecdsaSha512P521 : Asks .ecdsaSha512P521 (.ecdsa .p521) .sha512
  | rsaSha256 : Asks .rsaSha256 .rsa .sha256
  | rsaSha384 : Asks .rsaSha384 .rsa .sha384
  | rsaSha512 : Asks .rsaSha512 .rsa .sha512

/-- What comes of a signature type and a key of some family. -/
inductive Pairing (t : SignatureType) (family : KeyFamily) :
    Except Failure Digest.Algorithm → Prop
  | unknown {code : UInt16} (type : t = .unknown code) :
      Pairing t family (.error (.unsupportedAlgorithm code))
  | mismatch {other : KeyFamily} {digest : Digest.Algorithm} (asks : Asks t other digest)
      (differ : other ≠ family) : Pairing t family (.error .keyTypeMismatch)
  | paired {digest : Digest.Algorithm} (asks : Asks t family digest) :
      Pairing t family (.ok digest)

section

variable {t : SignatureType} {family : KeyFamily} {digest : Digest.Algorithm}

/-- The table of what a type asks for is the scheme of the type. -/
private theorem asks_iff : Asks t family digest ↔ t.scheme? = some ⟨family, digest⟩ := by
  constructor
  · intro h
    cases h <;> rfl
  · intro h
    cases t <;> cases h <;> constructor

/-- A type is either unknown or asks for one family and one digest. -/
private theorem unknown_or_asks (t : SignatureType) :
    (∃ code, t = .unknown code) ∨ ∃ family digest, Asks t family digest := by
  cases h : t.scheme? with
  | none => cases t <;> first | exact .inl ⟨_, rfl⟩ | cases h
  | some scheme => exact .inr ⟨scheme.family, scheme.digest, asks_iff.mpr h⟩

/-- A type asks for one family. -/
theorem Asks.family_eq {other : KeyFamily} {otherDigest : Digest.Algorithm}
    (h : Asks t family digest) (hother : Asks t other otherDigest) : family = other := by
  have hsame := (asks_iff.mp h).symm.trans (asks_iff.mp hother)
  cases hsame
  rfl

/-- Choosing the digest follows the table. -/
private theorem pairing_digestFor (t : SignatureType) (family : KeyFamily) :
    Pairing t family (t.digestFor family) := by
  unfold SignatureType.digestFor SignatureType.scheme
  rcases unknown_or_asks t with ⟨code, rfl⟩ | ⟨other, digest, hasks⟩
  · exact .unknown rfl
  · rw [asks_iff.mp hasks]
    show Pairing t family (if other = family then .ok digest else .error .keyTypeMismatch)
    by_cases hsame : other = family
    · rw [if_pos hsame]
      exact .paired (hsame ▸ hasks)
    · rw [if_neg hsame]
      exact .mismatch hasks hsame

/-- What comes of a type and a family is one thing only. -/
theorem digestFor_eq_iff {result : Except Failure Digest.Algorithm} :
    t.digestFor family = result ↔ Pairing t family result := by
  constructor
  · rintro rfl
    exact pairing_digestFor t family
  · intro h
    unfold SignatureType.digestFor SignatureType.scheme
    cases h with
    | unknown type =>
      rw [type]
      rfl
    | mismatch asks differ =>
      rw [asks_iff.mp asks]
      exact if_neg differ
    | paired asks =>
      rw [asks_iff.mp asks]
      exact if_pos rfl

/-- An unsupported algorithm is an unknown code. -/
private theorem digestFor_eq_unknown_iff {code : UInt16} :
    t.digestFor family = .error (.unsupportedAlgorithm code) ↔ t = .unknown code := by
  rw [digestFor_eq_iff]
  exact ⟨fun | .unknown type => type, .unknown⟩

/-- A mismatch is a known type that asks for another family. -/
private theorem digestFor_eq_mismatch_iff :
    t.digestFor family = .error .keyTypeMismatch
      ↔ ∃ other digest, Asks t other digest ∧ other ≠ family := by
  rw [digestFor_eq_iff]
  exact ⟨fun | .mismatch asks differ => ⟨_, _, asks, differ⟩,
    fun ⟨_, _, asks, differ⟩ => .mismatch asks differ⟩

/-- There is a digest exactly where the family is the one asked for. -/
private theorem digestFor_eq_ok_iff : t.digestFor family = .ok digest ↔ Asks t family digest := by
  rw [digestFor_eq_iff]
  exact ⟨fun | .paired asks => asks, .paired⟩

end

/-- The failures of a type and a key that do not go together. -/
def IsUnpaired (failure : Failure) : Prop :=
  (∃ code, failure = .unsupportedAlgorithm code) ∨ failure = .keyTypeMismatch

private theorem IsUnpaired.ne_signingFailed {fault : SigningFault} :
    ¬ IsUnpaired (.signingFailed fault) := by
  rintro (⟨code, h⟩ | h) <;> cases h

-- ==================================================== keys and signatures

/-- The signature is the encoding of a pair of numbers that a key of this
kind can sign with. -/
def Encodes (key : PublicKey) (signature : Bytes) (pair : SignaturePair) : Prop :=
  signature = pair.encode ∧ 0 < pair.r ∧ 0 < pair.s
    ∧ match key with
      | .ecdsa curve _ => pair.r < curve.params.order ∧ pair.s < curve.params.order
      | _ => True

/-- The signature has the form that the key's algorithm asks for. An RSA
signature has no inner structure to be wrong. -/
def CanRead (key : PublicKey) (signature : Bytes) : Prop :=
  match key with
  | .rsa _ => True
  | key => ∃ pair, Encodes key signature pair

/-- The signature has its form and matches the message. -/
def Matches (key : PublicKey) (digest : Digest.Algorithm) (message signature : Bytes) : Prop :=
  match key with
  | .rsa key => Rsa.verify key digest message signature = true
  | .ecdsa curve point => ∃ pair, Encodes (.ecdsa curve point) signature pair
      ∧ Ecdsa.verify curve.params point (digest.digest message) pair = true
  | .dsa key => ∃ pair, Encodes (.dsa key) signature pair
      ∧ Dsa.verify key (digest.digest message) pair = true

section

variable {key : PublicKey} {digest : Digest.Algorithm} {message signature : Bytes}

/-- An ECDSA signature is read as the pair that it encodes. -/
private theorem decode?_eq_some_iff_of_ecdsa {curve : NamedCurve} {point : Curve.Point}
    {pair : SignaturePair} (short : signature.length ≤ Der.maxLength) :
    Ecdsa.decode? curve.params signature = some pair
      ↔ Encodes (.ecdsa curve point) signature pair :=
  Ecdsa.decode?_eq_some_iff short

private theorem decode?_eq_some_iff_of_dsa {dsa : Dsa.PublicKey} {pair : SignaturePair}
    (short : signature.length ≤ Der.maxLength) :
    SignaturePair.decode? signature = some pair ↔ Encodes (.dsa dsa) signature pair := by
  rw [SignaturePair.decode?_eq_some_iff short]
  unfold Encodes
  simp only [and_true]

/-- A signature the key cannot read is malformed. -/
private theorem verifyWith_of_not_canRead (short : signature.length ≤ Der.maxLength)
    (h : ¬ CanRead key signature) :
    verifyWith key digest message signature = .error .malformedSignature := by
  unfold verifyWith
  cases key with
  | rsa key => exact absurd trivial h
  | ecdsa curve point =>
    dsimp only
    cases hread : Ecdsa.decode? curve.params signature with
    | none => rfl
    | some pair => exact absurd ⟨pair, (decode?_eq_some_iff_of_ecdsa short).mp hread⟩ h
  | dsa key =>
    dsimp only
    cases hread : SignaturePair.decode? signature with
    | none => rfl
    | some pair => exact absurd ⟨pair, (decode?_eq_some_iff_of_dsa short).mp hread⟩ h

/-- A signature that matches is accepted. -/
private theorem verifyWith_of_matches (short : signature.length ≤ Der.maxLength)
    (h : Matches key digest message signature) :
    verifyWith key digest message signature = .ok () := by
  unfold verifyWith
  cases key with
  | rsa key => exact if_pos h
  | ecdsa curve point =>
    obtain ⟨pair, hpair, hverify⟩ := h
    dsimp only
    rw [(decode?_eq_some_iff_of_ecdsa short).mpr hpair]
    exact if_pos hverify
  | dsa key =>
    obtain ⟨pair, hpair, hverify⟩ := h
    dsimp only
    rw [(decode?_eq_some_iff_of_dsa short).mpr hpair]
    exact if_pos hverify

/-- A signature that can be read and does not match is invalid. -/
private theorem verifyWith_of_not_matches (short : signature.length ≤ Der.maxLength)
    (hread : CanRead key signature) (h : ¬ Matches key digest message signature) :
    verifyWith key digest message signature = .error .invalidSignature := by
  unfold verifyWith
  cases key with
  | rsa key => exact if_neg h
  | ecdsa curve point =>
    obtain ⟨pair, hpair⟩ := hread
    dsimp only
    rw [(decode?_eq_some_iff_of_ecdsa short).mpr hpair]
    exact if_neg fun hverify => h ⟨pair, hpair, hverify⟩
  | dsa key =>
    obtain ⟨pair, hpair⟩ := hread
    dsimp only
    rw [(decode?_eq_some_iff_of_dsa short).mpr hpair]
    exact if_neg fun hverify => h ⟨pair, hpair, hverify⟩

/-- Once type and key go together, the signature alone is at fault. -/
theorem verifyWith_eq_error {failure : Failure}
    (h : verifyWith key digest message signature = .error failure) :
    failure = .malformedSignature ∨ failure = .invalidSignature := by
  -- reading is over at this point: what is left is to compare
  have accept : ∀ verified : Bool,
      (if verified then Except.ok () else .error Failure.invalidSignature) = .error failure →
        failure = .invalidSignature := by
    rintro (_ | _) h <;> cases h
    rfl
  unfold verifyWith at h
  cases key with
  | rsa key => exact .inr (accept _ h)
  | ecdsa curve point =>
    dsimp only at h
    split at h
    · cases h
      exact .inl rfl
    · exact .inr (accept _ h)
  | dsa key =>
    dsimp only at h
    split at h
    · cases h
      exact .inl rfl
    · exact .inr (accept _ h)

end

-- ============================================== type and key, everywhere

section

variable {key : PrivateKey} {t : SignatureType} {digest : Digest.Algorithm} {failure : Failure}

/-- The hint fails where there is no digest. -/
theorem signatureLengthHint_eq_error_iff :
    signatureLengthHint key t = .error failure ↔ t.digestFor key.family = .error failure := by
  unfold signatureLengthHint
  rw [bind_eq_error_iff]
  constructor
  · rintro (h | ⟨digest, -, h⟩)
    · exact h
    · cases h
  · exact .inl

theorem signatureLengthHint_of_asks (asks : Asks t key.family digest) :
    signatureLengthHint key t = .ok (usualLength key) := by
  unfold signatureLengthHint
  rw [digestFor_eq_ok_iff.mpr asks]
  rfl

/-- Whoever signs a message is refused for the pairing alone, or fails. -/
theorem signMessage_eq_error {message : Bytes} {random : Nat}
    (h : signMessage key t message random = .error failure) :
    t.digestFor key.family = .error failure ∨ ∃ fault, failure = .signingFailed fault := by
  rcases bind_eq_error_iff.mp h with hdigest | ⟨digest, -, hmade⟩
  · exact .inl hdigest
  · right
    rcases signWith_eq_error hmade with h | h | h
    all_goals exact ⟨_, h⟩

/-- Signing tells an unpaired key as the choice of the digest does. -/
theorem signMessage_eq_unpaired_iff {message : Bytes} {random : Nat} (h : IsUnpaired failure) :
    signMessage key t message random = .error failure
      ↔ t.digestFor key.family = .error failure := by
  constructor
  · intro hsigned
    rcases signMessage_eq_error hsigned with hdigest | ⟨fault, rfl⟩
    · exact hdigest
    · exact absurd h IsUnpaired.ne_signingFailed
  · intro hdigest
    exact bind_eq_error_iff.mpr (.inl hdigest)

/-- With the right family, verification is up to the key. -/
theorem verifySignature_of_asks {key : PublicKey} {message signature : Bytes}
    (asks : Asks t key.family digest) :
    verifySignature key t message signature = verifyWith key digest message signature := by
  unfold verifySignature
  rw [digestFor_eq_ok_iff.mpr asks]
  rfl

/-- Verifying tells an unpaired key as signing does. -/
theorem verifySignature_eq_unpaired_iff {key : PublicKey} {message signature : Bytes}
    (h : IsUnpaired failure) :
    verifySignature key t message signature = .error failure
      ↔ t.digestFor key.family = .error failure := by
  constructor
  · intro hverified
    rcases bind_eq_error_iff.mp hverified with hdigest | ⟨digest, -, hjudged⟩
    · exact hdigest
    · rcases verifyWith_eq_error hjudged with rfl | rfl
      all_goals rcases h with ⟨code, h⟩ | h <;> cases h
  · intro hdigest
    exact bind_eq_error_iff.mpr (.inl hdigest)

end

-- ============================================================ verifying

namespace File

/-- What can come of verifying a container with a key, or with what was
found in place of one: each way with the checks before it. -/
inductive Verdict (f : File) (found : Except CertificateFault PublicKey) :
    Except Failure Unit → Prop
  | tooLong (long : ¬ f.Fits) : Verdict f found (.error .fieldTooLong)
  | unknown {code : UInt16} (fits : f.Fits) (type : f.signatureType = .unknown code) :
      Verdict f found (.error (.unsupportedAlgorithm code))
  | noKey {family : KeyFamily} {digest : Digest.Algorithm} {fault : CertificateFault}
      (fits : f.Fits) (asks : Asks f.signatureType family digest) (missing : found = .error fault) :
      Verdict f found (.error (.malformedCertificate fault))
  | mismatch {family : KeyFamily} {digest : Digest.Algorithm} {key : PublicKey} (fits : f.Fits)
      (given : found = .ok key) (asks : Asks f.signatureType family digest)
      (differ : family ≠ key.family) : Verdict f found (.error .keyTypeMismatch)
  | unreadable {digest : Digest.Algorithm} {key : PublicKey} (fits : f.Fits)
      (given : found = .ok key) (asks : Asks f.signatureType key.family digest)
      (unreadable : ¬ CanRead key f.signature) : Verdict f found (.error .malformedSignature)
  | rejected {digest : Digest.Algorithm} {key : PublicKey} {message : Bytes}
      (body : f.body = .ok message) (given : found = .ok key)
      (asks : Asks f.signatureType key.family digest) (readable : CanRead key f.signature)
      (differs : ¬ Matches key digest message f.signature) :
      Verdict f found (.error .invalidSignature)
  | accepted {digest : Digest.Algorithm} {key : PublicKey} {message : Bytes}
      (body : f.body = .ok message) (given : found = .ok key)
      (asks : Asks f.signatureType key.family digest)
      (matched : Matches key digest message f.signature) : Verdict f found (.ok ())

/-- Verifying with what was found in the place of a key. -/
def verifyFound (f : File) (found : Except CertificateFault PublicKey) : Except Failure Unit := do
  let message ← f.body
  let _ ← f.signatureType.scheme
  let key ← found.mapError Failure.malformedCertificate
  verifySignature key f.signatureType message f.signature

variable {f : File} {found : Except CertificateFault PublicKey} {result : Except Failure Unit}

theorem verifyFound_subjectKey (f : File) (certificate : Certificate) :
    f.verifyFound certificate.body.subjectKey.publicKey = f.verify certificate := rfl

/-- With a key at hand nobody looks at the type by itself, but the
pairing begins with that. -/
theorem verifyFound_ok (f : File) (key : PublicKey) :
    f.verifyFound (.ok key) = f.verifyWithKey key := by
  unfold verifyFound verifyWithKey
  cases hbody : f.body with
  | error failure => rfl
  | ok message =>
    show (f.signatureType.scheme >>= fun _ => _) = verifySignature key f.signatureType message _
    cases hscheme : f.signatureType.scheme with
    | ok scheme => rfl
    | error failure =>
      unfold verifySignature SignatureType.digestFor
      rw [hscheme]
      rfl

private theorem exists_body_of_fits (fits : f.Fits) : ∃ message, f.body = .ok message :=
  ⟨_, if_pos fits⟩

private theorem fits_of_body {message : Bytes} (h : f.body = .ok message) : f.Fits := by
  unfold body at h
  split at h
  next fits => exact fits
  next => cases h

private theorem length_signature_le_of_fits (fits : f.Fits) : f.signature.length ≤ Der.maxLength :=
  Nat.le_trans fits.2.2 (by decide)

/-- Behind a body and a known type, the key is asked for, and then the
signature. -/
private theorem verifyFound_of_asks {message : Bytes} {family : KeyFamily}
    {digest : Digest.Algorithm}
    (hbody : f.body = .ok message) (asks : Asks f.signatureType family digest) :
    f.verifyFound found
      = found.mapError Failure.malformedCertificate
        >>= fun key => verifySignature key f.signatureType message f.signature := by
  unfold verifyFound SignatureType.scheme
  rw [hbody, asks_iff.mp asks]
  rfl

/-- Every verdict is the one that verifying comes to. -/
theorem Verdict.eq (h : Verdict f found result) : f.verifyFound found = result := by
  cases h with
  | tooLong long =>
    have hbody : f.body = .error .fieldTooLong := if_neg long
    unfold verifyFound
    rw [hbody]
    rfl
  | unknown fits type =>
    obtain ⟨message, hbody⟩ := exists_body_of_fits fits
    unfold verifyFound
    rw [hbody, type]
    rfl
  | noKey fits asks missing =>
    obtain ⟨message, hbody⟩ := exists_body_of_fits fits
    rw [verifyFound_of_asks hbody asks, missing]
    rfl
  | mismatch fits given asks differ =>
    obtain ⟨message, hbody⟩ := exists_body_of_fits fits
    rw [verifyFound_of_asks hbody asks, given]
    show verifySignature _ _ _ _ = _
    unfold verifySignature
    rw [digestFor_eq_iff.mpr (.mismatch asks differ)]
    rfl
  | unreadable fits given asks unreadable =>
    obtain ⟨message, hbody⟩ := exists_body_of_fits fits
    rw [verifyFound_of_asks hbody asks, given]
    exact (verifySignature_of_asks asks).trans
      (verifyWith_of_not_canRead (length_signature_le_of_fits fits) unreadable)
  | rejected body given asks readable differs =>
    rw [verifyFound_of_asks body asks, given]
    exact (verifySignature_of_asks asks).trans
      (verifyWith_of_not_matches (length_signature_le_of_fits (fits_of_body body)) readable differs)
  | accepted body given asks matched =>
    rw [verifyFound_of_asks body asks, given]
    exact (verifySignature_of_asks asks).trans
      (verifyWith_of_matches (length_signature_le_of_fits (fits_of_body body)) matched)

/-- There always is a verdict. -/
theorem exists_verdict (f : File) (found : Except CertificateFault PublicKey) :
    ∃ result, Verdict f found result := by
  -- The questions are asked in the order of the failures.
  by_cases fits : f.Fits
  case neg => exact ⟨_, .tooLong fits⟩
  obtain ⟨message, hbody⟩ := exists_body_of_fits fits
  rcases unknown_or_asks f.signatureType with ⟨code, htype⟩ | ⟨family, digest, hasks⟩
  · exact ⟨_, .unknown fits htype⟩
  cases hfound : found with
  | error fault => exact ⟨_, .noKey fits hasks rfl⟩
  | ok key =>
    by_cases hfamily : family = key.family
    case neg => exact ⟨_, .mismatch fits rfl hasks hfamily⟩
    subst hfamily
    by_cases hreadable : CanRead key f.signature
    case neg => exact ⟨_, .unreadable fits rfl hasks hreadable⟩
    by_cases hmatches : Matches key digest message f.signature
    · exact ⟨_, .accepted hbody rfl hasks hmatches⟩
    · exact ⟨_, .rejected hbody rfl hasks hreadable hmatches⟩

/-- There is one verdict, and it is the one that verification gives. -/
theorem verifyFound_eq_iff : f.verifyFound found = result ↔ Verdict f found result := by
  constructor
  · rintro rfl
    obtain ⟨result, hverdict⟩ := exists_verdict f found
    rw [hverdict.eq]
    exact hverdict
  · exact Verdict.eq

/-- What a verifier tells of a container: each failure exactly if its own
check is the first that fails. -/
structure ToldInOrder (f : File) (found : Except CertificateFault PublicKey)
    (result : Except Failure Unit) : Prop where
  tooLong : result = .error .fieldTooLong
    ↔ 255 < f.version.length ∨ 255 < f.signerId.length ∨ 65535 < f.signature.length
  unknown : ∀ code, result = .error (.unsupportedAlgorithm code)
    ↔ f.Fits ∧ f.signatureType = .unknown code
  noKey : ∀ fault, result = .error (.malformedCertificate fault)
    ↔ f.Fits ∧ (∃ family digest, Asks f.signatureType family digest) ∧ found = .error fault
  mismatch : result = .error .keyTypeMismatch
    ↔ f.Fits ∧ ∃ key family digest, found = .ok key ∧ Asks f.signatureType family digest
      ∧ family ≠ key.family
  unreadable : result = .error .malformedSignature
    ↔ f.Fits ∧ ∃ key digest, found = .ok key ∧ Asks f.signatureType key.family digest
      ∧ ¬ CanRead key f.signature
  rejected : result = .error .invalidSignature
    ↔ ∃ message key digest, f.body = .ok message ∧ found = .ok key
      ∧ Asks f.signatureType key.family digest ∧ CanRead key f.signature
      ∧ ¬ Matches key digest message f.signature
  accepted : result = .ok ()
    ↔ ∃ message key digest, f.body = .ok message ∧ found = .ok key
      ∧ Asks f.signatureType key.family digest ∧ Matches key digest message f.signature
  rsa : ∀ digest, Asks f.signatureType .rsa digest → result ≠ .error .malformedSignature
  noOther : ∀ failure, result = .error failure →
    failure = .fieldTooLong ∨ (∃ code, failure = .unsupportedAlgorithm code)
      ∨ (∃ fault, failure = .malformedCertificate fault) ∨ failure = .keyTypeMismatch
      ∨ failure = .malformedSignature ∨ failure = .invalidSignature

/-- Each failure is told exactly in its own case. -/
theorem toldInOrder_verifyFound (f : File) (found : Except CertificateFault PublicKey) :
    ToldInOrder f found (f.verifyFound found) := by
  -- Each failure has one constructor of the verdict, so the verdict that gives it is that
  -- one.
  refine ⟨?tooLong, fun code => ?unknown, fun fault => ?noKey, ?mismatch, ?unreadable, ?rejected,
    ?accepted, fun digest hasks h => ?rsa, fun failure h => ?noOther⟩
  case tooLong =>
    rw [verifyFound_eq_iff, ← not_fits_iff]
    exact ⟨fun | .tooLong long => long, .tooLong⟩
  case unknown =>
    rw [verifyFound_eq_iff]
    exact ⟨fun | .unknown fits type => ⟨fits, type⟩, fun ⟨fits, type⟩ => .unknown fits type⟩
  case noKey =>
    rw [verifyFound_eq_iff]
    exact ⟨fun | .noKey fits asks missing => ⟨fits, ⟨_, _, asks⟩, missing⟩,
      fun ⟨fits, ⟨_, _, asks⟩, missing⟩ => .noKey fits asks missing⟩
  case mismatch =>
    rw [verifyFound_eq_iff]
    exact ⟨fun | .mismatch fits given asks differ => ⟨fits, _, _, _, given, asks, differ⟩,
      fun ⟨fits, _, _, _, given, asks, differ⟩ => .mismatch fits given asks differ⟩
  case unreadable =>
    rw [verifyFound_eq_iff]
    exact ⟨fun | .unreadable fits given asks unreadable => ⟨fits, _, _, given, asks, unreadable⟩,
      fun ⟨fits, _, _, given, asks, unreadable⟩ => .unreadable fits given asks unreadable⟩
  case rejected =>
    rw [verifyFound_eq_iff]
    constructor
    · intro h
      cases h with
      | rejected body given asks readable differs =>
        exact ⟨_, _, _, body, given, asks, readable, differs⟩
    · rintro ⟨message, key, digest, body, given, asks, readable, differs⟩
      exact .rejected body given asks readable differs
  case accepted =>
    rw [verifyFound_eq_iff]
    exact ⟨fun | .accepted body given asks matched => ⟨_, _, _, body, given, asks, matched⟩,
      fun ⟨_, _, _, body, given, asks, matched⟩ => .accepted body given asks matched⟩
  -- an RSA key reads any signature
  case rsa =>
    obtain ⟨key, unreadable, hfamily⟩ : ∃ key, ¬ CanRead key f.signature ∧ key.family = .rsa :=
      match verifyFound_eq_iff.mp h with
      | .unreadable _ _ asks unreadable => ⟨_, unreadable, asks.family_eq hasks⟩
    cases key with
    | rsa key => exact unreadable trivial
    | ecdsa curve point => cases hfamily
    | dsa key => cases hfamily
  case noOther =>
    cases verifyFound_eq_iff.mp h <;> simp

-- ============================================================== signing

variable {key : PrivateKey} {randoms : Nat → Nat} {digest : Digest.Algorithm} {failure : Failure}

/-- A key that does not go with the type signs nothing. -/
private theorem sign_of_digestFor_error
    (h : f.signatureType.digestFor key.family = .error failure) :
    (f.sign key randoms).1 = .error failure := by
  unfold sign settleSignature
  rw [signatureLengthHint_eq_error_iff.mpr h]
  rfl

/-- With fields that are too long no attempt has a body. -/
private theorem sign_of_long_fields (asks : Asks f.signatureType key.family digest)
    (long : 255 < f.version.length ∨ 255 < f.signerId.length) :
    (f.sign key randoms).1 = .error .fieldTooLong := by
  have hbody : (f.withPlaceholder (usualLength key)).body = .error .fieldTooLong := by
    apply if_neg
    rw [not_fits_iff]
    exact long.imp_right .inl
  unfold sign settleSignature
  rw [signatureLengthHint_of_asks asks]
  dsimp only
  rw [maxAttempts, settle, hbody]
  rfl

/-- An attempt with a key of the right family fails for want of a body or
in the making of the signature. -/
private theorem attempt_eq_error {length random : Nat}
    (asks : Asks f.signatureType key.family digest)
    (h : f.attempt key length random = .error failure) :
    failure = .fieldTooLong ∧ ¬ (f.withPlaceholder length).Fits
      ∨ ∃ fault, failure = .signingFailed fault := by
  rcases bind_eq_error_iff.mp h with hbody | ⟨body, -, hsigned⟩
  · refine .inl ⟨body_eq_error hbody, fun fits => ?_⟩
    obtain ⟨message, hmessage⟩ := exists_body_of_fits fits
    rw [hmessage] at hbody
    cases hbody
  · rcases signMessage_eq_error hsigned with hdigest | hfault
    · rw [digestFor_eq_ok_iff.mpr asks] at hdigest
      cases hdigest
    · exact .inr hfault

/-- With the right family, signing fails for a field that is too long or in
the signing itself. -/
theorem sign_eq_error_of_asks (asks : Asks f.signatureType key.family digest)
    (h : (f.sign key randoms).1 = .error failure) :
    (failure = .fieldTooLong ∧ ∃ i < maxAttempts, ∃ length, f.announced key randoms i = .ok length
        ∧ ¬ (f.withPlaceholder length).Fits)
      ∨ ∃ fault, failure = .signingFailed fault := by
  have hsettling := settling_sign f key randoms
  generalize f.sign key randoms = ended at hsettling h
  cases hsettling with
  | refused hint =>
    rw [signatureLengthHint_of_asks asks] at hint
    cases hint
  | settled => cases h
  | failed bound before announced made =>
    cases h
    rcases attempt_eq_error asks made with ⟨hfailure, hlong⟩ | hfault
    · exact .inl ⟨hfailure, _, bound, _, announced, hlong⟩
    · exact .inr hfault
  | exhausted all =>
    cases h
    exact .inr ⟨_, rfl⟩

/-- Signing fails for the pairing, for the length of a field, or in the
making of a signature. -/
private theorem sign_eq_error_cases (h : (f.sign key randoms).1 = .error failure) :
    f.signatureType.digestFor key.family = .error failure
      ∨ failure = .fieldTooLong ∨ ∃ fault, failure = .signingFailed fault := by
  cases hpairing : f.signatureType.digestFor key.family with
  | error other =>
    rw [sign_of_digestFor_error hpairing] at h
    cases h
    exact .inl rfl
  | ok digest =>
    rcases sign_eq_error_of_asks (digestFor_eq_ok_iff.mp hpairing) h with ⟨hfailure, -⟩ | hfault
    · exact .inr (.inl hfailure)
    · exact .inr (.inr hfault)

/-- An unpaired key is told before anything is signed. -/
theorem sign_eq_unpaired_iff (h : IsUnpaired failure) :
    (f.sign key randoms).1 = .error failure
      ↔ f.signatureType.digestFor key.family = .error failure := by
  constructor
  · intro hsign
    rcases sign_eq_error_cases hsign with hdigest | rfl | ⟨fault, rfl⟩
    · exact hdigest
    · rcases h with ⟨code, h⟩ | h <;> cases h
    · exact absurd h IsUnpaired.ne_signingFailed
  · exact sign_of_digestFor_error

/-- The length of a field is looked at once the key is known to go with
the type. Placeholder and signatures are fields like the others. -/
theorem sign_eq_fieldTooLong_iff
    (short : ∀ i < maxAttempts, ∀ length, f.announced key randoms i = .ok length →
      length ≤ 65535) :
    (f.sign key randoms).1 = .error .fieldTooLong
      ↔ (∃ digest, Asks f.signatureType key.family digest)
        ∧ (255 < f.version.length ∨ 255 < f.signerId.length) := by
  constructor
  · intro h
    cases hpairing : f.signatureType.digestFor key.family with
    | error other =>
      rw [sign_of_digestFor_error hpairing] at h
      rcases digestFor_eq_error hpairing with hother | hother <;> rw [hother] at h <;> cases h
    | ok digest =>
      have hasks := digestFor_eq_ok_iff.mp hpairing
      refine ⟨⟨digest, hasks⟩, ?_⟩
      rcases sign_eq_error_of_asks hasks h with ⟨-, i, hbound, length, hannounced, hlong⟩ | ⟨_, h⟩
      · have hlength : (f.withPlaceholder length).signature.length = length :=
          List.length_replicate
        -- lengths of signatures fit, so it is one of the other two fields
        have hfits := short i hbound length hannounced
        rw [not_fits_iff, hlength] at hlong
        rcases hlong with hversion | hsigner | hsignature
        · exact .inl hversion
        · exact .inr hsigner
        · omega
      · cases h
  · rintro ⟨⟨digest, hasks⟩, hlong⟩
    exact sign_of_long_fields hasks hlong

/-- What signing tells of a container: each failure exactly if its own
check is the first that fails. -/
structure SignedInOrder (f : File) (key : PrivateKey) (randoms : Nat → Nat)
    (result : Except Failure Unit) : Prop where
  unknown : ∀ code, result = .error (.unsupportedAlgorithm code)
    ↔ f.signatureType = .unknown code
  mismatch : result = .error .keyTypeMismatch
    ↔ ∃ family digest, Asks f.signatureType family digest ∧ family ≠ key.family
  tooLong : (∀ i < 32, ∀ length, f.announced key randoms i = .ok length →
      length ≤ 65535) →
    (result = .error .fieldTooLong
      ↔ (∃ digest, Asks f.signatureType key.family digest)
        ∧ (255 < f.version.length ∨ 255 < f.signerId.length))
  noOther : ∀ failure, result = .error failure →
    (∃ code, failure = .unsupportedAlgorithm code) ∨ failure = .keyTypeMismatch
      ∨ failure = .fieldTooLong ∨ ∃ fault, failure = .signingFailed fault

/-- Signing tells its failures in their order. -/
theorem signedInOrder_sign (f : File) (key : PrivateKey) (randoms : Nat → Nat) :
    SignedInOrder f key randoms (f.sign key randoms).1 where
  unknown code := (sign_eq_unpaired_iff (.inl ⟨code, rfl⟩)).trans digestFor_eq_unknown_iff
  mismatch := (sign_eq_unpaired_iff (.inr rfl)).trans digestFor_eq_mismatch_iff
  tooLong := sign_eq_fieldTooLong_iff
  noOther failure h := by
    rcases sign_eq_error_cases h with hdigest | hlong | hfault
    · rcases digestFor_eq_error hdigest with hunknown | hmismatch
      · exact .inl ⟨_, hunknown⟩
      · exact .inr (.inl hmismatch)
    · exact .inr (.inr (.inl hlong))
    · exact .inr (.inr (.inr hfault))

-- ============================================================ one order

/-- Signing looks at type, key and fields in this order, verifying at
fields, type, certificate, key, form and match of the signature; what is
told is the first thing that is wrong. All operations with a key agree
on which types and keys do not go together. -/
theorem failures_follow_one_order :
    (∀ f key randoms, SignedInOrder f key randoms (f.sign key randoms).1)
      ∧ (∀ f certificate,
        ToldInOrder f certificate.body.subjectKey.publicKey (f.verify certificate))
      ∧ (∀ f key, ToldInOrder f (.ok key) (f.verifyWithKey key))
      ∧ ∀ (key : PrivateKey) (t : SignatureType) (failure : Failure), IsUnpaired failure →
        (signatureLengthHint key t = .error failure ↔ Pairing t key.family (.error failure))
        ∧ (∀ message random, signMessage key t message random = .error failure
          ↔ Pairing t key.family (.error failure))
        ∧ ∀ message signature, verifySignature key.publicKey t message signature = .error failure
          ↔ Pairing t key.family (.error failure) := by
  refine ⟨signedInOrder_sign, fun f certificate => ?_, fun f key => ?_, ?_⟩
  · rw [← verifyFound_subjectKey]
    exact toldInOrder_verifyFound f _
  · rw [← verifyFound_ok]
    exact toldInOrder_verifyFound f _
  · intro key t failure h
    refine ⟨?_, fun message random => ?_, fun message signature => ?_⟩
    · exact signatureLengthHint_eq_error_iff.trans digestFor_eq_iff
    · exact (signMessage_eq_unpaired_iff h).trans digestFor_eq_iff
    · rw [verifySignature_eq_unpaired_iff h, PrivateKey.family_publicKey]
      exact digestFor_eq_iff

/-- A container with a version that is too long for its length field. -/
def overlongLetter : File := { unsignedLetter with version := List.replicate 256 0 }

private theorem length_version_overlongLetter : overlongLetter.version.length = 256 :=
  List.length_replicate

/-- Its version is too long, whatever the length of the signature. -/
private theorem not_fits_overlongLetter (length : Nat) :
    ¬ (overlongLetter.withPlaceholder length).Fits := by
  have hlength : (overlongLetter.withPlaceholder length).version.length = 256 :=
    length_version_overlongLetter
  rw [not_fits_iff, hlength]
  exact .inl (by decide)

/-- No attempt on it comes to a signature, so only the first announces a
length. -/
private theorem announced_overlongLetter {i length : Nat}
    (h : overlongLetter.announced (.dsa smallKey) (fun i => i) i = .ok length) : length = 46 := by
  cases i with
  | zero => exact (Except.ok.inj h).symm
  | succ i =>
    obtain ⟨announced, -, h⟩ := bind_eq_ok_iff.mp h
    obtain ⟨signature, hmade, -⟩ := bind_eq_ok_iff.mp h
    rw [attempt_of_body_error (if_neg (not_fits_overlongLetter announced))] at hmade
    cases hmade

/-- It is too long for its own key and not looked at with another one;
and no key signs for a type that nobody knows. -/
theorem failures_follow_one_order_overlongLetter :
    (overlongLetter.sign (.dsa smallKey) fun i => i).1 = .error .fieldTooLong
      ∧ (overlongLetter.sign (.ecdsa ⟨.p256, 1, Curve.p256.base⟩) fun i => i).1
        = .error .keyTypeMismatch
      ∧ IsUnpaired (.unsupportedAlgorithm 7)
      ∧ signMessage (.dsa smallKey) (.unknown 7) [1] 0 = .error (.unsupportedAlgorithm 7) := by
  obtain ⟨hsign, -, -, hunpaired⟩ := failures_follow_one_order
  have hunknown : IsUnpaired (.unsupportedAlgorithm 7) := .inl ⟨7, rfl⟩
  refine ⟨?_, ?_, hunknown, ?_⟩
  · refine ((hsign overlongLetter (.dsa smallKey) fun i => i).tooLong ?_).mpr
      ⟨⟨_, .dsaSha1⟩, .inl (length_version_overlongLetter ▸ by decide)⟩
    intro i _ length hannounced
    rw [announced_overlongLetter hannounced]
    decide
  · exact (hsign overlongLetter _ fun i => i).mismatch.mpr ⟨_, _, .dsaSha1, by decide⟩
  · exact ((hunpaired (.dsa smallKey) (.unknown 7) _ hunknown).2.1 [1] 0).mpr (.unknown rfl)

end File

end RouterSeed.Su3

/-
What the holder of a private key can count on about its own signatures.

That a signature verifies under the public half of the key that made it
is arithmetic of the key's group. For DSA and the curves it is taken as
`VerifiesOwn`, an assumption on one key and one signature type, because
nothing here looks into those groups. For RSA it is proved
(`verifiesOwn_rsa`) without any number theory: the signer opens its own
signature before it leaves, and what is left is that numbers and bytes
go over into one another without loss.

For RSA the length is known as well: every signature is as long as the
modulus, and that is the length to expect that the key is asked for
before it signs (`signatureLengthHint_of_signMessage_rsa`).

Consumed by Settling and by the bundle proofs.
-/
import RouterSeed.Su3.Signing

namespace RouterSeed

namespace Rsa

open Number

/-- A padded digest has just the size that was asked for. -/
private theorem length_of_pad?_eq_some {size : Nat} {algorithm : Digest.Algorithm}
    {digest padded : Bytes}
    (h : pad? size algorithm digest = some padded) : padded.length = size := by
  unfold pad? at h
  dsimp only at h
  split at h
  · cases h
  next hfits =>
    cases h
    simp only [List.length_append, List.length_cons, List.length_nil, List.length_replicate]
    omega

/-- No digest can be padded to no bytes. -/
private theorem pad?_zero (algorithm : Digest.Algorithm) (digest : Bytes) :
    pad? 0 algorithm digest = none := by
  unfold pad?
  exact if_pos (by omega)

/-- What a key signs: the private power of the padded digest, which the
public power turns back into it. -/
theorem sign_eq_ok {key : PrivateKey} {algorithm : Digest.Algorithm} {message signature : Bytes}
    (h : sign key algorithm message = .ok signature) :
    ∃ padded, pad? key.publicKey.size algorithm (algorithm.digest message) = some padded
      ∧ signature = Bytes.ofNat key.publicKey.size
          (powMod (Bytes.toNat padded) key.privateExponent key.modulus)
      ∧ powMod (powMod (Bytes.toNat padded) key.privateExponent key.modulus) key.exponent
          key.modulus = Bytes.toNat padded := by
  unfold sign at h
  dsimp only at h
  split at h
  · cases h
  next padded hpadded =>
    split at h
    next hopened =>
      cases h
      exact ⟨padded, hpadded, rfl, hopened⟩
    · cases h

/-- A signature is as long as the modulus. -/
theorem length_sign {key : PrivateKey} {algorithm : Digest.Algorithm} {message signature : Bytes}
    (h : sign key algorithm message = .ok signature) :
    signature.length = key.publicKey.size := by
  obtain ⟨padded, -, rfl, -⟩ := sign_eq_ok h
  exact Bytes.length_ofNat _ _

/-- Verifying does what the signer did before it let the signature out,
on the same two numbers. -/
private theorem verify_sign {key : PrivateKey} {algorithm : Digest.Algorithm}
    {message signature : Bytes}
    (h : sign key algorithm message = .ok signature) :
    verify key.publicKey algorithm message signature = true := by
  obtain ⟨padded, hpadded, rfl, hopened⟩ := sign_eq_ok h
  let power := powMod (Bytes.toNat padded) key.privateExponent key.modulus
  -- with no modulus there is no padding, so nothing would have been signed
  have hmodulus : 0 < key.modulus := by
    rcases Nat.eq_zero_or_pos key.modulus with hzero | hpos
    · have hsize : key.publicKey.size = 0 := by
        show byteLength key.modulus = 0
        rw [hzero]
        simp [byteLength, bitLength]
      rw [hsize, pad?_zero] at hpadded
      cases hpadded
    · exact hpos
  have hpower : power < key.modulus := by
    show powMod _ _ _ < _
    rw [powMod_eq]
    exact Nat.mod_lt _ hmodulus
  have hread : Bytes.toNat (Bytes.ofNat key.publicKey.size power) = power := by
    rw [Bytes.toNat_ofNat]
    exact Nat.mod_eq_of_lt (Nat.lt_trans hpower (lt_pow_byteLength key.modulus))
  have hwritten : Bytes.ofNat key.publicKey.size (Bytes.toNat padded) = padded := by
    rw [← length_of_pad?_eq_some hpadded]
    exact Bytes.ofNat_toNat padded
  unfold verify
  dsimp only
  rw [Bool.and_eq_true, Bool.and_eq_true]
  refine ⟨⟨decide_eq_true (Bytes.length_ofNat _ _), decide_eq_true ?_⟩, decide_eq_true ?_⟩
  · rw [hread]
    exact hpower
  · rw [hread, hpadded, show powMod power key.publicKey.exponent key.publicKey.modulus
      = Bytes.toNat padded from hopened, hwritten]

end Rsa

namespace Su3

-- ======================================================= own signatures

/-- Whatever the key signs for a signature type verifies under its public
half. -/
def VerifiesOwn (key : PrivateKey) (t : SignatureType) : Prop :=
  ∀ message random signature, signMessage key t message random = .ok signature →
    verifySignature key.publicKey t message signature = .ok ()

/-- An RSA signature is the one the scheme makes. -/
theorem signWith_rsa_eq_ok {key : Rsa.PrivateKey} {digest : Digest.Algorithm}
    {message signature : Bytes} {random : Nat}
    (h : signWith (.rsa key) digest message random = .ok signature) :
    Rsa.sign key digest message = .ok signature := by
  have hsigned : (Rsa.sign key digest message).mapError signingFailure = .ok signature := h
  cases hsign : Rsa.sign key digest message with
  | error fault =>
    rw [hsign] at hsigned
    cases hsigned
  | ok made =>
    rw [hsign] at hsigned
    cases hsigned
    rfl

/-- RSA keys need no assumption. -/
theorem verifiesOwn_rsa (key : Rsa.PrivateKey) (t : SignatureType) : VerifiesOwn (.rsa key) t := by
  intro message random signature h
  obtain ⟨digest, hdigest, hsigned⟩ := bind_eq_ok_iff.mp h
  have hverified := Rsa.verify_sign (signWith_rsa_eq_ok hsigned)
  have hfamily : t.digestFor (PrivateKey.rsa key).publicKey.family = .ok digest := hdigest
  unfold verifySignature
  rw [hfamily]
  show (if Rsa.verify key.publicKey digest message signature = true then Except.ok ()
    else .error Failure.invalidSignature) = .ok ()
  rw [if_pos hverified]

/-- RSA keys announce the length that all their signatures have. -/
theorem signatureLengthHint_of_signMessage_rsa {key : Rsa.PrivateKey} {t : SignatureType}
    {message signature : Bytes} {random : Nat}
    (h : signMessage (.rsa key) t message random = .ok signature) :
    signatureLengthHint (.rsa key) t = .ok signature.length := by
  obtain ⟨digest, hdigest, hsigned⟩ := bind_eq_ok_iff.mp h
  unfold signatureLengthHint
  rw [hdigest, Rsa.length_sign (signWith_rsa_eq_ok hsigned)]
  rfl

-- ============================================================ failures

/-- A type that does not go with the key is refused as such. -/
theorem digestFor_eq_error {t : SignatureType} {family : KeyFamily} {failure : Failure}
    (h : t.digestFor family = .error failure) :
    failure = .unsupportedAlgorithm t.code ∨ failure = .keyTypeMismatch := by
  rcases bind_eq_error_iff.mp h with hscheme | ⟨scheme, -, hfamily⟩
  · unfold SignatureType.scheme at hscheme
    split at hscheme
    · cases hscheme
    · cases hscheme
      exact .inl rfl
  · split at hfamily
    · cases hfamily
    · cases hfamily
      exact .inr rfl

/-- What keeps a key of the right family from making a signature. -/
theorem signWith_eq_error {key : PrivateKey} {digest : Digest.Algorithm} {message : Bytes}
    {random : Nat} {failure : Failure}
    (h : signWith key digest message random = .error failure) :
    failure = .signingFailed .keyTooSmall ∨ failure = .signingFailed .keyInconsistent
      ∨ failure = .signingFailed .noSignature := by
  cases key with
  | rsa key =>
    have hsigned : (Rsa.sign key digest message).mapError signingFailure = .error failure := h
    cases hsign : Rsa.sign key digest message with
    | error fault =>
      rw [hsign] at hsigned
      cases hsigned
      cases fault with
      | tooSmall => exact .inl rfl
      | inconsistent => exact .inr (.inl rfl)
    | ok made =>
      rw [hsign] at hsigned
      cases hsigned
  | ecdsa key =>
    unfold signWith at h
    dsimp only at h
    split at h
    · cases h
    · cases h
      exact .inr (.inr rfl)
  | dsa key =>
    unfold signWith at h
    dsimp only at h
    split at h
    · cases h
    · cases h
      exact .inr (.inr rfl)

/-- No single signature is said not to have settled: that is a verdict on
all attempts together. -/
theorem signMessage_ne_lengthNotSettled (key : PrivateKey) (t : SignatureType) (message : Bytes)
    (random : Nat) :
    signMessage key t message random ≠ .error (.signingFailed .lengthNotSettled) := by
  intro h
  rcases bind_eq_error_iff.mp h with hdigest | ⟨digest, -, hsigned⟩
  · rcases digestFor_eq_error hdigest with hfailure | hfailure <;> cases hfailure
  · rcases signWith_eq_error hsigned with hfailure | hfailure | hfailure <;> cases hfailure

-- ======================================================== a small key

/-- A DSA key in a group so small that all its nonces can be tried. Its
order has no whole byte, so no part of the digest enters a signature. -/
def smallKey : Dsa.PrivateKey := ⟨⟨23, 11, 4, 18⟩, 3⟩

/-- The group is so small that every digest is the same number. -/
private theorem digestNumber_smallKey (digest : Bytes) :
    smallKey.publicKey.digestNumber digest = smallKey.publicKey.digestNumber [] := by
  show Bytes.toNat (digest.take 0) = _
  rw [List.take_zero]
  rfl

/-- In the small group a signature depends on the random number alone, and
only on its remainder. -/
private theorem sign?_smallKey (digest : Bytes) (random : Nat) :
    Dsa.sign? smallKey digest random = Dsa.sign? smallKey [] (random % 10) := by
  have hnonce : random % 10 % (smallKey.publicKey.order - 1)
      = random % (smallKey.publicKey.order - 1) := Nat.mod_mod random 10
  unfold Dsa.sign?
  dsimp only
  rw [digestNumber_smallKey, hnonce]

/-- In the small group verification does not depend on the message. -/
private theorem verify_smallKey (digest : Bytes) (pair : SignaturePair) :
    Dsa.verify smallKey.publicKey digest pair = Dsa.verify smallKey.publicKey [] pair := by
  unfold Dsa.verify
  rw [digestNumber_smallKey]

/-- Every nonce gives a signature that verifies. -/
private theorem smallKey_signs {nonce : Nat} (h : nonce < 10) :
    ∃ pair, Dsa.sign? smallKey [] nonce = some pair
      ∧ SignaturePair.decode? pair.encode = some pair
      ∧ Dsa.verify smallKey.publicKey [] pair = true := by
  have hall : ∀ nonce < 10, (Dsa.sign? smallKey [] nonce).any (fun pair =>
      SignaturePair.decode? pair.encode = some pair
        ∧ Dsa.verify smallKey.publicKey [] pair = true) = true := by
    decide +kernel
  obtain ⟨pair, hpair, hsound⟩ := Option.any_eq_true _ _ |>.mp (hall nonce h)
  exact ⟨pair, hpair, of_decide_eq_true hsound⟩

/-- So the assumption on a key's own signatures is one that keys other
than RSA keys meet. -/
theorem verifiesOwn_smallKey : VerifiesOwn (.dsa smallKey) .dsaSha1 := by
  intro message random signature h
  obtain ⟨digest, hdigest, hsigned⟩ := bind_eq_ok_iff.mp h
  -- ten random numbers decide, whatever the message
  obtain ⟨pair, hpair, hdecode, hverify⟩ := smallKey_signs (Nat.mod_lt random (by decide))
  unfold signWith at hsigned
  dsimp only at hsigned
  rw [sign?_smallKey, hpair] at hsigned
  cases hsigned
  have hfamily : SignatureType.dsaSha1.digestFor (PrivateKey.dsa smallKey).publicKey.family
      = .ok digest := hdigest
  unfold verifySignature
  rw [hfamily]
  show verifyWith (.dsa smallKey.publicKey) digest message pair.encode = .ok ()
  unfold verifyWith
  dsimp only
  rw [hdecode]
  dsimp only
  rw [verify_smallKey, hverify]
  rfl

end Su3

end RouterSeed

/-
Keys in their written form and back.

A public key that can be used is the same key after it has been put into
a certificate (`publicKey_ofPublicKey`), and an RSA key after it has been
put into a key file (`decodeRsa?_of_encodeRsa?`). For the first no length
is asked for, since no usable key is long; a private exponent may be,
and then it is not written.

Consumed by the certificate round trip and by the identity proofs.
-/
import RouterSeed.Key.PrivateForm
import RouterSeed.Proofs.Crypto.OnCurve
import RouterSeed.Proofs.Der.Reading

namespace RouterSeed

open Der (Reads Oid Element BitString)

-- ======================================================== public keys

private theorem Number.lt_pow_of_bitLength_le {n width : Nat} (h : bitLength n ≤ 8 * width) :
    n < 256 ^ width := by
  calc n < 2 ^ bitLength n := lt_two_pow_bitLength n
    _ ≤ 2 ^ (8 * width) := Nat.pow_le_pow_right (by decide) h
    _ = 256 ^ width := by rw [Nat.pow_mul]

namespace SubjectKey

/-- RSA keys are at most 4096 bits long, far below the longest DER. -/
private theorem length_encodeRsa_le {key : Rsa.PublicKey} (h : key.IsUsable) :
    (encodeRsa key).length ≤ Der.maxLength := by
  obtain ⟨hsize, -, -, -, -, hexponent⟩ := h
  have hmodulus : (Der.encodeUnsigned key.modulus).length ≤ 512 + 7 :=
    Der.length_encodeUnsigned_le (by decide) (by decide) (Number.lt_pow_of_bitLength_le hsize)
  have hexponent : (Der.encodeUnsigned key.exponent).length ≤ 5 + 7 :=
    Der.length_encodeUnsigned_le (by decide) (by decide) (Nat.lt_trans hexponent (by decide))
  have hmax : Der.maxLength = 268435455 := rfl
  unfold encodeRsa Der.sequence
  have hcontent : [Der.encodeUnsigned key.modulus, Der.encodeUnsigned key.exponent].flatten.length
      ≤ 531 := by
    simp only [List.flatten_cons, List.flatten_nil, List.length_append, List.length_nil]
    omega
  have := Der.length_encode_le Der.sequenceTag (Nat.le_trans hcontent (by decide))
  omega

/-- An RSA public key comes back from its form. -/
private theorem decodeRsa?_encodeRsa {key : Rsa.PublicKey} (h : key.IsUsable) :
    decodeRsa? (encodeRsa key) = some key := by
  have hread : Reads (Der.within Der.sequenceTag do
      let modulus ← Der.unsigned
      let exponent ← Der.unsigned
      pure (⟨modulus, exponent⟩ : Rsa.PublicKey)) (encodeRsa key) [] key := by
    apply Reads.within rfl
    apply (Der.reads_unsigned _ _).bind
    rw [List.flatten_cons, List.flatten_nil]
    exact (Der.reads_unsigned key.exponent _).bind (Der.reads_pure key [])
  unfold decodeRsa?
  rw [Der.whole_of_reads hread (length_encodeRsa_le h)]
  exact if_pos h

/-- An RSA key that can be used comes back from its certificate. -/
private theorem publicKey_ofPublicKey_rsa {key : Rsa.PublicKey} (h : key.IsUsable) :
    (ofPublicKey (.rsa key)).publicKey = .ok (.rsa key) := by
  unfold ofPublicKey publicKey
  rw [Der.BitString.bytes?_ofBytes]
  dsimp only
  rw [if_pos rfl, decodeRsa?_encodeRsa h]

/-- The curve of a key is named in the parameter of its algorithm. -/
private theorem curveOid?_oid (curve : NamedCurve) :
    curveOid? (some ⟨Der.oidTag, curve.oid.content⟩) = some curve.oid := by
  cases curve <;> decide +kernel

private theorem ofOid?_oid (curve : NamedCurve) : NamedCurve.ofOid? curve.oid = some curve := by
  cases curve <;> decide +kernel

/-- A point of a curve comes back from its certificate. -/
private theorem publicKey_ofPublicKey_ecdsa {curve : NamedCurve} {point : Curve.Point}
    (h : curve.params.contains point = true) :
    (ofPublicKey (.ecdsa curve point)).publicKey = .ok (.ecdsa curve point) := by
  have hfamily : curveKeyOid ≠ rsaEncryptionOid := by decide +kernel
  unfold ofPublicKey publicKey
  rw [Der.BitString.bytes?_ofBytes]
  dsimp only
  rw [if_neg hfamily, if_pos rfl, curveOid?_oid]
  dsimp only
  rw [ofOid?_oid]
  dsimp only
  rw [Curve.Params.decode?_encode curve.prime_le h]

end SubjectKey

-- ================================================== keys that certify

/-- The numbers of a key belong together. Keys are looked at when they
are made or read, so there are no others. -/
def PrivateKey.IsConsistent : PrivateKey → Prop
  | .rsa key => key.IsConsistent
  | .ecdsa key => EcdsaKey.ofScalar? key.curve key.scalar = some key
  | .dsa key => key.publicKey.IsUsable

/-- The public half of a key of a family that certificates are issued
for comes back from its certificate. -/
theorem SubjectKey.publicKey_ofPublicKey {key : PrivateKey} (h : key.IsConsistent)
    (hfamily : key.family ≠ .dsa) :
    (ofPublicKey key.publicKey).publicKey = .ok key.publicKey := by
  cases key with
  | rsa key => exact publicKey_ofPublicKey_rsa h.1
  | ecdsa key => exact publicKey_ofPublicKey_ecdsa (EcdsaKey.contains_of_ofScalar? h)
  | dsa key => exact absurd rfl hfamily

-- ======================================================= private keys

namespace PrivateForm

/-- The nine numbers of a private key are read in their order; the last
three follow from the others and are not kept. -/
private theorem reads_rsaForm {key : Rsa.PrivateKey} {coefficient : Nat} :
    Reads (Der.within Der.sequenceTag do
      let version ← Der.unsigned
      if version ≠ 0 then failure
      let modulus ← Der.unsigned
      let exponent ← Der.unsigned
      let privateExponent ← Der.unsigned
      let prime1 ← Der.unsigned
      let prime2 ← Der.unsigned
      let _exponent1 ← Der.unsigned
      let _exponent2 ← Der.unsigned
      let _coefficient ← Der.unsigned
      pure (⟨modulus, exponent, privateExponent, prime1, prime2⟩ : Rsa.PrivateKey))
      (rsaForm key coefficient) [] key := by
  apply Reads.within rfl
  simp only [List.map_cons, List.map_nil, List.flatten_cons, List.flatten_nil]
  apply (Der.reads_unsigned 0 _).bind
  rw [if_neg (by decide)]
  iterate 8 apply (Der.reads_unsigned _ _).bind
  exact Der.reads_pure key []

/-- An RSA key that can be used and has a written form comes back from
it. -/
theorem decodeRsa?_of_encodeRsa? {key : Rsa.PrivateKey} {form : Bytes} (h : key.IsConsistent)
    (hform : encodeRsa? key = some form) : decodeRsa? form = some key := by
  obtain ⟨coefficient, -, hform⟩ := Option.bind_eq_some_iff.mp hform
  dsimp only at hform
  split at hform
  next => cases hform
  next hshort =>
    cases hform
    unfold decodeRsa?
    rw [Der.whole_of_reads reads_rsaForm (Nat.le_of_not_lt hshort)]
    exact if_pos h

end PrivateForm

/-- An RSA key of 511 bits, whose primes are easy to write down: the
smallest size that has room for a SHA-256 digest is 489 bits. -/
def sampleKey : Rsa.PrivateKey where
  modulus := (2 ^ 255 - 19) * (2 ^ 256 - 189)
  exponent := 5
  privateExponent := (3 * (2 ^ 255 - 20) * (2 ^ 256 - 190) + 1) / 5
  prime1 := 2 ^ 255 - 19
  prime2 := 2 ^ 256 - 189

theorem isConsistent_sampleKey : sampleKey.IsConsistent := by decide +kernel

end RouterSeed

/-
Whose key the certificate of an identity is for.

An identity is certified if the key in its certificate is the public
half of its own (`IsCertified`). Issuing certifies, so every identity
that is made new is certified, and so is one that is loaded from a key
file without a certificate. A certificate that stands in the key file is
taken as it is, whatever key it is for: key and certificate are two
blocks that are looked for separately (`load_takes_foreign_certificate`).

What a certified identity signs is verified with its certificate; that
takes no more than that the key verifies its own signatures.
-/
import RouterSeed.Proofs.Bundle.Signed
import RouterSeed.Proofs.Certificate.Profile
import RouterSeed.Proofs.Identity.Stored
import RouterSeed.Su3.Verification

namespace RouterSeed

open Su3 (SignatureType VerifiesOwn)

-- ======================================================= keys of a file

/-- An RSA key is only read if its parts go together. -/
private theorem PrivateForm.isConsistent_of_decodeRsa? {form : Bytes} {key : Rsa.PrivateKey}
    (h : decodeRsa? form = some key) : key.IsConsistent := by
  obtain ⟨read, -, hkept⟩ := Option.bind_eq_some_iff.mp h
  split at hkept
  next hconsistent =>
    cases hkept
    exact hconsistent
  next => cases hkept

/-- An elliptic key is determined by its curve and scalar. -/
private theorem EcdsaKey.eq_of_ofScalar? {curve : NamedCurve} {scalar : Nat} {key : EcdsaKey}
    (h : ofScalar? curve scalar = some key) : ofScalar? key.curve key.scalar = some key := by
  have hsame := h
  unfold ofScalar? at hsame
  split at hsame
  · cases hsame
  · obtain ⟨point, -, rfl⟩ := Option.map_eq_some_iff.mp hsame
    exact h

/-- A scalar that is read makes a key with the point of that scalar. -/
private theorem PrivateForm.isConsistent_of_decodeScalar? {curve : NamedCurve} {bytes : Bytes}
    {key : EcdsaKey} (h : decodeScalar? curve bytes = some key) :
    (PrivateKey.ecdsa key).IsConsistent := by
  have hscalar : ∀ {scalar key}, scalarKey? curve scalar = some key →
      (PrivateKey.ecdsa key).IsConsistent := by
    intro scalar key hkey
    unfold scalarKey? at hkey
    -- the curve that is named and the point that is written may only agree with what the
    -- scalar gives
    split at hkey
    · cases hkey
    · exact EcdsaKey.eq_of_ofScalar? hkey
  obtain ⟨⟨scalar, named, point⟩, -, h⟩ := Option.bind_eq_some_iff.mp h
  dsimp only at h
  split at h
  · cases h
  · obtain ⟨made, hmade, h⟩ := Option.bind_eq_some_iff.mp h
    split at h
    next =>
      cases h
      exact hscalar hmade
    next bits =>
      obtain ⟨written, -, h⟩ := Option.bind_eq_some_iff.mp h
      split at h
      · cases h
        exact hscalar hmade
      · cases h

/-- Whatever the form says the key is, it goes together. -/
private theorem PrivateForm.isConsistent_of_decode? {bytes : Bytes} {key : PrivateKey}
    (h : decode? bytes = some key) : key.IsConsistent := by
  obtain ⟨e, -, h⟩ := Option.bind_eq_some_iff.mp h
  unfold Envelope.key? at h
  split at h
  · split at h
    · obtain ⟨key, hkey, rfl⟩ := Option.map_eq_some_iff.mp h
      exact isConsistent_of_decodeRsa? hkey
    · cases h
  · split at h
    · obtain ⟨oid, -, h⟩ := Option.bind_eq_some_iff.mp h
      obtain ⟨curve, -, h⟩ := Option.bind_eq_some_iff.mp h
      obtain ⟨key, hkey, rfl⟩ := Option.map_eq_some_iff.mp h
      exact isConsistent_of_decodeScalar? hkey
    · cases h

namespace SigningIdentity

/-- Keys are looked at when they are read. -/
theorem isConsistent_of_keyOfBlock {block : Pem.Block} {key : PrivateKey}
    (h : keyOfBlock block = .ok key) : key.IsConsistent := by
  unfold keyOfBlock at h
  split at h
  · split at h
    next key hkey =>
      cases h
      exact PrivateForm.isConsistent_of_decodeRsa? hkey
    next => cases h
  · split at h
    next key hkey =>
      cases h
      exact PrivateForm.isConsistent_of_decode? hkey
    next => cases h

-- ======================================================== certification

variable {signerId : String} {inputs : IssueInputs} {identity : SigningIdentity}

/-- The key in the certificate is the public half of the identity's. -/
def IsCertified (identity : SigningIdentity) : Prop :=
  identity.certificate.publicKey = .ok identity.key.publicKey

/-- An identity that is issued has the key's public half in its certificate. -/
theorem isCertified_of_issue {key : PrivateKey} (hkey : key.IsConsistent)
    (h : issue signerId key inputs = .ok identity) : identity.IsCertified := by
  obtain ⟨certificate, hcertificate, rfl⟩ := issue_eq_ok h
  exact (profile_of_issueCertificate hkey hcertificate).publicKey

/-- Generated keys go together, so they are certified too. -/
private theorem isCertified_of_issue_generated {bits : Nat} {draws : Nat → Nat}
    {key : Rsa.PrivateKey}
    (hkey : Rsa.generate? bits draws = some key)
    (h : issue signerId (.rsa key) inputs = .ok identity) : identity.IsCertified := by
  have hconsistent : (PrivateKey.rsa key).IsConsistent := Rsa.isConsistent_of_generate? hkey
  exact isCertified_of_issue hconsistent h

private theorem isCertified_of_generate {bits : Nat} {draws : Nat → Nat}
    (h : generate signerId bits draws inputs = .ok identity) : identity.IsCertified := by
  unfold generate at h
  split at h
  next key hkey => exact isCertified_of_issue_generated hkey h
  next => cases h

/-- Either there is no certificate among the blocks, and one has been
issued, or the first one has been taken. -/
theorem ofBlocks_eq_ok {blocks : List Pem.Block}
    (h : ofBlocks signerId blocks inputs = .ok identity) :
    match blocks.find? fun block => block.tag = Certificate.pemTag with
    | none => identity.IsCertified
    | some block => Certificate.ofBlock block = .ok identity.certificate := by
  unfold ofBlocks at h
  cases hkeyBlock : blocks.find? holdsKey with
  | none =>
    rw [hkeyBlock] at h
    cases h
  | some keyBlock =>
    rw [hkeyBlock] at h
    obtain ⟨key, hkey, h⟩ := bind_eq_ok_iff.mp h
    -- with a certificate in the file it is taken, without one it is issued
    cases hblock : blocks.find? fun block => block.tag = Certificate.pemTag with
    | none =>
      rw [hblock] at h
      exact isCertified_of_issue (isConsistent_of_keyOfBlock hkey) h
    | some block =>
      rw [hblock] at h
      obtain ⟨certificate, hcertificate, hmade⟩ := bind_eq_ok_iff.mp h
      cases hmade
      exact hcertificate

/-- Loading reads the file, its blocks, and the identity in them. -/
private theorem load_eq_ok {tree : FileTree} {path : String}
    (h : load tree path signerId inputs = .ok identity) :
    ∃ text blocks, tree.read path = .ok text ∧ Pem.decodeAll text = .ok blocks
      ∧ ofBlocks signerId blocks inputs = .ok identity := by
  unfold load at h
  split at h
  next => cases h
  next text htext =>
    split at h
    next => cases h
    next blocks hblocks => exact ⟨text, blocks, htext, hblocks, h⟩

end SigningIdentity

-- ============================================================ verifying

/-- What verifies with a key verifies with a certificate for it: a type
that has a key family is known. -/
theorem Su3.File.verify_of_verifyWithKey {f : File} {certificate : Certificate} {key : PublicKey}
    (hkey : certificate.publicKey = .ok key) (h : f.verifyWithKey key = .ok ()) :
    f.verify certificate = .ok () := by
  obtain ⟨body, hbody, hverified⟩ := bind_eq_ok_iff.mp h
  obtain ⟨digest, hdigest, -⟩ := bind_eq_ok_iff.mp hverified
  obtain ⟨scheme, hscheme, -⟩ := bind_eq_ok_iff.mp hdigest
  unfold verify verifyCertified
  rw [hbody]
  show (do
    let _ ← f.signatureType.scheme
    let key ← certificate.publicKey
    verifySignature key f.signatureType body f.signature) = .ok ()
  rw [hscheme, hkey]
  exact hverified

/-- The first guess at the length of an RSA signature is right. -/
theorem Su3.File.sign_rsa_eq_ok {f : File} {key : Rsa.PrivateKey} {digest : Digest.Algorithm}
    {body signature : Bytes} (hdigest : f.signatureType.digestFor .rsa = .ok digest)
    (hbody : (f.withPlaceholder key.publicKey.size).body = .ok body)
    (hsigned : Rsa.sign key digest body = .ok signature) (randoms : Nat → Nat) :
    f.sign (.rsa key) randoms = (.ok (), { f with signature }) := by
  have hmessage : signMessage (.rsa key) f.signatureType body (randoms 0) = .ok signature := by
    show (f.signatureType.digestFor .rsa >>= fun digest =>
      (Rsa.sign key digest body).mapError signingFailure) = _
    rw [hdigest]
    show (Rsa.sign key digest body).mapError signingFailure = _
    rw [hsigned]
    rfl
  unfold sign settleSignature
  rw [signatureLengthHint_of_signMessage_rsa hmessage, Rsa.length_sign hsigned]
  -- the first attempt settles, since the length was announced right
  unfold settle maxAttempts
  dsimp only
  rw [hbody]
  dsimp only
  rw [hmessage]
  dsimp only
  rw [if_pos (Rsa.length_sign hsigned)]
  rfl

namespace SigningIdentity

/-- The archive of nothing. -/
theorem buildPayload_nil : buildPayload [] 0 id = .ok (Zip.layout []) := by
  decide +kernel

/-- A bundle of no descriptors, signed with the sample key. -/
theorem exists_buildBundle_sampleKey (c : Certificate) :
    ∃ file, buildBundle [] 0 ⟨"a@b", .rsa sampleKey, c⟩ .rsaSha256 ⟨1700000000, id, id⟩
      = .ok file := by
  have hsigns : ((unsignedBundle (Zip.layout []) "a@b" .rsaSha256 1700000000).withPlaceholder
      sampleKey.publicKey.size).body.toOption.any (fun body =>
        (Rsa.sign sampleKey .sha256 body).isOk) = true := by
    decide +kernel
  cases hbody : ((unsignedBundle (Zip.layout []) "a@b" .rsaSha256 1700000000).withPlaceholder
      sampleKey.publicKey.size).body with
  | error failure =>
    rw [hbody] at hsigns
    cases hsigns
  | ok body =>
    rw [hbody] at hsigns
    cases hsigned : Rsa.sign sampleKey .sha256 body with
    | error fault =>
      rw [Except.toOption, Option.any_some, hsigned] at hsigns
      cases hsigns
    | ok signature =>
      have hdigest : (unsignedBundle (Zip.layout []) "a@b" .rsaSha256
          1700000000).signatureType.digestFor .rsa = .ok .sha256 := rfl
      exact ⟨_, buildBundle_eq_ok_iff.mpr ⟨_, buildPayload_nil,
        Su3.File.sign_rsa_eq_ok hdigest hbody hsigned id⟩⟩

/-- Identities that are issued, generated, loaded without a certificate
or created in a directory are certified; a certificate in a key file is
the identity's as it is. Every bundle that a certified identity signs
verifies with its certificate. -/
theorem certificate_belongs_to_key :
    (∀ (signerId : String) (key : PrivateKey) (inputs : IssueInputs) (identity : SigningIdentity),
      key.IsConsistent → issue signerId key inputs = .ok identity → identity.IsCertified)
      ∧ (∀ (signerId : String) (bits : Nat) (draws : Nat → Nat) (inputs : IssueInputs)
          (identity : SigningIdentity),
        generate signerId bits draws inputs = .ok identity → identity.IsCertified)
      ∧ (∀ (tree : FileTree) (path signerId : String) (inputs : IssueInputs)
          (identity : SigningIdentity), load tree path signerId inputs = .ok identity →
        ∃ text blocks, tree.read path = .ok text ∧ Pem.decodeAll text = .ok blocks
          ∧ match blocks.find? fun block => block.tag = Certificate.pemTag with
            | none => identity.IsCertified
            | some block => Certificate.ofBlock block = .ok identity.certificate)
      ∧ (∀ (tree after : FileTree) (now : Instant) (dir signerId : String) (bits : Nat)
          (draws : Nat → Nat) (inputs : IssueInputs) (identity : SigningIdentity),
        loadOrCreate tree now dir signerId bits draws inputs = (.ok identity, after) →
          (tree.pathExists (keyPath dir signerId) = true →
              load tree (keyPath dir signerId) signerId inputs = .ok identity ∧ after = tree)
            ∧ (tree.pathExists (keyPath dir signerId) = false → identity.IsCertified))
      ∧ ∀ (infos : List RouterInfo) (size : Nat) (identity : SigningIdentity) (t : SignatureType)
          (inputs : BundleInputs) (file : Su3.File), identity.IsCertified →
        VerifiesOwn identity.key t → buildBundle infos size identity t inputs = .ok file →
          file.verify identity.certificate = .ok () := by
  refine ⟨fun _ _ _ _ => isCertified_of_issue, fun _ _ _ _ _ => isCertified_of_generate, ?loaded,
    ?created, ?verified⟩
  case loaded =>
    intro tree path signerId inputs identity h
    obtain ⟨text, blocks, htext, hblocks, hmade⟩ := load_eq_ok h
    exact ⟨text, blocks, htext, hblocks, ofBlocks_eq_ok hmade⟩
  case created =>
    intro tree after now dir signerId bits draws inputs identity h
    refine ⟨fun hpresent => ?_, fun habsent => ?_⟩
    · unfold loadOrCreate at h
      dsimp only at h
      rw [if_pos hpresent, Prod.mk.injEq] at h
      exact ⟨h.1, h.2.symm⟩
    · obtain ⟨key, path, hkey, hissue, -⟩ := loadOrCreate_creates habsent h
      exact isCertified_of_issue_generated hkey hissue
  case verified =>
    intro infos size identity t inputs file hcertified hown h
    obtain ⟨payload, -, hsign⟩ := buildBundle_eq_ok_iff.mp h
    exact Su3.File.verify_of_verifyWithKey hcertified (Su3.File.verifyWithKey_of_sign hsign hown)

theorem certificate_belongs_to_key_emptyTree :
    ∃ issued created after file,
      issue "a@b" (.rsa sampleKey) sampleInputs = .ok issued ∧ issued.IsCertified
        ∧ loadOrCreate emptyTree ⟨0⟩ "store/reseed" "a@b" 511 sampleDraws sampleInputs
          = (.ok created, after) ∧ created.IsCertified
        ∧ buildBundle [] 0 issued .rsaSha256 ⟨1700000000, id, id⟩ = .ok file
        ∧ file.verify issued.certificate = .ok () := by
  obtain ⟨hissued, -, -, hcreated, hverified⟩ := certificate_belongs_to_key
  have hkey : (PrivateKey.rsa sampleKey).IsConsistent := isConsistent_sampleKey
  obtain ⟨c, hc, -⟩ := exists_issueCertificate_sampleKey
  obtain ⟨created, after, hcreate⟩ := exists_loadOrCreate_emptyTree
  obtain ⟨file, hbuild⟩ := exists_buildBundle_sampleKey c
  have hissue : issue "a@b" (.rsa sampleKey) sampleInputs = .ok ⟨"a@b", .rsa sampleKey, c⟩ := by
    unfold issue
    rw [hc]
    rfl
  have hcertified := hissued _ _ _ _ hkey hissue
  have hmade := (hcreated _ _ _ _ _ _ _ _ _ hcreate).2 pathExists_emptyTree
  exact ⟨_, created, after, file, hissue, hcertified, hcreate, hmade, hbuild,
    hverified _ _ _ _ _ _ hcertified (Su3.verifiesOwn_rsa sampleKey _) hbuild⟩

-- ================================================ a foreign certificate

/-- A key with the primes of the sample key and another exponent. -/
def otherKey : Rsa.PrivateKey :=
  { sampleKey with
    exponent := 7
    privateExponent := (3 * (2 ^ 255 - 20) * (2 ^ 256 - 190) + 1) / 7 }

private theorem isConsistent_otherKey : otherKey.IsConsistent := by decide +kernel

private theorem exists_issueCertificate_otherKey :
    ∃ c, issueCertificate "a@b" (.rsa otherKey) sampleInputs = .ok c
      ∧ c.encode.length ≤ Der.maxLength :=
  exists_issueCertificate _ _ _ (by decide +kernel)

/-- The sample key, and after it a certificate of the other one. -/
def mixedText : Bytes :=
  Pem.encode ⟨rsaKeyTag, (PrivateForm.encodeRsa? sampleKey).getD []⟩
    ++ ((issueCertificate "a@b" (.rsa otherKey) sampleInputs).toOption.map
      Certificate.toPem).getD []

/-- A tree that consists of one key file. -/
def keyFile (text : Bytes) : FileTree where
  nodes := [(["k.pem"], .file text FileTree.privateMode ⟨0⟩)]
  workingDirectory := []

/-- The key file of the sample tree. -/
theorem read_keyFile (text : Bytes) : (keyFile text).read "k.pem" = .ok text := by
  have hnames : Path.names "k.pem" = ["k.pem"] := by decide +kernel
  have hresolve : (keyFile text).resolve "k.pem" true
      = .ok ⟨["k.pem"], some (.file text FileTree.privateMode ⟨0⟩)⟩ := by
    rw [FileTree.resolve_of_names hnames (by decide +kernel)]
    rfl
  unfold FileTree.read FileTree.find
  rw [hresolve]
  rfl

/-- Loading does not ask whose the certificate is. -/
theorem load_takes_foreign_certificate :
    ∃ identity, load (keyFile mixedText) "k.pem" "a@b" sampleInputs = .ok identity
      ∧ identity.key.publicKey = .rsa sampleKey.publicKey
      ∧ identity.certificate.publicKey = .ok (.rsa otherKey.publicKey)
      ∧ ¬ identity.IsCertified := by
  have hother : (PrivateKey.rsa otherKey).IsConsistent := isConsistent_otherKey
  have hwritable : (PrivateForm.encodeRsa? sampleKey).isSome = true := by decide +kernel
  obtain ⟨form, hform⟩ := Option.isSome_iff_exists.mp hwritable
  obtain ⟨c, hc, hshort⟩ := exists_issueCertificate_otherKey
  have hread : (keyFile mixedText).read "k.pem" = .ok (Pem.encode ⟨rsaKeyTag, form⟩ ++ c.toPem) := by
    rw [read_keyFile]
    unfold mixedText
    rw [hform, hc, Option.getD_some, Except.toOption, Option.map_some, Option.getD_some]
  have hpublic := (profile_of_issueCertificate hother hc).publicKey
  have hloads := load_of_read hread hform isConsistent_sampleKey (readable_of_issueCertificate hc)
    hshort "a@b" sampleInputs
  refine ⟨_, hloads, rfl, hpublic, ?_⟩
  intro hcertified
  unfold IsCertified at hcertified
  rw [hpublic] at hcertified
  -- the two sample keys have different exponents
  have hexponents : otherKey.exponent ≠ sampleKey.exponent := by decide
  have hsame : PublicKey.rsa otherKey.publicKey = PublicKey.rsa sampleKey.publicKey :=
    Except.ok.inj hcertified
  exact hexponents (congrArg Rsa.PublicKey.exponent (PublicKey.rsa.inj hsame))

end SigningIdentity

end RouterSeed

/-
What can be counted on in a bundle.

`IsGoodBundle` says what whoever downloads a bundle finds in it: a
container that is read and written back to the same bytes, that names
its signer and verifies under the signer's key, and whose archive holds
descriptors from different positions of what was there to choose from.
`isGoodBundle_of_encodedBundle` says that every bundle that is built is
such a bundle, whatever was sampled and however often it took to sign. A
bundle that is not built could not be packed, signed or written
(`isOfBuilding_of_encodedBundle`).

Two things are not looked into here and are assumed of the values at
hand: that the key's signatures verify (`VerifiesOwn`), and that the
archive of the sample, if it is made, gives back what was packed
(`UnzipsBack`).

Consumed by Served, which follows the bundles from where they are built
to where they are handed out, and by Outcome.
-/
import RouterSeed.Bundle.Build
import RouterSeed.Proofs.Bundle.Sample
import RouterSeed.Proofs.Su3.Settling

namespace RouterSeed

open Su3 (File SignatureType VerifiesOwn)

-- ======================================================= good bundles

/-- What a descriptor says, without its time, which an archive rounds. -/
def RouterInfo.named (r : RouterInfo) : String × Bytes := (r.name, r.data)

/-- The archive of the records, if it is made, gives back their names and
data in order. -/
def UnzipsBack (records : List RouterInfo) : Prop :=
  ∀ archive, zipSeeds records = .ok archive → ∃ unzipped, unzipSeeds archive = .ok unzipped
    ∧ unzipped.map RouterInfo.named = records.map RouterInfo.named

instance (records : List RouterInfo) : Decidable (UnzipsBack records) :=
  decidable_of_iff
    ((zipSeeds records).toOption.all fun archive =>
      (unzipSeeds archive).toOption.map (fun unzipped => unzipped.map RouterInfo.named)
        = some (records.map RouterInfo.named)) <| by
    unfold UnzipsBack
    cases zipSeeds records with
    | error failure => simp [Except.toOption]
    | ok archive => cases h : unzipSeeds archive <;> simp [Except.toOption, h]

/-- The bytes are a bundle of `size` of the descriptors, by the identity
and under the signature type. -/
structure IsGoodBundle (infos : List RouterInfo) (size : Nat) (identity : SigningIdentity)
    (signatureType : SignatureType) (bundle : Bytes) (file : File) : Prop where
  reads : File.decode bundle = .ok file
  writes : file.encode = .ok bundle
  fileType : file.fileType = .zip
  contentType : file.contentType = .reseed
  signatureType : file.signatureType = signatureType
  signerId : file.signerId = Bytes.ofString identity.signerId
  verifies : file.verifyWithKey identity.key.publicKey = .ok ()
  seeds : ∃ (records : List RouterInfo) (positions : List (Fin infos.length)),
    unzipSeeds file.content = .ok records
      ∧ positions.Nodup
      ∧ positions.length = min size infos.length
      ∧ records.map RouterInfo.named = positions.map fun i => (infos.get i).named

-- ============================================================ building

variable {infos : List RouterInfo} {size : Nat} {identity : SigningIdentity}
  {signatureType : SignatureType} {inputs : BundleInputs} {bundle : Bytes}

/-- A bundle that is built holds the archive of its sample, and was signed
with it. -/
theorem buildBundle_eq_ok_iff {file : File} :
    buildBundle infos size identity signatureType inputs = .ok file
      ↔ ∃ payload, buildPayload infos size inputs.draws = .ok payload
        ∧ (unsignedBundle payload identity.signerId signatureType inputs.now).sign identity.key
          inputs.signatureRandoms = (.ok (), file) := by
  refine bind_eq_ok_iff.trans (exists_congr fun payload => and_congr_right fun _ => ?_)
  dsimp only
  split
  next signed hsigned => simp [hsigned]
  next hfailed => simp [hfailed]

/-- The version is padded before the container is signed, so that
nothing is left to pad when it is written. -/
theorem le_length_version_unsignedBundle (payload : Bytes) (signerId : String)
    (signatureType : SignatureType) (now : Nat) :
    Su3.minVersionLength
      ≤ (unsignedBundle payload signerId signatureType now).version.length := by
  show _ ≤ ((versionAt now).padTo Su3.minVersionLength).length
  rw [Bytes.length_padTo]
  exact Nat.le_max_left _ _

/-- What is encoded is read back, if it needs no padding. -/
private theorem decode_of_encode {file : File} (codes : file.HasHeaderCodes)
    (version : Su3.minVersionLength ≤ file.version.length) (h : file.encode = .ok bundle)
    (memory : bundle.length < 2 ^ 64) : File.decode bundle = .ok file := by
  by_cases fits : file.Fits
  · rw [File.encode_of_fits fits] at h
    cases h
    rw [File.length_written] at memory
    rw [File.decode_written codes fits memory, File.padVersion_of_le version]
  · rw [File.encode_of_not_fits fits] at h
    cases h

/-- What the archive of a sample holds are descriptors from different
positions. -/
theorem seeds_of_unzipsBack {draws : Nat → Nat} {payload : Bytes}
    (unzips : UnzipsBack (sampleSeeds infos size draws))
    (hpayload : buildPayload infos size draws = .ok payload) :
    ∃ (records : List RouterInfo) (positions : List (Fin infos.length)),
      unzipSeeds payload = .ok records
        ∧ positions.Nodup
        ∧ positions.length = min size infos.length
        ∧ records.map RouterInfo.named = positions.map fun i => (infos.get i).named := by
  obtain ⟨records, hrecords, hnamed⟩ := unzips payload hpayload
  obtain ⟨positions, hnodup, hlength, hsample⟩ := sampleSeeds_positions infos size draws
  refine ⟨records, positions, hrecords, hnodup, hlength, ?_⟩
  rw [hnamed, hsample, List.map_map]
  rfl

/-- Every bundle that is built is a good one. -/
theorem isGoodBundle_of_encodedBundle
    (h : encodedBundle infos size identity signatureType inputs = .ok bundle)
    (canonical : signatureType.Canonical) (own : VerifiesOwn identity.key signatureType)
    (unzips : UnzipsBack (sampleSeeds infos size inputs.draws)) (memory : bundle.length < 2 ^ 64) :
    ∃ file, IsGoodBundle infos size identity signatureType bundle file := by
  obtain ⟨file, hbuild, hencode⟩ := bind_eq_ok_iff.mp h
  obtain ⟨payload, hpayload, hsign⟩ := buildBundle_eq_ok_iff.mp hbuild
  -- signing changed the signature and nothing else
  obtain ⟨-, -, -, -, hsame, -⟩ := File.sign_eq_ok hsign
  have hversion : Su3.minVersionLength ≤ file.version.length := by
    rw [hsame]
    exact le_length_version_unsignedBundle payload identity.signerId signatureType inputs.now
  have hcodes : file.HasHeaderCodes := by
    rw [hsame]
    exact ⟨canonical, rfl, rfl⟩
  refine ⟨file, ?_⟩
  constructor
  case reads => exact decode_of_encode hcodes hversion hencode memory
  case writes => exact hencode
  case fileType => rw [hsame]; rfl
  case contentType => rw [hsame]; rfl
  case signatureType => rw [hsame]; rfl
  case signerId => rw [hsame]; rfl
  case verifies => exact File.verifyWithKey_of_sign hsign own
  case seeds =>
    rw [hsame]
    exact seeds_of_unzipsBack unzips hpayload

-- ============================================================ failures

/-- What can keep a bundle from being packed, signed and written. -/
def Failure.isOfBuilding : Failure → Bool
  | .io .oversizedEntry => true
  | .fieldTooLong => true
  | .unsupportedAlgorithm _ => true
  | .keyTypeMismatch => true
  | .signingFailed _ => true
  | _ => false

variable {failure : Failure}

/-- A type and a key that do not go together are noticed by the builder. -/
private theorem isOfBuilding_of_digestFor {family : KeyFamily}
    (h : signatureType.digestFor family = .error failure) : failure.isOfBuilding = true := by
  rcases Su3.digestFor_eq_error h with rfl | rfl
  · rfl
  · rfl

private theorem isOfBuilding_of_body {file : File} (h : file.body = .error failure) :
    failure.isOfBuilding = true := by
  cases File.body_eq_error h
  rfl

/-- Signing fails for the pairing, for a field that is too long or in the
signer, and all of these are failures of building. -/
private theorem isOfBuilding_of_sign {file left : File} {key : PrivateKey} {randoms : Nat → Nat}
    (h : file.sign key randoms = (.error failure, left)) : failure.isOfBuilding = true := by
  have hsettling := File.settling_sign file key randoms
  rw [h] at hsettling
  cases hsettling with
  | refused hint =>
    rcases bind_eq_error_iff.mp hint with hdigest | ⟨digest, -, hlength⟩
    · exact isOfBuilding_of_digestFor hdigest
    · cases hlength
  | failed _ _ _ made =>
    rcases bind_eq_error_iff.mp made with hbody | ⟨body, -, hsigned⟩
    · exact isOfBuilding_of_body hbody
    · rcases bind_eq_error_iff.mp hsigned with hdigest | ⟨digest, -, hmade⟩
      · exact isOfBuilding_of_digestFor hdigest
      · rcases Su3.signWith_eq_error hmade with rfl | rfl | rfl <;> rfl
  | exhausted => rfl

/-- The zip writer refuses entries that are too long, with an I/O fault. -/
theorem isOfBuilding_of_zipSeeds {records : List RouterInfo}
    (h : zipSeeds records = .error failure) : failure.isOfBuilding = true := by
  unfold zipSeeds zipSeedsWith Zip.writeWith at h
  dsimp only at h
  split at h
  · cases h
    rfl
  · cases h

/-- A bundle that is not built could not be packed, signed or written. -/
theorem isOfBuilding_of_encodedBundle
    (h : encodedBundle infos size identity signatureType inputs = .error failure) :
    failure.isOfBuilding = true := by
  rcases bind_eq_error_iff.mp h with hbuild | ⟨file, -, hencode⟩
  · rcases bind_eq_error_iff.mp hbuild with hpayload | ⟨payload, -, hbuild⟩
    · exact isOfBuilding_of_zipSeeds hpayload
    · dsimp only at hbuild
      split at hbuild
      next => cases hbuild
      next hsign =>
        cases hbuild
        exact isOfBuilding_of_sign hsign
  · rcases bind_eq_error_iff.mp hencode with hbody | ⟨body, -, hwritten⟩
    · exact isOfBuilding_of_body hbody
    · cases hwritten

end RouterSeed

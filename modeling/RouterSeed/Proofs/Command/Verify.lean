/-
Checking a container trusts nothing before the signature holds.

Three layers, each as an equivalence. Looking a certificate up succeeds
for what is in the signer's file (`certificate_eq_ok_iff`); the outcome
of an inspection is good for a container that verifies with it
(`check_eq_ok_iff`); and the command does its work for a good outcome
(`verify_trusts_signatures_only`). An inspection itself fails for bytes
that are no container and for nothing else, since everything that goes
wrong behind the decoding is its outcome.

Nothing is written on the way: whatever the decision is, it is made on
the tree as it was found, and the one change it can ask for comes last.
-/
import RouterSeed.Command.Plan
import RouterSeed.Proofs.Files.Rooted
import RouterSeed.Proofs.Identity.Certified
import RouterSeed.Proofs.Identity.Confined

namespace RouterSeed

variable {store : Keystore} {tree : FileTree} {purpose : String}

-- ======================================================== certificates

/-- The file of the signer's certificate is there, and it holds the
certificate. -/
structure Keystore.Keeps (store : Keystore) (tree : FileTree) (purpose signerId : String)
    (c : Certificate) : Prop where
  isFile : tree.isFile (store.certificatePath purpose signerId) = true
  decodes : ∃ text block, tree.read (store.certificatePath purpose signerId) = .ok text
    ∧ Pem.decodeFirst text = .ok block ∧ Certificate.ofBlock block = .ok c

/-- The certificate of a signer is what the signer's file holds. -/
theorem Keystore.certificate_eq_ok_iff {signerId : String} {c : Certificate} :
    store.certificate tree purpose signerId = .ok c ↔ store.Keeps tree purpose signerId c := by
  constructor
  · intro h
    cases hfile : tree.isFile (store.certificatePath purpose signerId) with
    | false =>
      rw [certificate_of_not_isFile hfile] at h
      cases h
    | true =>
      obtain ⟨text, htext⟩ := exists_read_of_certificate hfile h
      rw [certificate_of_isFile hfile htext] at h
      unfold readCertificate at h
      split at h
      next block hblock => exact ⟨hfile, text, block, htext, hblock, h⟩
      next => cases h
  · rintro ⟨hfile, text, block, htext, hblock, hcertificate⟩
    rw [certificate_of_isFile hfile htext, readCertificate, hblock]
    exact hcertificate

-- ========================================================== inspection

namespace Su3

/-- The container has a signature that holds for the signer. -/
def File.SignedFor (f : File) (store : Keystore) (tree : FileTree) (purpose signer : String) : Prop :=
  ∃ c, store.Keeps tree purpose signer c ∧ f.verify c = .ok ()

/-- The signer that counts: the expected one, or else the one that the
container names. -/
def File.signerFor (f : File) (expected : Option String) : String :=
  match expected with
  | some signer => signer
  | none => Text.decodeLossy f.signerId

/-- The verdict on a container: the certificate of the signer that is named
is there and accepts the signature. -/
theorem File.check_eq_ok_iff {f : File} {signer : String} :
    f.check store tree purpose signer = .ok () ↔ f.SignedFor store tree purpose signer := by
  unfold check SignedFor
  rw [bind_eq_ok_iff]
  simp only [Keystore.certificate_eq_ok_iff]

variable {expected : Option String} {data : Bytes}

/-- Every container is inspected, with the outcome of its check. -/
theorem inspect_of_decode {f : File} (h : File.decode data = .ok f) :
    inspect store tree purpose expected data
      = .ok ⟨f, f.signerFor expected, f.check store tree purpose (f.signerFor expected)⟩ := by
  unfold inspect
  rw [h]
  cases expected <;> rfl

/-- Bytes that are no container are the only thing that inspection fails
for; the rest is told in the outcome. -/
theorem inspect_eq_error_iff {failure : Failure} :
    inspect store tree purpose expected data = .error failure
      ↔ File.decode data = .error failure := by
  cases hdecode : File.decode data with
  | error other =>
    have hinspect : inspect store tree purpose expected data = .error other := by
      unfold inspect
      rw [hdecode]
      rfl
    rw [hinspect, Except.error.injEq, Except.error.injEq]
  | ok f =>
    rw [inspect_of_decode hdecode]
    exact iff_of_false nofun nofun

end Su3

-- ============================================================= command

namespace Command

open Su3 (File inspect)

variable {file keystore : String} {signer extract : Option String} {inputs : CommandInputs}
  {data : Bytes} {f : File}

/-- A file that cannot be read ends the run with the fault. -/
private theorem perform_verify_of_unreadable {fault : IoFault} (h : tree.read file = .error fault) :
    perform (.verify file signer keystore purpose extract) tree inputs
      = (⟨"", some (.cause (.io fault))⟩, tree) := by
  show (verifyPlan tree file signer keystore purpose extract).perform tree inputs.now = _
  unfold verifyPlan
  rw [h]
  rfl

/-- So do bytes that are no container, with nothing printed. -/
private theorem perform_verify_of_no_container {failure : Failure}
    (hread : tree.read file = .ok data)
    (h : File.decode data = .error failure) :
    perform (.verify file signer keystore purpose extract) tree inputs
      = (⟨"", some (.cause failure)⟩, tree) := by
  show (verifyPlan tree file signer keystore purpose extract).perform tree inputs.now = _
  unfold verifyPlan
  rw [hread]
  dsimp only
  rw [Su3.inspect_eq_error_iff.mpr h]
  rfl

/-- A container is judged by its signature, and written, if it is to be,
when that holds. -/
theorem perform_verify_of_decode (hread : tree.read file = .ok data)
    (hdecode : File.decode data = .ok f) :
    perform (.verify file signer keystore purpose extract) tree inputs
      = (verdict ⟨f, f.signerFor signer, f.check ⟨keystore⟩ tree purpose (f.signerFor signer)⟩
          extract).perform tree inputs.now := by
  show (verifyPlan tree file signer keystore purpose extract).perform tree inputs.now = _
  unfold verifyPlan
  rw [hread]
  dsimp only
  rw [Su3.inspect_of_decode hdecode]

/-- A bad signature is told after the dump, and nothing is extracted. -/
private theorem perform_verify_of_bad_signature {failure : Failure}
    (hread : tree.read file = .ok data)
    (hdecode : File.decode data = .ok f)
    (h : f.check ⟨keystore⟩ tree purpose (f.signerFor signer) = .error failure) :
    perform (.verify file signer keystore purpose extract) tree inputs
      = (⟨f.display ++ "\n", some (.signature (f.signerFor signer) failure)⟩, tree) := by
  rw [perform_verify_of_decode hread hdecode, h]
  rfl

/-- Only then does the run come to extracting. -/
private theorem perform_verify_of_signature (hread : tree.read file = .ok data)
    (hdecode : File.decode data = .ok f)
    (h : f.check ⟨keystore⟩ tree purpose (f.signerFor signer) = .ok ()) :
    perform (.verify file signer keystore purpose extract) tree inputs
      = (verdict ⟨f, f.signerFor signer, .ok ()⟩ extract).perform tree inputs.now := by
  rw [perform_verify_of_decode hread hdecode, h]

/-- The content can be written where it is to go, if it is to. -/
def CanExtract (tree : FileTree) (now : Instant) (f : File) (extract : Option String) : Prop :=
  ∀ dir, extract = some dir →
    ∃ after, tree.write now (Path.join dir "extracted.zip") f.content = .ok after

/-- Nothing is written, or the content as a whole. -/
theorem perform_verdict (f : File) (name : String) (now : Instant) :
    let run := (verdict ⟨f, name, .ok ()⟩ extract).perform tree now
    (run.1.failure = none ↔ CanExtract tree now f extract)
      ∧ (run.1.failure ≠ none ∨ extract = none → run.2 = tree)
      ∧ (run.1.failure = none → ∀ dir, extract = some dir →
          tree.write now (Path.join dir "extracted.zip") f.content = .ok run.2) := by
  cases extract with
  | none =>
    refine ⟨iff_of_true rfl ?_, fun _ => rfl, ?_⟩
    · rintro dir ⟨⟩
    · rintro - dir ⟨⟩
  | some dir =>
    unfold verdict Plan.perform FileTree.changeAll FileTree.change Su3.File.extraction Su3.contentPath
      Su3.contentFile CanExtract
    dsimp only
    cases hwrite : tree.write now (Path.join dir "extracted.zip") f.content with
    | error fault =>
      refine ⟨iff_of_false ?_ fun hcan => ?_, fun _ => rfl, ?_⟩
      · rintro ⟨⟩
      · obtain ⟨after, hafter⟩ := hcan dir rfl
        rw [hwrite] at hafter
        cases hafter
      · rintro ⟨⟩
    | ok after =>
      refine ⟨iff_of_true rfl ?_, ?_, ?_⟩
      · rintro _ ⟨⟩
        exact ⟨after, hwrite⟩
      · rintro (hfailed | hnone)
        · exact absurd rfl hfailed
        · cases hnone
      · rintro - _ ⟨⟩
        exact hwrite

/-- The command does its work for a container that is signed, if what is
to be written can be. -/
theorem perform_verify_failure_eq_none_iff :
    (perform (.verify file signer keystore purpose extract) tree inputs).1.failure = none
      ↔ ∃ data f, tree.read file = .ok data ∧ File.decode data = .ok f
        ∧ f.SignedFor ⟨keystore⟩ tree purpose (f.signerFor signer)
        ∧ CanExtract tree inputs.now f extract := by
  -- Three checks stand before the extraction; each failure excludes what the right side
  -- asks for.
  cases hread : tree.read file with
  | error fault =>
    rw [perform_verify_of_unreadable hread]
    refine iff_of_false nofun ?_
    rintro ⟨data, f, hdata, -⟩
    cases hdata
  | ok data =>
    cases hdecode : File.decode data with
    | error failure =>
      rw [perform_verify_of_no_container hread hdecode]
      refine iff_of_false nofun ?_
      rintro ⟨_, f, ⟨⟩, hf, -⟩
      rw [hdecode] at hf
      cases hf
    | ok f =>
      cases hcheck : f.check ⟨keystore⟩ tree purpose (f.signerFor signer) with
      | error failure =>
        rw [perform_verify_of_bad_signature hread hdecode hcheck]
        refine iff_of_false nofun ?_
        rintro ⟨_, g, ⟨⟩, hg, hsigned, -⟩
        rw [hdecode] at hg
        cases hg
        rw [Su3.File.check_eq_ok_iff.mpr hsigned] at hcheck
        cases hcheck
      | ok =>
        rw [perform_verify_of_signature hread hdecode hcheck, (perform_verdict f _ _).1]
        constructor
        · intro hcan
          exact ⟨data, f, rfl, hdecode, Su3.File.check_eq_ok_iff.mp hcheck, hcan⟩
        · rintro ⟨_, g, ⟨⟩, hg, -, hcan⟩
          rw [hdecode] at hg
          cases hg
          exact hcan

/-- A command that has failed has written nothing, and neither has one
that is not asked to. -/
theorem perform_verify_frame
    (h : (perform (.verify file signer keystore purpose extract) tree inputs).1.failure ≠ none
      ∨ extract = none) :
    (perform (.verify file signer keystore purpose extract) tree inputs).2 = tree := by
  cases hread : tree.read file with
  | error fault => rw [perform_verify_of_unreadable hread]
  | ok data =>
    cases hdecode : File.decode data with
    | error failure => rw [perform_verify_of_no_container hread hdecode]
    | ok f =>
      cases hcheck : f.check ⟨keystore⟩ tree purpose (f.signerFor signer) with
      | error failure => rw [perform_verify_of_bad_signature hread hdecode hcheck]
      | ok =>
        rw [perform_verify_of_signature hread hdecode hcheck] at h ⊢
        exact (perform_verdict f _ _).2.1 h

/-- What has been written is the content of the container. -/
theorem write_of_perform_verify {dir : String}
    (h : (perform (.verify file signer keystore purpose (some dir)) tree inputs).1.failure = none)
    (hread : tree.read file = .ok data) (hdecode : File.decode data = .ok f) :
    tree.write inputs.now (Path.join dir "extracted.zip") f.content
      = .ok (perform (.verify file signer keystore purpose (some dir)) tree inputs).2 := by
  cases hcheck : f.check ⟨keystore⟩ tree purpose (f.signerFor signer) with
  | error failure =>
    rw [perform_verify_of_bad_signature hread hdecode hcheck] at h
    cases h
  | ok =>
    rw [perform_verify_of_signature hread hdecode hcheck] at h ⊢
    exact (perform_verdict f _ _).2.2 h dir rfl

private theorem exitCode_eq_zero_iff {r : CommandResult} : r.exitCode = 0 ↔ r.failure = none := by
  unfold CommandResult.exitCode
  cases r.failure with
  | none => exact iff_of_true rfl rfl
  | some failure => exact iff_of_false nofun nofun

/-- Nothing is trusted before the signature holds. An inspection fails
exactly for bytes that are no container, with the failure of decoding
them; every container is told with its header, the signer that counts and
an outcome that is good if and only if the signer's certificate is kept
and the signature holds. The command ends well only then, and only then
the content is written, in its place and as it is; a command that fails
leaves the tree as it was. -/
theorem verify_trusts_signatures_only (tree : FileTree) (file keystore purpose : String)
    (signer extract : Option String) (inputs : CommandInputs) :
    (∀ data,
        (∀ failure, inspect ⟨keystore⟩ tree purpose signer data = .error failure
          ↔ File.decode data = .error failure)
        ∧ ∀ f, File.decode data = .ok f →
          ∃ i, inspect ⟨keystore⟩ tree purpose signer data = .ok i
            ∧ i.file = f ∧ i.summary = f.display ∧ i.signer = f.signerFor signer
            ∧ (i.outcome = .ok () ↔ f.SignedFor ⟨keystore⟩ tree purpose i.signer))
      ∧ let run := perform (.verify file signer keystore purpose extract) tree inputs
        (run.1.exitCode = 0 ↔ ∃ data f, tree.read file = .ok data ∧ File.decode data = .ok f
            ∧ f.SignedFor ⟨keystore⟩ tree purpose (f.signerFor signer)
            ∧ CanExtract tree inputs.now f extract)
        ∧ (run.1.exitCode ≠ 0 ∨ extract = none → run.2 = tree)
        ∧ (run.1.exitCode = 0 → ∀ dir, extract = some dir →
          ∀ data f, tree.read file = .ok data → File.decode data = .ok f →
            tree.write inputs.now (Path.join dir "extracted.zip") f.content = .ok run.2
            ∧ (tree.Rooted → run.2.read (Path.join dir "extracted.zip") = .ok f.content
              ∧ ∃ place, ∀ other, other ≠ place → run.2.nodeAt? other = tree.nodeAt? other)) := by
  refine ⟨fun data => ⟨fun failure => Su3.inspect_eq_error_iff, fun f hdecode => ?inspected⟩,
    ?succeeds, ?frame, ?extracted⟩
  case inspected =>
    exact ⟨_, Su3.inspect_of_decode hdecode, rfl, rfl, rfl, Su3.File.check_eq_ok_iff⟩
  case succeeds => rw [exitCode_eq_zero_iff, perform_verify_failure_eq_none_iff]
  case frame =>
    intro h
    rw [ne_eq, exitCode_eq_zero_iff] at h
    exact perform_verify_frame h
  -- What was written is in one place, so all others are as they were.
  case extracted =>
    rintro h dir rfl data f hread hdecode
    have hwrite := write_of_perform_verify (exitCode_eq_zero_iff.mp h) hread hdecode
    refine ⟨hwrite, fun hrooted => ⟨hrooted.read_write hwrite, ?_⟩⟩
    obtain ⟨place, _, hsame, -⟩ := hrooted.holds_write hwrite
    exact ⟨place, fun other hne => (hsame.elsewhere other hne).symm⟩

/-- A tree with a container and a directory with one certificate. -/
def deliveredTree (bundle certificate : Bytes) : FileTree where
  nodes :=
    [(["bundle.su3"], .file bundle FileTree.newFileMode ⟨0⟩),
      (["keys"], .directory),
      (["keys", "reseed"], .directory),
      (["keys", "reseed", "a_at_b.crt"], .file certificate FileTree.newFileMode ⟨0⟩)]
  workingDirectory := []

section

variable (bundle certificate : Bytes)

private theorem rooted_deliveredTree : (deliveredTree bundle certificate).Rooted where
  start := rfl
  above := by
    intro location hlocation
    simp only [deliveredTree, List.map_cons, List.map_nil, List.mem_cons, List.not_mem_nil,
      or_false] at hlocation
    rcases hlocation with rfl | rfl | rfl | rfl <;> rfl

private theorem resolve_bundle :
    (deliveredTree bundle certificate).resolve "bundle.su3" true
      = .ok ⟨["bundle.su3"], some (.file bundle FileTree.newFileMode ⟨0⟩)⟩ := by
  have hnames : Path.names "bundle.su3" = ["bundle.su3"] := by decide +kernel
  rw [FileTree.resolve_of_names hnames (by decide +kernel)]
  rfl

private theorem resolve_certificate :
    (deliveredTree bundle certificate).resolve "keys/reseed/a_at_b.crt" true
      = .ok ⟨["keys", "reseed", "a_at_b.crt"],
          some (.file certificate FileTree.newFileMode ⟨0⟩)⟩ := by
  have hnames : Path.names "keys/reseed/a_at_b.crt" = ["keys", "reseed", "a_at_b.crt"] := by
    decide +kernel
  rw [FileTree.resolve_of_names hnames (by decide +kernel)]
  rfl

/-- There is room for the content in the delivered directory. -/
private theorem write_content (content : Bytes) :
    ∃ after, (deliveredTree bundle certificate).write ⟨0⟩ (Path.join "." "extracted.zip") content
      = .ok after := by
  have hpath : Path.join "." "extracted.zip" = "./extracted.zip" := by decide +kernel
  have hnames : Path.names "./extracted.zip" = [".", "extracted.zip"] := by decide +kernel
  have hresolve : (deliveredTree bundle certificate).resolve "./extracted.zip" true
      = .ok ⟨["extracted.zip"], none⟩ := by
    rw [FileTree.resolve_of_names hnames (by decide +kernel)]
    rfl
  unfold FileTree.write
  rw [hpath, hresolve]
  dsimp only [bind, Except.bind]
  rw [if_neg (by decide +kernel)]
  exact ⟨_, rfl⟩

end

/-- A bundle is delivered as bytes that are read back, and it names its
signer. -/
theorem exists_delivered {infos : List RouterInfo} {size : Nat} {identity : SigningIdentity}
    {t : Su3.SignatureType} {made : BundleInputs}
    (hbuild : buildBundle infos size identity t made = .ok f) (canonical : t.Canonical)
    (small : ∀ payload, buildPayload infos size made.draws = .ok payload →
      payload.length < 2 ^ 63) :
    ∃ bundle, File.decode bundle = .ok f ∧ f.signerFor none = identity.signerId := by
  obtain ⟨payload, hpayload, hsign⟩ := buildBundle_eq_ok_iff.mp hbuild
  have hsmall := small payload hpayload
  obtain ⟨_, body, -, -, hsame, hbody, -⟩ := File.sign_eq_ok hsign
  have hcodes : f.HasHeaderCodes := by
    rw [hsame]
    exact ⟨canonical, rfl, rfl⟩
  have hversion : Su3.minVersionLength ≤ f.version.length := by
    rw [hsame]
    exact le_length_version_unsignedBundle payload identity.signerId t made.now
  have hcontent : f.content = payload := by
    rw [hsame]
    rfl
  have hsigner : f.signerId = Bytes.ofString identity.signerId := by
    rw [hsame]
    rfl
  have fits : f.Fits := by
    unfold File.body at hbody
    split at hbody
    next fits => exact fits
    next => cases hbody
  -- A body was made, so the fields fit; with the content bounded, the file is short enough
  -- to be read.
  have hlength : f.encodedSize < 2 ^ 64 := by
    obtain ⟨hversionLength, hsignerLength, hsignatureLength⟩ := fits
    unfold File.encodedSize Su3.headerSize
    rw [hcontent]
    omega
  refine ⟨f.header ++ f.fields, ?_, ?_⟩
  · rw [File.decode_written hcodes fits hlength, File.padVersion_of_le hversion]
  · unfold File.signerFor
    dsimp only
    rw [hsigner, Text.decodeLossy_ofString]

/-- The bundle of a signer is extracted next to itself. -/
theorem verify_trusts_signatures_only_bundle :
    ∃ bundle certificate f, File.decode bundle = .ok f
      ∧ let run := perform (.verify "bundle.su3" none "keys" "reseed" (some "."))
          (deliveredTree bundle certificate) ⟨sampleInputs, id, ⟨0⟩, fun _ => ⟨1700000000, id, id⟩⟩
        run.1.exitCode = 0 ∧ run.2.read "./extracted.zip" = .ok f.content := by
  obtain ⟨c, hc, hshort⟩ := exists_issueCertificate_sampleKey
  obtain ⟨f, hbuild⟩ := SigningIdentity.exists_buildBundle_sampleKey c
  obtain ⟨payload, hpayload, hsign⟩ := buildBundle_eq_ok_iff.mp hbuild
  have hsmall : ∀ payload, buildPayload [] 0 id = .ok payload → payload.length < 2 ^ 63 := by
    intro payload hpayload
    rw [SigningIdentity.buildPayload_nil] at hpayload
    cases hpayload
    decide +kernel
  obtain ⟨bundle, hdecode, hsigner⟩ := exists_delivered hbuild (by decide) hsmall
  have hholdsBundle : FileTree.Holds (deliveredTree bundle c.toPem) "bundle.su3" _ _ _ _ :=
    ⟨by decide +kernel, resolve_bundle bundle c.toPem, rfl⟩
  have hpath : Keystore.certificatePath ⟨"keys"⟩ "reseed" "a@b" = "keys/reseed/a_at_b.crt" := by
    decide +kernel
  have hholds : FileTree.Holds (deliveredTree bundle c.toPem)
      (Keystore.certificatePath ⟨"keys"⟩ "reseed" "a@b") _ _ _ _ :=
    ⟨by decide +kernel, hpath ▸ resolve_certificate bundle c.toPem, rfl⟩
  have hissue : SigningIdentity.issue "a@b" (.rsa sampleKey) sampleInputs
      = .ok ⟨"a@b", .rsa sampleKey, c⟩ := by
    unfold SigningIdentity.issue
    rw [hc]
    rfl
  have hkey : (PrivateKey.rsa sampleKey).IsConsistent := isConsistent_sampleKey
  -- The bundle was signed with the sample key, and the certificate in the keystore carries
  -- its public half.
  have hsigned : f.SignedFor ⟨"keys"⟩ (deliveredTree bundle c.toPem) "reseed" (f.signerFor none) := by
    refine ⟨c, ?_, ?_⟩
    · rw [hsigner, ← Keystore.certificate_eq_ok_iff]
      exact Keystore.certificate_of_read hholds.isFile hholds.read (readable_of_issueCertificate hc)
        hshort
    · exact Su3.File.verify_of_verifyWithKey (SigningIdentity.isCertified_of_issue hkey hissue)
        (Su3.File.verifyWithKey_of_sign hsign (Su3.verifiesOwn_rsa sampleKey _))
  obtain ⟨-, hsucceeds, -, hwritten⟩ := verify_trusts_signatures_only
    (deliveredTree bundle c.toPem) "bundle.su3" "keys" "reseed" none (some ".")
    ⟨sampleInputs, id, ⟨0⟩, fun _ => ⟨1700000000, id, id⟩⟩
  have hexit := hsucceeds.mpr ⟨bundle, f, hholdsBundle.read, hdecode, hsigned, by
    rintro _ ⟨⟩
    exact write_content bundle c.toPem f.content⟩
  refine ⟨bundle, c.toPem, f, hdecode, hexit, ?_⟩
  exact ((hwritten hexit "." rfl bundle f hholdsBundle.read hdecode).2
    (rooted_deliveredTree bundle c.toPem)).1

end Command

end RouterSeed

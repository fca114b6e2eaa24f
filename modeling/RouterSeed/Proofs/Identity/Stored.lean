/-
What an operator stores is what verifiers find and what the server loads
again.

Storing writes a key file of two blocks and a certificate file of one.
Both are read back whole (`load_of_read`, `certificate_of_read`), because
keys, certificates and blocks come back from their written forms. The
file names are worked out four times, by storing, loading, creating and
looking up; they agree, and stay apart from one another, for every
signer id.

A link in place of one of the files could lead anywhere, also from one
of the two names to the other, so nothing is said of directories that
have one there (`HasPlainNames`).
-/
import RouterSeed.Identity.Keystore
import RouterSeed.Identity.Basic
import RouterSeed.Proofs.Certificate.RoundTrip
import RouterSeed.Proofs.Files.Changes
import RouterSeed.Proofs.Identity.FileNames
import RouterSeed.Proofs.Pem
import RouterSeed.Proofs.Su3.OwnSignatures

namespace RouterSeed

-- ============================================================== blocks

/-- A certificate's block can be written and read: it has a name and no
headers. -/
private theorem Certificate.printable_toBlock (c : Certificate) : c.toBlock.Printable where
  named := show pemTag ≠ "" by decide
  dashless := show Pem.dash ∉ Bytes.ofString pemTag by decide

private theorem SigningIdentity.printable_rsaKey (form : Bytes) :
    (⟨rsaKeyTag, form⟩ : Pem.Block).Printable where
  named := show rsaKeyTag ≠ "" by decide
  dashless := show Pem.dash ∉ Bytes.ofString rsaKeyTag by decide

/-- A certificate is read back from its block. -/
private theorem Certificate.ofBlock_toBlock {c : Certificate} (h : c.Readable)
    (short : c.encode.length ≤ Der.maxLength) : ofBlock c.toBlock = .ok c := by
  have hdecode : decode? c.toBlock.contents = some c := decode?_encode h short
  unfold ofBlock
  rw [if_neg fun hne => hne rfl, hdecode]

/-- The certificate of a file that holds it alone. -/
theorem Keystore.certificate_of_read {store : Keystore} {tree : FileTree} {purpose signerId : String}
    {c : Certificate} (hfile : tree.isFile (store.certificatePath purpose signerId) = true)
    (hread : tree.read (store.certificatePath purpose signerId) = .ok c.toPem) (h : c.Readable)
    (short : c.encode.length ≤ Der.maxLength) : store.certificate tree purpose signerId = .ok c := by
  have hfirst : Pem.decodeFirst c.toPem = .ok c.toBlock := by
    have hblock := Pem.decodeFirst_encode c.printable_toBlock []
    rwa [List.append_nil] at hblock
  unfold Keystore.certificate readCertificate
  dsimp only
  rw [hfile, hread]
  dsimp only [Bool.not_true, Bool.false_eq_true, if_false]
  rw [hfirst]
  exact Certificate.ofBlock_toBlock h short

namespace SigningIdentity

variable {tree after : FileTree} {signerId dir path : String} {inputs : IssueInputs}
  {identity : SigningIdentity} {now : Instant}

/-- Loading is reading the blocks of the file. -/
theorem load_eq {text : Bytes} {blocks : List Pem.Block} (hread : tree.read path = .ok text)
    (hblocks : Pem.decodeAll text = .ok blocks) (signerId : String) (inputs : IssueInputs) :
    load tree path signerId inputs = ofBlocks signerId blocks inputs := by
  unfold load
  rw [hread]
  dsimp only
  rw [hblocks]

/-- An RSA key comes back from its block. -/
theorem keyOfBlock_rsa {key : Rsa.PrivateKey} {form : Bytes}
    (hform : PrivateForm.encodeRsa? key = some form) (hkey : key.IsConsistent) :
    keyOfBlock ⟨rsaKeyTag, form⟩ = .ok (.rsa key) := by
  unfold keyOfBlock
  rw [if_pos rfl, PrivateForm.decodeRsa?_of_encodeRsa? hkey hform]

/-- Of a key and a certificate behind it, both are taken. -/
private theorem ofBlocks_keyAndCertificate {keyBlock certificateBlock : Pem.Block}
    {key : PrivateKey}
    {c : Certificate} (hholds : holdsKey keyBlock = true) (htag : keyBlock.tag ≠ Certificate.pemTag)
    (hkey : keyOfBlock keyBlock = .ok key) (hc : Certificate.ofBlock certificateBlock = .ok c) :
    ofBlocks signerId [keyBlock, certificateBlock] inputs = .ok ⟨signerId, key, c⟩ := by
  have hcertificateTag : certificateBlock.tag = Certificate.pemTag := by
    unfold Certificate.ofBlock at hc
    by_contra hne
    rw [if_pos hne] at hc
    cases hc
  unfold ofBlocks
  rw [List.find?_cons_of_pos hholds]
  dsimp only
  rw [hkey, List.find?_cons_of_neg (by simpa using htag),
    List.find?_cons_of_pos (by simpa using hcertificateTag)]
  show (Certificate.ofBlock certificateBlock >>= fun c =>
    (.ok ⟨signerId, key, c⟩ : Except Failure SigningIdentity)) = _
  rw [hc]
  rfl

/-- The identity of a file that holds an RSA key and then a certificate. -/
theorem load_of_read {key : Rsa.PrivateKey} {form : Bytes} {c : Certificate}
    (hread : tree.read path = .ok (Pem.encode ⟨rsaKeyTag, form⟩ ++ c.toPem))
    (hform : PrivateForm.encodeRsa? key = some form) (hkey : key.IsConsistent) (hc : c.Readable)
    (short : c.encode.length ≤ Der.maxLength) (signerId : String) (inputs : IssueInputs) :
    load tree path signerId inputs = .ok ⟨signerId, .rsa key, c⟩ := by
  have hprintable : ∀ b ∈ [⟨rsaKeyTag, form⟩, c.toBlock], b.Printable := by
    simp only [List.mem_cons, List.not_mem_nil, or_false]
    rintro b (rfl | rfl)
    · exact printable_rsaKey form
    · exact c.printable_toBlock
  have hblocks := Pem.decodeAll_encode hprintable
  rw [List.map_cons, List.map_cons, List.map_nil, List.flatten_cons, List.flatten_cons,
    List.flatten_nil, List.append_nil] at hblocks
  rw [load_eq hread hblocks]
  have htag : rsaKeyTag ≠ Certificate.pemTag := by decide
  exact ofBlocks_keyAndCertificate rfl htag (keyOfBlock_rsa hform hkey)
    (Certificate.ofBlock_toBlock hc short)

-- ============================================================== saving

/-- A save that went well wrote the key with the certificate, closed the
file, and wrote the certificate. -/
private theorem save_eq_ok (h : identity.save tree now dir = (.ok path, after)) :
    ∃ block, identity.keyBlock = .ok block
      ∧ identity.certificate.encode.length ≤ Der.maxLength
      ∧ path = keyPath dir identity.signerId
      ∧ tree.changeAll now
          [.makeDirectories dir,
            .write (keyPath dir identity.signerId)
              (Pem.encode block ++ identity.certificate.toPem),
            .setMode (keyPath dir identity.signerId) FileTree.privateMode,
            .write (certificatePath dir identity.signerId) identity.certificate.toPem]
          = (.ok (), after) := by
  unfold save at h
  split at h
  · cases h
  next changes hchanges =>
    obtain ⟨block, hblock, hchanges⟩ := bind_eq_ok_iff.mp hchanges
    obtain ⟨text, htext, hchanges⟩ := bind_eq_ok_iff.mp hchanges
    unfold certificateText at htext
    split at htext
    · cases htext
    next hshort =>
      cases htext
      cases hchanges
      split at h
      next hmade =>
        cases h
        exact ⟨block, hblock, Nat.le_of_not_lt hshort, rfl, hmade⟩
      next => cases h

/-- The block of an RSA key holds its form. -/
private theorem keyBlock_rsa_eq_ok {key : Rsa.PrivateKey} {block : Pem.Block}
    (hrsa : identity.key = .rsa key) (h : identity.keyBlock = .ok block) :
    ∃ form, PrivateForm.encodeRsa? key = some form ∧ block = ⟨rsaKeyTag, form⟩ := by
  unfold keyBlock at h
  rw [hrsa] at h
  dsimp only at h
  split at h
  next form hform =>
    cases h
    exact ⟨form, hform, rfl⟩
  next => cases h

/-- The names of the two files lead to files, if to anything. -/
def HasPlainNames (tree : FileTree) (dir signerId : String) : Prop :=
  (tree.makeDirectories dir).2.IsPlainAt (keyPath dir signerId)
    ∧ (tree.makeDirectories dir).2.IsPlainAt (certificatePath dir signerId)

/-- The identity is in the directory of the tree: it is loaded from the
path, created anew by no one, and verifiers find its certificate. -/
structure IsStored (identity : SigningIdentity) (dir path : String) (tree : FileTree) : Prop where
  loads : ∀ inputs, load tree path identity.signerId inputs = .ok identity
  stays : ∀ now bits draws inputs,
    loadOrCreate tree now dir identity.signerId bits draws inputs = (.ok identity, tree)
  resolves : ∀ (store : Keystore) (purpose : String), Path.join store.path purpose = dir →
    store.certificate tree purpose identity.signerId = .ok identity.certificate
  endsAlike : ∃ keyText certificateText,
    tree.read path = .ok (keyText ++ certificateText)
      ∧ tree.read (certificatePath dir identity.signerId) = .ok certificateText

/-- Everything stays but what the paths lead to, and new directories. -/
def SameFilesBut (before after : FileTree) (paths : List String) : Prop :=
  ∀ location, (∀ path ∈ paths, ∀ found, after.resolve path true = .ok found →
      found.location ≠ location) →
    after.nodeAt? location = before.nodeAt? location
      ∨ before.nodeAt? location = none ∧ after.nodeAt? location = some .directory

/-- What was written is what loading, the keystore and a second creation
read. -/
theorem isStored_of_save {key : Rsa.PrivateKey} (hrsa : identity.key = .rsa key)
    (hkey : key.IsConsistent) (hc : identity.certificate.Readable)
    (hplain : HasPlainNames tree dir identity.signerId)
    (h : identity.save tree now dir = (.ok path, after)) :
    IsStored identity dir path after
      ∧ SameFilesBut tree after
          [keyPath dir identity.signerId, certificatePath dir identity.signerId] := by
  obtain ⟨block, hblock, hshort, rfl, hchanges⟩ := save_eq_ok h
  obtain ⟨form, hform, rfl⟩ := keyBlock_rsa_eq_ok hrsa hblock
  have hkeyName : Path.EndsIn (keyPath dir identity.signerId) _ :=
    SignerFile.endsIn_key dir identity.signerId
  have hcertificateName : Path.EndsIn (certificatePath dir identity.signerId) _ :=
    SignerFile.endsIn_certificate dir identity.signerId
  -- The two files have different names, so neither write touches the other file.
  obtain ⟨keyPlace, certificatePlace, certificateMode, hkeyFile, hcertificateFile, hrest⟩ :=
    FileTree.changeAll_twoFiles hkeyName hcertificateName
      (SignerFile.key_ne_certificate identity.signerId) hplain.1 hplain.2 hchanges
  have hloads : ∀ inputs, load after (keyPath dir identity.signerId) identity.signerId inputs
      = .ok identity := by
    intro inputs
    rw [load_of_read hkeyFile.read hform hkey hc hshort, ← hrsa]
  refine ⟨?stored, ?others⟩
  case stored =>
    constructor
    case loads => exact hloads
    case stays =>
      intro now bits draws inputs
      unfold loadOrCreate
      dsimp only
      rw [hkeyFile.pathExists, if_pos rfl, hloads]
    case resolves =>
      rintro store purpose rfl
      exact Keystore.certificate_of_read hcertificateFile.isFile hcertificateFile.read hc hshort
    case endsAlike => exact ⟨_, _, hkeyFile.read, hcertificateFile.read⟩
  case others =>
    intro location hother
    apply hrest location
    · rintro rfl
      exact hother _ List.mem_cons_self _ hkeyFile.leads rfl
    · rintro rfl
      exact hother _ (List.mem_cons_of_mem _ List.mem_cons_self) _ hcertificateFile.leads rfl

/-- An identity that was issued is the signer id, the key and the
certificate made for them. -/
theorem issue_eq_ok {key : PrivateKey} (h : issue signerId key inputs = .ok identity) :
    ∃ certificate, issueCertificate signerId key inputs = .ok certificate
      ∧ identity = ⟨signerId, key, certificate⟩ := by
  obtain ⟨certificate, hcertificate, hmade⟩ := bind_eq_ok_iff.mp h
  cases hmade
  exact ⟨certificate, hcertificate, rfl⟩

/-- What creating comes to: a consistent key, a certificate issued for
it, and a directory in which both are stored. -/
theorem loadOrCreate_creates {bits : Nat} {draws : Nat → Nat}
    (habsent : tree.pathExists (keyPath dir signerId) = false)
    (h : loadOrCreate tree now dir signerId bits draws inputs = (.ok identity, after)) :
    ∃ key path, Rsa.generate? bits draws = some key
      ∧ issue signerId (.rsa key) inputs = .ok identity
      ∧ identity.save tree now dir = (.ok path, after) := by
  unfold loadOrCreate at h
  dsimp only at h
  rw [habsent] at h
  simp only [Bool.false_eq_true, if_false] at h
  split at h
  next => cases h
  next made hmade =>
    split at h
    -- created, certified and stored; any failure on the way would have been the answer
    next path left hsaved =>
      cases h
      unfold generate at hmade
      split at hmade
      next key hkey => exact ⟨key, path, hkey, hmade, hsaved⟩
      next => cases hmade
    next => cases h

end SigningIdentity

/-- Generated keys have been looked at before they leave. -/
theorem Rsa.isConsistent_of_generate? {bits : Nat} {draws : Nat → Nat} {key : Rsa.PrivateKey}
    (h : generate? bits draws = some key) : key.IsConsistent := by
  -- a round either makes a key that was checked or leaves it to the next one
  have hrounds : ∀ rounds start, generateFrom bits draws rounds start = some key →
      key.IsConsistent := by
    intro rounds
    induction rounds with
    | zero => exact nofun
    | succ rounds ih =>
      intro start hround
      obtain ⟨⟨p, start⟩, -, hround⟩ := Option.bind_eq_some_iff.mp hround
      obtain ⟨⟨q, start⟩, -, hround⟩ := Option.bind_eq_some_iff.mp hround
      dsimp only at hround
      split at hround
      next =>
        split at hround
        next hgood =>
          cases hround
          exact hgood.2.2
        next => exact ih start hround
      next => exact ih start hround
  unfold generate? at h
  split at h
  · cases h
  · exact hrounds _ _ h

namespace SigningIdentity

/-- A tree with nothing in it. -/
def emptyTree : FileTree := ⟨[], [], []⟩

/-- Draws whose first two are the primes of the sample key. -/
def sampleDraws (draw : Nat) : Nat := if draw = 0 then sampleKey.prime1 else sampleKey.prime2

private theorem hasPlainNames_emptyTree : HasPlainNames emptyTree "store/reseed" "a@b" := by
  have hmissing : ∀ path ∈ [keyPath "store/reseed" "a@b", certificatePath "store/reseed" "a@b"],
      ((emptyTree.makeDirectories "store/reseed").2.resolve path false).toOption.all
        (fun found => found.node = none) = true := by
    decide +kernel
  have hplain : ∀ path ∈ [keyPath "store/reseed" "a@b", certificatePath "store/reseed" "a@b"],
      (emptyTree.makeDirectories "store/reseed").2.IsPlainAt path := by
    intro path hpath found hfound
    have hnone := hmissing path hpath
    rw [hfound] at hnone
    rw [show found.node = none from of_decide_eq_true hnone]
    trivial
  exact ⟨hplain _ List.mem_cons_self, hplain _ (List.mem_cons_of_mem _ List.mem_cons_self)⟩

/-- In an empty tree a small identity can be created. -/
theorem exists_loadOrCreate_emptyTree :
    ∃ identity after, loadOrCreate emptyTree ⟨0⟩ "store/reseed" "a@b" 511 sampleDraws sampleInputs
      = (.ok identity, after) := by
  have hcreates : (loadOrCreate emptyTree ⟨0⟩ "store/reseed" "a@b" 511 sampleDraws
      sampleInputs).1.isOk = true := by
    decide +kernel
  rcases hcreated : loadOrCreate emptyTree ⟨0⟩ "store/reseed" "a@b" 511 sampleDraws sampleInputs
    with ⟨failure | identity, after⟩
  · rw [hcreated] at hcreates
    cases hcreates
  · exact ⟨identity, after, rfl⟩

theorem pathExists_emptyTree : emptyTree.pathExists (keyPath "store/reseed" "a@b") = false := by
  decide +kernel

end SigningIdentity

end RouterSeed

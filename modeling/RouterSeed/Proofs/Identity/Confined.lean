/-
A signer id never leads out of the directory it is looked up in.

Signer ids come from whoever made a container. Whatever one is made of,
the names of its files are single names, so a path to one of them is the
path of the directory with one component more (`isName_key`,
`components_join`). Looking up a certificate asks the tree for one path
only, and so tells nothing about any other file.
-/
import RouterSeed.Identity.Basic
import RouterSeed.Identity.Keystore
import RouterSeed.Proofs.Certificate.RoundTrip
import RouterSeed.Proofs.Identity.FileNames

namespace RouterSeed

namespace FileChange

/-- The path that a change is made at. -/
def path : FileChange → String
  | .makeDirectories path => path
  | .write path _ => path
  | .setMode path _ => path

@[simp] theorem path_write (path : String) (data : Bytes) :
    (FileChange.write path data).path = path := rfl

@[simp] theorem path_setMode (path : String) (mode : Nat) :
    (FileChange.setMode path mode).path = path := rfl

end FileChange

-- ============================================================== storing

/-- Apart from the directory itself, only the two files are changed. -/
theorem SigningIdentity.mem_storing {identity : SigningIdentity} {dir : String}
    {changes : List FileChange} (h : identity.storing dir = .ok changes) {change : FileChange}
    (hchange : change ∈ changes) :
    change = .makeDirectories dir ∨ change.path = keyPath dir identity.signerId
      ∨ change.path = certificatePath dir identity.signerId := by
  obtain ⟨block, -, h⟩ := bind_eq_ok_iff.mp h
  obtain ⟨text, -, h⟩ := bind_eq_ok_iff.mp h
  cases h
  simp only [List.mem_cons, List.not_mem_nil, or_false] at hchange
  rcases hchange with h | h | h | h
  · exact .inl h
  · exact .inr (.inl (by rw [h, FileChange.path_write]))
  · exact .inr (.inl (by rw [h, FileChange.path_setMode]))
  · exact .inr (.inr (by rw [h, FileChange.path_write]))

-- ============================================================ looking up

namespace Keystore

variable {store : Keystore} {t u : FileTree} {purpose signerId : String}

/-- A certificate file that is there may be no certificate, but it is not
missing. -/
private theorem readCertificate_ne_notFound (path : String) (text : Bytes) (missing : String) :
    readCertificate path text ≠ .error (.certificateNotFound missing) := by
  intro h
  unfold readCertificate at h
  split at h
  next =>
    unfold Certificate.ofBlock at h
    split at h
    · cases h
    · split at h <;> cases h
  next => cases h

/-- Where there is a file, what it says decides. -/
theorem certificate_of_isFile {text : Bytes}
    (hfile : t.isFile (store.certificatePath purpose signerId) = true)
    (hread : t.read (store.certificatePath purpose signerId) = .ok text) :
    store.certificate t purpose signerId
      = readCertificate (store.certificatePath purpose signerId) text := by
  unfold certificate
  dsimp only
  rw [hfile, hread]
  rfl

/-- A certificate that is found was read. -/
theorem exists_read_of_certificate {c : Certificate}
    (hfile : t.isFile (store.certificatePath purpose signerId) = true)
    (h : store.certificate t purpose signerId = .ok c) :
    ∃ text, t.read (store.certificatePath purpose signerId) = .ok text := by
  unfold certificate at h
  dsimp only at h
  rw [hfile] at h
  cases hread : t.read (store.certificatePath purpose signerId) with
  | ok text => exact ⟨text, rfl⟩
  | error fault =>
    rw [hread] at h
    cases h

/-- Where there is no file, that is the answer. -/
theorem certificate_of_not_isFile
    (h : t.isFile (store.certificatePath purpose signerId) = false) :
    store.certificate t purpose signerId
      = .error (.certificateNotFound (store.certificatePath purpose signerId)) := by
  unfold certificate
  dsimp only
  rw [h]
  rfl

/-- Only the file in its place matters. -/
theorem certificate_congr
    (hfile : t.isFile (store.certificatePath purpose signerId)
      = u.isFile (store.certificatePath purpose signerId))
    (hread : t.isFile (store.certificatePath purpose signerId) = true →
      t.read (store.certificatePath purpose signerId)
        = u.read (store.certificatePath purpose signerId)) :
    store.certificate t purpose signerId = store.certificate u purpose signerId := by
  cases ht : t.isFile (store.certificatePath purpose signerId) with
  | false => rw [certificate_of_not_isFile ht, certificate_of_not_isFile (hfile ▸ ht)]
  | true =>
    unfold certificate
    dsimp only
    rw [← hfile, hread ht]

/-- What is found missing is a file. One that is there but cannot be read
is another failure. -/
theorem certificate_eq_notFound_iff {missing : String} :
    store.certificate t purpose signerId = .error (.certificateNotFound missing)
      ↔ t.isFile (store.certificatePath purpose signerId) = false
        ∧ missing = store.certificatePath purpose signerId := by
  constructor
  · intro h
    cases ht : t.isFile (store.certificatePath purpose signerId) with
    | false =>
      rw [certificate_of_not_isFile ht] at h
      exact ⟨rfl, (Failure.certificateNotFound.inj (Except.error.inj h)).symm⟩
    | true =>
      unfold certificate at h
      dsimp only at h
      rw [ht, if_neg (by simp)] at h
      split at h
      · exact absurd h (readCertificate_ne_notFound _ _ _)
      · cases h
  · rintro ⟨ht, hmissing⟩
    rw [hmissing]
    exact certificate_of_not_isFile ht

end Keystore

-- ============================================================== verdict

open SignerFile in
/-- The stem of a signer's files is the last part between slashes that is
neither empty nor a dot, or the whole signer id with all slashes,
backslashes and dots replaced; so the files are directly in the directory
they are looked up in or stored in. What is found depends on that one
file only, and there is no certificate exactly if there is no file. -/
theorem signer_stays_in_directory :
    (∀ before after : List Char, '@' ∉ before →
        replaceAt before = before
          ∧ replaceAt (before ++ '@' :: after) = before ++ "_at_".toList ++ after)
      ∧ (∀ signerId : String,
        '/' ∉ (stem signerId).toList
          ∧ (∀ last, (((replaceAt signerId.toList).splitOn '/').filter fun part =>
                part ≠ [] ∧ part ≠ ['.']).getLast? = some last →
            last ≠ ['.', '.'] → (stem signerId).toList = last)
          ∧ ((∀ last, (((replaceAt signerId.toList).splitOn '/').filter fun part =>
                part ≠ [] ∧ part ≠ ['.']).getLast? = some last → last = ['.', '.']) →
            (stem signerId).toList = (replaceAt signerId.toList).map fun c =>
              if c = '/' ∨ c = '\\' ∨ c = '.' then '_' else c)
          ∧ ∀ name ∈ [stem signerId ++ ".crt", stem signerId ++ ".pem"],
            Path.components name = [name] ∧ Path.IsName name)
      ∧ (∀ (store : Keystore) (purpose signerId : String),
        Path.components (store.certificatePath purpose signerId)
          = Path.components (Path.join store.path purpose) ++ [stem signerId ++ ".crt"])
      ∧ (∀ (identity : SigningIdentity) (dir : String) (changes : List FileChange),
        identity.storing dir = .ok changes → ∀ change ∈ changes,
          change = .makeDirectories dir
            ∨ ∃ name ∈ [stem identity.signerId ++ ".crt", stem identity.signerId ++ ".pem"],
              Path.components change.path = Path.components dir ++ [name])
      ∧ ∀ (store : Keystore) (purpose signerId : String) (t u : FileTree),
        (t.isFile (store.certificatePath purpose signerId)
            = u.isFile (store.certificatePath purpose signerId) →
          (t.isFile (store.certificatePath purpose signerId) = true →
            t.read (store.certificatePath purpose signerId)
              = u.read (store.certificatePath purpose signerId)) →
          store.certificate t purpose signerId = store.certificate u purpose signerId)
        ∧ ((∃ missing, store.certificate t purpose signerId = .error (.certificateNotFound missing))
            ↔ t.isFile (store.certificatePath purpose signerId) = false) := by
  refine ⟨fun before after h => ⟨replaceAt_of_not_mem h, replaceAt_append h after⟩, ?stem, ?lookUp,
    ?stored, ?found⟩
  case stem =>
    intro signerId
    refine ⟨slash_not_mem_stem signerId, (stem_eq signerId).1, (stem_eq signerId).2, ?_⟩
    intro name hname
    have h : Path.IsName name := by
      simp only [List.mem_cons, List.not_mem_nil, or_false] at hname
      rcases hname with rfl | rfl
      · exact isName_certificate signerId
      · exact isName_key signerId
    exact ⟨Path.components_of_isName h, h⟩
  case lookUp =>
    intro store purpose signerId
    exact Path.components_join (isName_certificate signerId) _
  -- Storing names three paths: the directory, and the two files in it.
  case stored =>
    intro identity dir changes h change hchange
    rcases SigningIdentity.mem_storing h hchange with hdir | hkey | hcertificate
    · exact .inl hdir
    · rw [hkey]
      exact .inr ⟨_, List.mem_cons_of_mem _ List.mem_cons_self,
        Path.components_join (isName_key identity.signerId) dir⟩
    · rw [hcertificate]
      exact .inr ⟨_, List.mem_cons_self,
        Path.components_join (isName_certificate identity.signerId) dir⟩
  case found =>
    intro store purpose signerId t u
    refine ⟨Keystore.certificate_congr, ?_⟩
    constructor
    · rintro ⟨missing, h⟩
      exact (Keystore.certificate_eq_notFound_iff.mp h).1
    · intro h
      exact ⟨_, Keystore.certificate_of_not_isFile h⟩

/-- A tree that keeps nothing but a file outside of the keystore. -/
def strayTree : FileTree where
  nodes := [(["a_at_b.crt"], .file [1, 2, 3] FileTree.newFileMode ⟨0⟩)]
  workingDirectory := []

open SignerFile in
theorem signer_stays_in_directory_upwards :
    replaceAt ("../a".toList ++ '@' :: "b@c".toList) = "../a".toList ++ "_at_".toList ++ "b@c".toList
      ∧ (stem "../a@b").toList = "a_at_b".toList
      ∧ (stem "../x/..").toList = "___x___".toList
      ∧ (∃ (identity : SigningIdentity) (changes : List FileChange),
        identity.signerId = "../a@b" ∧ identity.storing "keys" = .ok changes
        ∧ ∀ change ∈ changes, change = .makeDirectories "keys"
          ∨ ∃ name ∈ [stem identity.signerId ++ ".crt", stem identity.signerId ++ ".pem"],
            Path.components change.path = Path.components "keys" ++ [name])
      ∧ Keystore.certificate ⟨"keys"⟩ strayTree "reseed" "../../a@b"
        = Keystore.certificate ⟨"keys"⟩ ⟨[], [], []⟩ "reseed" "../../a@b"
      ∧ ∃ missing, Keystore.certificate ⟨"keys"⟩ strayTree "reseed" "../../a@b"
        = .error (.certificateNotFound missing) := by
  obtain ⟨hat, hstem, -, hstored, hfound⟩ := signer_stays_in_directory
  refine ⟨(hat _ _ (by decide +kernel)).2, ?last, ?flattened, ?changes, ?unseen, ?missing⟩
  case last => exact (hstem "../a@b").2.1 _ (by decide +kernel) (by decide +kernel)
  case flattened =>
    refine ((hstem "../x/..").2.2.1 fun last hlast => ?_).trans (by decide +kernel)
    -- the last part of this name is two dots
    have hdots : (namedParts (replaceAt "../x/..".toList)).getLast? = some ['.', '.'] := by
      decide +kernel
    exact Option.some.inj (hlast.symm.trans hdots)
  case changes =>
    have hwritable : (PrivateForm.encodeRsa? sampleKey).isSome = true := by decide +kernel
    obtain ⟨form, hform⟩ := Option.isSome_iff_exists.mp hwritable
    obtain ⟨c, -, hshort⟩ := exists_issueCertificate_sampleKey
    have hstoring : ∃ changes, SigningIdentity.storing ⟨"../a@b", .rsa sampleKey, c⟩ "keys"
        = .ok changes := by
      unfold SigningIdentity.storing SigningIdentity.keyBlock SigningIdentity.certificateText
      dsimp only
      rw [hform, if_neg (Nat.not_lt.mpr hshort)]
      exact ⟨_, rfl⟩
    obtain ⟨changes, hchanges⟩ := hstoring
    exact ⟨_, changes, rfl, hchanges, hstored _ _ _ hchanges⟩
  case unseen =>
    refine (hfound ⟨"keys"⟩ "reseed" "../../a@b" strayTree ⟨[], [], []⟩).1 (by decide +kernel) ?_
    intro hfile
    revert hfile
    decide +kernel
  case missing =>
    exact (hfound ⟨"keys"⟩ "reseed" "../../a@b" strayTree ⟨[], [], []⟩).2.mpr (by decide +kernel)

end RouterSeed

/-
What a build leaves behind: nothing, or one file for each bundle.

Settings are read and bundles are built before anything is written, so a
build that fails on the way to its bundles is a plan without changes. One
that gets there writes its bundles under numbered names. The number in a
name is padded to three digits only if it is shorter, and is the number
whatever its length (`bundleFile_injective`); the names are then a list
without repetition, and `FileTree.writtenIn_changeAll` does the rest.

That every stored file is a container needs no look at the key or the
samples: a bundle is what was encoded (`Server.Assembles`), and whatever
is encoded can be read (`Su3.File.isCanonical_of_encode`).
-/
import RouterSeed.Command.Plan
import RouterSeed.Proofs.Files.Writes
import RouterSeed.Proofs.Identity.Stored
import RouterSeed.Proofs.Number.Digits
import RouterSeed.Proofs.Server.Whole
import RouterSeed.Proofs.Su3.Canonical

namespace RouterSeed

open Number (digits ofDigits)

-- =============================================================== names

/-- Zeros in front of digits do not count. -/
private theorem Number.ofDigits_zeros (radix count : Nat) (cs : List Char) :
    ofDigits radix (List.replicate count '0' ++ cs) = ofDigits radix cs := by
  induction count with
  | zero => rfl
  | succ count ih =>
    rw [List.replicate_succ, List.cons_append, ← ih]
    unfold ofDigits
    rw [List.foldl_cons]
    have hzero : 0 * radix + (digitValue? radix '0').getD 0 = 0 := by
      rw [Nat.zero_mul, Nat.zero_add]
      unfold digitValue?
      by_cases h : 0 < radix <;> simp [h]
    rw [hzero]

namespace Command

/-- The digits in the name of a bundle. -/
def bundleDigits (index : Nat) : List Char :=
  List.replicate (3 - (digits 10 index).length) '0' ++ digits 10 index

/-- A bundle's file name, character by character. -/
private theorem toList_bundleFile (index : Nat) :
    (bundleFile index).toList = "i2pseeds-".toList ++ bundleDigits index ++ ".su3".toList := by
  unfold bundleFile bundleDigits
  dsimp only
  simp only [String.toList_append, String.toList_ofList]

/-- Different numbers make different names, however long they are. -/
theorem bundleFile_injective {first second : Nat} (h : bundleFile first = bundleFile second) :
    first = second := by
  have hlists := congrArg String.toList h
  rw [toList_bundleFile, toList_bundleFile] at hlists
  have hdigits : bundleDigits first = bundleDigits second :=
    List.append_cancel_left (List.append_cancel_right hlists)
  have hnumbers := congrArg (ofDigits 10) hdigits
  unfold bundleDigits at hnumbers
  rwa [Number.ofDigits_zeros, Number.ofDigits_zeros,
    Number.ofDigits_digits (by decide) (by decide),
    Number.ofDigits_digits (by decide) (by decide)] at hnumbers

/-- It is a name and no path: there is no slash in it, and it is too long
for a dot or two. -/
theorem isName_bundleFile (index : Nat) : Path.IsName (bundleFile index) := by
  -- the first nine characters are always there
  have hlong : ∀ short : String, short.toList.length < 3 → bundleFile index ≠ short := by
    rintro short hshort rfl
    rw [toList_bundleFile, List.length_append, List.length_append] at hshort
    have : "i2pseeds-".toList.length = 9 := by decide
    omega
  constructor
  case slash =>
    rw [toList_bundleFile, List.mem_append, List.mem_append, not_or, not_or]
    refine ⟨⟨by decide, ?_⟩, by decide⟩
    unfold bundleDigits
    rw [List.mem_append, not_or]
    refine ⟨fun hzero => absurd (List.mem_replicate.mp hzero).2 (by decide), fun hdigit => ?_⟩
    have := Number.isDigit_of_mem_digits (by decide) (by decide) index _ hdigit
    revert this
    decide
  case not_empty => exact hlong _ (by decide)
  case not_dot => exact hlong _ (by decide)
  case not_dots => exact hlong _ (by decide)

/-- The path of the file of a bundle. -/
def bundlePath (out : String) (index : Nat) : String := Path.join out (bundleFile index)

/-- The bundles with the names of their files. -/
def namedBundles (bundles : List Bytes) : List (String × Bytes) :=
  bundles.mapIdx fun index bundle => (bundleFile index, bundle)

/-- Storing makes the directory first and then writes the files, one after
the other. -/
private theorem storingBundles_eq (out : String) (bundles : List Bytes) :
    storingBundles out bundles
      = .makeDirectories out :: FileTree.writing out (namedBundles bundles) := by
  unfold storingBundles FileTree.writing namedBundles
  congr 1
  apply List.ext_getElem?
  intro index
  rw [List.getElem?_map, List.getElem?_mapIdx, List.getElem?_mapIdx, Option.map_map]
  rfl

/-- Each bundle has the name of its index. -/
private theorem mem_namedBundles {bundles : List Bytes} {file : String × Bytes} :
    file ∈ namedBundles bundles
      ↔ ∃ index bundle, bundles[index]? = some bundle ∧ file = (bundleFile index, bundle) := by
  unfold namedBundles
  rw [List.mem_mapIdx]
  constructor
  · rintro ⟨index, hindex, rfl⟩
    exact ⟨index, bundles[index], List.getElem?_eq_getElem hindex, rfl⟩
  · rintro ⟨index, bundle, hbundle, rfl⟩
    obtain ⟨hindex, rfl⟩ := List.getElem?_eq_some_iff.mp hbundle
    exact ⟨index, hindex, rfl⟩

private theorem names_namedBundles (bundles : List Bytes) :
    (namedBundles bundles).map Prod.fst = (List.range bundles.length).map bundleFile := by
  unfold namedBundles
  apply List.ext_getElem (by simp)
  intro index _ _
  simp

/-- No name is used twice, whatever the number of bundles. -/
private theorem nodup_bundleFiles (count : Nat) : ((List.range count).map bundleFile).Nodup :=
  List.Nodup.map (fun _ _ => bundleFile_injective) List.nodup_range

-- ============================================================== storing

/-- The directory has a file of its own for each bundle, and everything
else is as it was, or is a directory that was made because there was none
to write to. -/
structure StoresBundles (before after : FileTree) (out : String) (bundles : List Bytes) : Prop where
  names : ((List.range bundles.length).map bundleFile).Nodup
  places : ∀ first < bundles.length, ∀ second < bundles.length, ∀ found other,
    after.resolve (bundlePath out first) true = .ok found →
      after.resolve (bundlePath out second) true = .ok other →
        found.location = other.location → first = second
  reads : ∀ (index : Nat) (bundle : Bytes), bundles[index]? = some bundle →
    after.read (bundlePath out index) = .ok bundle
  others : ∀ location, (∀ index < bundles.length, ∀ found,
      after.resolve (bundlePath out index) true = .ok found → found.location ≠ location) →
    after.nodeAt? location = before.nodeAt? location
      ∨ before.isDirectory out = false ∧ before.nodeAt? location = none
        ∧ after.nodeAt? location = some .directory

/-- No file of a bundle is a link, once the directory is there. -/
def HasNoBundleLinks (tree : FileTree) (out : String) : Prop :=
  ∀ index, (tree.makeDirectories out).2.NoLinkAt (bundlePath out index)

variable {tree after : FileTree} {out : String} {now : Instant} {bundles : List Bytes}

/-- The bundles are written into the directory once that is there. -/
theorem writtenIn_of_storingBundles (links : HasNoBundleLinks tree out)
    (h : tree.changeAll now (storingBundles out bundles) = (.ok (), after)) :
    ∃ made, tree.makeDirectories out = (.ok (), made)
      ∧ FileTree.WrittenIn out (namedBundles bundles) now made after := by
  rw [storingBundles_eq] at h
  obtain ⟨made, hmade, hwrites⟩ := FileTree.changeAll_cons_ok h
  have hdirectories : tree.makeDirectories out = (.ok (), made) := hmade
  -- Distinct names, no slashes and no links in the way are what writing into a directory
  -- asks for.
  refine ⟨made, hdirectories, FileTree.writtenIn_changeAll ?distinct ?names ?links hwrites⟩
  case distinct =>
    rw [names_namedBundles]
    exact nodup_bundleFiles _
  case names =>
    intro file hfile
    obtain ⟨index, bundle, -, rfl⟩ := mem_namedBundles.mp hfile
    exact isName_bundleFile index
  case links =>
    intro file hfile
    obtain ⟨index, bundle, -, rfl⟩ := mem_namedBundles.mp hfile
    have := links index
    rwa [hdirectories] at this

section

variable {made : FileTree} {index : Nat}

/-- A bundle is found under its own name. -/
private theorem holds_of_writtenIn
    (hwritten : FileTree.WrittenIn out (namedBundles bundles) now made after)
    {bundle : Bytes} (hbundle : bundles[index]? = some bundle) :
    ∃ place mode, place.getLast? = some (bundleFile index)
      ∧ after.Holds (bundlePath out index) place bundle mode now :=
  hwritten.holds _ (mem_namedBundles.mpr ⟨index, bundle, hbundle, rfl⟩)

/-- A bundle is at a place with the name of its file, wherever the
directory is. -/
private theorem getLast?_of_writtenIn
    (hwritten : FileTree.WrittenIn out (namedBundles bundles) now made after)
    (hindex : index < bundles.length) {found : FileTree.Place}
    (hfound : after.resolve (bundlePath out index) true = .ok found) :
    found.location.getLast? = some (bundleFile index) := by
  obtain ⟨place, mode, hlast, hfile⟩ :=
    holds_of_writtenIn hwritten (List.getElem?_eq_getElem hindex)
  rw [hfile.leads] at hfound
  cases hfound
  exact hlast

end

theorem storesBundles_of_changeAll (links : HasNoBundleLinks tree out)
    (h : tree.changeAll now (storingBundles out bundles) = (.ok (), after)) :
    StoresBundles tree after out bundles := by
  obtain ⟨made, hmade, hwritten⟩ := writtenIn_of_storingBundles links h
  constructor
  case names => exact nodup_bundleFiles _
  case places =>
    intro first hfirst second hsecond found other hfound hother hsame
    have hnames := getLast?_of_writtenIn hwritten hfirst hfound
    rw [hsame, getLast?_of_writtenIn hwritten hsecond hother] at hnames
    exact (bundleFile_injective (Option.some.inj hnames)).symm
  case reads =>
    intro index bundle hbundle
    obtain ⟨_, _, -, hfile⟩ := holds_of_writtenIn hwritten hbundle
    exact hfile.read
  -- A place that is none of the files' is as it was when the directory had been made.
  case others =>
    intro location hne
    have hsame : after.nodeAt? location = made.nodeAt? location := by
      apply hwritten.others location
      intro file hfile found hfound
      obtain ⟨index, bundle, hbundle, rfl⟩ := mem_namedBundles.mp hfile
      obtain ⟨hindex, -⟩ := List.getElem?_eq_some_iff.mp hbundle
      exact hne index hindex found hfound
    rw [hsame]
    exact FileTree.nodeAt?_makeDirectories hmade location

end Command

-- ============================================================= bundles

/-- What a rebuild answers with is what its tasks make, in their order. -/
theorem Server.assembles_of_rebuild {s : Server} {inputs : RebuildInputs}
    {generation : Generation} {around : Surroundings}
    (h : s.rebuild ⟨.new, .silent⟩ inputs = (.ok generation, around)) :
    s.Assembles inputs generation := by
  have hsteps := s.steps_oneByOne ⟨.new, .silent⟩ inputs
  rw [h] at hsteps
  have houtcome : (s.steps ⟨⟨.new, .silent⟩, .ready⟩ (s.oneByOne inputs)).phase.outcome?
      = some (.installed generation) := by
    rw [hsteps]
    rfl
  obtain ⟨infos, hcomplete⟩ := justifies_of_outcome? (s.knows_steps _ _) houtcome
  obtain ⟨earlier, later, hschedule, -⟩ :=
    (s.accounted_steps ⟨.new, .silent⟩ (CacheSession.claimedBy_run_new []) _).swapped generation
      (RebuildPhase.installed?_eq_some_iff.mpr houtcome)
  refine (s.isWhole_oneByOne inputs).assembles hcomplete ?_
  rw [hschedule]
  exact List.mem_append_right _ List.mem_cons_self

/-- Every bundle of a generation can be read, and is written as it is. -/
theorem Server.Assembles.reads {s : Server} {inputs : RebuildInputs} {generation : Generation}
    (h : s.Assembles inputs generation) {bundle : Bytes} (hbundle : bundle ∈ generation.bundles)
    (memory : bundle.length < 2 ^ 64) :
    ∃ file, Su3.File.decode bundle = .ok file ∧ file.encode = .ok bundle := by
  obtain ⟨identity, infos, -, -, -, hbundles⟩ := h
  have hmade : (Except.ok bundle : Except Failure Bytes) ∈ generation.bundles.map Except.ok :=
    List.mem_map_of_mem hbundle
  rw [hbundles] at hmade
  obtain ⟨index, -, hencoded⟩ := List.mem_map.mp hmade
  obtain ⟨file, -, hencode⟩ := bind_eq_ok_iff.mp hencoded
  obtain ⟨hcontainer, hcanonical⟩ := Su3.File.isCanonical_of_encode hencode memory
  refine ⟨_, Su3.File.decode_of_isContainer hcontainer memory, ?_⟩
  rw [Su3.File.encode_contents hcontainer,
    (Su3.File.canonicalForm_eq_self_iff hcontainer).mpr hcanonical]

namespace Command

-- ========================================================== the command

/-- What the rebuild of a build takes from outside. -/
def rebuildInputs (tree : FileTree) (inputs : CommandInputs) : RebuildInputs :=
  ⟨tree, inputs.now, inputs.task, inputs.now⟩

/-- What it comes to. -/
def rebuilt (server : Server) (tree : FileTree) (inputs : CommandInputs) :
    Except Failure Generation :=
  (server.rebuild ⟨.new, .silent⟩ (rebuildInputs tree inputs)).1

variable {config : String} {inputs : CommandInputs} {settings : Config}

/-- Without settings nothing is decided but the refusal. -/
theorem perform_build_of_unloaded {failure : Failure} (h : Config.load tree config = .error failure) :
    perform (.build config out) tree inputs = (⟨"", some (.cause failure)⟩, tree) := by
  unfold perform plan buildPlan
  dsimp only
  rw [h]
  rfl

/-- With settings the rebuild decides. -/
private theorem buildPlan_of_loaded (h : Config.load tree config = .ok settings) (out : String) :
    buildPlan tree config out inputs
      = match rebuilt (.ofConfig settings tree inputs.issue) tree inputs with
        | .error failure => refusal failure
        | .ok generation => .write "" (storingBundles out generation.bundles) "" := by
  unfold buildPlan rebuilt rebuildInputs
  rw [h]
  dsimp only
  generalize Server.rebuild _ _ _ = outcome
  obtain ⟨failure | generation, around⟩ := outcome <;> rfl

/-- A rebuild that fails leaves no changes to carry out. -/
theorem perform_build_of_unbuilt {failure : Failure} (h : Config.load tree config = .ok settings)
    (hrebuilt : rebuilt (.ofConfig settings tree inputs.issue) tree inputs = .error failure) :
    perform (.build config out) tree inputs = (⟨"", some (.cause failure)⟩, tree) := by
  unfold perform plan
  dsimp only
  rw [buildPlan_of_loaded h, hrebuilt]
  rfl

/-- A rebuild that ends well leaves the storing of its generation. -/
theorem perform_build_of_built {generation : Generation} (h : Config.load tree config = .ok settings)
    (hrebuilt : rebuilt (.ofConfig settings tree inputs.issue) tree inputs = .ok generation) :
    perform (.build config out) tree inputs
      = (Plan.write "" (storingBundles out generation.bundles) "").perform tree inputs.now := by
  unfold perform plan
  dsimp only
  rw [buildPlan_of_loaded h, hrebuilt]

/-- A build that comes to its end has stored what it built. -/
private theorem changeAll_of_perform_build {generation : Generation} {result : CommandResult}
    (h : Config.load tree config = .ok settings)
    (hrebuilt : rebuilt (.ofConfig settings tree inputs.issue) tree inputs = .ok generation)
    (hperform : perform (.build config out) tree inputs = (result, after))
    (done : result.failure = none) :
    tree.changeAll inputs.now (storingBundles out generation.bundles) = (.ok (), after) := by
  rw [perform_build_of_built h hrebuilt] at hperform
  unfold Plan.perform at hperform
  dsimp only at hperform
  split at hperform
  next left hchanges =>
    cases hperform
    exact hchanges
  next =>
    cases hperform
    cases done

/-- A build that cannot build touches nothing, and one that is done has
lost no bundle.

Settings that cannot be loaded and a rebuild that fails leave every file
and directory as it is. A build that reports success has loaded its
settings and made the bundles of all tasks. However many they are, each of
them is now the content of a file of its own, under a name of its own, and
is read as a container, if 64 bits can count its bytes, as they can for
any in memory. Nothing else has changed, as long as no link in the
directory has the name of a bundle. -/
theorem build_stores_all_or_nothing (tree : FileTree) (config out : String)
    (inputs : CommandInputs) :
    (∀ failure, Config.load tree config = .error failure →
        perform (.build config out) tree inputs = (⟨"", some (.cause failure)⟩, tree))
      ∧ (∀ settings failure, Config.load tree config = .ok settings →
        rebuilt (.ofConfig settings tree inputs.issue) tree inputs = .error failure →
          perform (.build config out) tree inputs = (⟨"", some (.cause failure)⟩, tree))
      ∧ (HasNoBundleLinks tree out → ∀ result after,
        perform (.build config out) tree inputs = (result, after) → result.failure = none →
          ∃ settings generation, Config.load tree config = .ok settings
            ∧ rebuilt (.ofConfig settings tree inputs.issue) tree inputs = .ok generation
            ∧ (Server.ofConfig settings tree inputs.issue).Assembles (rebuildInputs tree inputs)
                generation
            ∧ StoresBundles tree after out generation.bundles
            ∧ ∀ bundle ∈ generation.bundles, bundle.length < 2 ^ 64 →
                ∃ file, Su3.File.decode bundle = .ok file ∧ file.encode = .ok bundle) := by
  refine ⟨fun _ => perform_build_of_unloaded, fun _ _ => perform_build_of_unbuilt, ?stored⟩
  case stored =>
    intro links result after hperform hdone
    -- The first failure on the way decides; only the last case comes to storing.
    cases hload : Config.load tree config with
    | error failure =>
      rw [perform_build_of_unloaded hload] at hperform
      cases hperform
      cases hdone
    | ok settings =>
      cases hrebuilt : rebuilt (.ofConfig settings tree inputs.issue) tree inputs with
      | error failure =>
        rw [perform_build_of_unbuilt hload hrebuilt] at hperform
        cases hperform
        cases hdone
      | ok generation =>
        have hassembles := Server.assembles_of_rebuild (Prod.ext hrebuilt rfl)
        exact ⟨settings, generation, rfl, hrebuilt, hassembles,
          storesBundles_of_changeAll links
            (changeAll_of_perform_build hload hrebuilt hperform hdone),
          fun bundle hbundle memory => hassembles.reads hbundle memory⟩

-- ========================================================= a small build

/-- Settings for two bundles, signed with the key beside them. -/
def smallSettings : Config :=
  { Config.default with
    netDb := "db"
    infosPerBundle := 1
    bundleCount := 2
    signer := "a@b"
    signingKey := some "k.pem"
    signatureType := .rsaSha256 }

/-- The sample key and a certificate that was issued for it. -/
def smallKeyText : Bytes :=
  Pem.encode ⟨SigningIdentity.rsaKeyTag, (PrivateForm.encodeRsa? sampleKey).getD []⟩
    ++ ((issueCertificate "a@b" (.rsa sampleKey) sampleInputs).toOption.map
      Certificate.toPem).getD []

/-- Two files of settings, one of them without any, a key file, and a
netDb without descriptors. -/
def treeWithKey (keyText : Bytes) : FileTree where
  nodes :=
    [(["s.toml"], .file (Bytes.ofString
        ("netdb = 'db'\nnum_ri = 1\nnum_su3 = 2\nsigner = 'a@b'\nsigning_key = 'k.pem'\n"
          ++ "signature_type = 4\n")) 0o644 ⟨0⟩),
      (["bare.toml"], .file [] 0o644 ⟨0⟩),
      (["k.pem"], .file keyText 0o600 ⟨0⟩),
      (["db"], .directory)]
  workingDirectory := []

private theorem read_treeWithKey (keyText : Bytes) :
    (treeWithKey keyText).read "k.pem" = .ok keyText := by
  have hnames : Path.names "k.pem" = ["k.pem"] := by decide +kernel
  have hresolve : (treeWithKey keyText).resolve "k.pem" true
      = .ok ⟨["k.pem"], some (.file keyText 0o600 ⟨0⟩)⟩ := by
    rw [FileTree.resolve_of_names hnames (by decide +kernel)]
    rfl
  exact FileTree.Holds.read ⟨by decide +kernel, hresolve, rfl⟩

def smallBuildTree : FileTree := treeWithKey smallKeyText

def smallBuildInputs : CommandInputs := ⟨sampleInputs, id, ⟨0⟩, fun _ => ⟨7, id, id⟩⟩

/-- Settings with a key, settings without one, and none. -/
theorem load_smallBuildTree :
    Config.load smallBuildTree "s.toml" = .ok smallSettings
      ∧ Config.load smallBuildTree "bare.toml" = .ok Config.default
      ∧ Config.load smallBuildTree "t.toml" = .error (.io .notFound) := by
  decide +kernel

/-- The settings name an identity with the sample key. -/
private theorem exists_ofConfig_smallSettings :
    ∃ c, Server.ofConfig smallSettings smallBuildTree smallBuildInputs.issue
      = ⟨smallSettings, some ⟨"a@b", .rsa sampleKey, c⟩⟩ := by
  have hwritable : (PrivateForm.encodeRsa? sampleKey).isSome = true := by decide +kernel
  obtain ⟨form, hform⟩ := Option.isSome_iff_exists.mp hwritable
  obtain ⟨c, hc, hshort⟩ := exists_issueCertificate_sampleKey
  have hread : smallBuildTree.read "k.pem"
      = .ok (Pem.encode ⟨SigningIdentity.rsaKeyTag, form⟩ ++ c.toPem) := by
    unfold smallBuildTree
    rw [read_treeWithKey]
    unfold smallKeyText
    rw [hform, hc, Option.getD_some, Except.toOption, Option.map_some, Option.getD_some]
  -- the key file is read back, so the server has its identity
  have hloads := SigningIdentity.load_of_read hread hform isConsistent_sampleKey
    (readable_of_issueCertificate hc) hshort "a@b" smallBuildInputs.issue
  have hkey : smallSettings.signingKey = some "k.pem" := rfl
  have hsigner : smallSettings.signer = "a@b" := rfl
  refine ⟨c, ?_⟩
  unfold Server.ofConfig Server.configuredIdentity?
  rw [hkey, Option.bind_some, hsigner, hloads]
  rfl

end Command

/-- A certificate plays no part in a rebuild. -/
theorem Server.rebuild_of_certificate (config : Config) (signerId : String) (key : PrivateKey)
    (c other : Certificate) :
    Server.rebuild ⟨config, some ⟨signerId, key, c⟩⟩
      = Server.rebuild ⟨config, some ⟨signerId, key, other⟩⟩ := by
  -- a step looks at the key and the signer id only
  have hstep : Server.step ⟨config, some ⟨signerId, key, c⟩⟩
      = Server.step ⟨config, some ⟨signerId, key, other⟩⟩ := by
    funext r event
    obtain ⟨around, phase⟩ := r
    cases event with
    | begin => cases phase <;> rfl
    | build index inputs =>
      cases phase with
      | building infos slots failure => cases failure <;> rfl
      | _ => rfl
    | _ => rfl
  funext around inputs
  unfold rebuild steps
  rw [hstep]
  rfl

namespace Command

/-- The certificate of an identity has no part in a rebuild. -/
private theorem rebuilt_of_certificate (config : Config) (signerId : String) (key : PrivateKey)
    (c other : Certificate) (tree : FileTree) (inputs : CommandInputs) :
    rebuilt ⟨config, some ⟨signerId, key, c⟩⟩ tree inputs
      = rebuilt ⟨config, some ⟨signerId, key, other⟩⟩ tree inputs := by
  unfold rebuilt
  rw [Server.rebuild_of_certificate _ _ _ c other]

/-- The server of the settings, but for the certificate. -/
def smallBuildServer : Server :=
  ⟨smallSettings, some ⟨"a@b", .rsa sampleKey, smallIdentity.certificate⟩⟩

private theorem rebuilt_smallSettings :
    rebuilt (.ofConfig smallSettings smallBuildTree smallBuildInputs.issue) smallBuildTree
        smallBuildInputs
      = rebuilt smallBuildServer smallBuildTree smallBuildInputs := by
  obtain ⟨c, hserver⟩ := exists_ofConfig_smallSettings
  rw [hserver]
  exact rebuilt_of_certificate _ _ _ _ _ _ _

/-- A small server builds two bundles, which can be stored. -/
private theorem exists_rebuilt_smallBuildServer :
    ∃ generation first second after,
      rebuilt smallBuildServer smallBuildTree smallBuildInputs = .ok generation
        ∧ generation.bundles = [first, second]
        ∧ smallBuildTree.changeAll smallBuildInputs.now (storingBundles "out" generation.bundles)
          = (.ok (), after) := by
  have hbuilds : (rebuilt smallBuildServer smallBuildTree smallBuildInputs).toOption.any
      (fun generation => generation.bundles.length = 2
        ∧ (smallBuildTree.changeAll smallBuildInputs.now
          (storingBundles "out" generation.bundles)).1 = .ok ()) = true := by
    decide +kernel
  generalize rebuilt smallBuildServer smallBuildTree smallBuildInputs = built at hbuilds
  cases built with
  | error failure => cases hbuilds
  | ok generation =>
    obtain ⟨hlength, hchanges⟩ := of_decide_eq_true hbuilds
    obtain ⟨first, second, hbundles⟩ := List.length_eq_two.mp hlength
    exact ⟨generation, first, second, _, rfl, hbundles, Prod.ext hchanges rfl⟩

theorem hasNoBundleLinks_smallBuildTree : HasNoBundleLinks smallBuildTree "out" := by
  have hnodes : ∀ entry ∈ (smallBuildTree.makeDirectories "out").2.nodes,
      entry.2.isLink = false := by
    decide +kernel
  exact fun index => FileTree.noLinkAt_of_nodes hnodes _

/-- One run for each of the three ways a build can go. -/
theorem build_stores_all_or_nothing_smallBuild :
    perform (.build "t.toml" "out") smallBuildTree smallBuildInputs
        = (⟨"", some (.cause (.io .notFound))⟩, smallBuildTree)
      ∧ perform (.build "bare.toml" "out") smallBuildTree smallBuildInputs
        = (⟨"", some (.cause .missingSigningKey)⟩, smallBuildTree)
      ∧ ∃ after first second,
        perform (.build "s.toml" "out") smallBuildTree smallBuildInputs = (⟨"", none⟩, after)
          ∧ StoresBundles smallBuildTree after "out" [first, second]
          ∧ after.read "out/i2pseeds-001.su3" = .ok second := by
  obtain ⟨hsettings, hbare, habsent⟩ := load_smallBuildTree
  obtain ⟨generation, first, second, after, hbuilt, hbundles, hchanges⟩ :=
    exists_rebuilt_smallBuildServer
  have hkeyless : rebuilt (.ofConfig .default smallBuildTree smallBuildInputs.issue)
      smallBuildTree smallBuildInputs = .error .missingSigningKey := by
    decide +kernel
  have hrebuilt := rebuilt_smallSettings.trans hbuilt
  have hperform : perform (.build "s.toml" "out") smallBuildTree smallBuildInputs
      = (⟨"", none⟩, after) := by
    rw [perform_build_of_built hsettings hrebuilt]
    unfold Plan.perform
    dsimp only
    rw [hchanges]
    rfl
  obtain ⟨hunloaded, -⟩ := build_stores_all_or_nothing smallBuildTree "t.toml" "out" smallBuildInputs
  obtain ⟨-, hunbuilt, -⟩ :=
    build_stores_all_or_nothing smallBuildTree "bare.toml" "out" smallBuildInputs
  obtain ⟨-, -, hstored⟩ := build_stores_all_or_nothing smallBuildTree "s.toml" "out" smallBuildInputs
  obtain ⟨settings, made, hload, hmade, -, hstores, -⟩ :=
    hstored hasNoBundleLinks_smallBuildTree _ _ hperform rfl
  cases hsettings.symm.trans hload
  cases hrebuilt.symm.trans hmade
  rw [hbundles] at hstores
  have hpath : bundlePath "out" 1 = "out/i2pseeds-001.su3" := by decide +kernel
  exact ⟨hunloaded _ habsent, hunbuilt _ _ hbare hkeyless, after, first, second, hperform, hstores,
    hpath ▸ hstores.reads 1 second rfl⟩

end Command

end RouterSeed

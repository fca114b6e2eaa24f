/-
Saved settings load back, whole or in part.

A file of settings is a document of lines with keys (`toToml_eq`), so
what is read of it, or of a part of its lines, is what the TOML proofs
say: the settings at their keys. Each of the eight look-ups then gives
the setting that was saved, or nothing where its line was left out, and
the default takes its place (`ofItems_kept`).

The two ways in which saving fails come one after the other. A number
that a TOML file cannot hold is found while the text is made, before
there is anything to write.
-/
import RouterSeed.Config
import RouterSeed.Proofs.Files.Rooted
import RouterSeed.Proofs.Text.Utf8
import RouterSeed.Proofs.Toml.Assignments

namespace RouterSeed

open Toml (Scalar assignmentLine IsEntry itemOf)

/-- A whole number of seconds is not rounded. -/
theorem Duration.rounded_ofSeconds (s : Nat) : (ofSeconds s).rounded = s := by
  simp only [rounded, ofSeconds]
  omega

namespace Config

-- ============================================================== entries

/-- The settings at their keys, in the order in which they are written. A
path that is not there has no key. -/
def entries (c : Config) : List (String × Scalar) :=
  [(netDbKey, .text c.netDb), (maxAgeKey, .number c.maxAge.rounded),
    (infosPerBundleKey, .number c.infosPerBundle), (bundleCountKey, .number c.bundleCount),
    (rebuildIntervalKey, .number c.rebuildInterval.rounded), (signerKey, .text c.signer)]
  ++ (c.signingKey.map fun path => (signingKeyKey, Scalar.text path)).toList
  ++ [(signatureTypeKey, .number c.signatureType.code.toNat)]

/-- The text of a file with some of the keys. -/
def textOf (c : Config) (keep : String → Bool) : String :=
  String.ofList ((c.entries.filter fun entry => keep entry.1).flatMap assignmentLine)

/-- A TOML file can hold the numbers. -/
structure FitsToml (c : Config) : Prop where
  infosPerBundle : c.infosPerBundle ≤ maxNumber
  bundleCount : c.bundleCount ≤ maxNumber
  maxAge : c.maxAge.seconds ≤ maxNumber
  rebuildInterval : c.rebuildInterval.seconds ≤ maxNumber

/-- Durations are whole seconds, and the signature type is the one of its
number. -/
structure IsWhole (c : Config) : Prop where
  maxAge : c.maxAge = .ofSeconds c.maxAge.seconds
  rebuildInterval : c.rebuildInterval = .ofSeconds c.rebuildInterval.seconds
  signatureType : c.signatureType.Canonical

/-- The settings with defaults in place of all but some. -/
def kept (c : Config) (keep : String → Bool) : Config where
  netDb := if keep netDbKey then c.netDb else default.netDb
  maxAge := if keep maxAgeKey then c.maxAge else default.maxAge
  infosPerBundle := if keep infosPerBundleKey then c.infosPerBundle else default.infosPerBundle
  bundleCount := if keep bundleCountKey then c.bundleCount else default.bundleCount
  rebuildInterval := if keep rebuildIntervalKey then c.rebuildInterval else default.rebuildInterval
  signer := if keep signerKey then c.signer else default.signer
  signingKey := if keep signingKeyKey then c.signingKey else default.signingKey
  signatureType := if keep signatureTypeKey then c.signatureType else default.signatureType

variable {c : Config}

private theorem IsWhole.rounded_maxAge (h : c.IsWhole) : c.maxAge.rounded = c.maxAge.seconds := by
  rw [h.maxAge, Duration.rounded_ofSeconds, Duration.seconds_ofSeconds]

private theorem IsWhole.rounded_rebuildInterval (h : c.IsWhole) :
    c.rebuildInterval.rounded = c.rebuildInterval.seconds := by
  rw [h.rebuildInterval, Duration.rounded_ofSeconds, Duration.seconds_ofSeconds]

/-- All keys, in the order in which they are written. -/
def keys : List String :=
  [netDbKey, maxAgeKey, infosPerBundleKey, bundleCountKey, rebuildIntervalKey, signerKey,
    signingKeyKey, signatureTypeKey]

/-- The entries have the keys of the settings, in their order; only the key
file may be missing. -/
private theorem keys_entries (c : Config) : (c.entries.map Prod.fst).Sublist keys := by
  unfold entries
  cases c.signingKey with
  | none =>
    show [netDbKey, maxAgeKey, infosPerBundleKey, bundleCountKey, rebuildIntervalKey, signerKey,
      signatureTypeKey].Sublist keys
    decide
  | some path =>
    show [netDbKey, maxAgeKey, infosPerBundleKey, bundleCountKey, rebuildIntervalKey, signerKey,
      signingKeyKey, signatureTypeKey].Sublist keys
    decide

private theorem nodup_keys_entries (c : Config) : (c.entries.map Prod.fst).Nodup :=
  c.keys_entries.nodup (by decide)

/-- Every line of a file of settings can be read. -/
theorem isEntry_of_mem (fits : c.FitsToml) (whole : c.IsWhole) {entry : String × Scalar}
    (h : entry ∈ c.entries) : IsEntry entry where
  bare := by
    have hall : ∀ key ∈ keys, Toml.IsBareKey key := by decide
    exact hall _ (c.keys_entries.subset (List.mem_map_of_mem h))
  fits := by
    have hcode := c.signatureType.code.toNat_lt
    have hfits : ∀ n ≤ maxNumber, (Scalar.number n).Fits := fun n hn => Nat.lt_succ_of_le hn
    unfold entries at h
    simp only [List.mem_append, List.mem_cons, List.not_mem_nil, or_false, Option.mem_toList,
      Option.map_eq_some_iff] at h
    -- texts always fit; of the numbers four have their bound from the settings and the
    -- signature type from its width
    rcases h with ((rfl | rfl | rfl | rfl | rfl | rfl) | ⟨path, -, rfl⟩) | rfl
    · trivial
    · exact hfits _ (whole.rounded_maxAge ▸ fits.maxAge)
    · exact hfits _ fits.infosPerBundle
    · exact hfits _ fits.bundleCount
    · exact hfits _ (whole.rounded_rebuildInterval ▸ fits.rebuildInterval)
    · trivial
    · trivial
    · refine hfits _ ?_
      unfold maxNumber
      omega

-- ============================================================== look-ups

/-- With distinct keys, an entry is what is found under its key. -/
private theorem lookup_of_mem {entries : List (String × Scalar)} {key : String} {s : Scalar}
    (distinct : (entries.map Prod.fst).Nodup) (h : (key, s) ∈ entries) :
    entries.lookup key = some s := by
  obtain ⟨before, after, rfl⟩ := List.append_of_mem h
  rw [List.map_append, List.map_cons] at distinct
  rw [List.lookup_eq_some_iff]
  refine ⟨before, after, rfl, fun other hother => bne_iff_ne.mpr ?_⟩
  exact ((List.nodup_append.mp distinct).2.2 _ (List.mem_map_of_mem hother) _
    List.mem_cons_self).symm

/-- What is kept is found as before, and what is not kept is not found. -/
private theorem lookup_filter (entries : List (String × Scalar)) (keep : String → Bool)
    (key : String) :
    (entries.filter fun entry => keep entry.1).lookup key
      = if keep key then entries.lookup key else none := by
  induction entries with
  | nil => simp
  | cons entry entries ih =>
    obtain ⟨name, s⟩ := entry
    rw [List.filter_cons, List.lookup_cons]
    by_cases hsame : key = name
    · subst hsame
      cases hkeep : keep key <;> simp [hkeep, ih]
    · rw [beq_false_of_ne hsame]
      cases keep name <;> simp [List.lookup_cons, beq_false_of_ne hsame, ih]

/-- The key file is the one entry that may be absent. -/
private theorem lookup_signingKey (c : Config) :
    c.entries.lookup signingKeyKey = c.signingKey.map Scalar.text := by
  cases hkey : c.signingKey with
  | none =>
    have hother : ∀ key ∈ keys.erase signingKeyKey, signingKeyKey != key := by decide
    have hkeys : c.entries.map Prod.fst = keys.erase signingKeyKey := by
      unfold entries
      rw [hkey]
      rfl
    rw [Option.map_none, List.lookup_eq_none_iff]
    intro entry hentry
    exact hother _ (hkeys ▸ List.mem_map_of_mem hentry)
  | some path =>
    refine lookup_of_mem c.nodup_keys_entries ?_
    simp [entries, hkey]

/-- A text is read from its entry, if there is one. -/
private theorem text?_itemOf {entries : List (String × Scalar)} {key : String} {t : Option String}
    (h : entries.lookup key = t.map Scalar.text) : text? (entries.map itemOf) key = .ok t := by
  unfold text? item?
  rw [Toml.at?_itemOf, h]
  cases t <;> rfl

/-- A number that was written is found, as long as it is within the bound of
its setting. -/
private theorem number?_itemOf {entries : List (String × Scalar)} {bound : Nat} {key : String}
    {n : Option Nat} (h : entries.lookup key = n.map Scalar.number) (hbound : ∀ m ∈ n, m ≤ bound) :
    number? (entries.map itemOf) bound key = .ok n := by
  unfold number? item?
  rw [Toml.at?_itemOf, h]
  cases n with
  | none => rfl
  | some m =>
    show (if 0 ≤ (m : Int) ∧ (m : Int).toNat ≤ bound then _ else _) = _
    rw [Int.toNat_natCast, if_pos ⟨Int.natCast_nonneg m, hbound m rfl⟩]

-- ============================================================== reading

/-- The items of a file with some of the keys. -/
def itemsOf (c : Config) (keep : String → Bool) : Toml.Items :=
  (c.entries.filter fun entry => keep entry.1).map itemOf

section

variable (keep : String → Bool) {key : String} {n bound : Nat}

/-- A text is found among the items that were kept. -/
private theorem text?_itemsOf {t : Option String} (h : c.entries.lookup key = t.map Scalar.text) :
    text? (c.itemsOf keep) key = .ok (if keep key then t else none) := by
  apply text?_itemOf
  rw [lookup_filter, h]
  split <;> rfl

/-- A number is found among the items that were kept. -/
private theorem number?_itemsOf (h : (key, Scalar.number n) ∈ c.entries) (hbound : n ≤ bound) :
    number? (c.itemsOf keep) bound key = .ok (if keep key then some n else none) := by
  apply number?_itemOf
  · rw [lookup_filter, lookup_of_mem c.nodup_keys_entries h]
    split <;> rfl
  · intro m hm
    split at hm
    · cases hm
      exact hbound
    · cases hm

/-- A setting that is left out has its default. -/
private theorem getD_ite {α : Type} (b : Bool) (a d : α) :
    (if b then some a else none).getD d = if b then a else d := by
  cases b <;> rfl

private theorem getD_map_ite {α β : Type} (f : α → β) (b : Bool) (a : α) (d : β) :
    ((if b then some a else none).map f).getD d = if b then f a else d := by
  cases b <;> rfl

/-- The settings in a part of a file are the ones that were saved, and
defaults in place of the others. -/
theorem ofItems_itemsOf (fits : c.FitsToml) (whole : c.IsWhole) :
    ofItems (c.itemsOf keep) = .ok (c.kept keep) := by
  have hnetDb : c.entries.lookup netDbKey = (some c.netDb).map Scalar.text :=
    lookup_of_mem c.nodup_keys_entries (by simp [entries])
  have hmaxAge : (maxAgeKey, Scalar.number c.maxAge.rounded) ∈ c.entries := by simp [entries]
  have hinfos : (infosPerBundleKey, Scalar.number c.infosPerBundle) ∈ c.entries := by simp [entries]
  have hcount : (bundleCountKey, Scalar.number c.bundleCount) ∈ c.entries := by simp [entries]
  have hinterval : (rebuildIntervalKey, Scalar.number c.rebuildInterval.rounded) ∈ c.entries := by
    simp [entries]
  have hsigner : c.entries.lookup signerKey = (some c.signer).map Scalar.text :=
    lookup_of_mem c.nodup_keys_entries (by simp [entries])
  have htype : (signatureTypeKey, Scalar.number c.signatureType.code.toNat) ∈ c.entries := by
    simp [entries]
  have hage := whole.rounded_maxAge ▸ fits.maxAge
  have hbetween := whole.rounded_rebuildInterval ▸ fits.rebuildInterval
  have hcode : c.signatureType.code.toNat ≤ maxSignatureType :=
    Nat.le_of_lt_succ c.signatureType.code.toNat_lt
  have hsame : Su3.SignatureType.ofCode (UInt16.ofNat c.signatureType.code.toNat)
      = c.signatureType := by
    rw [UInt16.ofNat_toNat]
    exact whole.signatureType
  -- Each setting is read from its own key, and falls back to its default where the key was
  -- not kept.
  unfold ofItems
  rw [text?_itemsOf keep hnetDb, number?_itemsOf keep hmaxAge hage,
    number?_itemsOf keep hinfos fits.infosPerBundle, number?_itemsOf keep hcount fits.bundleCount,
    number?_itemsOf keep hinterval hbetween, text?_itemsOf keep hsigner,
    text?_itemsOf keep c.lookup_signingKey, number?_itemsOf keep htype hcode]
  dsimp only [bind, Except.bind]
  rw [getD_ite, getD_map_ite, getD_ite, getD_ite, getD_map_ite, getD_ite, getD_map_ite, hsame,
    whole.rounded_maxAge, whole.rounded_rebuildInterval, ← whole.maxAge, ← whole.rebuildInterval]
  rfl

/-- A part of a saved file is loaded. -/
theorem load_textOf (fits : c.FitsToml) (whole : c.IsWhole) {tree : FileTree} {path : String}
    (h : tree.read path = .ok (Bytes.ofString (c.textOf keep))) :
    load tree path = .ok (c.kept keep) := by
  have hparse : Toml.parse? (c.textOf keep) = some (c.itemsOf keep) := by
    apply Toml.parse?_document
    · intro entry hentry
      exact isEntry_of_mem fits whole (List.mem_filter.mp hentry).1
    · exact (List.filter_sublist.map Prod.fst).nodup c.nodup_keys_entries
  unfold load
  rw [h]
  dsimp only
  rw [Text.decode?_ofString]
  dsimp only
  unfold ofToml
  rw [hparse]
  dsimp only
  rw [ofItems_itemsOf keep fits whole]
  rfl

end

-- ============================================================== writing

private theorem textLine_eq (key text : String) :
    textLine key text = .ok (String.ofList (assignmentLine (key, .text text))) := by
  unfold textLine assignmentLine
  rw [Except.ok.injEq, ← String.toList_inj]
  simp [Scalar.written]

private theorem numberLine_of_le {n : Nat} (h : n ≤ maxNumber) (key : String) :
    numberLine key n = .ok (String.ofList (assignmentLine (key, .number n))) := by
  unfold numberLine assignmentLine
  rw [if_pos h, Except.ok.injEq, ← String.toList_inj]
  simp [Scalar.written]

private theorem numberLine_of_lt {n : Nat} (h : maxNumber < n) (key : String) :
    numberLine key n = .error (.outOfRange key) :=
  if_neg (Nat.not_le.mpr h)

/-- The lines of a file of settings, where they can be made. -/
def lines (c : Config) : List (Except TomlFault String) :=
  [textLine netDbKey c.netDb, numberLine maxAgeKey c.maxAge.rounded,
    numberLine infosPerBundleKey c.infosPerBundle, numberLine bundleCountKey c.bundleCount,
    numberLine rebuildIntervalKey c.rebuildInterval.rounded, textLine signerKey c.signer,
    match c.signingKey with
    | some path => textLine signingKeyKey path
    | none => .ok "",
    numberLine signatureTypeKey c.signatureType.code.toNat]

private theorem toToml_eq (c : Config) : c.toToml = (do
    let lines ← c.lines.mapM id
    .ok (String.join lines)) := rfl

private theorem join_map_ofList {α : Type} (f : α → List Char) (l : List α) :
    String.join (l.map fun a => String.ofList (f a)) = String.ofList (l.flatMap f) := by
  rw [← String.toList_inj]
  simp [List.flatMap, Function.comp_def]

/-- What is written for settings that a TOML file can hold are their
lines. -/
theorem toToml_of_fits (fits : c.FitsToml) (whole : c.IsWhole) :
    c.toToml = .ok (c.textOf fun _ => true) := by
  have hcode : c.signatureType.code.toNat ≤ maxNumber := by
    have := c.signatureType.code.toNat_lt
    unfold maxNumber
    omega
  have hall : c.textOf (fun _ => true)
      = String.join (c.entries.map fun entry => String.ofList (assignmentLine entry)) := by
    rw [join_map_ofList, textOf, List.filter_eq_self.mpr fun _ _ => rfl]
  rw [hall, toToml_eq, lines, textLine_eq, textLine_eq,
    numberLine_of_le (whole.rounded_maxAge ▸ fits.maxAge), numberLine_of_le fits.infosPerBundle,
    numberLine_of_le fits.bundleCount,
    numberLine_of_le (whole.rounded_rebuildInterval ▸ fits.rebuildInterval), numberLine_of_le hcode]
  unfold entries
  cases c.signingKey with
  | none =>
    -- the line of the path is empty
    refine congrArg Except.ok ?_
    rw [← String.toList_inj]
    simp
  | some path =>
    dsimp only
    rw [textLine_eq]
    rfl

/-- The first line that cannot be made is the failure of all. -/
private theorem mapM_id_eq_error {α : Type} {l : List (Except TomlFault α)} {fault : TomlFault}
    (h : .error fault ∈ l) : ∃ first, l.mapM id = .error first ∧ .error first ∈ l := by
  induction l with
  | nil => cases h
  | cons x l ih =>
    rw [List.mapM_cons]
    cases x with
    | error first => exact ⟨first, rfl, List.mem_cons_self⟩
    | ok a =>
      obtain ⟨first, hfirst, hmem⟩ := ih (by simpa using h)
      rw [hfirst]
      exact ⟨first, rfl, List.mem_cons_of_mem _ hmem⟩

/-- A line that cannot be made has a number that is too large. -/
theorem eq_outOfRange_of_mem_lines {fault : TomlFault} (h : .error fault ∈ c.lines) :
    ∃ key, fault = .outOfRange key := by
  have htext : ∀ {key text : String}, .error fault ≠ textLine key text := nofun
  have hnumber : ∀ {key : String} {n : Nat}, .error fault = numberLine key n →
      ∃ key, fault = .outOfRange key := by
    intro key n hline
    unfold numberLine at hline
    split at hline
    · cases hline
    · cases hline
      exact ⟨key, rfl⟩
  unfold lines at h
  simp only [List.mem_cons, List.not_mem_nil, or_false] at h
  rcases h with h | h | h | h | h | h | h | h
  · exact absurd h htext
  · exact hnumber h
  · exact hnumber h
  · exact hnumber h
  · exact hnumber h
  · exact absurd h htext
  · split at h
    · exact absurd h htext
    · cases h
  · exact hnumber h

/-- One number that is too large is enough for nothing to be written. -/
theorem toToml_of_not_fits (whole : c.IsWhole) (h : ¬ c.FitsToml) :
    ∃ key, c.toToml = .error (.outOfRange key) := by
  -- Some line is that of the number that does not fit.
  have hline : ∃ key, .error (.outOfRange key) ∈ c.lines := by
    have hlarge : ∀ (key : String) {n : Nat}, numberLine key n ∈ c.lines → maxNumber < n →
        ∃ key, .error (.outOfRange key) ∈ c.lines := by
      intro key n hmem hlt
      rw [numberLine_of_lt hlt] at hmem
      exact ⟨key, hmem⟩
    have hseconds := whole.rounded_maxAge
    have hinterval := whole.rounded_rebuildInterval
    by_cases hage : maxNumber < c.maxAge.rounded
    · exact hlarge maxAgeKey (by simp [lines]) hage
    by_cases hinfos : maxNumber < c.infosPerBundle
    · exact hlarge infosPerBundleKey (by simp [lines]) hinfos
    by_cases hcount : maxNumber < c.bundleCount
    · exact hlarge bundleCountKey (by simp [lines]) hcount
    by_cases hbetween : maxNumber < c.rebuildInterval.rounded
    · exact hlarge rebuildIntervalKey (by simp [lines]) hbetween
    exact absurd ⟨by omega, by omega, by omega, by omega⟩ h
  obtain ⟨key, hmem⟩ := hline
  obtain ⟨first, hfirst, hmem⟩ := mapM_id_eq_error hmem
  obtain ⟨key, rfl⟩ := eq_outOfRange_of_mem_lines hmem
  refine ⟨key, ?_⟩
  rw [toToml_eq, hfirst]
  rfl

-- =============================================================== saving

variable {tree : FileTree} {now : Instant} {path : String}

/-- Settings that fit are one file to be written. -/
theorem storing_of_fits (fits : c.FitsToml) (whole : c.IsWhole) :
    c.storing path = .ok (.write path (Bytes.ofString (c.textOf fun _ => true))) := by
  unfold storing
  rw [toToml_of_fits fits whole]
  rfl

private theorem storing_of_not_fits (whole : c.IsWhole) (h : ¬ c.FitsToml) :
    ∃ key, c.storing path = .error (.outOfRange key) := by
  obtain ⟨key, hkey⟩ := toToml_of_not_fits whole h
  refine ⟨key, ?_⟩
  unfold storing
  rw [hkey]
  rfl

private theorem store_write (tree : FileTree) (now : Instant) (path : String) (data : Bytes) :
    store tree now (.ok (.write path data))
      = match tree.write now path data with
        | .ok written => (.ok (), written)
        | .error fault => (.error (.io fault), tree) := by
  unfold store FileTree.change
  dsimp only
  cases tree.write now path data <;> rfl

/-- For settings that fit it is up to the file whether saving succeeds. -/
theorem save_of_fits (fits : c.FitsToml) (whole : c.IsWhole) :
    c.save tree now path
      = match tree.write now path (Bytes.ofString (c.textOf fun _ => true)) with
        | .ok written => (.ok (), written)
        | .error fault => (.error (.io fault), tree) := by
  unfold save
  rw [storing_of_fits fits whole, store_write]

/-- A text that cannot be made touches no file. -/
theorem save_of_not_fits (whole : c.IsWhole) (h : ¬ c.FitsToml) (tree : FileTree) (now : Instant)
    (path : String) : ∃ key, c.save tree now path = (.error (.toml (.outOfRange key)), tree) := by
  obtain ⟨key, hkey⟩ := storing_of_not_fits whole h
  refine ⟨key, ?_⟩
  unfold save
  rw [hkey]
  rfl

/-- Something can be written to the file. -/
def CanWrite (tree : FileTree) (now : Instant) (path : String) : Prop :=
  ∃ data written, tree.write now path data = .ok written

/-- Settings with all that needs care in a text: quotes of both kinds,
three in a row, control characters and line ends. -/
def sampleConfig : Config where
  netDb := "C:\\net\"Db\"\x07"
  maxAge := .ofSeconds 3600
  infosPerBundle := 2 ^ 63 - 1
  bundleCount := 0
  rebuildInterval := .ofSeconds 0
  signer := "\n''' and \"\"\""
  signingKey := some "it's\r\n\t"
  signatureType := .ecdsaSha256P256

theorem isWhole_sampleConfig : sampleConfig.IsWhole := ⟨by decide, by decide, by decide⟩

theorem fitsToml_sampleConfig : sampleConfig.FitsToml :=
  ⟨by decide, by decide, by decide, by decide⟩

/-- A tree with a file of settings. -/
def settingsTree (text : String) : FileTree where
  nodes := [(["s.toml"], .file (Bytes.ofString text) FileTree.newFileMode ⟨0⟩)]
  workingDirectory := []

private theorem resolve_settingsTree (text : String) :
    (settingsTree text).resolve "s.toml" true
      = .ok ⟨["s.toml"], some (.file (Bytes.ofString text) FileTree.newFileMode ⟨0⟩)⟩ := by
  have hnames : Path.names "s.toml" = ["s.toml"] := by decide +kernel
  rw [FileTree.resolve_of_names hnames (by decide +kernel)]
  rfl

/-- The settings file of the sample tree may be written. -/
private theorem canWrite_settingsTree (text : String) : CanWrite
    (settingsTree text) ⟨0⟩ "s.toml" := by
  refine ⟨[], (settingsTree text).put ["s.toml"] (.file [] FileTree.newFileMode ⟨0⟩), ?_⟩
  unfold FileTree.write
  rw [resolve_settingsTree]
  dsimp only [bind, Except.bind]
  rw [if_neg (by decide +kernel)]
  rfl

private theorem read_settingsTree (text : String) :
    (settingsTree text).read "s.toml" = .ok (Bytes.ofString text) :=
  FileTree.Holds.read ⟨by decide +kernel, resolve_settingsTree text, rfl⟩

/-- Settings with a number that no TOML file can hold. -/
def largeConfig : Config := { sampleConfig with bundleCount := 2 ^ 63 }

private theorem isWhole_largeConfig : largeConfig.IsWhole :=
  ⟨isWhole_sampleConfig.maxAge, isWhole_sampleConfig.rebuildInterval,
    isWhole_sampleConfig.signatureType⟩

end Config

end RouterSeed

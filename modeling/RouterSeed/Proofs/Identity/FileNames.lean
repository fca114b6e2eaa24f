/-
The two files of a signer are two names in the directory they are put
into, whatever the signer id is.

A name (`Path.IsName`) is the last name of the path it is joined to, and
is joined as it is. The stem of a signer's files has no slash, because it
is the last part between slashes or has had them replaced; the endings
make it a name and tell the two files apart.

Consumed by the proofs about stored identities and their places, and by
those about what a directory lists.
-/
import Mathlib.Data.List.TakeDrop
import Mathlib.Data.List.TakeWhile
import RouterSeed.Identity.SignerFile
import RouterSeed.Proofs.Files.Walk

namespace RouterSeed

-- ================================================================ paths

namespace Path

/-- What a directory can hold something under. -/
structure IsName (name : String) : Prop where
  slash : '/' ∉ name.toList
  not_empty : name ≠ ""
  not_dot : name ≠ "."
  not_dots : name ≠ ".."

instance (name : String) : Decidable (IsName name) :=
  decidable_of_iff ('/' ∉ name.toList ∧ name ≠ "" ∧ name ≠ "." ∧ name ≠ "..")
    ⟨fun h => ⟨h.1, h.2.1, h.2.2.1, h.2.2.2⟩,
      fun h => ⟨h.slash, h.not_empty, h.not_dot, h.not_dots⟩⟩

/-- A first character begins a new part if it is a slash, and else belongs
to the first one. -/
private theorem splitSlashes_cons (c : Char) (text : List Char) :
    ∃ part more, splitSlashes text = part :: more ∧ splitSlashes (c :: text)
      = if c = '/' then [] :: part :: more else (c :: part) :: more := by
  have hparts : splitSlashes text ≠ [] := by
    cases text with
    | nil => exact List.cons_ne_nil _ _
    | cons c text =>
      unfold splitSlashes
      rw [List.foldr_cons]
      split
      · exact List.cons_ne_nil _ _
      · split <;> exact List.cons_ne_nil _ _
  obtain ⟨part, more, hsplit⟩ := List.exists_cons_of_ne_nil hparts
  refine ⟨part, more, hsplit, ?_⟩
  unfold splitSlashes at hsplit ⊢
  rw [List.foldr_cons, hsplit]

/-- What the library calls splitting a list. -/
theorem splitSlashes_eq_splitOn (text : List Char) : splitSlashes text = text.splitOn '/' := by
  induction text with
  | nil => rfl
  | cons c text ih =>
    obtain ⟨part, more, hsplit, hcons⟩ := splitSlashes_cons c text
    rw [hcons, List.splitOn, List.splitOnP_cons_eq_if_modifyHead, ← List.splitOn, ← ih, hsplit]
    by_cases hslash : c = '/'
    · rw [if_pos hslash, if_pos (beq_iff_eq.mpr hslash)]
    · rw [if_neg hslash, if_neg (mt beq_iff_eq.mp hslash)]
      rfl

/-- A slash ends a part. -/
theorem splitSlashes_append (before after : List Char) :
    splitSlashes (before ++ '/' :: after) = splitSlashes before ++ splitSlashes after := by
  induction before with
  | nil =>
    obtain ⟨part, more, hsplit, hcons⟩ := splitSlashes_cons '/' after
    rw [List.nil_append, hcons, if_pos rfl, hsplit]
    rfl
  | cons c before ih =>
    obtain ⟨part, more, hsplit, hcons⟩ := splitSlashes_cons c (before ++ '/' :: after)
    obtain ⟨part', more', hsplit', hcons'⟩ := splitSlashes_cons c before
    rw [ih, hsplit', List.cons_append] at hsplit
    cases hsplit
    rw [List.cons_append, hcons, hcons']
    split <;> rfl

/-- Without a slash there is one part. -/
theorem splitSlashes_of_not_mem {text : List Char} (h : '/' ∉ text) : splitSlashes text = [text] := by
  induction text with
  | nil => rfl
  | cons c text ih =>
    obtain ⟨part, more, hsplit, hcons⟩ := splitSlashes_cons c text
    rw [ih fun hmem => h (List.mem_cons_of_mem c hmem)] at hsplit
    cases hsplit
    have hc : c ≠ '/' := fun hsame => h (hsame ▸ List.mem_cons_self)
    rw [hcons, if_neg hc]

/-- No part has a slash in it. -/
private theorem not_mem_of_mem_splitSlashes {text part : List Char} (h : part ∈ splitSlashes text) :
    '/' ∉ part := by
  induction text generalizing part with
  | nil =>
    cases List.mem_singleton.mp h
    exact List.not_mem_nil
  | cons c text ih =>
    obtain ⟨first, more, hsplit, hcons⟩ := splitSlashes_cons c text
    rw [hcons] at h
    rw [hsplit] at ih
    split at h
    next =>
      rcases List.mem_cons.mp h with rfl | hmem
      · exact List.not_mem_nil
      · exact ih hmem
    -- the character went into the first part, and is none
    next hc =>
      rcases List.mem_cons.mp h with rfl | hmem
      · rintro hslash
        rcases List.mem_cons.mp hslash with hsame | hslash
        · exact hc hsame.symm
        · exact ih List.mem_cons_self hslash
      · exact ih (List.mem_cons_of_mem _ hmem)

/-- No name of a path has a slash in it. -/
private theorem slash_not_mem_of_mem_names {path name : String} (h : name ∈ names path) :
    '/' ∉ name.toList := by
  obtain ⟨part, hpart, rfl⟩ := List.mem_map.mp h
  rw [String.toList_ofList]
  exact not_mem_of_mem_splitSlashes (List.mem_filter.mp hpart).1

/-- Components are names of the path, but for the ones that say nothing. -/
private theorem mem_names_of_mem_components {path name : String} (h : name ∈ components path) :
    name ∈ names path := by
  unfold components at h
  split at h
  next => exact absurd h List.not_mem_nil
  next first rest hnames =>
    rw [hnames]
    split at h
    · exact List.mem_cons_of_mem _ (List.mem_filter.mp h).1
    · rcases List.mem_cons.mp h with rfl | hrest
      · exact List.mem_cons_self
      · exact List.mem_cons_of_mem _ (List.mem_filter.mp hrest).1

private theorem names_of_isName {name : String} (h : IsName name) : names name = [name] := by
  have hchars : name.toList ≠ [] := fun hnil => h.not_empty (String.toList_injective hnil)
  unfold names
  rw [splitSlashes_of_not_mem h.slash]
  simp [hchars]

/-- A name is a path of one normal component. -/
theorem components_of_isName {name : String} (h : IsName name) : components name = [name] := by
  unfold components
  rw [names_of_isName h]
  exact if_neg fun hdot => h.not_dot hdot.1

/-- A name is a relative path. -/
theorem isAbsolute_of_isName {name : String} (h : IsName name) : isAbsolute name = false := by
  unfold isAbsolute
  apply beq_false_of_ne
  intro hhead
  exact h.slash (List.mem_of_mem_head? hhead)

/-- What stands between two names of a path: one slash or more. -/
private theorem names_slash {path before after : String}
    (h : path.toList = before.toList ++ '/' :: after.toList) :
    names path = names before ++ names after := by
  unfold names
  rw [h, splitSlashes_append, List.filter_append, List.map_append]

/-- Joining puts a name behind the names of the directory. -/
theorem join_of_isName {name : String} (h : IsName name) (dir : String) :
    names (join dir name) = names dir ++ [name]
      ∧ (dir ≠ "" → isAbsolute (join dir name) = isAbsolute dir) := by
  have hhead : dir ≠ "" → ∀ rest : List Char,
      (dir.toList ++ rest).head? = dir.toList.head? := by
    intro hdir rest
    obtain ⟨c, chars, hchars⟩ :=
      List.exists_cons_of_ne_nil fun hnil => hdir (String.toList_injective hnil)
    rw [hchars]
    rfl
  unfold join
  rw [isAbsolute_of_isName h]
  simp only [Bool.false_eq_true, if_false]
  split
  -- nothing stands between: the directory is empty, or ends in a slash
  next hbare =>
    refine ⟨?_, fun hdir => ?_⟩
    · rcases hbare with rfl | hends
      · rw [String.empty_append]
        exact names_of_isName h
      · obtain ⟨before, hbefore⟩ : ∃ before, dir.toList = before ++ ['/'] := by
          unfold endsInSlash at hends
          exact List.getLast?_eq_some_iff.mp (beq_iff_eq.mp hends)
        have hjoined : (dir ++ name).toList
            = (String.ofList before).toList ++ '/' :: name.toList := by
          rw [String.toList_append, hbefore, String.toList_ofList, List.append_assoc]
          rfl
        have hdir : dir.toList = (String.ofList before).toList ++ '/' :: "".toList := by
          rw [hbefore, String.toList_ofList]
          rfl
        rw [names_slash hjoined, names_slash hdir, names_of_isName h]
        show _ = names (String.ofList before) ++ [] ++ [name]
        rw [List.append_nil]
    · unfold isAbsolute
      rw [String.toList_append, hhead hdir]
  next =>
    refine ⟨?_, fun hdir => ?_⟩
    · have hjoined : (dir ++ "/" ++ name).toList = dir.toList ++ '/' :: name.toList := by
        rw [String.toList_append, String.toList_append, List.append_assoc]
        rfl
      rw [names_slash hjoined, names_of_isName h]
    · unfold isAbsolute
      rw [String.toList_append, String.toList_append, List.append_assoc, hhead hdir]

/-- A name is the last one of the path it is joined to. -/
theorem endsIn_join {name : String} (h : IsName name) (dir : String) :
    EndsIn (join dir name) name :=
  ⟨⟨names dir, (join_of_isName h dir).1⟩, h.not_dot, h.not_dots⟩

/-- What is joined is directly below the components of the directory. -/
theorem components_join {name : String} (h : IsName name) (dir : String) :
    components (join dir name) = components dir ++ [name] := by
  obtain ⟨hnames, habsolute⟩ := join_of_isName h dir
  unfold components
  rw [hnames]
  cases hdir : names dir with
  | nil => simp [h.not_dot]
  | cons first rest =>
    have hne : dir ≠ "" := by
      rintro rfl
      cases hdir
    rw [habsolute hne]
    dsimp only [List.cons_append]
    rw [List.filter_append]
    split <;> simp [h.not_dot]

/-- The file name is the last component, unless that goes up. -/
private theorem fileName?_eq_some_iff {path name : String} :
    fileName? path = some name
      ↔ (components path).getLast? = some name ∧ name ≠ "." ∧ name ≠ ".." := by
  unfold fileName?
  split
  next hnone => simp [hnone]
  next hdot => simp +contextual [hdot, eq_comm]
  next hdots => simp +contextual [hdots, eq_comm]
  next last hdot hdots hlast =>
    rw [hlast]
    constructor
    · intro hsame
      cases hsame
      exact ⟨rfl, hdot, hdots⟩
    · exact And.left

/-- A single dot at the start of a relative path is a component, and does
not hide any other name. -/
private theorem getLast?_components {path name : String} (hdot : name ≠ ".") :
    (components path).getLast? = some name
      ↔ ((names path).filter (· ≠ ".")).getLast? = some name := by
  unfold components
  cases names path with
  | nil => exact Iff.rfl
  | cons first rest =>
    dsimp only
    by_cases hfirst : first = "."
    · rw [List.filter_cons_of_neg (by simpa using hfirst)]
      split
      next => exact Iff.rfl
      next =>
        cases rest.filter (· ≠ ".") with
        | nil => simpa [hfirst] using hdot.symm
        | cons second rest => rw [List.getLast?_cons_cons]
    · rw [List.filter_cons_of_pos (by simpa using hfirst), if_neg fun h => hfirst h.1]

end Path

-- ========================================================= signer files

namespace SignerFile

/-- Without the sign nothing is replaced. -/
theorem replaceAt_of_not_mem {text : List Char} (h : '@' ∉ text) : replaceAt text = text := by
  have hall : ∀ c ∈ text, (decide (c ≠ '@')) = true := by
    intro c hc
    exact decide_eq_true fun hsame => h (hsame ▸ hc)
  unfold replaceAt
  rw [List.span_eq_takeWhile_dropWhile, List.takeWhile_eq_self_iff.mpr hall,
    List.dropWhile_eq_nil_iff.mpr hall]

/-- Only the first `@` is replaced. -/
theorem replaceAt_append {before : List Char} (h : '@' ∉ before) (after : List Char) :
    replaceAt (before ++ '@' :: after) = before ++ atReplacement ++ after := by
  have hall : ∀ c ∈ before, (decide (c ≠ '@')) = true := by
    intro c hc
    exact decide_eq_true fun hsame => h (hsame ▸ hc)
  unfold replaceAt
  rw [List.span_eq_takeWhile_dropWhile, List.takeWhile_append_of_pos hall,
    List.dropWhile_append_of_pos hall]
  simp

/-- Flattening leaves no slash. -/
private theorem slash_not_mem_flatten (text : List Char) : '/' ∉ flatten text := by
  intro hmem
  obtain ⟨c, -, hc⟩ := List.mem_map.mp hmem
  split at hc
  · cases hc
  next hplain => exact hplain (.inl hc)

/-- The parts between slashes that name something. -/
def namedParts (text : List Char) : List (List Char) :=
  (text.splitOn '/').filter fun part => part ≠ [] ∧ part ≠ ['.']

private theorem ofList_eq_iff {part chars : List Char} :
    String.ofList part = String.ofList chars ↔ part = chars :=
  ⟨fun h => by simpa using congrArg String.toList h, fun h => h ▸ rfl⟩

/-- The names of a path that count are the parts of its text that do. -/
private theorem filter_names_ofList (text : List Char) :
    (Path.names (String.ofList text)).filter (· ≠ ".") = (namedParts text).map String.ofList := by
  unfold Path.names namedParts
  rw [String.toList_ofList, Path.splitSlashes_eq_splitOn, List.filter_map, List.filter_filter]
  congr 1
  apply List.filter_congr
  intro part _
  have hdot : String.ofList part ≠ "." ↔ part ≠ ['.'] := not_congr ofList_eq_iff
  simp only [Function.comp, hdot, Bool.decide_and, Bool.and_comm]

/-- The file name is the last part that is neither empty nor a dot, unless
that is two dots. -/
private theorem fileName?_ofList_eq_some_iff {text : List Char} {name : String} :
    Path.fileName? (String.ofList text) = some name
      ↔ ∃ last, (namedParts text).getLast? = some last ∧ last ≠ ['.', '.']
        ∧ String.ofList last = name := by
  have hparts : ∀ last, (namedParts text).getLast? = some last → last ≠ ['.'] := by
    intro last hlast
    have hmem := (List.mem_filter.mp (List.mem_of_getLast? hlast)).2
    exact (of_decide_eq_true hmem).2
  rw [Path.fileName?_eq_some_iff]
  constructor
  · rintro ⟨hlast, hdot, hdots⟩
    rw [Path.getLast?_components hdot, filter_names_ofList, List.getLast?_map,
      Option.map_eq_some_iff] at hlast
    obtain ⟨last, hlast, rfl⟩ := hlast
    exact ⟨last, hlast, fun h => hdots (by rw [h]), rfl⟩
  · rintro ⟨last, hlast, hdots, rfl⟩
    have hdot : String.ofList last ≠ "." := fun h => hparts last hlast (ofList_eq_iff.mp h)
    refine ⟨?_, hdot, fun h => hdots (ofList_eq_iff.mp h)⟩
    rw [Path.getLast?_components hdot, filter_names_ofList, List.getLast?_map, hlast]
    rfl

/-- The stem is the last part that names something. Where there is none,
or it is two dots, it is the whole text without what paths are made of. -/
theorem stem_eq (signerId : String) :
    (∀ last, (namedParts (replaceAt signerId.toList)).getLast? = some last → last ≠ ['.', '.'] →
        (stem signerId).toList = last)
      ∧ ((∀ last, (namedParts (replaceAt signerId.toList)).getLast? = some last →
          last = ['.', '.']) →
        (stem signerId).toList = flatten (replaceAt signerId.toList)) := by
  refine ⟨fun last hlast hdots => ?_, fun hunusable => ?_⟩
  · have hname : Path.fileName? (String.ofList (replaceAt signerId.toList))
        = some (String.ofList last) :=
      fileName?_ofList_eq_some_iff.mpr ⟨last, hlast, hdots, rfl⟩
    unfold stem
    dsimp only
    rw [hname, String.toList_ofList]
  -- no file name, so the whole text is flattened
  · have hnone : Path.fileName? (String.ofList (replaceAt signerId.toList)) = none := by
      rw [Option.eq_none_iff_forall_ne_some]
      intro name hname
      obtain ⟨last, hlast, hdots, -⟩ := fileName?_ofList_eq_some_iff.mp hname
      exact hdots (hunusable last hlast)
    unfold stem
    dsimp only
    rw [hnone, String.toList_ofList]

/-- No stem has a slash in it, whether it is a file name or was flattened. -/
theorem slash_not_mem_stem (signerId : String) : '/' ∉ (stem signerId).toList := by
  unfold stem
  dsimp only
  split
  next name hname =>
    have hmem := List.mem_of_getLast? (Path.fileName?_eq_some_iff.mp hname).1
    exact Path.slash_not_mem_of_mem_names (Path.mem_names_of_mem_components hmem)
  next =>
    rw [String.toList_ofList]
    exact slash_not_mem_flatten _

/-- An ending makes a name of any stem. -/
theorem isName_stem {ending : String} (hslash : '/' ∉ ending.toList)
    (hlength : 3 ≤ ending.toList.length) (signerId : String) :
    Path.IsName (stem signerId ++ ending) := by
  have hlong : ∀ short : String, short.toList.length < 3 → stem signerId ++ ending ≠ short := by
    rintro short hshort rfl
    rw [String.toList_append, List.length_append] at hshort
    omega
  constructor
  case slash =>
    rw [String.toList_append, List.mem_append, not_or]
    exact ⟨slash_not_mem_stem signerId, hslash⟩
  case not_empty => exact hlong _ (by decide)
  case not_dot => exact hlong _ (by decide)
  case not_dots => exact hlong _ (by decide)

/-- The key file has a name, not a path. -/
theorem isName_key (signerId : String) : Path.IsName (key signerId) :=
  isName_stem (by decide) (by decide) signerId

/-- A certificate file has a plain name. -/
theorem isName_certificate (signerId : String) : Path.IsName (certificate signerId) :=
  isName_stem (by decide) (by decide) signerId

/-- The name of a key file is the last part of its path, whatever the
directory. -/
theorem endsIn_key (dir signerId : String) :
    Path.EndsIn (Path.join dir (key signerId)) (key signerId) :=
  Path.endsIn_join (isName_key signerId) dir

theorem endsIn_certificate (dir signerId : String) :
    Path.EndsIn (Path.join dir (certificate signerId)) (certificate signerId) :=
  Path.endsIn_join (isName_certificate signerId) dir

/-- The two files have different endings. -/
theorem key_ne_certificate (signerId : String) : key signerId ≠ certificate signerId := by
  intro h
  have hlists := congrArg String.toList h
  unfold key certificate at hlists
  rw [String.toList_append, String.toList_append] at hlists
  have := List.append_cancel_left hlists
  revert this
  decide

end SignerFile

end RouterSeed

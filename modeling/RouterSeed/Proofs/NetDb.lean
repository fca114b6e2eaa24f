/-
What a scan of the netDb gives: one record for each descriptor file that
can be read and is not too old.

A descriptor file is named by a directory and a name in it. The
directory is the netDb or one of its shelves, and a shelf is never taken
for a descriptor itself (`IsPlace`). Two files are never named by the
same path (`nodup_paths`): names have no slashes in them, so a path
tells whether it goes through a shelf and through which.

A link to a descriptor is a descriptor of its own, with the link's name
and the file's time and bytes. So a file that is lost takes the records
of all paths that lead to it along, and of no others
(`isRecord_of_lost`); and what is taken out of the tree takes along the
records of those paths that lead nowhere without it
(`isRecord_of_pruned`).
-/
import RouterSeed.NetDb
import RouterSeed.Proofs.Files.Pruned

namespace RouterSeed

-- ============================================================== names

namespace Path

/-- What joining puts in front of a name. -/
def lead (dir : String) : List Char :=
  if dir = "" ∨ endsInSlash dir then dir.toList else dir.toList ++ ['/']

/-- A path into a directory begins with what leads there and ends in the
name. -/
private theorem toList_join {name : String} (h : IsName name) (dir : String) :
    (join dir name).toList = lead dir ++ name.toList := by
  unfold join lead
  rw [isAbsolute_of_isName h]
  simp only [Bool.false_eq_true, if_false]
  split
  · rw [String.toList_append]
  · rw [String.toList_append, String.toList_append]
    rfl

/-- A path into a directory is not empty, and ends in no slash. -/
private theorem join_ends {name : String} (h : IsName name) (dir : String) :
    join dir name ≠ "" ∧ endsInSlash (join dir name) = false := by
  have hchars : name.toList ≠ [] := fun hnil => h.not_empty (String.toList_injective hnil)
  have hjoin := toList_join h dir
  constructor
  · intro hempty
    rw [hempty] at hjoin
    exact hchars (List.append_eq_nil_iff.mp hjoin.symm).2
  · unfold endsInSlash
    rw [hjoin, List.getLast?_append_of_ne_nil _ hchars]
    apply beq_false_of_ne
    intro hslash
    exact h.slash (List.mem_of_getLast? hslash)

/-- What leads into a shelf is the shelf's path and one slash. -/
private theorem lead_join {name : String} (h : IsName name) (dir : String) :
    lead (join dir name) = lead dir ++ (name.toList ++ ['/']) := by
  obtain ⟨hne, hends⟩ := join_ends h dir
  have hlead : lead (join dir name) = (join dir name).toList ++ ['/'] := by
    unfold lead
    rw [hends]
    exact if_neg (by simpa using hne)
  rw [hlead, toList_join h, List.append_assoc]

/-- Two names in one directory have two paths. -/
private theorem join_injective {dir name other : String} (h : IsName name) (hother : IsName other)
    (hjoin : join dir name = join dir other) : name = other := by
  have hchars := congrArg String.toList hjoin
  rw [toList_join h, toList_join hother] at hchars
  exact String.toList_injective (List.append_cancel_left hchars)

/-- A text without slashes, and what may stand behind it, are told from
both of them together. -/
private theorem eq_of_append_eq {name other rest more : List Char} (hname : '/' ∉ name)
    (hother : '/' ∉ other) (hrest : rest = [] ∨ ∃ tail, rest = '/' :: tail)
    (hmore : more = [] ∨ ∃ tail, more = '/' :: tail) (h : name ++ rest = other ++ more) :
    name = other := by
  have hfirst : ∀ {name rest : List Char}, '/' ∉ name → (rest = [] ∨ ∃ tail, rest = '/' :: tail) →
      (splitSlashes (name ++ rest)).head? = some name := by
    rintro name rest hname (rfl | ⟨tail, rfl⟩)
    · rw [List.append_nil, splitSlashes_of_not_mem hname]
      rfl
    · rw [splitSlashes_append, splitSlashes_of_not_mem hname]
      rfl
  have := hfirst hname hrest
  rw [h, hfirst hother hmore] at this
  exact (Option.some.inj this).symm

end Path

-- ============================================================== places

namespace NetDb

variable {db : NetDb} {tree : FileTree} {now : Instant} {dir name : String}

/-- A directory in the netDb that is looked into: its name starts with an
`r`. -/
def IsShelf (db : NetDb) (tree : FileTree) (name : String) : Prop :=
  tree.isDirectory (Path.join db.path name) = true ∧ ∃ rest, name.toList = 'r' :: rest

/-- What the name of a descriptor file starts with and ends in. -/
def HasDescriptorName (name : String) : Prop :=
  "routerInfo-".toList <+: name.toList ∧ ".dat".toList <:+ name.toList

instance (name : String) : Decidable (HasDescriptorName name) :=
  inferInstanceAs (Decidable (_ ∧ _))

/-- The test of a name. -/
private theorem isDescriptorName_iff : isDescriptorName name = true ↔ HasDescriptorName name := by
  unfold isDescriptorName HasDescriptorName namePrefix nameSuffix
  rw [Bool.and_eq_true, List.isPrefixOf_iff_prefix, List.isSuffixOf_iff_suffix]

/-- The test for a shelf. -/
private theorem isShelf_iff :
    (tree.isDirectory (Path.join db.path name) && isShelfName name) = true
      ↔ db.IsShelf tree name := by
  unfold IsShelf isShelfName
  rw [Bool.and_eq_true, beq_iff_eq, List.head?_eq_some_iff]

/-- The directories and names of what may be a descriptor: what is in the
netDb and is no shelf, and what is on a shelf. -/
inductive IsPlace (db : NetDb) (tree : FileTree) : (dir name : String) → Prop
  | inside {names : List String} {name : String} (listed : tree.list db.path = .ok names)
      (mem : name ∈ names) (noShelf : ¬ db.IsShelf tree name) : IsPlace db tree db.path name
  | shelved {names kept : List String} {shelf name : String}
      (listed : tree.list db.path = .ok names) (shelfMem : shelf ∈ names)
      (isShelf : db.IsShelf tree shelf) (opened : tree.list (Path.join db.path shelf) = .ok kept)
      (mem : name ∈ kept) : IsPlace db tree (Path.join db.path shelf) name

/-- What the scan finds under one name of the netDb. -/
theorem mem_placesUnder {entry : String} :
    (dir, name) ∈ placesUnder tree db.path entry ↔ HasDescriptorName name
      ∧ (dir = db.path ∧ name = entry ∧ ¬ db.IsShelf tree entry
        ∨ db.IsShelf tree entry ∧ dir = Path.join db.path entry
          ∧ ∃ kept, tree.list dir = .ok kept ∧ name ∈ kept) := by
  unfold placesUnder
  dsimp only
  split
  next hshelf =>
    have hshelf : db.IsShelf tree entry := isShelf_iff.mp hshelf
    split
    next kept hkept =>
      simp only [List.mem_map, List.mem_filter, isDescriptorName_iff, Prod.mk.injEq]
      constructor
      · rintro ⟨name, ⟨hmem, hname⟩, rfl, rfl⟩
        exact ⟨hname, .inr ⟨hshelf, rfl, kept, hkept, hmem⟩⟩
      · rintro ⟨hname, ⟨-, -, hno⟩ | ⟨-, rfl, kept', hkept', hmem⟩⟩
        · exact absurd hshelf hno
        · rw [hkept] at hkept'
          cases hkept'
          exact ⟨name, ⟨hmem, hname⟩, rfl, rfl⟩
    -- a shelf that cannot be listed holds nothing that is found
    next fault hfault =>
      refine iff_of_false List.not_mem_nil ?_
      rintro ⟨-, ⟨-, -, hno⟩ | ⟨-, rfl, kept, hkept, -⟩⟩
      · exact hno hshelf
      · rw [hfault] at hkept
        cases hkept
  next hno =>
    have hno : ¬ db.IsShelf tree entry := fun hshelf => hno (isShelf_iff.mpr hshelf)
    split
    next hname =>
      simp only [List.mem_singleton, Prod.mk.injEq]
      constructor
      · rintro ⟨rfl, rfl⟩
        exact ⟨isDescriptorName_iff.mp hname, .inl ⟨rfl, rfl, hno⟩⟩
      · rintro ⟨-, ⟨rfl, rfl, -⟩ | ⟨hshelf, -⟩⟩
        · exact ⟨rfl, rfl⟩
        · exact absurd hshelf hno
    next hname =>
      refine iff_of_false List.not_mem_nil ?_
      rintro ⟨hname', ⟨rfl, rfl, -⟩ | ⟨hshelf, -⟩⟩
      · exact hname (isDescriptorName_iff.mpr hname')
      · exact hno hshelf

/-- A scan looks under each name that the netDb lists. -/
private theorem places_eq {names : List String} (h : tree.list db.path = .ok names) :
    db.places tree = .ok (names.flatMap (placesUnder tree db.path)) := by
  unfold places
  rw [h]
  rfl

/-- What a scan finds are the places with a descriptor's name. -/
theorem mem_places {names : List String} (h : tree.list db.path = .ok names) :
    (dir, name) ∈ names.flatMap (placesUnder tree db.path)
      ↔ db.IsPlace tree dir name ∧ HasDescriptorName name := by
  rw [List.mem_flatMap]
  constructor
  · rintro ⟨entry, hentry, hplace⟩
    obtain ⟨hname, hkind⟩ := mem_placesUnder.mp hplace
    refine ⟨?_, hname⟩
    rcases hkind with ⟨rfl, rfl, hno⟩ | ⟨hshelf, rfl, kept, hkept, hmem⟩
    · exact .inside h hentry hno
    · exact .shelved h hentry hshelf hkept hmem
  · rintro ⟨hplace, hname⟩
    -- the names are those of the listing, so both are the same list
    cases hplace with
    | inside hlisted hmem hno =>
      rw [h] at hlisted
      cases hlisted
      exact ⟨name, hmem, mem_placesUnder.mpr ⟨hname, .inl ⟨rfl, rfl, hno⟩⟩⟩
    | shelved hlisted hmem hshelf hkept hin =>
      rw [h] at hlisted
      cases hlisted
      exact ⟨_, hmem, mem_placesUnder.mpr ⟨hname, .inr ⟨hshelf, rfl, _, hkept, hin⟩⟩⟩

-- ======================================================= different paths

/-- A path that was found under a name of the netDb goes on with a slash
behind that name, if at all. -/
private theorem toList_join_of_mem_placesUnder {entry : String} (hwell : tree.WellFormed)
    (hentry : Path.IsName entry) (h : (dir, name) ∈ placesUnder tree db.path entry) :
    Path.IsName name ∧ ∃ rest, (Path.join dir name).toList
        = Path.lead db.path ++ (entry.toList ++ rest)
      ∧ (rest = [] ∨ ∃ tail, rest = '/' :: tail) := by
  obtain ⟨-, ⟨rfl, rfl, -⟩ | ⟨-, rfl, kept, hkept, hmem⟩⟩ := mem_placesUnder.mp h
  · refine ⟨hentry, [], ?_, .inl rfl⟩
    rw [List.append_nil]
    exact Path.toList_join hentry db.path
  · have hname := (hwell.list_names hkept).2 name hmem
    refine ⟨hname, '/' :: name.toList, ?_, .inr ⟨_, rfl⟩⟩
    rw [Path.toList_join hname, Path.lead_join hentry]
    simp only [List.append_assoc, List.singleton_append]

/-- Under one name there is one directory only. -/
private theorem dir_eq_of_mem_placesUnder {entry dir' name' : String}
    (h : (dir, name) ∈ placesUnder tree db.path entry)
    (h' : (dir', name') ∈ placesUnder tree db.path entry) : dir = dir' := by
  obtain ⟨-, ⟨hdir, -, hno⟩ | ⟨hshelf, hdir, -⟩⟩ := mem_placesUnder.mp h
  · obtain ⟨-, ⟨hdir', -⟩ | ⟨hshelf', -⟩⟩ := mem_placesUnder.mp h'
    · rw [hdir, hdir']
    · exact absurd hshelf' hno
  · obtain ⟨-, ⟨-, -, hno'⟩ | ⟨-, hdir', -⟩⟩ := mem_placesUnder.mp h'
    · exact absurd hshelf hno'
    · rw [hdir, hdir']

/-- Nothing is found twice under one name. -/
private theorem nodup_placesUnder {entry : String} (hwell : tree.WellFormed) :
    (placesUnder tree db.path entry).Nodup := by
  unfold placesUnder
  dsimp only
  split
  · split
    next kept hkept =>
      refine ((hwell.list_names hkept).1.filter _).map ?_
      exact fun name other hsame => (Prod.mk.inj hsame).2
    next => exact List.nodup_nil
  · split
    · exact List.nodup_singleton _
    · exact List.nodup_nil

/-- No two places have the same path. -/
theorem nodup_paths {names : List String} (hwell : tree.WellFormed)
    (h : tree.list db.path = .ok names) :
    ((names.flatMap (placesUnder tree db.path)).map fun place => Path.join place.1 place.2).Nodup := by
  obtain ⟨hnodup, hnames⟩ := hwell.list_names h
  -- The first name behind the netDb's own path is that of the entry.
  have hentries : ∀ entry ∈ names, ∀ other ∈ names, ∀ place ∈ placesUnder tree db.path entry,
      ∀ place' ∈ placesUnder tree db.path other,
        Path.join place.1 place.2 = Path.join place'.1 place'.2 → entry = other := by
    intro entry hentry other hother place hplace place' hplace' hsame
    obtain ⟨-, rest, hpath, hrest⟩ :=
      toList_join_of_mem_placesUnder hwell (hnames entry hentry) hplace
    obtain ⟨-, rest', hpath', hrest'⟩ :=
      toList_join_of_mem_placesUnder hwell (hnames other hother) hplace'
    rw [hsame, hpath'] at hpath
    exact String.toList_injective (Path.eq_of_append_eq (hnames entry hentry).slash
      (hnames other hother).slash hrest hrest' (List.append_cancel_left hpath).symm)
  refine List.Nodup.map_on ?injective ?nodup
  case injective =>
    rintro ⟨dir, name⟩ hplace ⟨dir', name'⟩ hplace' hsame
    obtain ⟨entry, hentry, hplace⟩ := List.mem_flatMap.mp hplace
    obtain ⟨other, hother, hplace'⟩ := List.mem_flatMap.mp hplace'
    cases hentries entry hentry other hother _ hplace _ hplace' hsame
    cases dir_eq_of_mem_placesUnder hplace hplace'
    have hname := (toList_join_of_mem_placesUnder hwell (hnames entry hentry) hplace).1
    have hname' := (toList_join_of_mem_placesUnder hwell (hnames entry hentry) hplace').1
    rw [Path.join_injective hname hname' hsame]
  case nodup =>
    refine List.nodup_flatMap.mpr ⟨fun entry _ => nodup_placesUnder hwell, ?_⟩
    refine hnodup.imp_of_mem ?_
    intro entry other hentry hother hne place hplace hplace'
    exact hne (hentries entry hentry other hother place hplace place hplace' rfl)

-- ============================================================= records

/-- A record that the scan owes for a path: of a descriptor's place, with
the name there, and the time and the bytes of a file that can be read.
The time that has passed since, none if the file is from the future, is
not more than the netDb allows. -/
structure IsRecord (db : NetDb) (tree : FileTree) (now : Instant) (path : String)
    (info : RouterInfo) : Prop where
  place : ∃ dir, db.IsPlace tree dir info.name ∧ path = Path.join dir info.name
  named : HasDescriptorName info.name
  modified : tree.modified? path = some info.modified
  fresh : (if now.nanos ≤ info.modified.nanos then 0 else now.nanos - info.modified.nanos)
    ≤ db.maxAge.nanos
  read : tree.read path = .ok info.data

/-- An age is at most the limit if the time that has passed is, and none has
for a file from the future. -/
private theorem since_le_iff {modified : Instant} {maxAge : Duration} :
    now.since modified ≤ maxAge
      ↔ (if now.nanos ≤ modified.nanos then 0 else now.nanos - modified.nanos)
        ≤ (maxAge.nanos : Int) := by
  show (now.nanos - modified.nanos).toNat ≤ maxAge.nanos ↔ _
  split <;> omega

/-- Reading a descriptor gives its name, the time of the file and its bytes. -/
theorem readDescriptor?_eq_some_iff {maxAge : Duration} {info : RouterInfo} :
    readDescriptor? tree now maxAge dir name = some info
      ↔ info.name = name ∧ tree.modified? (Path.join dir name) = some info.modified
        ∧ now.since info.modified ≤ maxAge ∧ tree.read (Path.join dir name) = .ok info.data := by
  unfold readDescriptor?
  cases hmodified : tree.modified? (Path.join dir name) with
  | none => exact iff_of_false nofun fun h => nomatch h.2.1
  | some modified =>
    dsimp only
    by_cases hfresh : now.since modified ≤ maxAge
    · rw [if_pos hfresh]
      cases hread : tree.read (Path.join dir name) with
      | error fault => exact iff_of_false nofun fun h => nomatch h.2.2.2
      | ok data =>
        constructor
        · intro h
          cases h
          exact ⟨rfl, rfl, hfresh, rfl⟩
        · rintro ⟨rfl, hmodified, -, hread⟩
          cases hmodified
          cases hread
          rfl
    · rw [if_neg hfresh]
      refine iff_of_false nofun ?_
      rintro ⟨-, hmodified, hfresh', -⟩
      cases hmodified
      exact hfresh hfresh'

/-- The records of a scan, each with its path. -/
def recordsAt (db : NetDb) (tree : FileTree) (now : Instant) (places : List (String × String)) :
    List (String × RouterInfo) :=
  places.filterMap fun place =>
    (readDescriptor? tree now db.maxAge place.1 place.2).map fun info =>
      (Path.join place.1 place.2, info)

/-- Without their paths the records are what the scan reads. -/
private theorem map_snd_recordsAt (places : List (String × String)) :
    (db.recordsAt tree now places).map Prod.snd
      = places.filterMap fun (dir, name) => readDescriptor? tree now db.maxAge dir name := by
  unfold recordsAt
  rw [List.map_filterMap]
  simp only [Option.map_map, Function.comp_def, Option.map_id']

/-- The paths of the records are some of those that were looked at. -/
private theorem map_fst_recordsAt_sublist (places : List (String × String)) :
    ((db.recordsAt tree now places).map Prod.fst).Sublist
      (places.map fun place => Path.join place.1 place.2) := by
  induction places with
  | nil => exact List.Sublist.slnil
  | cons place places ih =>
    unfold recordsAt
    rw [List.filterMap_cons, List.map_cons]
    cases readDescriptor? tree now db.maxAge place.1 place.2 with
    | none => exact ih.cons _
    | some info => exact ih.cons_cons _

/-- What a scan finds under a list of names are the records that it owes. -/
theorem mem_recordsAt {names : List String} {path : String} {info : RouterInfo}
    (h : tree.list db.path = .ok names) :
    (path, info) ∈ db.recordsAt tree now (names.flatMap (placesUnder tree db.path))
      ↔ db.IsRecord tree now path info := by
  unfold recordsAt
  rw [List.mem_filterMap]
  constructor
  · rintro ⟨⟨dir, name⟩, hplace, hrecord⟩
    obtain ⟨info', hread, hpair⟩ := Option.map_eq_some_iff.mp hrecord
    cases hpair
    obtain ⟨rfl, hmodified, hfresh, hdata⟩ := readDescriptor?_eq_some_iff.mp hread
    obtain ⟨hplace, hnamed⟩ := (mem_places h).mp hplace
    exact ⟨⟨dir, hplace, rfl⟩, hnamed, hmodified, since_le_iff.mp hfresh, hdata⟩
  · rintro ⟨⟨dir, hplace, rfl⟩, hnamed, hmodified, hfresh, hdata⟩
    refine ⟨(dir, info.name), (mem_places h).mpr ⟨hplace, hnamed⟩, ?_⟩
    rw [readDescriptor?_eq_some_iff.mpr ⟨rfl, hmodified, since_le_iff.mpr hfresh, hdata⟩]
    rfl

/-- A netDb that can be listed is scanned. -/
theorem scan_eq {names : List String} (h : tree.list db.path = .ok names) :
    db.scan tree now = .ok ((db.recordsAt tree now
      (names.flatMap (placesUnder tree db.path))).map Prod.snd) := by
  unfold scan
  rw [places_eq h, map_snd_recordsAt]
  rfl

/-- A netDb that cannot be listed is not scanned, and the fault is that of
the listing. -/
theorem scan_eq_error_iff {fault : IoFault} :
    db.scan tree now = .error fault ↔ tree.list db.path = .error fault := by
  cases h : tree.list db.path with
  | ok names =>
    rw [scan_eq h]
    exact iff_of_false nofun nofun
  | error other =>
    unfold scan places
    rw [h]
    constructor
    · intro hsame
      cases hsame
      rfl
    · intro hsame
      cases hsame
      rfl

-- ============================================================ changes

variable {t u : FileTree} {path : String} {place : Location} {info : RouterInfo}

/-- Where the path of a place leads and what the file there is: all that a
record takes from the tree. -/
theorem isRecord_iff :
    db.IsRecord tree now path info ↔ HasDescriptorName info.name
      ∧ now.since info.modified ≤ db.maxAge
      ∧ ∃ dir location mode, path = Path.join dir info.name ∧ db.IsPlace tree dir info.name
        ∧ tree.find path = .ok (location, .file info.data mode info.modified)
        ∧ tree.isBarred location = false := by
  constructor
  · rintro ⟨⟨dir, hplace, hpath⟩, hnamed, hmodified, hfresh, hread⟩
    refine ⟨hnamed, since_le_iff.mpr hfresh, dir, ?_⟩
    obtain ⟨location, mode, modified, hfind, hopen⟩ := FileTree.read_eq_ok_iff.mp hread
    obtain ⟨_, _, _, hfind'⟩ := FileTree.modified?_eq_some_iff.mp hmodified
    rw [hfind] at hfind'
    cases hfind'
    exact ⟨location, mode, hpath, hplace, hfind, hopen⟩
  · rintro ⟨hnamed, hfresh, dir, location, mode, hpath, hplace, hfind, hopen⟩
    exact ⟨⟨dir, hplace, hpath⟩, hnamed,
      FileTree.modified?_eq_some_iff.mpr ⟨location, info.data, mode, hfind⟩,
      since_le_iff.mp hfresh, FileTree.read_eq_ok_iff.mpr ⟨location, mode, _, hfind, hopen⟩⟩

/-- The directory of a place can be listed, and lists the name. -/
theorem exists_namesIn_of_isPlace (h : db.IsPlace t dir name) :
    ∃ location, t.find dir = .ok (location, .directory) ∧ t.isBarred location = false
      ∧ name ∈ t.namesIn location := by
  cases h with
  | inside hlisted hmem _ =>
    obtain ⟨location, hfind, hopen, rfl⟩ := FileTree.list_eq_ok_iff.mp hlisted
    exact ⟨location, hfind, hopen, hmem⟩
  | shelved _ _ _ hopened hmem =>
    obtain ⟨location, hfind, hopen, rfl⟩ := FileTree.list_eq_ok_iff.mp hopened
    exact ⟨location, hfind, hopen, hmem⟩

/-- What is listed are names. -/
private theorem isName_of_isPlace (hwell : t.WellFormed) (h : db.IsPlace t dir name) :
    Path.IsName name := by
  cases h with
  | inside hlisted hmem _ => exact (hwell.list_names hlisted).2 name hmem
  | shelved _ _ _ hopened hmem => exact (hwell.list_names hopened).2 name hmem

-- ========================================================== a lost file

/-- A shelf is a directory and does not change with a file. -/
private theorem isShelf_of_sameBut (same : FileTree.SameBut t u place) :
    db.IsShelf t name ↔ db.IsShelf u name :=
  and_congr_left' (FileTree.isDirectory_of_sameBut same _)

/-- A directory is listed in both trees. -/
private theorem list_of_sameBut (same : FileTree.SameBut t u place) {names : List String}
    (h : t.list path = .ok names) :
    ∃ location, t.find path = .ok (location, .directory) ∧ names = t.namesIn location
      ∧ u.list path = .ok (u.namesIn location) := by
  obtain ⟨location, hfind, hopen, hnames⟩ := FileTree.list_eq_ok_iff.mp h
  have hne : location ≠ place := by
    rintro rfl
    have hleft := same.left
    rw [← FileTree.resolve_node (FileTree.find_eq_ok hfind)] at hleft
    exact hleft
  refine ⟨location, hfind, hnames, FileTree.list_eq_ok_iff.mpr ⟨location, ?_, ?_, rfl⟩⟩
  · exact FileTree.find_directory_of_sameBut same hfind
  · rw [← same.access location hne, hopen]

/-- A place of one tree is one of the other, if its name is still there:
directories and shelves do not change. -/
theorem isPlace_of_sameBut (same : FileTree.SameBut t u place) (hwell : t.WellFormed)
    {location : Location} (hplace : db.IsPlace t dir name)
    (hdir : t.find dir = .ok (location, .directory))
    (hthere : u.nodeAt? (location ++ [name]) ≠ none) : db.IsPlace u dir name := by
  have hname := FileTree.mem_namesIn_iff.mpr hthere
  cases hplace with
  | inside hlisted hmem hno =>
    obtain ⟨root, hroot, -, hlisted⟩ := list_of_sameBut same hlisted
    rw [hdir] at hroot
    cases hroot
    exact .inside hlisted hname fun hshelf => hno ((isShelf_of_sameBut same).mpr hshelf)
  | @shelved names kept shelf _ hlisted hmem hshelf hopened _ =>
    have hshelfName := (hwell.list_names hlisted).2 _ hmem
    obtain ⟨root, hroot, rfl, hlisted'⟩ := list_of_sameBut same hlisted
    obtain ⟨inside, hinside, -, hopened'⟩ := list_of_sameBut same hopened
    rw [hdir] at hinside
    cases hinside
    -- a shelf is a directory or a link, and so is not what has changed
    have hne : root ++ [shelf] ≠ place := by
      intro hsame
      have hplain : FileTree.IsPlain (t.nodeAt? (root ++ [shelf])) := hsame ▸ same.left
      have hlocation := FileTree.find_join hshelfName hroot hplain hdir
      have hnode := FileTree.resolve_node (FileTree.find_eq_ok hdir)
      dsimp only at hnode
      rw [hlocation] at hnode
      rw [← hnode] at hplain
      exact hplain
    have hkept : shelf ∈ u.namesIn root := by
      rw [FileTree.mem_namesIn_iff, ← same.elsewhere _ hne]
      exact FileTree.mem_namesIn_iff.mp hmem
    exact .shelved hlisted' hkept ((isShelf_of_sameBut same).mp hshelf) hopened' hname

/-- A record of a path that leads past the file that has changed is one in
both trees. -/
theorem isRecord_of_sameBut (same : FileTree.SameBut t u place) (hwell : t.WellFormed)
    (h : db.IsRecord t now path info) (past : ∀ node, t.find path ≠ .ok (place, node)) :
    db.IsRecord u now path info := by
  obtain ⟨hnamed, hfresh, dir, location, mode, rfl, hplace, hfind, hopen⟩ := isRecord_iff.mp h
  have hne : location ≠ place := by
    rintro rfl
    exact past _ hfind
  obtain ⟨inside, hdir, -, hmem⟩ := exists_namesIn_of_isPlace hplace
  have hname := isName_of_isPlace hwell hplace
  -- nor is the name on the shelf that of the file that has changed
  have hnew : inside ++ [info.name] ≠ place := by
    intro hsame
    exact hne ((FileTree.find_join hname hdir (hsame ▸ same.left) hfind).trans hsame)
  refine isRecord_iff.mpr ⟨hnamed, hfresh, dir, location, mode, rfl, ?_, ?_, ?_⟩
  · refine isPlace_of_sameBut same hwell hplace hdir ?_
    rw [← same.elsewhere _ hnew]
    exact FileTree.mem_namesIn_iff.mp hmem
  · rw [FileTree.find_of_sameBut same (FileTree.find_eq_ok hfind) hne, hfind]
  · rw [← same.access location hne, hopen]

/-- No record can be had from what is at the place: there is no file, it is
too old, or it is barred. -/
inductive IsLost (db : NetDb) (tree : FileTree) (now : Instant) (place : Location) : Prop
  | gone (missing : tree.nodeAt? place = none)
  | stale {data : Bytes} {mode : Nat} {modified : Instant}
      (file : tree.nodeAt? place = some (.file data mode modified))
      (old : db.maxAge.nanos < now.nanos - modified.nanos)
  | unreadable (barred : tree.isBarred place = true)

/-- No record comes from a place that was lost. -/
theorem IsLost.not_leads (lost : db.IsLost u now place) (h : db.IsRecord u now path info)
    (node : Node) : u.find path ≠ .ok (place, node) := by
  intro hleads
  obtain ⟨-, hfresh, _, location, mode, -, -, hfind, hopen⟩ := isRecord_iff.mp h
  rw [hleads] at hfind
  cases hfind
  have hnode := FileTree.resolve_node (FileTree.find_eq_ok hleads)
  dsimp only at hnode
  -- each way of being lost excludes one of the things that a record asks for
  cases lost with
  | gone missing =>
    rw [missing] at hnode
    cases hnode
  | stale file old =>
    rw [file] at hnode
    cases hnode
    have := since_le_iff.mp hfresh
    split at this <;> omega
  | unreadable barred =>
    rw [hopen] at barred
    cases barred

/-- A file that is lost takes the records of all paths that lead to it
along, and no others. -/
theorem isRecord_of_lost (same : FileTree.SameBut t u place) (hwell : t.WellFormed)
    (hwell' : u.WellFormed) (lost : db.IsLost u now place) :
    db.IsRecord u now path info
      ↔ db.IsRecord t now path info ∧ ∀ node, t.find path ≠ .ok (place, node) := by
  constructor
  · intro h
    have hpast := lost.not_leads h
    refine ⟨isRecord_of_sameBut same.symm hwell' h hpast, ?_⟩
    intro node hleads
    obtain ⟨-, -, dir, location, mode, rfl, hplace, hfind, -⟩ := isRecord_iff.mp h
    -- the path leads to the same place in both trees, and there it is lost
    have hother := FileTree.resolve_of_sameBut same (FileTree.find_eq_ok hleads)
    rw [FileTree.find_eq_ok hfind] at hother
    have hplaces := congrArg FileTree.Place.location (Except.ok.inj hother)
    dsimp only at hplaces
    subst hplaces
    exact hpast _ hfind
  · rintro ⟨h, hpast⟩
    exact isRecord_of_sameBut same hwell h hpast

-- ======================================================== what is left

/-- A shelf that is left was one. -/
private theorem isShelf_of_pruned (pruned : FileTree.Pruned t u) (h : db.IsShelf u name) :
    db.IsShelf t name := by
  obtain ⟨hdirectory, hname⟩ := h
  obtain ⟨location, hfind⟩ := FileTree.isDirectory_iff.mp hdirectory
  exact ⟨FileTree.isDirectory_iff.mpr ⟨location, pruned.find hfind⟩, hname⟩

/-- What a directory lists that is left, it listed before. -/
theorem list_of_pruned (pruned : FileTree.Pruned t u) {names : List String}
    (h : u.list path = .ok names) :
    ∃ before, t.list path = .ok before ∧ ∀ name ∈ names, name ∈ before := by
  obtain ⟨location, hfind, hopen, rfl⟩ := FileTree.list_eq_ok_iff.mp h
  refine ⟨t.namesIn location, FileTree.list_eq_ok_iff.mpr ⟨location, pruned.find hfind, ?_, rfl⟩, ?_⟩
  · rw [← pruned.access, hopen]
  · intro name hname
    obtain ⟨node, hnode⟩ :=
      Option.ne_none_iff_exists'.mp (FileTree.mem_namesIn_iff.mp hname)
    rw [FileTree.mem_namesIn_iff, pruned.kept _ _ hnode]
    exact nofun

/-- Conversely, a directory through which a path still leads is listed,
and lists the next name of that path. -/
theorem list_of_find_join (pruned : FileTree.Pruned t u) (hname : Path.IsName name)
    {names : List String} (listed : t.list dir = .ok names) {found : Location × Node}
    (h : u.find (Path.join dir name) = .ok found) :
    ∃ left, u.list dir = .ok left ∧ name ∈ left := by
  obtain ⟨location, hfind, hopen, -⟩ := FileTree.list_eq_ok_iff.mp listed
  obtain ⟨location', hfind', hmem⟩ := FileTree.find_of_find_join hname
    (FileTree.isWalkable_of_resolve (FileTree.find_eq_ok hfind)) h
  have hsame := pruned.find hfind'
  rw [hfind] at hsame
  cases hsame
  refine ⟨u.namesIn location, FileTree.list_eq_ok_iff.mpr ⟨location, hfind', ?_, rfl⟩, hmem⟩
  rw [pruned.access, hopen]

/-- A place that is left was one before, if its path leads to no
directory. -/
theorem isPlace_of_pruned (pruned : FileTree.Pruned t u) (h : db.IsPlace u dir name)
    (hfile : t.isDirectory (Path.join dir name) = false) : db.IsPlace t dir name := by
  cases h with
  | inside hlisted hmem hno =>
    obtain ⟨before, hbefore, hall⟩ := list_of_pruned pruned hlisted
    refine .inside hbefore (hall _ hmem) fun hshelf => ?_
    rw [hshelf.1] at hfile
    cases hfile
  | shelved hlisted hmem hshelf hopened hin =>
    obtain ⟨before, hbefore, hall⟩ := list_of_pruned pruned hlisted
    obtain ⟨kept, hkept, hallIn⟩ := list_of_pruned pruned hopened
    exact .shelved hbefore (hall _ hmem) (isShelf_of_pruned pruned hshelf) hkept (hallIn _ hin)

/-- A place whose path still leads to something is left. -/
theorem isPlace_of_find (pruned : FileTree.Pruned t u) (hwell : t.WellFormed)
    (h : db.IsPlace t dir name) {found : Location × Node}
    (hfind : u.find (Path.join dir name) = .ok found) : db.IsPlace u dir name := by
  have hname := isName_of_isPlace hwell h
  cases h with
  | inside hlisted hmem hno =>
    obtain ⟨left, hleft, hin⟩ := list_of_find_join pruned hname hlisted hfind
    exact .inside hleft hin fun hshelf => hno (isShelf_of_pruned pruned hshelf)
  | shelved hlisted hmem hshelf hopened _ =>
    obtain ⟨kept, hkept, hin⟩ := list_of_find_join pruned hname hopened hfind
    -- the shelf is still found, so it is still listed and still a shelf
    obtain ⟨location, hshelfFind, -⟩ := FileTree.list_eq_ok_iff.mp hkept
    obtain ⟨left, hleft, hshelfIn⟩ :=
      list_of_find_join pruned ((hwell.list_names hlisted).2 _ hmem) hlisted hshelfFind
    exact .shelved hleft hshelfIn
      ⟨FileTree.isDirectory_iff.mpr ⟨location, hshelfFind⟩, hshelf.2⟩ hkept hin

/-- What is taken out of a tree takes along the records of those paths that
lead nowhere without it, and no others. -/
theorem isRecord_of_pruned (pruned : FileTree.Pruned t u) (hwell : t.WellFormed) :
    db.IsRecord u now path info ↔ db.IsRecord t now path info ∧ u.pathExists path = true := by
  rw [isRecord_iff, isRecord_iff]
  constructor
  · rintro ⟨hnamed, hfresh, dir, location, mode, rfl, hplace, hfind, hopen⟩
    have hbefore := pruned.find hfind
    -- the path led to a file before, so it was no shelf that has become something else
    have hfile : t.isDirectory (Path.join dir info.name) = false := by
      unfold FileTree.isDirectory
      rw [hbefore]
    refine ⟨⟨hnamed, hfresh, dir, location, mode, rfl, isPlace_of_pruned pruned hplace hfile, hbefore,
      ?_⟩, ?_⟩
    · rw [← pruned.access, hopen]
    · unfold FileTree.pathExists
      rw [hfind]
      rfl
  · rintro ⟨⟨hnamed, hfresh, dir, location, mode, rfl, hplace, hfind, hopen⟩, hexists⟩
    obtain ⟨⟨left, node⟩, hfound⟩ : ∃ found, u.find (Path.join dir info.name) = .ok found := by
      unfold FileTree.pathExists at hexists
      cases hleft : u.find (Path.join dir info.name) with
      | error fault =>
        rw [hleft] at hexists
        cases hexists
      | ok found => exact ⟨found, rfl⟩
    have hsame := pruned.find hfound
    rw [hfind] at hsame
    cases hsame
    refine ⟨hnamed, hfresh, dir, location, mode, rfl, isPlace_of_find pruned hwell hplace hfound,
      hfound, ?_⟩
    rw [pruned.access, hopen]

-- ============================================================== verdict

/-- A scan fails exactly if the netDb cannot be listed. Otherwise it gives
one record for each path of a descriptor that is fresh and can be read,
and nothing else. A file that becomes unreadable, too old or absent takes
along the records of all paths that lead to it and leaves all others as
they were; so does whatever else is taken out of the tree, such as a link,
with the records of the paths that lead nowhere without it. -/
theorem scan_yields_fresh_descriptors :
    (∀ (db : NetDb) (tree : FileTree) (now : Instant) (fault : IoFault),
      db.scan tree now = .error fault ↔ tree.list db.path = .error fault)
      ∧ (∀ (db : NetDb) (tree : FileTree) (now : Instant) (names : List String),
        tree.WellFormed → tree.list db.path = .ok names →
          ∃ records : List (String × RouterInfo),
            db.scan tree now = .ok (records.map Prod.snd) ∧ (records.map Prod.fst).Nodup
              ∧ ∀ path info, (path, info) ∈ records ↔ db.IsRecord tree now path info)
      ∧ (∀ (db : NetDb) (t u : FileTree) (now : Instant) (place : Location),
        FileTree.SameBut t u place → t.WellFormed → u.WellFormed → db.IsLost u now place →
          ∀ path info, db.IsRecord u now path info
            ↔ db.IsRecord t now path info ∧ ∀ node, t.find path ≠ .ok (place, node))
      ∧ ∀ (db : NetDb) (t u : FileTree) (now : Instant), FileTree.Pruned t u → t.WellFormed →
        ∀ path info, db.IsRecord u now path info
          ↔ db.IsRecord t now path info ∧ u.pathExists path = true := by
  refine ⟨fun _ _ _ _ => scan_eq_error_iff, ?listed,
    fun _ _ _ _ _ same hwell hwell' lost _ _ => isRecord_of_lost same hwell hwell' lost,
    fun _ _ _ _ pruned hwell _ _ => isRecord_of_pruned pruned hwell⟩
  intro db tree now names hwell hlist
  exact ⟨_, scan_eq hlist, (nodup_paths hwell hlist).sublist (map_fst_recordsAt_sublist _),
    fun path info => mem_recordsAt hlist⟩

/-- A netDb with one shelf, and a descriptor on it. -/
def shelfTree : FileTree where
  nodes :=
    [(["db"], .directory), (["db", "rA"], .directory),
      (["db", "rA", "routerInfo-b.dat"], .file [2] 0o644 ⟨10⟩)]
  workingDirectory := []

/-- The same with a second descriptor beside the shelf. -/
def fullTree : FileTree :=
  { shelfTree with
    nodes := (["db", "routerInfo-a.dat"], .file [1] 0o644 ⟨0⟩) :: shelfTree.nodes }

def smallDb : NetDb := ⟨"db", ⟨1000⟩⟩

private theorem missing_shelfTree : shelfTree.nodeAt? ["db", "routerInfo-a.dat"] = none := by
  decide +kernel

/-- The small netDb lists a descriptor and a shelf. -/
private theorem list_fullTree : fullTree.list smallDb.path = .ok ["routerInfo-a.dat", "rA"] := by
  decide +kernel

private theorem not_isShelf_fullTree : ¬ smallDb.IsShelf fullTree "routerInfo-a.dat" := by
  have hfile : fullTree.isDirectory (Path.join smallDb.path "routerInfo-a.dat") = false := by
    decide +kernel
  rintro ⟨hdirectory, -⟩
  rw [hfile] at hdirectory
  cases hdirectory

/-- The two trees differ in one file, which one of them does not have. -/
theorem sameBut_shelfTree :
    FileTree.SameBut fullTree shelfTree ["db", "routerInfo-a.dat"] := by
  constructor
  case start => rfl
  case elsewhere =>
    intro location hne
    unfold FileTree.nodeAt?
    split
    · rfl
    · show List.lookup location (_ :: _) = _
      rw [List.lookup_cons, beq_false_of_ne hne]
  case access => exact fun _ _ => rfl
  case left => trivial
  case right =>
    rw [missing_shelfTree]
    trivial

/-- The tree with the shelf alone is the full one without the other
descriptor. -/
theorem pruned_shelfTree : FileTree.Pruned fullTree shelfTree where
  start := rfl
  access _ := rfl
  kept := by
    intro location node hnode
    rw [sameBut_shelfTree.elsewhere, hnode]
    rintro rfl
    rw [missing_shelfTree] at hnode
    cases hnode

/-- The descriptor beside the shelf is found, and taking it away takes its
record along and no other. -/
theorem scan_yields_fresh_descriptors_fullTree :
    ∃ records : List (String × RouterInfo),
      smallDb.scan fullTree ⟨500⟩ = .ok (records.map Prod.snd)
        ∧ ("db/routerInfo-a.dat", ⟨"routerInfo-a.dat", ⟨0⟩, [1]⟩) ∈ records
        ∧ (∀ path info, smallDb.IsRecord shelfTree ⟨500⟩ path info
          ↔ (path, info) ∈ records
            ∧ ∀ node, fullTree.find path ≠ .ok (["db", "routerInfo-a.dat"], node))
        ∧ ∀ path info, smallDb.IsRecord shelfTree ⟨500⟩ path info
          ↔ (path, info) ∈ records ∧ shelfTree.pathExists path = true := by
  obtain ⟨-, hlisted, hlost, hpruned⟩ := scan_yields_fresh_descriptors
  have hwell : fullTree.WellFormed := by decide +kernel
  have hwell' : shelfTree.WellFormed := by decide +kernel
  obtain ⟨records, hscan, -, hmem⟩ := hlisted smallDb fullTree ⟨500⟩ _ hwell list_fullTree
  refine ⟨records, hscan, (hmem _ _).mpr ?record, ?others, ?left⟩
  case record =>
    refine ⟨⟨_, .inside list_fullTree List.mem_cons_self not_isShelf_fullTree, ?_⟩, ?_, ?_, ?_, ?_⟩
    all_goals decide +kernel
  case others =>
    intro path info
    rw [hmem]
    exact hlost _ _ _ _ _ sameBut_shelfTree hwell hwell' (.gone missing_shelfTree) path info
  case left =>
    intro path info
    rw [hmem]
    exact hpruned _ _ _ _ pruned_shelfTree hwell path info

/-- A netDb with a descriptor, and a link to it. -/
def pairTree : FileTree where
  nodes :=
    [(["db"], .directory), (["db", "routerInfo-a.dat"], .file [1] 0o644 ⟨0⟩),
      (["db", "routerInfo-b.dat"], .link "routerInfo-a.dat")]
  workingDirectory := []

/-- A descriptor that is lost is not the only one to go, where a link leads
to it; and what is on a shelf that cannot be listed is passed over, even
if it can be read. -/
theorem linked_and_shelved_descriptors_go_too :
    smallDb.scan pairTree ⟨500⟩
        = .ok [⟨"routerInfo-a.dat", ⟨0⟩, [1]⟩, ⟨"routerInfo-b.dat", ⟨0⟩, [1]⟩]
      ∧ smallDb.scan
          { pairTree with
            nodes := [(["db"], .directory), (["db", "routerInfo-b.dat"], .link "routerInfo-a.dat")] }
          ⟨500⟩ = .ok []
      ∧ smallDb.scan
          { pairTree with
            nodes :=
              [(["db"], .directory), (["db", "routerInfo-a.dat"], .file [1] 0o644 ⟨-501⟩),
                (["db", "routerInfo-b.dat"], .link "routerInfo-a.dat")] }
          ⟨500⟩ = .ok []
      ∧ smallDb.scan (pairTree.bar ["db", "routerInfo-a.dat"]) ⟨500⟩ = .ok []
      ∧ smallDb.scan shelfTree ⟨500⟩ = .ok [⟨"routerInfo-b.dat", ⟨10⟩, [2]⟩]
      ∧ (shelfTree.bar ["db", "rA"]).read "db/rA/routerInfo-b.dat" = .ok [2]
      ∧ smallDb.scan (shelfTree.bar ["db", "rA"]) ⟨500⟩ = .ok [] := by
  decide +kernel

end NetDb

end RouterSeed

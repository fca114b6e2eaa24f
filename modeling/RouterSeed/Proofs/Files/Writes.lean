/-
Many files written into one directory.

Each of them ends up at a place with its own name (`write_of_plain`). So
a file that is there stays as it is while files with other names are
written (`Holds.of_writes`), and from there comes, by induction on the
list, that nothing that was written is lost (`writtenIn_changeAll`).

All of this asks that no link has one of the names: a link would be
followed, and may lead two names to one file. That a directory has one of
them need not be excluded, for writing to it fails.

Consumed by the proofs about stored bundles.
-/
import RouterSeed.Proofs.Files.Listing
import RouterSeed.Proofs.Files.Rooted

namespace RouterSeed

/-- Whether a node is a link. -/
def Node.isLink : Node → Bool
  | .link _ => true
  | _ => false

namespace FileTree

variable {t u after : FileTree} {place : Location} {path dir : String} {now : Instant}

-- =============================================================== links

/-- The path does not end in a link. -/
def NoLinkAt (t : FileTree) (path : String) : Prop :=
  ∀ found, t.resolve path false = .ok found → NoLink found.node

private theorem noLink_of_isPlain {node? : Option Node} (h : IsPlain node?) : NoLink node? := by
  rintro target rfl
  exact h

/-- A file that is put somewhere is no link. -/
theorem NoLinkAt.of_sameBut (h : t.NoLinkAt path) (same : SameBut t u place) :
    u.NoLinkAt path :=
  forall_resolve_of_sameBut (fun _ => noLink_of_isPlain) h same

/-- Whatever can be written to and is no link is a file, or will be. -/
theorem NoLinkAt.isPlainAt {data : Bytes} (h : t.NoLinkAt path)
    (hwrite : t.write now path data = .ok u) : t.IsPlainAt path := by
  obtain ⟨-, found, _, hfound, hfile, -, -⟩ := write_eq_ok hwrite
  have hfalse := resolve_false_of_true hfound h
  intro other hother
  rw [hfalse] at hother
  cases hother
  exact isPlain_of_noLink hfile (h found hfalse)

/-- Where there are no links at all, no path ends in one. -/
theorem noLinkAt_of_nodes (h : ∀ entry ∈ t.nodes, entry.2.isLink = false) (path : String) :
    t.NoLinkAt path := by
  intro found hfound target hlink
  rw [resolve_node hfound] at hlink
  unfold FileTree.nodeAt? at hlink
  split at hlink
  · cases hlink
  · obtain ⟨before, later, hnodes, -⟩ := List.lookup_eq_some_iff.mp hlink
    have hfile : (Node.link target).isLink = false := by
      refine h (found.location, .link target) ?_
      rw [hnodes]
      exact List.mem_append_right _ List.mem_cons_self
    cases hfile

-- ============================================================ directories

/-- Making a directory that is there changes nothing. -/
theorem makeDirectories_of_isDirectory (h : t.isDirectory path = true) :
    t.makeDirectories path = (.ok (), t) := by
  obtain ⟨location, hfind⟩ := isDirectory_iff.mp h
  -- what the path ends in, the directory or a link to it, is in the way
  have hthere : ∃ found, t.resolve path false = .ok found ∧ found.node ≠ none := by
    by_cases hlink : t.NoLinkAt path
    · exact ⟨_, resolve_false_of_true (find_eq_ok hfind) hlink, nofun⟩
    · unfold NoLinkAt NoLink at hlink
      simp only [not_forall, not_not] at hlink
      obtain ⟨found, hfound, target, hnode⟩ := hlink
      exact ⟨found, hfound, by rw [hnode]; nofun⟩
  obtain ⟨found, hfound, hsome⟩ := hthere
  have hmade : t.makeDirectory path = .error .alreadyExists := by
    unfold makeDirectory
    rw [hfound]
    dsimp only [bind, Except.bind]
    split
    · rfl
    next hnone => exact absurd hnone hsome
  unfold makeDirectories makeDirectoriesUpTo
  split
  · rfl
  · rw [hmade]

/-- A directory is made where there was nothing, and only if it was not
there already. -/
theorem nodeAt?_makeDirectories (h : t.makeDirectories path = (.ok (), u)) (place : List String) :
    u.nodeAt? place = t.nodeAt? place
      ∨ t.isDirectory path = false ∧ t.nodeAt? place = none
        ∧ u.nodeAt? place = some .directory := by
  cases hthere : t.isDirectory path with
  | true =>
    rw [makeDirectories_of_isDirectory hthere] at h
    cases h
    exact .inl rfl
  | false =>
    have hgrown := grown_makeDirectories t path
    rw [h] at hgrown
    rcases hgrown.nodes place with hold | ⟨hnone, hnew⟩
    · exact .inl hold
    · exact .inr ⟨rfl, hnone, hnew⟩

-- ================================================================= files

/-- The changes that write files, given by name and content, into a
directory. -/
def writing (dir : String) (files : List (String × Bytes)) : List FileChange :=
  files.map fun file => .write (Path.join dir file.1) file.2

/-- The files are in the directory, and all else is as it was. -/
structure WrittenIn (dir : String) (files : List (String × Bytes)) (now : Instant)
    (before after : FileTree) : Prop where
  holds : ∀ file ∈ files, ∃ place mode, place.getLast? = some file.1
    ∧ Holds after (Path.join dir file.1) place file.2 mode now
  others : ∀ place, (∀ file ∈ files, ∀ found,
      after.resolve (Path.join dir file.1) true = .ok found → found.location ≠ place) →
    after.nodeAt? place = before.nodeAt? place

variable {files : List (String × Bytes)}

/-- Writing a file puts it at a place of its name, whatever was there. -/
private theorem write_join {name : String} {data : Bytes} (hname : Path.IsName name)
    (hlink : t.NoLinkAt (Path.join dir name))
    (h : t.change now (.write (Path.join dir name) data) = (.ok (), u)) :
    ∃ place mode, place.getLast? = some name ∧ SameBut t u place
      ∧ Holds u (Path.join dir name) place data mode now :=
  write_of_plain (Path.endsIn_join hname dir) (hlink.isPlainAt (change_write_ok h))
    (change_write_ok h)

/-- A file stays while files with other names are written. -/
theorem Holds.of_writes {data : Bytes} {mode : Nat} {modified : Instant} {name : String}
    (names : ∀ file ∈ files, Path.IsName file.1)
    (links : ∀ file ∈ files, t.NoLinkAt (Path.join dir file.1))
    (h : t.changeAll now (writing dir files) = (.ok (), after))
    (hholds : Holds t path place data mode modified) (hlast : place.getLast? = some name)
    (hother : name ∉ files.map Prod.fst) : Holds after path place data mode modified := by
  induction files generalizing t with
  | nil =>
    cases h
    exact hholds
  | cons file files ih =>
    rw [List.map_cons, List.mem_cons, not_or] at hother
    obtain ⟨made, hmade, hrest⟩ := changeAll_cons_ok h
    obtain ⟨other, _, hotherLast, same, -⟩ := write_join (names file List.mem_cons_self)
      (links file List.mem_cons_self) hmade
    -- files of different names are in different places
    have hplaces : place ≠ other := by
      rintro rfl
      rw [hlast] at hotherLast
      exact hother.1 (Option.some.inj hotherLast)
    refine ih ?_ ?_ hrest (hholds.of_sameBut same hplaces) hother.2
    · exact fun later hlater => names later (List.mem_cons_of_mem file hlater)
    · exact fun later hlater => (links later (List.mem_cons_of_mem file hlater)).of_sameBut same

/-- Files with different names are all there when they have been
written. -/
theorem writtenIn_changeAll (distinct : (files.map Prod.fst).Nodup)
    (names : ∀ file ∈ files, Path.IsName file.1)
    (links : ∀ file ∈ files, t.NoLinkAt (Path.join dir file.1))
    (h : t.changeAll now (writing dir files) = (.ok (), after)) :
    WrittenIn dir files now t after := by
  induction files generalizing t with
  | nil =>
    cases h
    exact ⟨nofun, fun _ _ => rfl⟩
  | cons file files ih =>
    rw [List.map_cons, List.nodup_cons] at distinct
    obtain ⟨made, hmade, hrest⟩ := changeAll_cons_ok h
    obtain ⟨place, mode, hlast, same, hholds⟩ := write_join (names file List.mem_cons_self)
      (links file List.mem_cons_self) hmade
    have hnames : ∀ later ∈ files, Path.IsName later.1 :=
      fun later hlater => names later (List.mem_cons_of_mem file hlater)
    have hlinks : ∀ later ∈ files, made.NoLinkAt (Path.join dir later.1) :=
      fun later hlater => (links later (List.mem_cons_of_mem file hlater)).of_sameBut same
    -- the first file is there, and the others pass it by
    have hfirst : Holds after (Path.join dir file.1) place file.2 mode now :=
      hholds.of_writes hnames hlinks hrest hlast distinct.1
    have hwritten := ih distinct.2 hnames hlinks hrest
    constructor
    case holds =>
      intro written hmem
      rcases List.mem_cons.mp hmem with rfl | hlater
      · exact ⟨place, mode, hlast, hfirst⟩
      · exact hwritten.holds written hlater
    case others =>
      intro elsewhere hne
      rw [hwritten.others elsewhere fun later hlater => hne later (List.mem_cons_of_mem file hlater)]
      exact (same.elsewhere elsewhere (hne file List.mem_cons_self _ hfirst.leads).symm).symm

end FileTree

end RouterSeed

/-
What is directly inside a directory, and the paths to it.

A directory lists a name exactly if something stands one name below it
(`mem_namesIn`). The path of the directory with that name joined to it
leads there, unless a link does or the path is too long to be followed
(`find_join`): walking comes to the directory first and takes one step
more, however many links there were on the way (`walk_append`).
-/
import Mathlib.Data.List.Nodup
import RouterSeed.Proofs.Identity.FileNames

namespace RouterSeed

namespace FileTree

/-- Nothing stands twice at one location, and every name is one. -/
structure WellFormed (t : FileTree) : Prop where
  distinct : (t.nodes.map Prod.fst).Nodup
  named : ∀ location ∈ t.nodes.map Prod.fst, ∀ name ∈ location, Path.IsName name

instance (t : FileTree) : Decidable t.WellFormed :=
  decidable_of_iff ((t.nodes.map Prod.fst).Nodup
      ∧ ∀ location ∈ t.nodes.map Prod.fst, ∀ name ∈ location, Path.IsName name)
    ⟨fun h => ⟨h.1, h.2⟩, fun h => ⟨h.distinct, h.named⟩⟩

variable {t u : FileTree} {name path : String} {location : Location} {names : List String}

/-- What is directly inside a location has one name more. -/
private theorem eq_append_of_inside {place : Location}
    (h : (if place.length = location.length + 1 ∧ place.take location.length = location then
      place.getLast? else none) = some name) : place = location ++ [name] := by
  split at h
  next hinside =>
    obtain ⟨before, rfl⟩ := List.getLast?_eq_some_iff.mp h
    obtain ⟨hlength, htake⟩ := hinside
    rw [List.length_append, List.length_singleton, Nat.add_right_cancel_iff] at hlength
    rw [List.take_left' hlength] at htake
    rw [htake]
  next => cases h

/-- A name is in a directory if the tree has a node there. -/
private theorem mem_namesIn : name ∈ t.namesIn location ↔ location ++
    [name] ∈ t.nodes.map Prod.fst := by
  unfold namesIn
  rw [List.mem_filterMap, List.mem_map]
  constructor
  · rintro ⟨entry, hentry, hname⟩
    exact ⟨entry, hentry, eq_append_of_inside hname⟩
  · rintro ⟨⟨place, node⟩, hentry, rfl⟩
    refine ⟨_, hentry, ?_⟩
    simp

/-- Every location is listed once, so every name is. -/
private theorem WellFormed.nodup_namesIn (h : t.WellFormed) (location : Location) :
    (t.namesIn location).Nodup := by
  have hkeys : t.namesIn location = (t.nodes.map Prod.fst).filterMap fun place =>
      if place.length = location.length + 1 ∧ place.take location.length = location then
        place.getLast?
      else none := by
    rw [List.filterMap_map]
    rfl
  rw [hkeys]
  refine h.distinct.filterMap ?_
  intro place other name hplace hother
  rw [eq_append_of_inside hplace, eq_append_of_inside hother]

/-- What a listing gives are names, each of them once. -/
theorem WellFormed.list_names (h : t.WellFormed) (hlist : t.list path = .ok names) :
    names.Nodup ∧ ∀ name ∈ names, Path.IsName name := by
  unfold list at hlist
  split at hlist
  next location hfind =>
    split at hlist
    · cases hlist
    · cases hlist
      refine ⟨h.nodup_namesIn location, fun name hname => ?_⟩
      exact h.named _ (mem_namesIn.mp hname) name (by simp)
  next => cases hlist
  next => cases hlist

-- =============================================================== paths

/-- How a stroll goes on that has come to a directory, or to a link. -/
def Stop.goOn (t : FileTree) (more : List String) : Stop → Except IoFault Stop
  | .arrived place => t.stroll true place.location more
  | .link here target rest => .ok (.link here target (rest ++ more))

/-- A stroll to a directory goes on with what comes after it; one that stops
at a link leaves that for later. -/
private theorem stroll_append {here : Location} {path : List String} {stop : Stop}
    (more : List String)
    (h : t.stroll true here path = .ok stop)
    (hdirectory : ∀ place, stop = .arrived place → place.node = some .directory) :
    t.stroll true here (path ++ more) = stop.goOn t more := by
  induction strolls_of_stroll h with
  | arrives here => rfl
  | stays directory rest ih =>
    rw [List.cons_append, stroll_dot directory, ih rest.stroll_eq hdirectory]
  | leaves directory rest ih =>
    rw [List.cons_append, stroll_dots directory, ih rest.stroll_eq hdirectory]
  | misses => cases hdirectory _ rfl
  | meets _ _ _ halts => cases halts
  | turns directory step link =>
    rw [List.cons_append, stroll_link directory step link, if_neg (by simp)]
    rfl
  | enters directory step present solid rest ih =>
    rw [List.cons_append, stroll_into directory step present solid, ih rest.stroll_eq hdirectory]

/-- Two strolls that stop alike are the same walk. -/
private theorem walk_congr {links : Nat} {here : Location} {path other : List String}
    (h : t.stroll true here path = t.stroll true location other) :
    t.walk true links here path = t.walk true links location other := by
  cases links with
  | zero => rw [walk, walk, h]
  | succ links => rw [walk, walk, h]

/-- A walk that goes on behind a directory, with the links that are left. -/
private theorem walk_append {links : Nat} {here : Location} {path : List String}
    (more : List String)
    (h : t.walk true links here path = .ok ⟨location, some .directory⟩) :
    ∃ left, t.walk true links here (path ++ more) = t.walk true left location more := by
  have hwalks := walks_of_walk h
  clear h
  induction hwalks with
  | @arrives links here path hstroll =>
    refine ⟨links, walk_congr (stroll_append more hstroll ?_)⟩
    intro place hplace
    cases hplace
    rfl
  | follows hstroll _ ih =>
    obtain ⟨left, hleft⟩ := ih
    refine ⟨left, ?_⟩
    have hmore := stroll_append more hstroll fun place hplace => by cases hplace
    rw [walk_of_link hmore, ← List.append_assoc, hleft]

/-- What is found is where the path leads. -/
theorem find_eq_ok {node : Node} (h : t.find path = .ok (location, node)) :
    t.resolve path true = .ok ⟨location, some node⟩ := by
  unfold find at h
  cases hresolve : t.resolve path true with
  | error fault =>
    rw [hresolve] at h
    cases h
  | ok found =>
    obtain ⟨place, node?⟩ := found
    rw [hresolve] at h
    dsimp only [bind, Except.bind] at h
    split at h
    · cases h
    · cases h
      rfl
    -- a file must not be followed by a slash
    · split at h
      · cases h
      · cases h
        rfl

/-- Where a path leads to a directory, a slash at its end is no matter. -/
theorem find_of_resolve_directory (h : t.resolve path true = .ok ⟨location, some .directory⟩) :
    t.find path = .ok (location, .directory) := by
  unfold find
  rw [h]
  rfl

/-- What can be read is a file that is not barred. -/
theorem read_eq_ok_iff {data : Bytes} :
    t.read path = .ok data ↔ ∃ location mode modified,
      t.find path = .ok (location, .file data mode modified) ∧ t.isBarred location = false := by
  unfold read
  split
  next location data' mode modified hfind =>
    constructor
    · intro h
      split at h
      · cases h
      next hopen =>
        cases h
        exact ⟨location, mode, modified, hfind, Bool.eq_false_iff.mpr hopen⟩
    · rintro ⟨other, _, _, hother, hopen⟩
      rw [hfind] at hother
      cases hother
      rw [hopen, if_neg Bool.false_ne_true]
  -- what is found is a directory
  next _ _ hno hfind =>
    refine iff_of_false nofun ?_
    rintro ⟨other, mode, modified, hother, -⟩
    rw [hfind] at hother
    cases hother
    exact hno _ _ _ rfl
  next fault hfault =>
    refine iff_of_false nofun ?_
    rintro ⟨other, _, _, hother, -⟩
    rw [hfault] at hother
    cases hother

/-- What has a time is a file, barred or not. -/
theorem modified?_eq_some_iff {modified : Instant} :
    t.modified? path = some modified
      ↔ ∃ location data mode, t.find path = .ok (location, .file data mode modified) := by
  unfold modified?
  split
  next location data mode modified' hfind =>
    constructor
    · intro h
      cases h
      exact ⟨location, data, mode, hfind⟩
    · rintro ⟨other, _, _, hother⟩
      rw [hfind] at hother
      cases hother
      rfl
  next hno =>
    refine iff_of_false nofun ?_
    rintro ⟨location, data, mode, hfind⟩
    exact hno _ _ _ _ hfind

/-- One step to what is no link. -/
private theorem walk_plain {links : Nat} {found : Place} (hname : Path.IsName name)
    (hplain : IsPlain (t.nodeAt? (location ++ [name])))
    (h : t.walk true links location [name] = .ok found) : found.location = location ++ [name] := by
  have hstop : ∀ stop, t.stroll true location [name] = .ok stop →
      stop = .arrived ⟨location ++ [name], t.nodeAt? (location ++ [name])⟩ := fun stop hstop =>
    ((strolls_of_stroll hstop).eq_of_plain hname.not_dot hname.not_dots hplain).2
  cases walks_of_walk h with
  | arrives hstroll =>
    cases hstop _ hstroll
    rfl
  | follows hstroll => cases hstop _ hstroll

/-- Joining a name to the path of a directory leads to what has that name
in it, if that is no link. -/
theorem find_join {dir : String} {place : Location} {node : Node} (hname : Path.IsName name)
    (hdir : t.find dir = .ok (location, .directory))
    (hplain : IsPlain (t.nodeAt? (location ++ [name])))
    (h : t.find (Path.join dir name) = .ok (place, node)) : place = location ++ [name] := by
  have hresolve := find_eq_ok hdir
  have hjoined := find_eq_ok h
  obtain ⟨hnames, habsolute⟩ := Path.join_of_isName hname dir
  have hne : dir ≠ "" := by
    rintro rfl
    cases hresolve
  rw [resolve_eq_ok hresolve] at hresolve
  rw [resolve_eq_ok hjoined, hnames, habsolute hne] at hjoined
  obtain ⟨left, hleft⟩ := walk_append [name] hresolve
  rw [hleft] at hjoined
  exact walk_plain hname hplain hjoined

-- ============================================================= changes

variable {place : Location}

/-- A path that leads elsewhere leads there in both trees. -/
theorem find_of_sameBut (same : SameBut t u place) {found : Place}
    (h : t.resolve path true = .ok found) (hne : found.location ≠ place) :
    u.find path = t.find path := by
  have hother := resolve_of_sameBut same h
  rw [← same.elsewhere _ hne, ← resolve_node h] at hother
  unfold find
  rw [h, hother]

/-- A directory is one in both of two trees that are the same but for a
file. -/
theorem find_directory_of_sameBut (same : SameBut t u place)
    (h : t.find path = .ok (location, .directory)) : u.find path = .ok (location, .directory) := by
  have hresolve := find_eq_ok h
  have hne : location ≠ place := by
    rintro rfl
    have hleft := same.left
    rw [← resolve_node hresolve] at hleft
    exact hleft
  rw [find_of_sameBut same hresolve hne, h]

/-- A directory is one that is found. -/
theorem isDirectory_iff : t.isDirectory path = true
    ↔ ∃ location, t.find path = .ok (location, .directory) := by
  unfold isDirectory
  split
  next location hfind => exact iff_of_true rfl ⟨location, hfind⟩
  next hno =>
    refine iff_of_false nofun ?_
    rintro ⟨location, hfind⟩
    exact hno _ hfind

/-- Directories do not come or go with a file. -/
theorem isDirectory_of_sameBut (same : SameBut t u place) (path : String) :
    t.isDirectory path = true ↔ u.isDirectory path = true := by
  rw [isDirectory_iff, isDirectory_iff]
  exact ⟨fun ⟨location, h⟩ => ⟨location, find_directory_of_sameBut same h⟩,
    fun ⟨location, h⟩ => ⟨location, find_directory_of_sameBut same.symm h⟩⟩

/-- A directory is listed if it is found and is not barred. -/
theorem list_eq_ok_iff :
    t.list path = .ok names
      ↔ ∃ location, t.find path = .ok (location, .directory) ∧ t.isBarred location = false
        ∧ names = t.namesIn location := by
  unfold list
  split
  next location hfind =>
    constructor
    · intro h
      split at h
      · cases h
      next hopen =>
        cases h
        exact ⟨location, hfind, Bool.eq_false_iff.mpr hopen, rfl⟩
    · rintro ⟨other, hother, hopen, rfl⟩
      rw [hfind] at hother
      cases hother
      rw [hopen, if_neg Bool.false_ne_true]
  next _ hno hfind =>
    refine iff_of_false nofun ?_
    rintro ⟨other, hother, -⟩
    rw [hfind] at hother
    exact hno other (Except.ok.inj hother)
  next fault hfault =>
    refine iff_of_false nofun ?_
    rintro ⟨other, hother, -⟩
    rw [hfault] at hother
    cases hother

/-- A name is listed if something is there. -/
theorem mem_namesIn_iff : name ∈ t.namesIn location ↔ t.nodeAt? (location ++ [name]) ≠ none := by
  have hne : location ++ [name] ≠ [] := by simp
  rw [mem_namesIn, nodeAt?, if_neg hne, ← Option.isSome_iff_ne_none, List.lookup_isSome_iff,
    List.mem_map]
  constructor
  · rintro ⟨entry, hmem, hsame⟩
    exact ⟨entry, hmem, beq_iff_eq.mpr hsame.symm⟩
  · rintro ⟨entry, hmem, hsame⟩
    exact ⟨entry, hmem, (beq_iff_eq.mp hsame).symm⟩

end FileTree

end RouterSeed

/-
Where paths lead after a file was written.

What one name of a path does is said once: `Strolls` has a case for each
way to go on or to stop, and `Walks` one for each link that is followed.
Every fact about paths is an induction on one of the two.

A file is a dead end: no path leads through it, and none leads through a
name that is missing. So a tree in which one place holds another file,
or a file where there was none, takes every path to the same place
(`walk_of_sameBut`), and only the node there may be another one. The
relation is symmetric, which is what lets a path be followed in the tree
before a change by what is known after it.

A path that ends in a name ends at a place of that name, unless a link
stands there (`getLast?_location_walk`). Two names in one directory are
then two places without asking which directory it is.

Consumed by Changes and Listing.
-/
import RouterSeed.Files.Tree

/-- The last name of the path is `name`, and not one of the dots. -/
structure RouterSeed.Path.EndsIn (path name : String) : Prop where
  names : ∃ before, RouterSeed.Path.names path = before ++ [name]
  not_dot : name ≠ "."
  not_dots : name ≠ ".."

namespace RouterSeed.FileTree

variable {t u : FileTree} {place location : Location} {node : Node} {follow : Bool} {links : Nat}
  {here : Location} {path : List String}

-- =============================================================== nodes

/-- Replacing the node of one location leaves the others. -/
private theorem lookup_replace (nodes : List (Location × Node)) (location place : Location)
    (node : Node) :
    (nodes.map fun entry => if entry.1 = location then (location, node) else entry).lookup place
      = if place = location then (nodes.lookup place).map fun _ => node
        else nodes.lookup place := by
  induction nodes with
  | nil => simp
  | cons entry nodes ih =>
    obtain ⟨key, old⟩ := entry
    rw [List.map_cons]
    by_cases hkey : key = location
    · subst hkey
      by_cases hplace : place = key
      · simp [hplace]
      · have hne : (place == key) = false := beq_false_of_ne hplace
        rw [if_pos rfl, List.lookup_cons, List.lookup_cons, hne, ih, if_neg hplace]
    · rw [if_neg hkey, List.lookup_cons, List.lookup_cons, ih]
      by_cases hplace : place = key
      · subst hplace
        simp [hkey]
      · have hne : (place == key) = false := beq_false_of_ne hplace
        rw [hne]

/-- What was put somewhere is there. -/
theorem nodeAt?_put_self (h : location ≠ []) (t : FileTree) (node : Node) :
    (t.put location node).nodeAt? location = some node := by
  unfold nodeAt? put
  rw [if_neg h]
  split
  -- either the location is written over, or the node is added at the end
  next hany =>
    dsimp only
    rw [lookup_replace, if_pos rfl]
    obtain ⟨entry, hentry, hkey⟩ := List.any_eq_true.mp hany
    have hsome : (t.nodes.lookup location).isSome = true :=
      List.lookup_isSome_iff.mpr ⟨entry, hentry, beq_iff_eq.mpr (of_decide_eq_true hkey).symm⟩
    obtain ⟨old, hold⟩ := Option.isSome_iff_exists.mp hsome
    rw [hold]
    rfl
  next hany =>
    have hnone : t.nodes.lookup location = none := by
      rw [List.lookup_eq_none_iff]
      intro entry hentry
      rw [bne_iff_ne]
      intro hkey
      exact hany (List.any_eq_true.mpr ⟨entry, hentry, decide_eq_true hkey.symm⟩)
    dsimp only
    rw [List.lookup_append, hnone, Option.none_or, List.lookup_cons_self]

/-- Putting a node changes nothing elsewhere. -/
theorem nodeAt?_put_of_ne (h : place ≠ location) (t : FileTree) (node : Node) :
    (t.put location node).nodeAt? place = t.nodeAt? place := by
  have hne : (place == location) = false := beq_false_of_ne h
  unfold nodeAt? put
  split
  · rfl
  split
  · dsimp only
    rw [lookup_replace, if_neg h]
  · dsimp only
    rw [List.lookup_append, List.lookup_cons, hne]
    simp

@[simp] theorem workingDirectory_put (t : FileTree) (location : Location) (node : Node) :
    (t.put location node).workingDirectory = t.workingDirectory := by
  unfold put
  split <;> rfl

@[simp] theorem isBarred_put (t : FileTree) (location place : Location) (node : Node) :
    (t.put location node).isBarred place = t.isBarred place := by
  unfold put
  split <;> rfl

-- ============================================================= strolls

/-- A name that is looked up: no dots, and not too long. -/
structure IsStep (name : String) : Prop where
  not_dot : name ≠ "."
  not_dots : name ≠ ".."
  short : name.utf8ByteSize ≤ maxNameLength

section

variable {name target : String} {stop : Stop}

theorem stroll_dot (directory : t.nodeAt? here = some .directory) :
    t.stroll follow here ("." :: path) = t.stroll follow here path := by
  rw [stroll, directory, if_pos rfl]

theorem stroll_dots (directory : t.nodeAt? here = some .directory) :
    t.stroll follow here (".." :: path) = t.stroll follow here.dropLast path := by
  rw [stroll, directory]
  dsimp only
  rw [if_neg (by decide), if_pos rfl]

/-- A name may be missing at the end of the path only. -/
private theorem stroll_absent (directory : t.nodeAt? here = some .directory) (step : IsStep name)
    (absent : t.nodeAt? (here ++ [name]) = none) :
    t.stroll follow here (name :: path)
      = if path = [] then .ok (.arrived ⟨here ++ [name], none⟩) else .error .notFound := by
  rw [stroll, directory]
  dsimp only
  rw [if_neg step.not_dot, if_neg step.not_dots, if_neg (Nat.not_lt.mpr step.short), absent]

/-- A link ends the stroll, unless it is the last name and is not followed. -/
theorem stroll_link (directory : t.nodeAt? here = some .directory) (step : IsStep name)
    (link : t.nodeAt? (here ++ [name]) = some (.link target)) :
    t.stroll follow here (name :: path)
      = if path = [] ∧ !follow then .ok (.arrived ⟨here ++ [name], some (.link target)⟩)
        else .ok (.link here target path) := by
  rw [stroll, directory]
  dsimp only
  rw [if_neg step.not_dot, if_neg step.not_dots, if_neg (Nat.not_lt.mpr step.short), link]

/-- A stroll goes into whatever is neither absent nor a link. -/
theorem stroll_into (directory : t.nodeAt? here = some .directory) (step : IsStep name)
    (present : t.nodeAt? (here ++ [name]) = some node) (solid : ∀ target, node ≠ .link target) :
    t.stroll follow here (name :: path) = t.stroll follow (here ++ [name]) path := by
  rw [stroll, directory]
  dsimp only
  rw [if_neg step.not_dot, if_neg step.not_dots, if_neg (Nat.not_lt.mpr step.short), present]
  cases node with
  | file data mode modified => rfl
  | directory => rfl
  | link target => exact absurd rfl (solid target)

end

/-- Where a path leads, name by name, up to the first link that has to be
followed. -/
inductive Strolls (t : FileTree) (follow : Bool) : Location → List String → Stop → Prop
  | arrives (here : Location) : Strolls t follow here [] (.arrived ⟨here, t.nodeAt? here⟩)
  | stays {here : Location} {path : List String} {stop : Stop}
      (directory : t.nodeAt? here = some .directory) (rest : Strolls t follow here path stop) :
      Strolls t follow here ("." :: path) stop
  | leaves {here : Location} {path : List String} {stop : Stop}
      (directory : t.nodeAt? here = some .directory)
      (rest : Strolls t follow here.dropLast path stop) : Strolls t follow here (".." :: path) stop
  | misses {here : Location} {name : String} (directory : t.nodeAt? here = some .directory)
      (step : IsStep name) (absent : t.nodeAt? (here ++ [name]) = none) :
      Strolls t follow here [name] (.arrived ⟨here ++ [name], none⟩)
  | meets {here : Location} {name target : String} (directory : t.nodeAt? here = some .directory)
      (step : IsStep name) (link : t.nodeAt? (here ++ [name]) = some (.link target))
      (halts : follow = false) :
      Strolls t follow here [name] (.arrived ⟨here ++ [name], some (.link target)⟩)
  | turns {here : Location} {name target : String} {path : List String}
      (directory : t.nodeAt? here = some .directory) (step : IsStep name)
      (link : t.nodeAt? (here ++ [name]) = some (.link target)) (goes : path = [] → follow = true) :
      Strolls t follow here (name :: path) (.link here target path)
  | enters {here : Location} {name : String} {path : List String} {node : Node} {stop : Stop}
      (directory : t.nodeAt? here = some .directory) (step : IsStep name)
      (present : t.nodeAt? (here ++ [name]) = some node) (solid : ∀ target, node ≠ .link target)
      (rest : Strolls t follow (here ++ [name]) path stop) : Strolls t follow here (name :: path) stop

/-- The cases of a stroll are those of `Strolls`. -/
theorem strolls_of_stroll {stop : Stop} (h : t.stroll follow here path = .ok stop) :
    Strolls t follow here path stop := by
  induction path generalizing here with
  | nil =>
    cases h
    exact .arrives here
  | cons name path ih =>
    have directory : t.nodeAt? here = some .directory := by
      rw [stroll] at h
      split at h
      next hnode => exact hnode
      next => cases h
    -- a dot stays, two dots go up, and any other name is looked up
    by_cases hdot : name = "."
    · subst hdot
      rw [stroll_dot directory] at h
      exact .stays directory (ih h)
    by_cases hdots : name = ".."
    · subst hdots
      rw [stroll_dots directory] at h
      exact .leaves directory (ih h)
    by_cases hlong : maxNameLength < name.utf8ByteSize
    · rw [stroll, directory] at h
      dsimp only at h
      rw [if_neg hdot, if_neg hdots, if_pos hlong] at h
      cases h
    have step : IsStep name := ⟨hdot, hdots, Nat.not_lt.mp hlong⟩
    cases hnode : t.nodeAt? (here ++ [name]) with
    | none =>
      rw [stroll_absent directory step hnode] at h
      split at h
      next hlast =>
        subst hlast
        cases h
        exact .misses directory step hnode
      next => cases h
    | some node =>
      by_cases hlink : ∃ target, node = .link target
      · obtain ⟨target, rfl⟩ := hlink
        rw [stroll_link directory step hnode] at h
        split at h
        next hlast =>
          obtain ⟨rfl, hfollow⟩ := hlast
          cases h
          exact .meets directory step hnode (by simpa using hfollow)
        next hmore =>
          cases h
          exact .turns directory step hnode fun hlast => by simpa [hlast] using hmore
      · have solid : ∀ target, node ≠ .link target := fun target hsame => hlink ⟨target, hsame⟩
        rw [stroll_into directory step hnode solid] at h
        exact .enters directory step hnode solid (ih h)

/-- A stroll that is possible is the one that is computed. -/
theorem Strolls.stroll_eq {stop : Stop} (h : Strolls t follow here path stop) :
    t.stroll follow here path = .ok stop := by
  induction h with
  | arrives here => rfl
  | stays directory _ ih => rw [stroll_dot directory, ih]
  | leaves directory _ ih => rw [stroll_dots directory, ih]
  | misses directory step absent => rw [stroll_absent directory step absent, if_pos rfl]
  | meets directory step link halts =>
    rw [stroll_link directory step link, if_pos ⟨rfl, by rw [halts]; rfl⟩]
  | turns directory step link goes =>
    rw [stroll_link directory step link, if_neg]
    rintro ⟨hlast, hfollow⟩
    rw [goes hlast] at hfollow
    cases hfollow
  | enters directory step present solid _ ih => rw [stroll_into directory step present solid, ih]

-- ============================================================== places

/-- The node a stroll arrives at is the one that the tree has there. -/
private theorem Strolls.node_eq {stop : Stop} (h : Strolls t follow here path stop) :
    ∀ found, stop = .arrived found → found.node = t.nodeAt? found.location := by
  induction h with
  | arrives here =>
    rintro found ⟨⟩
    rfl
  | stays _ _ ih => exact ih
  | leaves _ _ ih => exact ih
  | misses _ _ absent =>
    rintro found ⟨⟩
    exact absent.symm
  | meets _ _ link _ =>
    rintro found ⟨⟩
    exact link.symm
  | turns => rintro found ⟨⟩
  | enters _ _ _ _ _ ih => exact ih

private theorem stroll_node {found : Place} (h : t.stroll follow here path = .ok (.arrived found)) :
    found.node = t.nodeAt? found.location := (strolls_of_stroll h).node_eq found rfl

/-- A walk without links is a stroll. -/
theorem walk_of_arrived {found : Place} (h : t.stroll follow here path = .ok (.arrived found))
    (links : Nat) : t.walk follow links here path = .ok found := by
  cases links with
  | zero => rw [walk, h]
  | succ links => rw [walk, h]

/-- A link is walked from where it stands, or from the root, and then the
rest of the path. -/
theorem walk_of_link {target : String} {rest : List String}
    (h : t.stroll follow here path = .ok (.link location target rest)) (links : Nat) :
    t.walk follow (links + 1) here path
      = t.walk follow links (if Path.isAbsolute target then [] else location)
          (Path.names target ++ rest) := by
  rw [walk, h]

/-- How a walk comes to its end: by a stroll, with links to follow before
it. -/
inductive Walks (t : FileTree) (follow : Bool) (found : Place) : Nat → Location → List String → Prop
  | arrives {links : Nat} {here : Location} {path : List String}
      (stroll : t.stroll follow here path = .ok (.arrived found)) :
      Walks t follow found links here path
  | follows {links : Nat} {here location : Location} {target : String} {path rest : List String}
      (stroll : t.stroll follow here path = .ok (.link location target rest))
      (walks : Walks t follow found links (if Path.isAbsolute target then [] else location)
        (Path.names target ++ rest)) : Walks t follow found (links + 1) here path

/-- The cases of a walk are those of `Walks`. -/
theorem walks_of_walk {found : Place} (h : t.walk follow links here path = .ok found) :
    Walks t follow found links here path := by
  induction links generalizing here path with
  | zero =>
    rw [walk] at h
    split at h
    next hstroll =>
      cases h
      exact .arrives hstroll
    next => cases h
    next => cases h
  | succ links ih =>
    rw [walk] at h
    split at h
    next hstroll =>
      cases h
      exact .arrives hstroll
    next hstroll => exact .follows hstroll (ih h)
    next => cases h

private theorem walk_node {found : Place} (h : t.walk follow links here path = .ok found) :
    found.node = t.nodeAt? found.location := by
  have hwalks := walks_of_walk h
  clear h
  induction hwalks with
  | arrives hstroll => exact stroll_node hstroll
  | follows _ _ ih => exact ih

/-- The path is no longer than paths are and has no byte that ends it. -/
def IsWalkable (path : String) : Prop :=
  path.toList.contains '\x00' = false ∧ path ≠ "" ∧ path.utf8ByteSize ≤ maxPathLength

instance (path : String) : Decidable (IsWalkable path) :=
  inferInstanceAs (Decidable (_ ∧ _ ∧ _))

/-- A walkable path is walked along its names, from where it starts. -/
theorem resolve_of_names {path : String} {names : List String} (hnames : Path.names path = names)
    (hpath : IsWalkable path) (t : FileTree) (follow : Bool) :
    t.resolve path follow = t.walk follow maxLinks
      (if Path.isAbsolute path then [] else t.workingDirectory) names := by
  obtain ⟨hnul, hempty, hlong⟩ := hpath
  unfold resolve
  rw [hnul, if_neg Bool.false_ne_true, if_neg hempty, if_neg (Nat.not_lt.mpr hlong), hnames]

/-- What leads anywhere is a walkable path. -/
theorem isWalkable_of_resolve {path : String} {found : Place}
    (h : t.resolve path follow = .ok found) : IsWalkable path := by
  unfold resolve at h
  split at h
  · cases h
  next hnul =>
    split at h
    · cases h
    next hempty =>
      split at h
      · cases h
      next hlong => exact ⟨Bool.eq_false_iff.mpr hnul, hempty, Nat.le_of_not_lt hlong⟩

/-- A path that leads somewhere is not too long and has no zero in it, so in
any tree it is a walk. -/
theorem resolve_eq_ok {path : String} {found : Place} (h : t.resolve path follow = .ok found) :
    ∀ (u : FileTree) (other : Bool), u.resolve path other = u.walk other maxLinks
        (if Path.isAbsolute path then [] else u.workingDirectory) (Path.names path) :=
  resolve_of_names rfl (isWalkable_of_resolve h)

/-- The node a path leads to is the one that the tree has there. -/
theorem resolve_node {path : String} {found : Place} (h : t.resolve path follow = .ok found) :
    found.node = t.nodeAt? found.location := by
  rw [resolve_eq_ok h] at h
  exact walk_node h

-- ============================================================ dead ends

/-- What no path leads through: a file, or nothing. -/
def IsPlain : Option Node → Prop
  | none => True
  | some (.file ..) => True
  | some .directory => False
  | some (.link _) => False

/-- The trees differ at most in the file at one place, in whether there is
one, or in whether it is barred. -/
structure SameBut (t u : FileTree) (place : Location) : Prop where
  start : t.workingDirectory = u.workingDirectory
  elsewhere : ∀ location, location ≠ place → t.nodeAt? location = u.nodeAt? location
  access : ∀ location, location ≠ place → t.isBarred location = u.isBarred location
  left : IsPlain (t.nodeAt? place)
  right : IsPlain (u.nodeAt? place)

/-- Neither tree is the first one. -/
theorem SameBut.symm (h : SameBut t u place) : SameBut u t place where
  start := h.start.symm
  elsewhere location hne := (h.elsewhere location hne).symm
  access location hne := (h.access location hne).symm
  left := h.right
  right := h.left

/-- A file that is written over, or that is new, is the only change. -/
theorem sameBut_put (h : IsPlain (t.nodeAt? place)) (hroot : place ≠ []) (data : Bytes)
    (mode : Nat) (modified : Instant) :
    SameBut t (t.put place (.file data mode modified)) place := by
  refine ⟨by simp, ?_, by simp, h, ?_⟩
  · intro location hne
    exact (nodeAt?_put_of_ne hne t _).symm
  · rw [nodeAt?_put_self hroot]
    trivial

/-- A stroll arrives at a file or at nothing in the directory that it stands
in. -/
theorem Strolls.of_plain {name : String} (directory : t.nodeAt? here = some .directory)
    (step : IsStep name) (hplain : IsPlain (t.nodeAt? (here ++ [name]))) :
    Strolls t follow here [name] (.arrived ⟨here ++ [name], t.nodeAt? (here ++ [name])⟩) := by
  cases hnode : t.nodeAt? (here ++ [name]) with
  | none => exact .misses directory step hnode
  | some node =>
    rw [hnode] at hplain
    have solid : ∀ target, node ≠ .link target := by
      rintro target rfl
      exact hplain
    rw [← hnode]
    exact .enters directory step hnode solid (.arrives _)

/-- A stroll to a plain name ends where its path says. -/
theorem Strolls.eq_of_plain {name : String} {stop : Stop} (hdot : name ≠ ".") (hdots : name ≠ "..")
    (hplain : IsPlain (t.nodeAt? (here ++ [name]))) (h : Strolls t follow here (name :: path) stop) :
    path = [] ∧ stop = .arrived ⟨here ++ [name], t.nodeAt? (here ++ [name])⟩ := by
  cases h with
  | stays => exact absurd rfl hdot
  | leaves => exact absurd rfl hdots
  | misses _ _ absent => exact ⟨rfl, by rw [absent]⟩
  | meets _ _ link _ =>
    rw [link] at hplain
    exact hplain.elim
  | turns _ _ link _ =>
    rw [link] at hplain
    exact hplain.elim
  | enters _ _ present _ rest =>
    -- a file is not walked through, so nothing comes after it
    have hfile : t.nodeAt? (here ++ [name]) ≠ some .directory := by
      intro hdirectory
      rw [hdirectory] at hplain
      exact hplain
    cases rest with
    | arrives => exact ⟨rfl, rfl⟩
    | stays directory => exact absurd directory hfile
    | leaves directory => exact absurd directory hfile
    | misses directory => exact absurd directory hfile
    | meets directory => exact absurd directory hfile
    | turns directory => exact absurd directory hfile
    | enters directory => exact absurd directory hfile

/-- Where a stroll ends, with the node of another tree. -/
def Stop.within (u : FileTree) : Stop → Stop
  | .arrived place => .arrived ⟨place.location, u.nodeAt? place.location⟩
  | .link here target rest => .link here target rest

/-- A directory or a link is the same in both trees. -/
theorem SameBut.keeps (same : SameBut t u place) {node? : Option Node}
    (h : t.nodeAt? location = node?) (hgoes : ¬IsPlain node?) : u.nodeAt? location = node? := by
  have hne : location ≠ place := by
    rintro rfl
    exact hgoes (h ▸ same.left)
  rw [← same.elsewhere location hne, h]

/-- A stroll goes the same way in both trees, and finds at its end what the
other tree has there. -/
theorem Strolls.of_sameBut (same : SameBut t u place) {stop : Stop}
    (h : Strolls t follow here path stop) : Strolls u follow here path (stop.within u) := by
  induction h with
  | arrives here => exact .arrives here
  | stays directory _ ih => exact .stays (same.keeps directory id) ih
  | leaves directory _ ih => exact .leaves (same.keeps directory id) ih
  | @misses here name directory step absent =>
    have hplain : IsPlain (u.nodeAt? (here ++ [name])) := by
      -- the file that has changed can only be the last one on the way
      by_cases hplace : here ++ [name] = place
      · rw [hplace]
        exact same.right
      · rw [← same.elsewhere _ hplace, absent]
        trivial
    exact .of_plain (same.keeps directory id) step hplain
  | @meets here name target directory step link halts =>
    rw [Stop.within, same.keeps link id]
    exact .meets (same.keeps directory id) step (same.keeps link id) halts
  | turns directory step link goes =>
    exact .turns (same.keeps directory id) step (same.keeps link id) goes
  | @enters here name path node stop directory step present solid rest ih =>
    by_cases hplace : here ++ [name] = place
    · have hleft := same.left
      have hright := same.right
      rw [← hplace] at hleft hright
      obtain ⟨rfl, rfl⟩ := eq_of_plain step.not_dot step.not_dots hleft
        (.enters directory step present solid rest)
      exact .of_plain (same.keeps directory id) step hright
    · exact .enters (same.keeps directory id) step ((same.elsewhere _ hplace).symm.trans present)
        solid ih

private theorem stroll_of_sameBut (same : SameBut t u place) {stop : Stop}
    (h : t.stroll follow here path = .ok stop) :
    u.stroll follow here path = .ok (stop.within u) :=
  ((strolls_of_stroll h).of_sameBut same).stroll_eq

/-- A walk with links is the same in two trees that are the same but for a
file. -/
theorem walk_of_sameBut (same : SameBut t u place) {found : Place}
    (h : t.walk follow links here path = .ok found) :
    u.walk follow links here path = .ok ⟨found.location, u.nodeAt? found.location⟩ := by
  have hwalks := walks_of_walk h
  clear h
  induction hwalks with
  | arrives hstroll => exact walk_of_arrived (stroll_of_sameBut same hstroll) _
  | follows hstroll _ ih => exact (walk_of_link (stroll_of_sameBut same hstroll) _).trans ih

/-- A path leads to the same place in both trees. -/
theorem resolve_of_sameBut (same : SameBut t u place) {found : Place} {path : String}
    (h : t.resolve path follow = .ok found) :
    u.resolve path follow = .ok ⟨found.location, u.nodeAt? found.location⟩ := by
  rw [resolve_eq_ok h u]
  rw [resolve_eq_ok h t] at h
  rw [← same.start]
  exact walk_of_sameBut same h

-- ========================================================== last names

variable {name : String}

/-- A path that ends in a name, where no link is followed at the end. -/
private theorem Strolls.append_name {stop : Stop} {whole : List String} (hdot : name ≠ ".")
    (hdots : name ≠ "..") (h : Strolls t false here whole stop) :
    ∀ path, whole = path ++ [name] → (∃ directory node, stop = .arrived ⟨directory ++ [name], node⟩)
      ∨ ∃ directory target rest, stop = .link directory target (rest ++ [name]) := by
  induction h with
  | arrives here => exact fun path hpath => by simp at hpath
  | stays _ _ ih =>
    intro path hpath
    rcases List.cons_eq_append_iff.mp hpath with ⟨-, hlast⟩ | ⟨path, -, hpath⟩
    · cases hlast
      exact absurd rfl hdot
    · exact ih path hpath
  | leaves _ _ ih =>
    intro path hpath
    rcases List.cons_eq_append_iff.mp hpath with ⟨-, hlast⟩ | ⟨path, -, hpath⟩
    · cases hlast
      exact absurd rfl hdots
    · exact ih path hpath
  | misses =>
    intro path hpath
    rcases List.cons_eq_append_iff.mp hpath with ⟨-, hlast⟩ | ⟨path, -, hpath⟩
    · cases hlast
      exact .inl ⟨_, _, rfl⟩
    · simp at hpath
  | meets =>
    intro path hpath
    rcases List.cons_eq_append_iff.mp hpath with ⟨-, hlast⟩ | ⟨path, -, hpath⟩
    · cases hlast
      exact .inl ⟨_, _, rfl⟩
    · simp at hpath
  -- a link in front of the name leaves it to be walked
  | turns _ _ _ goes =>
    intro path hpath
    rcases List.cons_eq_append_iff.mp hpath with ⟨-, hlast⟩ | ⟨path, -, rfl⟩
    · cases hlast
      cases goes rfl
    · exact .inr ⟨_, _, path, rfl⟩
  | enters _ _ _ _ rest ih =>
    intro path hpath
    rcases List.cons_eq_append_iff.mp hpath with ⟨-, hlast⟩ | ⟨path, -, hpath⟩
    · cases hlast
      cases rest
      exact .inl ⟨_, _, rfl⟩
    · exact ih path hpath

/-- A stroll of the tree along a path that ends in a name ends at that name,
or at a link that is followed further. -/
private theorem stroll_append_name {stop : Stop} (hdot : name ≠ ".") (hdots : name ≠ "..")
    (h : t.stroll false here (path ++ [name]) = .ok stop) :
    (∃ directory node, stop = .arrived ⟨directory ++ [name], node⟩)
      ∨ ∃ directory target rest, stop = .link directory target (rest ++ [name]) :=
  (strolls_of_stroll h).append_name hdot hdots path rfl

/-- A path that ends in a name leads to a place of that name. -/
theorem getLast?_location_walk {found : Place} (hdot : name ≠ ".") (hdots : name ≠ "..")
    (h : t.walk false links here (path ++ [name]) = .ok found) :
    found.location.getLast? = some name := by
  have hwalks := walks_of_walk h
  clear h
  -- the path of each stroll still ends in the name
  generalize hwhole : path ++ [name] = whole at hwalks
  induction hwalks generalizing path with
  | arrives hstroll =>
    subst hwhole
    rcases stroll_append_name hdot hdots hstroll with ⟨_, _, hstop⟩ | ⟨_, _, _, hstop⟩
    · cases hstop
      exact List.getLast?_concat
    · cases hstop
  | follows hstroll _ ih =>
    subst hwhole
    rcases stroll_append_name hdot hdots hstroll with ⟨_, _, hstop⟩ | ⟨_, target, rest, hstop⟩
    · cases hstop
    · cases hstop
      exact ih (List.append_assoc _ _ _)

/-- Following the last link is all that makes a difference between the
two ways to walk. -/
theorem Strolls.false_of_true {stop : Stop} (h : Strolls t true here path stop) :
    Strolls t false here path stop
      ∨ ∃ location target, Strolls t false here path (.arrived ⟨location, some (.link target)⟩) := by
  induction h with
  | arrives here => exact .inl (.arrives here)
  | stays directory _ ih =>
    rcases ih with hsame | ⟨location, target, hlink⟩
    · exact .inl (.stays directory hsame)
    · exact .inr ⟨location, target, .stays directory hlink⟩
  | leaves directory _ ih =>
    rcases ih with hsame | ⟨location, target, hlink⟩
    · exact .inl (.leaves directory hsame)
    · exact .inr ⟨location, target, .leaves directory hlink⟩
  | misses directory step absent => exact .inl (.misses directory step absent)
  | meets _ _ _ halts => cases halts
  | @turns here name target path directory step link goes =>
    by_cases hlast : path = []
    · subst hlast
      exact .inr ⟨_, target, .meets directory step link rfl⟩
    · exact .inl (.turns directory step link fun hnil => absurd hnil hlast)
  | enters directory step present solid _ ih =>
    rcases ih with hsame | ⟨location, target, hlink⟩
    · exact .inl (.enters directory step present solid hsame)
    · exact .inr ⟨location, target, .enters directory step present solid hlink⟩

/-- A stroll of the tree that follows no link at its end goes the same way,
or stops at that link. -/
private theorem stroll_false_of_true {stop : Stop} (h : t.stroll true here path = .ok stop) :
    t.stroll false here path = .ok stop
      ∨ ∃ location target, t.stroll false here path = .ok (.arrived ⟨location, some (.link target)⟩) := by
  rcases (strolls_of_stroll h).false_of_true with hsame | ⟨location, target, hlink⟩
  · exact .inl hsame.stroll_eq
  · exact .inr ⟨location, target, hlink.stroll_eq⟩

/-- Where no link stands at the end, both ways lead to the same place. -/
private theorem walk_false_of_true {found : Place} (h : t.walk true links here path = .ok found)
    (hlink : ∀ other, t.walk false links here path = .ok other →
      ∀ target, other.node ≠ some (.link target)) :
    t.walk false links here path = .ok found := by
  have hwalks := walks_of_walk h
  clear h
  induction hwalks with
  | arrives hstroll =>
    rcases stroll_false_of_true hstroll with hsame | ⟨location, target, hstop⟩
    · exact walk_of_arrived hsame _
    · exact absurd rfl (hlink _ (walk_of_arrived hstop _) target)
  | follows hstroll _ ih =>
    rcases stroll_false_of_true hstroll with hsame | ⟨location, target, hstop⟩
    · rw [walk_of_link hsame] at hlink ⊢
      exact ih hlink
    · exact absurd rfl (hlink _ (walk_of_arrived hstop _) target)

/-- Without a link at the end, it does not matter whether links are followed
there. -/
theorem resolve_false_of_true {path : String} {found : Place} (h : t.resolve path true = .ok found)
    (hlink : ∀ other, t.resolve path false = .ok other →
      ∀ target, other.node ≠ some (.link target)) :
    t.resolve path false = .ok found := by
  rw [resolve_eq_ok h] at hlink ⊢
  rw [resolve_eq_ok h] at h
  exact walk_false_of_true h hlink

/-- Where no link stands at the end of a path, it leads to a place with
its last name. -/
theorem resolve_of_plain {path : String} {found : Place} (hends : Path.EndsIn path name)
    (h : t.resolve path true = .ok found)
    (hplain : ∀ other, t.resolve path false = .ok other → IsPlain other.node) :
    found.location.getLast? = some name ∧ IsPlain (t.nodeAt? found.location) := by
  obtain ⟨⟨before, hnames⟩, hdot, hdots⟩ := hends
  have hfalse := resolve_false_of_true h <| by
    intro other hother target hlink
    have := hplain other hother
    rw [hlink] at this
    exact this
  rw [← resolve_node hfalse]
  refine ⟨?_, hplain _ hfalse⟩
  rw [resolve_eq_ok hfalse, hnames] at hfalse
  exact getLast?_location_walk hdot hdots hfalse

end RouterSeed.FileTree

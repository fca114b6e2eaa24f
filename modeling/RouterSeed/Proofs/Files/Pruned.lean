/-
Trees out of which something was taken.

Whatever was taken out of a tree, a file, a link or a whole directory,
and however much of it: a path that still leads to something leads to the
same as before (`Pruned.find`). Nothing can take the place of what is
gone, for a walk that comes to a missing name is over.

So what is left of a directory is told from the path of one thing in it:
if that path still leads anywhere, it leads through the directory, which
is then found and lists the name (`find_of_find_join`).

Consumed by NetDb.
-/
import RouterSeed.Proofs.Files.Listing

namespace RouterSeed.FileTree

variable {t u : FileTree} {here location place : Location} {node : Node} {links : Nat}
  {path : List String} {follow : Bool} {name : String}

/-- The second tree is the first one without some of its nodes. -/
structure Pruned (t u : FileTree) : Prop where
  start : u.workingDirectory = t.workingDirectory
  kept : ∀ location node, u.nodeAt? location = some node → t.nodeAt? location = some node
  access : ∀ location, u.isBarred location = t.isBarred location

-- ============================================================ what is left

/-- A stroll to something that is left is the one there was. The end of
the stroll is the only place where a name may be missing. -/
theorem Strolls.of_pruned (pruned : Pruned t u) {stop : Stop} (h : Strolls u follow here path stop)
    (ends : ∀ found, stop = .arrived found → found.node ≠ none) : Strolls t follow here path stop := by
  induction h with
  | arrives here =>
    obtain ⟨node, hnode⟩ := Option.ne_none_iff_exists'.mp (ends _ rfl)
    dsimp only at hnode
    rw [hnode, ← pruned.kept _ _ hnode]
    exact .arrives here
  | stays directory _ ih => exact .stays (pruned.kept _ _ directory) (ih ends)
  | leaves directory _ ih => exact .leaves (pruned.kept _ _ directory) (ih ends)
  | misses => exact absurd rfl (ends _ rfl)
  | meets directory step link halts =>
    exact .meets (pruned.kept _ _ directory) step (pruned.kept _ _ link) halts
  | turns directory step link goes =>
    exact .turns (pruned.kept _ _ directory) step (pruned.kept _ _ link) goes
  | enters directory step present solid _ ih =>
    exact .enters (pruned.kept _ _ directory) step (pruned.kept _ _ present) solid (ih ends)

/-- What was taken out of a tree leads no walk with links elsewhere. -/
private theorem walk_of_pruned (pruned : Pruned t u)
    (h : u.walk follow links here path = .ok ⟨location, some node⟩) :
    t.walk follow links here path = .ok ⟨location, some node⟩ := by
  have hwalks := walks_of_walk h
  clear h
  induction hwalks with
  | arrives hstroll =>
    refine walk_of_arrived ((strolls_of_stroll hstroll).of_pruned pruned ?_).stroll_eq _
    rintro found ⟨⟩
    exact nofun
  | follows hstroll _ ih =>
    exact (walk_of_link ((strolls_of_stroll hstroll).of_pruned pruned nofun).stroll_eq _).trans ih

/-- A path that still leads to something leads to the same as before. -/
theorem Pruned.find (pruned : Pruned t u) {path : String} (h : u.find path = .ok (location, node)) :
    t.find path = .ok (location, node) := by
  have hresolve := find_eq_ok h
  have hbefore : t.resolve path true = .ok ⟨location, some node⟩ := by
    rw [resolve_eq_ok hresolve t, ← pruned.start]
    rw [resolve_eq_ok hresolve u] at hresolve
    exact walk_of_pruned pruned hresolve
  unfold FileTree.find at h ⊢
  rw [hbefore]
  rwa [hresolve] at h

-- ============================================================ on the way

/-- A stroll to a name in a directory comes through the directory, or to
a link on the way there. -/
theorem Strolls.through {stop : Stop} (hname : Path.IsName name)
    (h : Strolls t true here (path ++ [name]) stop)
    (ends : ∀ found, stop = .arrived found → found.node ≠ none) :
    (∃ location, Strolls t true here path (.arrived ⟨location, some .directory⟩)
        ∧ t.nodeAt? (location ++ [name]) ≠ none)
      ∨ ∃ location target rest, Strolls t true here path (.link location target rest)
        ∧ stop = .link location target (rest ++ [name]) := by
  induction path generalizing here with
  -- Only the name is left, and it is no step that stays or goes up; so this is the
  -- directory.
  | nil =>
    have hhere : t.nodeAt? here = some .directory → t.nodeAt? (here ++ [name]) ≠ none →
        ∃ location, Strolls t true here [] (.arrived ⟨location, some .directory⟩)
          ∧ t.nodeAt? (location ++ [name]) ≠ none := by
      intro directory hthere
      refine ⟨here, ?_, hthere⟩
      rw [← directory]
      exact .arrives here
    cases h with
    | stays => exact absurd rfl hname.not_dot
    | leaves => exact absurd rfl hname.not_dots
    | misses => exact absurd rfl (ends _ rfl)
    | meets _ _ _ halts => cases halts
    | turns directory _ link => exact .inl (hhere directory (by rw [link]; exact nofun))
    | enters directory _ present => exact .inl (hhere directory (by rw [present]; exact nofun))
  | cons first path ih =>
    obtain ⟨second, more, hmore⟩ := List.exists_cons_of_ne_nil (List.append_ne_nil_of_right_ne_nil path
      (List.cons_ne_nil name []))
    rw [List.cons_append, hmore] at h
    cases h with
    | stays directory rest =>
      rcases ih (hmore ▸ rest) with ⟨location, hto, hthere⟩ | ⟨location, target, left, hto, hstop⟩
      · exact .inl ⟨location, .stays directory hto, hthere⟩
      · exact .inr ⟨location, target, left, .stays directory hto, hstop⟩
    | leaves directory rest =>
      rcases ih (hmore ▸ rest) with ⟨location, hto, hthere⟩ | ⟨location, target, left, hto, hstop⟩
      · exact .inl ⟨location, .leaves directory hto, hthere⟩
      · exact .inr ⟨location, target, left, .leaves directory hto, hstop⟩
    -- a link on the way: the name is part of what is left to walk
    | turns directory step link =>
      rw [← hmore]
      exact .inr ⟨_, _, path, .turns directory step link fun _ => rfl, rfl⟩
    | enters directory step present solid rest =>
      rcases ih (hmore ▸ rest) with ⟨location, hto, hthere⟩ | ⟨location, target, left, hto, hstop⟩
      · exact .inl ⟨location, .enters directory step present solid hto, hthere⟩
      · exact .inr ⟨location, target, left, .enters directory step present solid hto, hstop⟩

/-- The directory is come through in the part of the walk behind the last
link on the way there. -/
private theorem walk_through (hname : Path.IsName name)
    (h : t.walk true links here (path ++ [name]) = .ok ⟨place, some node⟩) :
    ∃ location, t.walk true links here path = .ok ⟨location, some .directory⟩
      ∧ t.nodeAt? (location ++ [name]) ≠ none := by
  have hwalks := walks_of_walk h
  clear h
  -- the path gets longer with each link, but still ends in the name
  generalize hwhole : path ++ [name] = whole at hwalks
  induction hwalks generalizing path with
  | arrives hstroll =>
    subst hwhole
    have hends : ∀ found, Stop.arrived ⟨place, some node⟩ = .arrived found → found.node ≠ none := by
      rintro found ⟨⟩
      exact nofun
    rcases (strolls_of_stroll hstroll).through hname hends with
      ⟨location, hto, hthere⟩ | ⟨_, _, _, _, hstop⟩
    · exact ⟨location, walk_of_arrived hto.stroll_eq _, hthere⟩
    · cases hstop
  | follows hstroll _ ih =>
    subst hwhole
    rcases (strolls_of_stroll hstroll).through hname nofun with
      ⟨location, hto, hthere⟩ | ⟨_, _, rest, hto, hstop⟩
    · exact ⟨location, walk_of_arrived hto.stroll_eq _, hthere⟩
    · cases hstop
      obtain ⟨location, hwalk, hthere⟩ := ih (List.append_assoc _ _ _)
      exact ⟨location, (walk_of_link hto.stroll_eq _).trans hwalk, hthere⟩

/-- If something is found under a name in a directory, the directory is
found, and the name in it. -/
theorem find_of_find_join {dir : String} (hname : Path.IsName name) (hdir : IsWalkable dir)
    (h : t.find (Path.join dir name) = .ok (place, node)) :
    ∃ location, t.find dir = .ok (location, .directory) ∧ name ∈ t.namesIn location := by
  obtain ⟨hnames, habsolute⟩ := Path.join_of_isName hname dir
  have hjoined := find_eq_ok h
  rw [resolve_eq_ok hjoined, hnames, habsolute hdir.2.1] at hjoined
  obtain ⟨location, hwalk, hthere⟩ := walk_through hname hjoined
  refine ⟨location, find_of_resolve_directory ?_, mem_namesIn_iff.mpr hthere⟩
  rw [resolve_of_names rfl hdir]
  exact hwalk

end RouterSeed.FileTree

/-
Trees in which every node stands in a directory.

Following a path to its end in such a tree never stops at a link: a step
that meets one goes on behind it, and a step upwards leads to a
directory. So whatever is written at a path is read at that path
(`Rooted.holds_write`), also where the path leads through links or to a
file that was there before.

Consumed by the proofs about extracted contents and saved settings.
-/
import RouterSeed.Proofs.Files.Changes

namespace RouterSeed.FileTree

variable {t u : FileTree} {here location : Location} {path : String} {now : Instant}

/-- Relative paths start in a directory, and every node stands in one. -/
structure Rooted (t : FileTree) : Prop where
  start : t.nodeAt? t.workingDirectory = some .directory
  above : ∀ location ∈ t.nodes.map Prod.fst, t.nodeAt? location.dropLast = some .directory

instance (t : FileTree) : Decidable t.Rooted :=
  decidable_of_iff (t.nodeAt? t.workingDirectory = some .directory
      ∧ ∀ location ∈ t.nodes.map Prod.fst, t.nodeAt? location.dropLast = some .directory)
    ⟨fun h => ⟨h.1, h.2⟩, fun h => ⟨h.start, h.above⟩⟩

/-- No link stands there. -/
def NoLink (node? : Option Node) : Prop := ∀ target, node? ≠ some (.link target)

private theorem noLink_directory : NoLink (some .directory) := fun _ h => nomatch h

/-- What is neither a directory nor a link is a file, if anything. -/
theorem isPlain_of_noLink {node? : Option Node} (hfile : node? ≠ some .directory)
    (hlink : NoLink node?) : IsPlain node? := by
  cases node? with
  | none => trivial
  | some node =>
    cases node with
    | file => trivial
    | directory => exact absurd rfl hfile
    | link target => exact absurd rfl (hlink target)

/-- Whatever is there stands in a directory. -/
private theorem Rooted.nodeAt?_dropLast (h : t.Rooted) (present : t.nodeAt? location ≠ none) :
    t.nodeAt? location.dropLast = some .directory := by
  by_cases hroot : location = []
  · subst hroot
    rfl
  · unfold nodeAt? at present
    rw [if_neg hroot, ← Option.isSome_iff_ne_none, List.lookup_isSome_iff] at present
    obtain ⟨entry, hmem, hsame⟩ := present
    exact h.above location (List.mem_map.mpr ⟨entry, hmem, (beq_iff_eq.mp hsame).symm⟩)

/-- A walk does not stop at a link, and whoever follows one stands in a
directory. -/
def Stop.Solid (t : FileTree) : Stop → Prop
  | .arrived found => NoLink found.node
  | .link here _ _ => t.nodeAt? here = some .directory

/-- A stroll that follows links stays on nodes that are none. -/
private theorem Rooted.solid_of_strolls {names : List String} {stop : Stop} (h : t.Rooted)
    (hstrolls : Strolls t true here names stop) (hhere : NoLink (t.nodeAt? here)) :
    stop.Solid t := by
  induction hstrolls with
  | arrives here => exact hhere
  | stays directory _ ih => exact ih hhere
  | leaves directory _ ih =>
    apply ih
    rw [h.nodeAt?_dropLast (by rw [directory]; exact Option.some_ne_none _)]
    exact noLink_directory
  | misses directory step absent => exact fun _ h => nomatch h
  | meets directory step link halts => cases halts
  | turns directory step link goes => exact directory
  | enters directory step present solid _ ih =>
    apply ih
    rw [present]
    exact fun target hsame => solid target (Option.some.inj hsame)

/-- In a rooted tree a walk that follows links ends at no link. -/
private theorem Rooted.noLink_of_walks {found : Place} {links : Nat} {names : List String}
    (h : t.Rooted)
    (hwalks : Walks t true found links here names) (hhere : NoLink (t.nodeAt? here)) :
    NoLink found.node := by
  induction hwalks with
  | arrives hstroll => exact h.solid_of_strolls (strolls_of_stroll hstroll) hhere
  | @follows _ here location target _ _ hstroll _ ih =>
    have hdirectory : t.nodeAt? location = some .directory :=
      h.solid_of_strolls (strolls_of_stroll hstroll) hhere
    apply ih
    split
    · exact noLink_directory
    · rw [hdirectory]
      exact noLink_directory

/-- A path that is followed to its end leads to no link. -/
private theorem Rooted.noLink_of_resolve {found : Place} (h : t.Rooted)
    (hresolve : t.resolve path true = .ok found) : NoLink found.node := by
  rw [resolve_eq_ok hresolve] at hresolve
  refine h.noLink_of_walks (walks_of_walk hresolve) ?_
  split
  · exact noLink_directory
  · rw [h.start]
    exact noLink_directory

/-- What is written is there, and everything else is as it was. -/
theorem Rooted.holds_write {data : Bytes} (h : t.Rooted) (hwrite : t.write now path data = .ok u) :
    ∃ place mode, SameBut t u place ∧ Holds u path place data mode now := by
  obtain ⟨hslash, found, mode, hfound, hfile, hmay, rfl⟩ := write_eq_ok hwrite
  have hnode := resolve_node hfound
  have hroot : found.location ≠ [] := by
    intro hroot
    rw [hroot] at hnode
    exact hfile hnode
  have hplain : IsPlain (t.nodeAt? found.location) := by
    rw [← hnode]
    exact isPlain_of_noLink hfile (h.noLink_of_resolve hfound)
  exact ⟨found.location, mode, sameBut_put hplain hroot data mode now,
    holds_put hslash hfound hroot hplain (isBarred_of_mayPut hmay) data mode now⟩

/-- What is written is read. -/
theorem Rooted.read_write {data : Bytes} (h : t.Rooted) (hwrite : t.write now path data = .ok u) :
    u.read path = .ok data := by
  obtain ⟨_, _, -, hholds⟩ := h.holds_write hwrite
  exact hholds.read

/-- Whether a file can be written does not depend on what is written. -/
theorem exists_write_of_write {data : Bytes} (h : t.write now path data = .ok u) (other : Bytes) :
    ∃ v, t.write now path other = .ok v := by
  obtain ⟨hslash, found, _, hfound, hfile, hmay, -⟩ := write_eq_ok h
  unfold write
  rw [hfound]
  dsimp only [bind, Except.bind]
  rw [hslash, if_neg Bool.false_ne_true]
  split
  next hnode => exact absurd hnode hfile
  next =>
    rw [hmay]
    split
    next hbarred => cases hbarred
    next => split <;> exact ⟨_, rfl⟩

end RouterSeed.FileTree

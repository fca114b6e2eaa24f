/-
What a list of changes leaves behind.

Making directories only puts directories where nothing was (`Grown`), so
no file is touched. Writing puts a file at one place, the one its path
leads to, and its path leads to it afterwards. Two files under two names
of one directory are two places, so that the second one neither replaces
the first nor hides it (`changeAll_twoFiles`).

Consumed by the proofs about stored identities.
-/
import RouterSeed.Files.Change
import RouterSeed.Proofs.Files.Walk

namespace RouterSeed.FileTree

variable {t u : FileTree} {place : Location} {path : String} {now : Instant}

-- ========================================================= directories

/-- The tree has become another one by directories where nothing was. -/
structure Grown (t u : FileTree) : Prop where
  start : u.workingDirectory = t.workingDirectory
  access : ∀ place, u.isBarred place = t.isBarred place
  nodes : ∀ place, u.nodeAt? place = t.nodeAt? place
    ∨ t.nodeAt? place = none ∧ u.nodeAt? place = some .directory

theorem Grown.refl (t : FileTree) : Grown t t := ⟨rfl, fun _ => rfl, fun _ => .inl rfl⟩

/-- A tree that has grown twice by directories has grown by directories. -/
theorem Grown.trans {v : FileTree} (first : Grown t u) (second : Grown u v) : Grown t v := by
  refine ⟨second.start.trans first.start, fun place => (second.access place).trans (first.access place),
    ?_⟩
  intro place
  rcases second.nodes place with hsame | ⟨hnone, hmade⟩
  · rw [hsame]
    exact first.nodes place
  · rcases first.nodes place with hsame | ⟨hnone', hmade'⟩
    · exact .inr ⟨hsame ▸ hnone, hmade⟩
    · rw [hnone] at hmade'
      cases hmade'

/-- A directory where nothing was. -/
private theorem grown_put (h : t.nodeAt? place = none) : Grown t (t.put place .directory) := by
  have hroot : place ≠ [] := by
    rintro rfl
    cases h
  refine ⟨workingDirectory_put t place _, fun other => isBarred_put t place other _, ?_⟩
  intro other
  by_cases hsame : other = place
  · subst hsame
    exact .inr ⟨h, nodeAt?_put_self hroot t _⟩
  · exact .inl (nodeAt?_put_of_ne hsame t _)

/-- Making a directory adds one, where nothing was. -/
private theorem grown_makeDirectory (h : t.makeDirectory path = .ok u) : Grown t u := by
  unfold makeDirectory at h
  cases hresolve : t.resolve path false with
  | error fault =>
    rw [hresolve] at h
    cases h
  | ok found =>
    have hnode := resolve_node hresolve
    rw [hresolve] at h
    dsimp only [bind, Except.bind] at h
    split at h
    · cases h
    next hnone =>
      split at h
      · cases h
        exact grown_put (hnode ▸ hnone)
      · cases h

/-- Making directories upwards adds some, however far it came before it
failed. -/
private theorem grown_makeDirectoriesUpTo (t : FileTree) (depth : Nat) (path : String) :
    Grown t (t.makeDirectoriesUpTo depth path).2 := by
  induction depth generalizing t path with
  | zero => exact Grown.refl t
  | succ depth ih =>
    unfold makeDirectoriesUpTo
    split
    · exact Grown.refl t
    · split
      next made hmade => exact grown_makeDirectory hmade
      next =>
        split
        · exact Grown.refl t
        -- something above is missing: it is made first, and then this one is tried again
        next above _ =>
          have habove := ih t above
          split
          next hup =>
            rw [hup] at habove
            exact habove
          next higher hup =>
            rw [hup] at habove
            split
            next made hmade => exact habove.trans (grown_makeDirectory hmade)
            next => exact habove
      next => exact Grown.refl t

/-- Making the directories of a path adds directories where nothing was. -/
theorem grown_makeDirectories (t : FileTree) (path : String) :
    Grown t (t.makeDirectories path).2 := grown_makeDirectoriesUpTo t _ path

-- =============================================================== files

/-- What may be changed is not barred. -/
theorem isBarred_of_mayPut {found : Place} (h : t.mayPut found = true) :
    t.isBarred found.location = false := by
  unfold mayPut at h
  rw [Bool.and_eq_true, Bool.not_eq_true'] at h
  exact h.1

/-- Writing puts a file at the place where the path leads, which is no
directory and not barred. -/
theorem write_eq_ok {data : Bytes} (h : t.write now path data = .ok u) :
    Path.endsInSlash path = false ∧ ∃ found mode, t.resolve path true = .ok found
      ∧ found.node ≠ some .directory ∧ t.mayPut found = true
      ∧ u = t.put found.location (.file data mode now) := by
  unfold write at h
  cases hresolve : t.resolve path true with
  | error fault =>
    rw [hresolve] at h
    cases h
  | ok found =>
    rw [hresolve] at h
    dsimp only [bind, Except.bind] at h
    -- a slash at the end, a directory and a closed door are refused in this order
    split at h
    · cases h
    next hslash =>
      refine ⟨Bool.eq_false_iff.mpr hslash, found, ?_⟩
      split at h
      · cases h
      next hdirectory =>
        split at h
        · cases h
        next hmay =>
          have hmay : t.mayPut found = true := by simpa using hmay
          split at h
          next =>
            cases h
            exact ⟨_, rfl, hdirectory, hmay, rfl⟩
          next =>
            cases h
            exact ⟨_, rfl, hdirectory, hmay, rfl⟩

/-- The path leads to a file with these data, which can be read. -/
structure Holds (t : FileTree) (path : String) (place : Location) (data : Bytes) (mode : Nat)
    (modified : Instant) : Prop where
  slash : Path.endsInSlash path = false
  leads : t.resolve path true = .ok ⟨place, some (.file data mode modified)⟩
  opens : t.isBarred place = false

section

variable {data : Bytes} {mode : Nat} {modified : Instant}

/-- The path leads to the file. -/
theorem Holds.find (h : Holds t path place data mode modified) :
    t.find path = .ok (place, .file data mode modified) := by
  unfold FileTree.find
  rw [h.leads]
  show (if Path.endsInSlash path then _ else _) = _
  rw [h.slash]
  rfl

/-- A file that a path holds is read. -/
theorem Holds.read (h : Holds t path place data mode modified) : t.read path = .ok data := by
  unfold FileTree.read
  rw [h.find]
  dsimp only
  rw [h.opens, if_neg Bool.false_ne_true]

/-- What a path holds is a file. -/
theorem Holds.isFile (h : Holds t path place data mode modified) : t.isFile path = true := by
  unfold FileTree.isFile
  rw [h.find]

theorem Holds.pathExists (h : Holds t path place data mode modified) :
    t.pathExists path = true := by
  unfold FileTree.pathExists
  rw [h.find]
  rfl

theorem Holds.nodeAt? (h : Holds t path place data mode modified) :
    t.nodeAt? place = some (.file data mode modified) := (resolve_node h.leads).symm

private theorem Holds.ne_root (h : Holds t path place data mode modified) : place ≠ [] := by
  rintro rfl
  cases h.nodeAt?

/-- A file that is put anywhere else leaves it. -/
theorem Holds.of_sameBut {other : Location} (h : Holds t path place data mode modified)
    (same : SameBut t u other) (hne : place ≠ other) : Holds u path place data mode modified := by
  refine ⟨h.slash, ?_, (same.access place hne).symm.trans h.opens⟩
  rw [resolve_of_sameBut same h.leads, ← same.elsewhere place hne, h.nodeAt?]

/-- A file that is put into its place is found under its path. -/
theorem holds_put {found : Place} (hslash : Path.endsInSlash path = false)
    (h : t.resolve path true = .ok found) (hroot : found.location ≠ [])
    (hplain : IsPlain (t.nodeAt? found.location)) (hopen : t.isBarred found.location = false)
    (data : Bytes) (mode : Nat) (modified : Instant) :
    Holds (t.put found.location (.file data mode modified)) path found.location data mode
      modified := by
  refine ⟨hslash, ?_, (isBarred_put t _ _ _).trans hopen⟩
  rw [resolve_of_sameBut (sameBut_put hplain hroot data mode modified) h, nodeAt?_put_self hroot]

/-- Another mode changes nothing else of the file. -/
private theorem setMode_of_holds (h : Holds t path place data mode modified) (newMode : Nat) :
    t.setMode path newMode = .ok (t.put place (.file data newMode modified)) := by
  unfold setMode
  rw [h.find]
  dsimp only [bind, Except.bind]
  rw [h.opens, if_neg Bool.false_ne_true]

end

-- =========================================================== two files

/-- What is known of the end of a path, and of every file, is known when a
file has been put somewhere. -/
theorem forall_resolve_of_sameBut {known : Option Node → Prop}
    (plain : ∀ node?, IsPlain node? → known node?)
    (h : ∀ found, t.resolve path false = .ok found → known found.node) (same : SameBut t u place) :
    ∀ found, u.resolve path false = .ok found → known found.node := by
  intro found hfound
  have hleft := h _ (resolve_of_sameBut same.symm hfound)
  rw [resolve_node hfound]
  by_cases hplace : found.location = place
  · rw [hplace]
    exact plain _ same.right
  · rw [← same.elsewhere _ hplace]
    exact hleft

/-- What stands at the end of a path, if anything, is a file. -/
def IsPlainAt (t : FileTree) (path : String) : Prop :=
  ∀ found, t.resolve path false = .ok found → IsPlain found.node

/-- A path to a file, or to nothing, still leads to one after a change
there. -/
theorem IsPlainAt.of_sameBut (h : t.IsPlainAt path) (same : SameBut t u place) :
    u.IsPlainAt path := forall_resolve_of_sameBut (fun _ hplain => hplain) h same

/-- Where nothing but a file may stand, writing puts the file under the
last name of the path. -/
theorem write_of_plain {name : String} {data : Bytes} (hends : Path.EndsIn path name)
    (hplain : t.IsPlainAt path) (h : t.write now path data = .ok u) :
    ∃ place mode, place.getLast? = some name ∧ SameBut t u place
      ∧ Holds u path place data mode now := by
  obtain ⟨hslash, found, mode, hfound, -, hmay, rfl⟩ := write_eq_ok h
  obtain ⟨hlast, hnode⟩ := resolve_of_plain hends hfound hplain
  have hroot : found.location ≠ [] := by
    intro hroot
    rw [hroot] at hlast
    cases hlast
  exact ⟨found.location, mode, hlast, sameBut_put hnode hroot data mode now,
    holds_put hslash hfound hroot hnode (isBarred_of_mayPut hmay) data mode now⟩

/-- A series of changes that goes well is its first one and the rest. -/
theorem changeAll_cons_ok {first : FileChange} {rest : List FileChange} {after : FileTree}
    (h : t.changeAll now (first :: rest) = (.ok (), after)) :
    ∃ made, t.change now first = (.ok (), made) ∧ made.changeAll now rest = (.ok (), after) := by
  rw [changeAll] at h
  split at h
  next made hmade => exact ⟨made, hmade, h⟩
  next hfailed => exact absurd h (hfailed _)

/-- A write that goes well is the write of the tree. -/
theorem change_write_ok {data : Bytes} {made : FileTree}
    (h : t.change now (.write path data) = (.ok (), made)) : t.write now path data = .ok made := by
  unfold change at h
  dsimp only at h
  split at h
  next hmade =>
    cases h
    exact hmade
  next => cases h

private theorem change_setMode_ok {mode : Nat} {made : FileTree}
    (h : t.change now (.setMode path mode) = (.ok (), made)) :
    t.setMode path mode = .ok made := by
  unfold change at h
  dsimp only at h
  split at h
  next hmade =>
    cases h
    exact hmade
  next => cases h

/-- A private file and a file beside it: both are there afterwards, and
no other file has changed. -/
theorem changeAll_twoFiles {after : FileTree} {dir first second firstName secondName : String}
    {firstData secondData : Bytes} {mode : Nat} (hfirst : Path.EndsIn first firstName)
    (hsecond : Path.EndsIn second secondName) (hnames : firstName ≠ secondName)
    (hplainFirst : (t.makeDirectories dir).2.IsPlainAt first)
    (hplainSecond : (t.makeDirectories dir).2.IsPlainAt second)
    (h : t.changeAll now
      [.makeDirectories dir, .write first firstData, .setMode first mode, .write second secondData]
        = (.ok (), after)) :
    ∃ firstPlace secondPlace secondMode, Holds after first firstPlace firstData mode now
      ∧ Holds after second secondPlace secondData secondMode now
      ∧ ∀ place, place ≠ firstPlace → place ≠ secondPlace →
          after.nodeAt? place = t.nodeAt? place
            ∨ t.nodeAt? place = none ∧ after.nodeAt? place = some .directory := by
  obtain ⟨made, hmade, h⟩ := changeAll_cons_ok h
  obtain ⟨written, hwritten, h⟩ := changeAll_cons_ok h
  obtain ⟨closed, hclosed, h⟩ := changeAll_cons_ok h
  obtain ⟨after, hafter, hend⟩ := changeAll_cons_ok h
  cases hend
  have hgrown : Grown t made := by
    have := grown_makeDirectories t dir
    rwa [show t.makeDirectories dir = (.ok (), made) from hmade] at this
  rw [show t.makeDirectories dir = (.ok (), made) from hmade] at hplainFirst hplainSecond
  -- the first file, once as it is created and once with its mode
  obtain ⟨firstPlace, _, hfirstLast, hsameWritten, hholdsWritten⟩ :=
    write_of_plain hfirst hplainFirst (change_write_ok hwritten)
  have hset := setMode_of_holds hholdsWritten mode
  rw [change_setMode_ok hclosed] at hset
  cases hset
  have hsameClosed := sameBut_put hsameWritten.right hholdsWritten.ne_root firstData mode now
  have hholdsClosed := holds_put hholdsWritten.slash hholdsWritten.leads hholdsWritten.ne_root
    hsameWritten.right hholdsWritten.opens firstData mode now
  -- the second file, at another place
  obtain ⟨secondPlace, secondMode, hsecondLast, hsameAfter, hholdsAfter⟩ :=
    write_of_plain hsecond ((hplainSecond.of_sameBut hsameWritten).of_sameBut hsameClosed)
      (change_write_ok hafter)
  have hplaces : firstPlace ≠ secondPlace := by
    rintro rfl
    rw [hfirstLast] at hsecondLast
    exact hnames (Option.some.inj hsecondLast)
  refine ⟨firstPlace, secondPlace, secondMode, hholdsClosed.of_sameBut hsameAfter hplaces,
    hholdsAfter, ?_⟩
  intro place hneFirst hneSecond
  rw [← hsameAfter.elsewhere place hneSecond, ← hsameClosed.elsewhere place hneFirst,
    ← hsameWritten.elsewhere place hneFirst]
  exact hgrown.nodes place

end RouterSeed.FileTree

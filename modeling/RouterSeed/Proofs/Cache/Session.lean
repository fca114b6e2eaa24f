/-
What holds of a cache whatever its users do, in whatever order.

The flag that says that the cache is claimed and the generation that is
served are two things, changed by different users: a generation may be
installed by one who has no claim, and a claim may outlive it. So each has
its own account.

- Claims: as many are held as the flag says, and that is one at most
  (`Cache.ClaimedBy`). The account is open to holders that the session
  does not count, such as a rebuild that is under way beside its users.
- Generations: what is served is what was installed last
  (`CacheSession.current_run`), never an empty one, and handles are only
  added to (`CacheSession.handles_run`).

Every statement is about one step first and then about a run.

Consumed by Server/Steps and Server/Account, where a rebuild is one more
user.
-/
import RouterSeed.Cache.Session

namespace RouterSeed

-- ============================================================== claims

/-- The cache is claimed by so many holders: one at most, and it is marked
as claimed if there is one. -/
structure Cache.ClaimedBy (c : Cache) (holders : Nat) : Prop where
  atMostOne : holders ≤ 1
  isMarked : c.rebuilding = true ↔ holders = 1

namespace Cache

variable {c claimed : Cache} {holders : Nat}

private theorem claimedBy_new : Cache.new.ClaimedBy 0 := by
  constructor
  · exact Nat.zero_le 1
  · simp [Cache.new]

/-- Only the mark matters. -/
theorem ClaimedBy.of_rebuilding_eq {other : Cache} (h : c.ClaimedBy holders)
    (same : other.rebuilding = c.rebuilding) : other.ClaimedBy holders :=
  ⟨h.atMostOne, by rw [same]; exact h.isMarked⟩

/-- A claim is refused exactly when the cache is marked. -/
theorem beginRebuild?_eq_none_iff : c.beginRebuild? = none ↔ c.rebuilding = true := by
  unfold beginRebuild?
  cases c.rebuilding <;> simp

/-- A claim that is not refused marks the cache and leaves it otherwise. -/
theorem beginRebuild?_eq_some_iff :
    c.beginRebuild? = some claimed
      ↔ c.rebuilding = false ∧ claimed = { c with rebuilding := true } := by
  unfold beginRebuild?
  cases c.rebuilding with
  | false => simp [eq_comm]
  | true => simp

/-- Claiming the cache leaves what is served. -/
theorem current_beginRebuild? (h : c.beginRebuild? = some claimed) :
    claimed.current = c.current := by
  obtain ⟨-, rfl⟩ := beginRebuild?_eq_some_iff.mp h
  rfl

/-- A claim is refused exactly when somebody holds one. -/
theorem ClaimedBy.beginRebuild?_eq_none_iff (h : c.ClaimedBy holders) :
    c.beginRebuild? = none ↔ holders = 1 :=
  Cache.beginRebuild?_eq_none_iff.trans h.isMarked

/-- A claim is granted only while there is none, and then there is one. -/
theorem ClaimedBy.beginRebuild? (h : c.ClaimedBy holders)
    (granted : c.beginRebuild? = some claimed) : holders = 0 ∧ claimed.ClaimedBy (holders + 1) := by
  obtain ⟨hfree, rfl⟩ := beginRebuild?_eq_some_iff.mp granted
  have hnone : holders = 0 := by
    have hbound := h.atMostOne
    have hunmarked : ¬ holders = 1 := by
      rw [← h.isMarked, hfree]
      exact Bool.false_ne_true
    omega
  subst hnone
  exact ⟨rfl, Nat.le_refl 1, by simp⟩

/-- A holder who gives up a claim leaves none behind. -/
theorem ClaimedBy.endRebuild (h : c.ClaimedBy (holders + 1)) : c.endRebuild.ClaimedBy holders := by
  obtain rfl : holders = 0 := by
    have hbound := h.atMostOne
    omega
  exact ⟨Nat.zero_le 1, by simp [Cache.endRebuild]⟩

end Cache

-- ========================================================= generations

/-- The generation that an operation puts into service: empty ones are
refused. -/
def CacheOperation.installed? : CacheOperation → Option Generation
  | .install generation => if generation.bundles = [] then none else some generation
  | _ => none

/-- The handles that an operation takes on what is served. -/
def CacheOperation.taken (served : Option Generation) : CacheOperation → List Generation
  | .hold => served.toList
  | _ => []

/-- The last generation that was put into service. -/
def lastInstalled? (operations : List CacheOperation) : Option Generation :=
  operations.reverse.findSome? CacheOperation.installed?

/-- Only an install of something changes what is served. -/
private theorem CacheOperation.installed?_eq_some {operation : CacheOperation}
    {generation : Generation}
    (h : operation.installed? = some generation) :
    operation = .install generation ∧ generation.bundles ≠ [] := by
  cases operation with
  | install installed =>
    unfold installed? at h
    dsimp only at h
    split at h
    · cases h
    next hnonempty =>
      cases h
      exact ⟨rfl, hnonempty⟩
  | _ => cases h

private theorem lastInstalled?_cons (operation : CacheOperation)
    (operations : List CacheOperation) :
    lastInstalled? (operation :: operations)
      = (lastInstalled? operations).or operation.installed? := by
  unfold lastInstalled?
  rw [List.reverse_cons, List.findSome?_append, List.findSome?_singleton]

/-- Nothing empty was ever installed. -/
private theorem nonempty_of_lastInstalled? {operations : List CacheOperation}
    {generation : Generation}
    (h : lastInstalled? operations = some generation) : generation.bundles ≠ [] := by
  obtain ⟨operation, -, hinstalled⟩ := List.exists_of_findSome?_eq_some h
  exact (CacheOperation.installed?_eq_some hinstalled).2

-- ============================================================= lookups

namespace Cache

variable {c : Cache} {generation : Generation}

/-- Without a generation there is nothing to look up. -/
private theorem lookup_of_current_eq_none (h : c.current = none) (peer : Peer) :
    c.lookup peer = .error .cacheNotReady := by
  unfold lookup
  rw [h]
  rfl

/-- Every peer has a bundle in a generation that has any. -/
theorem lookup_of_current_eq_some (h : c.current = some generation)
    (nonempty : generation.bundles ≠ []) (peer : Peer) :
    ∃ bundle, generation.bundles[peer.slot generation.bundles.length]? = some bundle
      ∧ generation.bundleFor? peer = some bundle ∧ c.lookup peer = .ok bundle := by
  have hslot := peer.slot_lt (List.length_pos_iff.mpr nonempty)
  have hbundle := List.getElem?_eq_getElem hslot
  have hown : generation.bundleFor? peer
      = some generation.bundles[peer.slot generation.bundles.length] := by
    unfold Generation.bundleFor?
    rw [if_neg nonempty, hbundle]
  refine ⟨_, hbundle, hown, ?_⟩
  unfold lookup
  rw [h, Option.bind_some, hown]

end Cache

-- =============================================================== steps

namespace CacheSession

variable {s : CacheSession} {operation : CacheOperation} {others : Nat}

/-- An empty generation is refused, and nothing changes. -/
private theorem step_install_of_empty {generation : Generation} (h : generation.bundles = []) :
    s.step (.install generation) = (.refused (.rebuildFailed .emptyGeneration), s) := by
  unfold step Cache.install
  dsimp only
  rw [if_pos h]

/-- Any other one is served from then on. -/
theorem step_install_of_nonempty {generation : Generation} (h : generation.bundles ≠ []) :
    s.step (.install generation)
      = (.done, { s with cache := { s.cache with current := some generation } }) := by
  unfold step Cache.install
  dsimp only
  rw [if_neg h]

/-- What a step leaves to be served. -/
theorem current_step (s : CacheSession) (operation : CacheOperation) :
    (s.step operation).2.cache.current = operation.installed?.or s.cache.current := by
  cases operation with
  -- the one operation that puts something there
  | install generation =>
    unfold CacheOperation.installed?
    dsimp only
    by_cases hempty : generation.bundles = []
    · rw [step_install_of_empty hempty, if_pos hempty]
      rfl
    · rw [step_install_of_nonempty hempty, if_neg hempty]
      rfl
  | claim =>
    unfold step
    dsimp only
    split
    next claimed hclaimed =>
      obtain ⟨-, rfl⟩ := Cache.beginRebuild?_eq_some_iff.mp hclaimed
      rfl
    next => rfl
  | release =>
    unfold step
    cases s.claims <;> rfl
  | hold =>
    unfold step
    dsimp only
    split <;> rfl
  | lookup peer => rfl

/-- A user who does not install leaves what is served. -/
theorem current_step_of_ne_install (h : ∀ generation, operation ≠ .install generation) :
    (s.step operation).2.cache.current = s.cache.current := by
  rw [current_step]
  cases operation with
  | install generation => exact absurd rfl (h generation)
  | _ => rfl

/-- A step keeps the account of claims, with those of others in it. -/
theorem claimedBy_step (h : s.cache.ClaimedBy (s.claims + others)) (operation : CacheOperation) :
    (s.step operation).2.cache.ClaimedBy ((s.step operation).2.claims + others) := by
  cases operation with
  | install generation =>
    by_cases hempty : generation.bundles = []
    · rw [step_install_of_empty hempty]
      exact h
    · rw [step_install_of_nonempty hempty]
      exact h.of_rebuilding_eq rfl
  -- a claim and its release move the count and the flag together
  | claim =>
    unfold step
    dsimp only
    split
    next claimed hclaimed =>
      rw [Nat.add_right_comm]
      exact (h.beginRebuild? hclaimed).2
    next => exact h
  | release =>
    unfold step
    cases hclaims : s.claims with
    | zero => exact h
    | succ claims =>
      rw [hclaims, Nat.add_right_comm] at h
      exact h.endRebuild
  | hold =>
    unfold step
    dsimp only
    split
    · exact h
    · exact h
  | lookup peer => exact h

/-- A claim is granted exactly when nobody has one, and refused without a
trace otherwise. -/
theorem step_claim (h : s.cache.ClaimedBy s.claims) :
    ((s.step .claim).1 = .done ↔ s.claims = 0)
      ∧ (s.claims = 1 → s.step .claim = (.busy, s)) := by
  unfold step
  dsimp only
  cases hclaim : s.cache.beginRebuild? with
  | none =>
    have hheld := h.beginRebuild?_eq_none_iff.mp hclaim
    refine ⟨⟨fun hdone => ?_, fun hnone => ?_⟩, fun _ => rfl⟩
    · cases hdone
    · omega
  | some claimed =>
    obtain ⟨hnone, -⟩ := h.beginRebuild? hclaim
    refine ⟨⟨fun _ => hnone, fun _ => rfl⟩, fun hheld => ?_⟩
    omega

private theorem step_lookup_of_current_eq_none (h : s.cache.current = none) (peer : Peer) :
    s.step (.lookup peer) = (.bundle (.error .cacheNotReady), s) := by
  unfold step
  dsimp only
  rw [Cache.lookup_of_current_eq_none h]

private theorem step_lookup_of_lookup {peer : Peer} {bundle : Bytes}
    (h : s.cache.lookup peer = .ok bundle) :
    s.step (.lookup peer) = (.bundle (.ok bundle), s) := by
  unfold step
  dsimp only
  rw [h]

/-- Handles are only added to, by whoever takes one on what is served. -/
theorem handles_step (s : CacheSession) (operation : CacheOperation) :
    (s.step operation).2.handles = s.handles ++ operation.taken s.cache.current := by
  cases operation with
  | install generation =>
    by_cases hempty : generation.bundles = []
    · rw [step_install_of_empty hempty]
      exact (List.append_nil _).symm
    · rw [step_install_of_nonempty hempty]
      exact (List.append_nil _).symm
  | claim =>
    unfold step
    dsimp only
    split
    · exact (List.append_nil _).symm
    · exact (List.append_nil _).symm
  | release =>
    unfold step
    cases s.claims with
    | zero => exact (List.append_nil _).symm
    | succ claims => exact (List.append_nil _).symm
  -- the one operation that takes a handle, if there is something to hold
  | hold =>
    unfold step CacheOperation.taken
    dsimp only
    cases s.cache.current with
    | none => exact (List.append_nil _).symm
    | some generation => rfl
  | lookup peer => exact (List.append_nil _).symm

-- ================================================================ runs

private theorem run_cons (s : CacheSession) (operation : CacheOperation)
    (operations : List CacheOperation) :
    s.run (operation :: operations) = (s.step operation).2.run operations := rfl

/-- What is served after a run is what was installed last, or what was
served before it. -/
theorem current_run (s : CacheSession) (operations : List CacheOperation) :
    (s.run operations).cache.current = (lastInstalled? operations).or s.cache.current := by
  induction operations generalizing s with
  | nil => rfl
  | cons operation operations ih =>
    rw [run_cons, ih, current_step, lastInstalled?_cons, Option.or_assoc]

/-- The claim is held by as many as have taken it and not given it up,
through a whole run. -/
theorem claimedBy_run (h : s.cache.ClaimedBy (s.claims + others))
    (operations : List CacheOperation) :
    (s.run operations).cache.ClaimedBy ((s.run operations).claims + others) := by
  induction operations generalizing s with
  | nil => exact h
  | cons operation operations ih => exact ih (claimedBy_step h operation)

/-- A generation that was held is held for good: handles are only added. -/
theorem handles_run (s : CacheSession) (operations : List CacheOperation) :
    s.handles <+: (s.run operations).handles := by
  induction operations generalizing s with
  | nil => exact List.prefix_refl _
  | cons operation operations ih =>
    have hfirst : s.handles <+: (s.step operation).2.handles := by
      rw [handles_step]
      exact List.prefix_append _ _
    exact hfirst.trans (ih _)

/-- A generation that somebody took a handle on stays as it was. -/
theorem getElem?_handles_run {index : Nat} {generation : Generation}
    (h : s.handles[index]? = some generation) (operations : List CacheOperation) :
    (s.run operations).handles[index]? = some generation := by
  obtain ⟨taken, htaken⟩ := handles_run s operations
  obtain ⟨hbound, -⟩ := List.getElem?_eq_some_iff.mp h
  rw [← htaken, List.getElem?_append_left hbound, h]

/-- Whoever starts with a new cache finds the claims in order. -/
theorem claimedBy_run_new (operations : List CacheOperation) :
    (new.run operations).cache.ClaimedBy (new.run operations).claims :=
  have h : new.cache.ClaimedBy (new.claims + 0) := Cache.claimedBy_new
  claimedBy_run h operations

/-- What is served is what was installed last. -/
theorem current_run_new (operations : List CacheOperation) :
    (new.run operations).cache.current = lastInstalled? operations := by
  rw [current_run]
  exact Option.or_none

-- ============================================================ the cache

/-- A new cache under any operations of any number of users. One claim is
held at most, and the cache is marked while it is; a claim is granted when
there is none. What is served is what was installed last, empty
generations apart, and once there is something there always is. Peers are
told that the cache is not ready until then, and afterwards get the bundle
that their hash chooses of that generation; a generation that somebody
took a handle on stays as it was, and so does every peer's bundle in
it. -/
theorem run_new_inOrder (operations : List CacheOperation) :
    let s := new.run operations
    (s.claims ≤ 1 ∧ (s.cache.rebuilding = true ↔ s.claims = 1)
        ∧ ((s.step .claim).1 = .done ↔ s.claims = 0)
        ∧ (s.claims = 1 → s.step .claim = (.busy, s)))
      ∧ (s.cache.current = lastInstalled? operations
        ∧ (∀ g : Generation, g.bundles = [] →
            s.step (.install g) = (.refused (.rebuildFailed .emptyGeneration), s))
        ∧ (∀ g : Generation, g.bundles ≠ [] → (s.step (.install g)).1 = .done
            ∧ (s.step (.install g)).2.cache.current = some g)
        ∧ ((lastInstalled? operations).isSome → ∀ more,
            ∃ g, (s.run more).cache.current = some g ∧ g.bundles ≠ []))
      ∧ (∀ peer, (lastInstalled? operations = none →
            s.step (.lookup peer) = (.bundle (.error .cacheNotReady), s))
          ∧ ∀ g, lastInstalled? operations = some g →
            ∃ bundle, s.step (.lookup peer) = (.bundle (.ok bundle), s)
              ∧ g.bundles[Bytes.toNat ((Digest.sha256 (Bytes.ofString peer.text)).take 8)
                  % g.bundles.length]? = some bundle
              ∧ ∀ more, ((s.step .hold).2.run more).handles[s.handles.length]? = some g
                  ∧ g.bundleFor? peer = some bundle)
      ∧ ∀ more (index : Nat) (g : Generation), s.handles[index]? = some g →
          (s.run more).handles[index]? = some g := by
  intro s
  have hclaims : s.cache.ClaimedBy s.claims := claimedBy_run_new operations
  have hcurrent : s.cache.current = lastInstalled? operations := current_run_new operations
  refine ⟨⟨hclaims.atMostOne, hclaims.isMarked, step_claim hclaims⟩,
    ⟨hcurrent, fun g => step_install_of_empty, ?installs, ?keepsServing⟩,
    fun peer => ⟨?notReady, ?serves⟩, fun more index g h => getElem?_handles_run h more⟩
  case installs =>
    intro g hnonempty
    rw [step_install_of_nonempty hnonempty]
    exact ⟨rfl, rfl⟩
  case keepsServing =>
    intro hserved more
    obtain ⟨first, hfirst⟩ := Option.isSome_iff_exists.mp hserved
    rw [current_run, hcurrent]
    cases hlater : lastInstalled? more with
    | none => exact ⟨first, hfirst, nonempty_of_lastInstalled? hfirst⟩
    | some later => exact ⟨later, rfl, nonempty_of_lastInstalled? hlater⟩
  case notReady =>
    intro hnone
    exact step_lookup_of_current_eq_none (hcurrent.trans hnone) peer
  case serves =>
    intro g hg
    obtain ⟨bundle, hslot, hown, hlookup⟩ :=
      Cache.lookup_of_current_eq_some (hcurrent.trans hg) (nonempty_of_lastInstalled? hg) peer
    refine ⟨bundle, step_lookup_of_lookup hlookup, hslot, fun more => ⟨?_, hown⟩⟩
    apply getElem?_handles_run
    -- whoever takes a handle now gets the next one
    rw [handles_step, hcurrent, hg, List.getElem?_append_right (Nat.le_refl _), Nat.sub_self]
    rfl

end CacheSession

end RouterSeed

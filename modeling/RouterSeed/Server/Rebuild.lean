/-
One rebuild, as a machine that makes one step at a time.

A rebuild claims the cache, reads the netDb, builds every bundle in a
task of its own, and installs the bundles together when all of them are
there and nothing asked it to stop. Its claim is given back on every way
out. Between any two steps the surroundings may change: tasks end in any
order, others use the cache, the signal fires.

    ready ── begin ──> claimed ── scan ──> building ── conclude ──> installing
      │                   │                    │                        │
      └──────> ended <────┴──── release ── leaving <────── install ─────┘

Steps that a phase does not have leave everything as it is, so every list
of events is a run. `Server.rebuild` is the run whose tasks are done one
after the other.
-/
import RouterSeed.Bundle.Build
import RouterSeed.Server.Basic
import RouterSeed.Server.Surroundings

namespace RouterSeed

-- =========================================================== phases

/-- What a rebuild leaves behind when it is over. -/
inductive RebuildOutcome where
  | installed (generation : Generation)
  | failed (failure : Failure)
  | crashed
  deriving DecidableEq, Repr

/-- How far a rebuild is. -/
inductive RebuildPhase where
  | ready
  | claimed
  /-- Every task has a slot for its bundle; the first failure of a task is
  kept, and no task is begun after it. -/
  | building (infos : List RouterInfo) (slots : List (Option Bytes)) (failure : Option Failure)
  | installing (bundles : List Bytes)
  | leaving (outcome : RebuildOutcome)
  | ended (outcome : RebuildOutcome)
  deriving DecidableEq, Repr

/-- Whether the rebuild has the cache claimed. -/
def RebuildPhase.holdsClaim : RebuildPhase → Bool
  | .ready => false
  | .ended _ => false
  | _ => true

/-- What a rebuild does next, or what happens around it. -/
inductive RebuildEvent where
  | begin
  | scan (tree : FileTree) (now : Instant)
  | build (index : Nat) (inputs : BundleInputs)
  | conclude
  | install (now : Instant)
  | release
  /-- The rebuild breaks down; it cannot once all that is left is to
  leave. -/
  | crash
  | outside (event : OutsideEvent)

/-- A rebuild and its surroundings. -/
structure Rebuild where
  around : Surroundings
  phase : RebuildPhase
  deriving DecidableEq, Repr

/-- A rebuild that held the claim and crashed. The claim is given back all
the same. -/
def Rebuild.afterCrash (r : Rebuild) : Rebuild :=
  ⟨r.around.withCache r.around.cache.endRebuild, .ended .crashed⟩

-- ============================================================ tasks

/-- What a rebuild fails with when a task of it failed. -/
def Failure.ofTask : Failure → Failure
  | .rebuildCancelled => .rebuildCancelled
  | failure => .rebuildFailed (.badBundle failure.message)

/-- The bundle that a task makes, unless it is time to stop. -/
def Server.taskBundle (s : Server) (identity : SigningIdentity) (stop : Bool)
    (infos : List RouterInfo) (inputs : BundleInputs) : Except Failure Bytes :=
  if stop then .error .rebuildCancelled
  else encodedBundle infos s.config.infosPerBundle identity s.config.signatureType inputs

/-- The bundles, if every slot is filled. -/
def filledSlots? : (slots : List (Option Bytes)) → Option (List Bytes)
  | [] => some []
  | none :: _ => none
  | some bundle :: rest => (filledSlots? rest).map (bundle :: ·)

-- ============================================================ steps

namespace Server

/-- One step of a rebuild. -/
def step (s : Server) (r : Rebuild) : RebuildEvent → Rebuild
  | .outside event => { r with around := r.around.step event }
  | .begin =>
    match r.phase, s.identity with
    | .ready, none => { r with phase := .ended (.failed .missingSigningKey) }
    | .ready, some _ =>
      match r.around.cache.beginRebuild? with
      | some cache => ⟨r.around.withCache cache, .claimed⟩
      | none => { r with phase := .ended (.failed (.rebuildFailed .alreadyRunning)) }
    | _, _ => r
  | .scan tree now =>
    match r.phase with
    | .claimed =>
      match s.netDb.scan tree now with
      | .ok infos =>
        { r with
          phase := .building infos (List.replicate (s.bundleCount infos.length) none) none }
      | .error fault =>
        let failure := .rebuildFailed (.unreadableNetDb s.netDb.path fault)
        { r with phase := .leaving (.failed failure) }
    | _ => r
  | .build index inputs =>
    match r.phase, s.identity with
    | .building infos slots none, some identity =>
      if slots[index]? = some none then
        match s.taskBundle identity r.around.shutdown.hasFired infos inputs with
        | .ok bundle => { r with phase := .building infos (slots.set index (some bundle)) none }
        | .error failure => { r with phase := .building infos slots (some failure) }
      else r
    | _, _ => r
  | .conclude =>
    match r.phase with
    | .building _ _ (some failure) => { r with phase := .leaving (.failed failure.ofTask) }
    | .building _ slots none =>
      match filledSlots? slots with
      | none => r
      | some bundles =>
        if r.around.shutdown.hasFired then { r with phase := .leaving (.failed .rebuildCancelled) }
        else { r with phase := .installing bundles }
    | _ => r
  | .install now =>
    match r.phase with
    | .installing bundles =>
      let generation : Generation := ⟨bundles, now⟩
      match r.around.cache.install generation with
      | .ok cache => ⟨r.around.withCache cache, .leaving (.installed generation)⟩
      | .error failure => { r with phase := .leaving (.failed failure) }
    | _ => r
  | .release =>
    match r.phase with
    | .leaving outcome => ⟨r.around.withCache r.around.cache.endRebuild, .ended outcome⟩
    | _ => r
  | .crash =>
    match r.phase with
    | .ready => { r with phase := .ended .crashed }
    | .claimed => r.afterCrash
    | .building .. => r.afterCrash
    | .installing _ => r.afterCrash
    | _ => r

/-- The steps of a schedule, in order. -/
def steps (s : Server) (r : Rebuild) (schedule : List RebuildEvent) : Rebuild :=
  schedule.foldl s.step r

end Server

-- ==================================================== whole rebuilds

/-- What one rebuild takes from outside: the files and the clock when the
netDb is read, the inputs of each task, and the clock when the bundles
are installed. -/
structure RebuildInputs where
  tree : FileTree
  scannedAt : Instant
  task : Nat → BundleInputs
  installedAt : Instant

namespace Server

/-- How many tasks a rebuild has. -/
def taskCount (s : Server) (inputs : RebuildInputs) : Nat :=
  match s.netDb.scan inputs.tree inputs.scannedAt with
  | .ok infos => s.bundleCount infos.length
  | .error _ => 0

/-- The schedule of a rebuild whose tasks are done one after the other. -/
def oneByOne (s : Server) (inputs : RebuildInputs) : List RebuildEvent :=
  [.begin, .scan inputs.tree inputs.scannedAt]
    ++ (List.range (s.taskCount inputs)).map (fun i => .build i (inputs.task i))
    ++ [.conclude, .install inputs.installedAt, .release]

/-- Rebuild from beginning to end while nothing else happens: the new
generation, or why there is none, and the surroundings afterwards. -/
def rebuild (s : Server) (around : Surroundings) (inputs : RebuildInputs) :
    Except Failure Generation × Surroundings :=
  let finished := s.steps ⟨around, .ready⟩ (s.oneByOne inputs)
  match finished.phase with
  | .ended (.installed generation) => (.ok generation, finished.around)
  | .ended (.failed failure) => (.error failure, finished.around)
  | _ => (.error .rebuildCancelled, finished.around)

end Server

end RouterSeed

/-
The cache of ready bundles.

What is served is a generation, a list of bundles that were built
together; it never changes, and the next one takes its place as a whole.
An empty generation is refused, so that once there is something to serve
there always is. While a rebuild runs the cache is claimed, and what was
served before still is.
-/
import RouterSeed.Failure
import RouterSeed.Peer.Basic
import RouterSeed.Calendar

namespace RouterSeed

-- ====================================================== generations

/-- Bundles that were built together. -/
structure Generation where
  bundles : List Bytes
  builtAt : Instant
  deriving DecidableEq, Repr

/-- The bundle of a peer; an empty generation has none. -/
def Generation.bundleFor? (g : Generation) (peer : Peer) : Option Bytes :=
  if g.bundles = [] then none else g.bundles[peer.slot g.bundles.length]?

-- =========================================================== caches

/-- What is served, and whether a rebuild has claimed the cache. -/
structure Cache where
  current : Option Generation
  rebuilding : Bool
  deriving DecidableEq, Repr

/-- How a cache presents itself. -/
inductive CacheState where
  | empty
  | ready
  | rebuilding
  deriving DecidableEq, Repr

/-- The state, from whether there is something to serve and whether the
cache is claimed, which are looked up one after the other. -/
def CacheState.ofReads (isServing isClaimed : Bool) : CacheState :=
  match isServing, isClaimed with
  | false, _ => .empty
  | true, true => .rebuilding
  | true, false => .ready

namespace Cache

/-- A new cache. -/
def new : Cache := ⟨none, false⟩

/-- How the cache presents itself. -/
def state (c : Cache) : CacheState := .ofReads c.current.isSome c.rebuilding

/-- Claim the cache for a rebuild, unless it is claimed. -/
def beginRebuild? (c : Cache) : Option Cache :=
  if c.rebuilding then none else some { c with rebuilding := true }

/-- Give up the claim. -/
def endRebuild (c : Cache) : Cache := { c with rebuilding := false }

/-- Serve a generation from now on. -/
def install (c : Cache) (g : Generation) : Except Failure Cache :=
  if g.bundles = [] then .error (.rebuildFailed .emptyGeneration)
  else .ok { c with current := some g }

/-- The bundle of a peer in what is served. -/
def lookup (c : Cache) (peer : Peer) : Except Failure Bytes :=
  match c.current.bind fun g => g.bundleFor? peer with
  | some bundle => .ok bundle
  | none => .error .cacheNotReady

end Cache

end RouterSeed

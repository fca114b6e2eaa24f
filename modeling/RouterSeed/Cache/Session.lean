/-
A cache and those who use it, one operation after the other.

Users share the cache; what they hold of it is their own: a claim, of
which they give back one at a time, and handles on generations that were
served when they were taken. Any interleaving of any number of users is
a list of operations.
-/
import RouterSeed.Cache.Basic

namespace RouterSeed

/-- What a user can do. -/
inductive CacheOperation where
  | install (generation : Generation)
  | claim
  | release
  | hold
  | lookup (peer : Peer)
  deriving DecidableEq, Repr

/-- What a user is told. -/
inductive CacheAnswer where
  | done
  | refused (failure : Failure)
  | busy
  | released (count : Nat)
  | handle (generation : Option Generation)
  | bundle (result : Except Failure Bytes)

/-- The cache, how many claims are held, and the handles that were taken,
the first one first. -/
structure CacheSession where
  cache : Cache
  claims : Nat
  handles : List Generation
  deriving DecidableEq, Repr

namespace CacheSession

/-- A new cache that nobody uses yet. -/
def new : CacheSession := ⟨.new, 0, []⟩

/-- One operation. -/
def step (s : CacheSession) : CacheOperation → CacheAnswer × CacheSession
  | .install g =>
    match s.cache.install g with
    | .ok cache => (.done, { s with cache })
    | .error failure => (.refused failure, s)
  | .claim =>
    match s.cache.beginRebuild? with
    | some cache => (.done, { s with cache, claims := s.claims + 1 })
    | none => (.busy, s)
  | .release =>
    match s.claims with
    | 0 => (.released 0, s)
    | claims + 1 => (.released 1, { s with cache := s.cache.endRebuild, claims })
  | .hold =>
    match s.cache.current with
    | some g => (.handle (some g), { s with handles := s.handles ++ [g] })
    | none => (.handle none, s)
  | .lookup peer => (.bundle (s.cache.lookup peer), s)

/-- Operations in order. -/
def run (s : CacheSession) (operations : List CacheOperation) : CacheSession :=
  operations.foldl (fun s operation => (s.step operation).2) s

end CacheSession

end RouterSeed

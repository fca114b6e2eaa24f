/-
What a server shares with others while it works: the cache, which others
use at the same time, and the signal to shut down.

The signal is sent once or dropped by whoever could have sent it. Either
way it has fired, and it never falls silent again.
-/
import RouterSeed.Cache.Session

namespace RouterSeed

-- ========================================================== signals

/-- The signal to shut down, as the one who waits for it sees it. -/
inductive Shutdown where
  | silent
  | sent
  | dropped
  deriving DecidableEq, Repr

/-- Whether it is time to stop. -/
def Shutdown.hasFired : Shutdown → Bool
  | .silent => false
  | .sent => true
  | .dropped => true

-- ===================================================== surroundings

/-- The cache with its other users, and the signal. -/
structure Surroundings where
  session : CacheSession
  shutdown : Shutdown
  deriving DecidableEq, Repr

/-- What happens without the server. -/
inductive OutsideEvent where
  /-- Another user does something with the cache. -/
  | use (operation : CacheOperation)
  /-- The signal is sent. -/
  | send
  /-- The one who could send the signal goes away. -/
  | drop
  deriving DecidableEq, Repr

namespace Surroundings

/-- The cache. -/
def cache (s : Surroundings) : Cache := s.session.cache

/-- The same surroundings with another cache. -/
def withCache (s : Surroundings) (cache : Cache) : Surroundings :=
  { s with session := { s.session with cache } }

/-- One event. A signal that nobody can send any more stays dropped. -/
def step (s : Surroundings) : OutsideEvent → Surroundings
  | .use operation => { s with session := (s.session.step operation).2 }
  | .send => if s.shutdown = .silent then { s with shutdown := .sent } else s
  | .drop => { s with shutdown := .dropped }

end Surroundings

end RouterSeed

/-
A server in service: rebuilds that come and go on one cache, and peers
that look their bundles up meanwhile.

Any number of rebuilds may have been started, one after the other or
while another one still runs, by a loop or by hand. Each has its own
signal to stop; they share the cache, whose claim lets one of them work
at a time. A rebuild that is over stays where it is with its outcome, so
that a service is its own history.

Every list of events is a run: events of rebuilds that were not started
leave everything as it is.
-/
import RouterSeed.Server.Rebuild

namespace RouterSeed

-- ========================================================= attempts

/-- The descriptors that a rebuild works on. -/
def RebuildPhase.infos? : RebuildPhase → Option (List RouterInfo)
  | .building infos _ _ => some infos
  | _ => none

/-- A rebuild that was started, with its signal and with what it read of
the netDb. -/
structure Attempt where
  phase : RebuildPhase
  shutdown : Shutdown
  read : Option (List RouterInfo)
  deriving DecidableEq, Repr

namespace Attempt

/-- A rebuild that has done nothing yet. -/
def new (shutdown : Shutdown) : Attempt := ⟨.ready, shutdown, none⟩

/-- The rebuild with the cache that it works on. -/
def on (a : Attempt) (session : CacheSession) : Rebuild := ⟨⟨session, a.shutdown⟩, a.phase⟩

/-- The attempt after its rebuild got so far. -/
def reached (a : Attempt) (r : Rebuild) : Attempt where
  phase := r.phase
  shutdown := r.around.shutdown
  read :=
    match r.phase.infos? with
    | some infos => some infos
    | none => a.read

end Attempt

-- ========================================================== service

/-- The cache with its users, and all rebuilds that were started, the
first one first. -/
structure Service where
  session : CacheSession
  attempts : List Attempt
  deriving DecidableEq, Repr

/-- A service that nobody uses yet. -/
def Service.new : Service := ⟨.new, []⟩

/-- The bundle that a peer is handed. -/
def Service.lookup (v : Service) (peer : Peer) : Except Failure Bytes :=
  v.session.cache.lookup peer

/-- What happens to a service. -/
inductive ServiceEvent where
  /-- A rebuild is started that will look at this signal. -/
  | start (shutdown : Shutdown)
  /-- A rebuild makes a step, or something happens around it. -/
  | advance (index : Nat) (event : RebuildEvent)
  /-- Somebody uses the cache. -/
  | use (operation : CacheOperation)

/-- Whether somebody else puts a generation into the cache. -/
def RebuildEvent.isForeignInstall : RebuildEvent → Bool
  | .outside (.use (.install _)) => true
  | _ => false

/-- Whether somebody else puts a generation into the cache. -/
def ServiceEvent.isForeignInstall : ServiceEvent → Bool
  | .advance _ event => event.isForeignInstall
  | .use (.install _) => true
  | _ => false

namespace Server

/-- One event. -/
def serve (s : Server) (v : Service) : ServiceEvent → Service
  | .start shutdown => { v with attempts := v.attempts ++ [.new shutdown] }
  | .advance index event =>
    match v.attempts[index]? with
    | some attempt =>
      let after := s.step (attempt.on v.session) event
      ⟨after.around.session, v.attempts.set index (attempt.reached after)⟩
    | none => v
  | .use operation => { v with session := (v.session.step operation).2 }

/-- A service after its events, in order. -/
def serveAll (s : Server) (schedule : List ServiceEvent) : Service :=
  schedule.foldl s.serve .new

end Server

end RouterSeed

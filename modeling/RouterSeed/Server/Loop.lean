/-
The loop of a server: rebuild at once, then at every tick, until it is
told to stop.

The loop either waits or has one rebuild running. It looks at the signal
only while it waits, and the running rebuild looks at the same signal, so
a shutdown is noticed in either case. When a tick and the signal come
together, either may be taken first. However a rebuild ends, the loop
goes on waiting.
-/
import RouterSeed.Server.Rebuild

namespace RouterSeed

/-- What the loop is doing. -/
inductive LoopPhase where
  | waiting
  | rebuilding (phase : RebuildPhase)
  | stopped
  deriving DecidableEq, Repr

/-- What happens to the loop. -/
inductive LoopEvent where
  /-- A rebuild is due. -/
  | tick
  /-- The running rebuild makes a step. -/
  | rebuild (event : RebuildEvent)
  /-- The end of the running rebuild is noticed. -/
  | resume
  /-- The signal is noticed. -/
  | notice
  | outside (event : OutsideEvent)

/-- The loop and its surroundings. -/
structure ServerLoop where
  around : Surroundings
  phase : LoopPhase
  deriving DecidableEq, Repr

/-- The shortest time between two ticks. -/
def minRebuildInterval : Duration := .ofSeconds 1

namespace Server

/-- The time between two ticks. -/
def tickInterval (s : Server) : Duration :=
  if minRebuildInterval ≤ s.config.rebuildInterval then s.config.rebuildInterval
  else minRebuildInterval

/-- One step of the loop. An event that cannot happen now changes
nothing. -/
def loopStep (s : Server) (l : ServerLoop) : LoopEvent → ServerLoop
  | .outside event => { l with around := l.around.step event }
  | .tick =>
    match l.phase with
    | .waiting => { l with phase := .rebuilding .ready }
    | _ => l
  | .rebuild event =>
    match l.phase with
    | .rebuilding phase =>
      let after := s.step ⟨l.around, phase⟩ event
      ⟨after.around, .rebuilding after.phase⟩
    | _ => l
  | .resume =>
    match l.phase with
    | .rebuilding (.ended _) => { l with phase := .waiting }
    | _ => l
  | .notice =>
    match l.phase with
    | .waiting => if l.around.shutdown.hasFired then { l with phase := .stopped } else l
    | _ => l

/-- The steps of the loop, in order. -/
def loopSteps (s : Server) (l : ServerLoop) (schedule : List LoopEvent) : ServerLoop :=
  schedule.foldl s.loopStep l

/-- The schedule of a tick whose rebuild is done before anything else
happens. -/
def wholeTick (s : Server) (inputs : RebuildInputs) : List LoopEvent :=
  [.tick] ++ (s.oneByOne inputs).map .rebuild ++ [.resume]

end Server

end RouterSeed

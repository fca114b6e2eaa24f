/-
The loop of a server is safe in every interleaving.

A run of the loop is cut into rounds, one for each rebuild that a tick
has started: how things were at that tick, and everything that has
happened since, until the loop has noticed that the rebuild is over.
`Server.record` keeps the rounds beside the loop and changes nothing of
it (`loop_recordAll`).

What ties the two together is `LoopHistory.Tracked`: the rebuild under
way is the last round, run from its start, and all rounds before it are
over. One event keeps it (`tracked_record`). From there whatever is known
of single rebuilds (Account, Outcome) holds of every round: what others
see of it, what it leaves claimed, and that a signal stops it.

The signal is looked at in two places, by the loop while it waits and by
the rebuild, and both see the same one; so a signal that fires while a
rebuild runs is not lost, and no round that has not looked for the last
time installs anything after it (`quiet_recordAll`).
-/
import Mathlib.Data.List.Induction
import Mathlib.Data.List.ModifyLast
import RouterSeed.Proofs.Server.Whole
import RouterSeed.Server.Loop

namespace RouterSeed

-- ============================================================== rounds

/-- A rebuild that the loop has started: the surroundings at that tick,
and what has happened since. -/
structure Round where
  start : Surroundings
  schedule : List RebuildEvent

namespace Round

/-- How far the rebuild has come. -/
def reached (r : Round) (s : Server) : Rebuild := s.steps ⟨r.start, .ready⟩ r.schedule

def extend (r : Round) (event : RebuildEvent) : Round :=
  { r with schedule := r.schedule ++ [event] }

def isInFlight (s : Server) (r : Round) : Bool :=
  match (r.reached s).phase with
  | .ended _ => false
  | _ => true

/-- One event more is one step more. -/
private theorem reached_extend (r : Round) (event : RebuildEvent) (s : Server) :
    (r.extend event).reached s = s.step (r.reached s) event := by
  unfold reached extend Server.steps
  rw [List.foldl_append, List.foldl_cons, List.foldl_nil]

/-- A round is over when its rebuild has ended. -/
private theorem isInFlight_eq_false_iff {s : Server} {r : Round} :
    r.isInFlight s = false ↔ ∃ outcome, (r.reached s).phase = .ended outcome := by
  unfold isInFlight
  cases (r.reached s).phase <;> simp

end Round

/-- The loop with the rounds that it has made. -/
structure LoopHistory where
  loop : ServerLoop
  rounds : List Round

/-- What an event is to the rebuild under way. -/
def LoopEvent.toRebuild? : LoopEvent → Option RebuildEvent
  | .rebuild event => some event
  | .outside event => some (.outside event)
  | _ => none

/-- The rounds after one more event. -/
def LoopHistory.roundsAfter (h : LoopHistory) (event : LoopEvent) : List Round :=
  match h.loop.phase with
  | .waiting =>
    match event with
    | .tick => h.rounds ++ [⟨h.loop.around, []⟩]
    | _ => h.rounds
  | .rebuilding _ =>
    match event.toRebuild? with
    | some event => h.rounds.modifyLast fun r => r.extend event
    | none => h.rounds
  | .stopped => h.rounds

namespace Server

def record (s : Server) (h : LoopHistory) (event : LoopEvent) : LoopHistory :=
  ⟨s.loopStep h.loop event, h.roundsAfter event⟩

/-- A run of the loop with its rounds. -/
def recordAll (s : Server) (start : Surroundings) (schedule : List LoopEvent) : LoopHistory :=
  schedule.foldl s.record ⟨⟨start, .waiting⟩, []⟩

private theorem recordAll_append (s : Server) (start : Surroundings)
    (earlier later : List LoopEvent) :
    s.recordAll start (earlier ++ later) = later.foldl s.record (s.recordAll start earlier) :=
  List.foldl_append

/-- Keeping the rounds does not touch the loop. -/
private theorem loop_recordAll (s : Server) (start : Surroundings) (schedule : List LoopEvent) :
    (s.recordAll start schedule).loop = s.loopSteps ⟨start, .waiting⟩ schedule := by
  unfold recordAll loopSteps
  rw [← List.foldl_hom LoopHistory.loop]
  exact fun _ _ => rfl

end Server

-- ============================================================ tracking

variable {s : Server} {h : LoopHistory} {l : ServerLoop}

/-- The rebuild under way is the last round, and it is the only one. -/
structure LoopHistory.Tracked (s : Server) (h : LoopHistory) : Prop where
  current : ∀ phase, h.loop.phase = .rebuilding phase → ∃ ended last,
    h.rounds = ended ++ [last] ∧ last.reached s = ⟨h.loop.around, phase⟩
      ∧ ∀ r ∈ ended, r.isInFlight s = false
  idle : (∀ phase, h.loop.phase ≠ .rebuilding phase) → ∀ r ∈ h.rounds, r.isInFlight s = false

namespace Server

/-- What the loop does while a rebuild is under way, except that it
notices its end. -/
private theorem loopStep_rebuilding {phase : RebuildPhase} (hphase : l.phase = .rebuilding phase)
    {event : LoopEvent} {inner : RebuildEvent} (hevent : event.toRebuild? = some inner) :
    s.loopStep l event
      = ⟨(s.step ⟨l.around, phase⟩ inner).around,
          .rebuilding (s.step ⟨l.around, phase⟩ inner).phase⟩ := by
  obtain ⟨around, _⟩ := l
  cases hphase
  cases event with
  | rebuild event =>
    cases hevent
    rfl
  | outside event =>
    cases hevent
    rfl
  | _ => cases hevent

/-- An event of the running rebuild is the last round's. -/
private theorem roundsAfter_rebuilding {phase : RebuildPhase}
    (hphase : h.loop.phase = .rebuilding phase) {event : LoopEvent} {inner : RebuildEvent}
    (hevent : event.toRebuild? = some inner) {ended : List Round} {last : Round}
    (hrounds : h.rounds = ended ++ [last]) :
    h.roundsAfter event = ended ++ [last.extend inner] := by
  unfold LoopHistory.roundsAfter
  rw [hphase]
  dsimp only
  rw [hevent, hrounds]
  exact List.modifyLast_concat _ _ _

/-- Each event keeps the rounds in step with the loop. -/
private theorem tracked_record (htracked : h.Tracked s) (event : LoopEvent) :
    (s.record h event).Tracked s := by
  obtain ⟨⟨around, loopPhase⟩, rounds⟩ := h
  cases loopPhase with
  | waiting =>
    have hended : ∀ r ∈ rounds, r.isInFlight s = false := htracked.idle nofun
    cases event with
    | tick =>
      refine ⟨fun phase hphase => ?_, fun hidle => absurd rfl (hidle .ready)⟩
      cases hphase
      exact ⟨rounds, ⟨around, []⟩, rfl, rfl, hended⟩
    | notice =>
      unfold record loopStep
      dsimp only
      split
      · exact ⟨nofun, fun _ => hended⟩
      · exact ⟨nofun, fun _ => hended⟩
    | _ => exact ⟨nofun, fun _ => hended⟩
  | rebuilding phase =>
    obtain ⟨ended, last, hrounds, hreached, hended⟩ := htracked.current phase rfl
    cases hevent : event.toRebuild? with
    | some inner =>
      constructor
      case current =>
        intro after hafter
        refine ⟨ended, last.extend inner, roundsAfter_rebuilding rfl hevent hrounds, ?_, hended⟩
        unfold record at hafter ⊢
        rw [loopStep_rebuilding rfl hevent] at hafter ⊢
        cases hafter
        rw [Round.reached_extend, hreached]
      case idle =>
        intro hidle
        unfold record at hidle
        rw [loopStep_rebuilding rfl hevent] at hidle
        exact absurd rfl (hidle _)
    | none =>
      cases event with
      | resume =>
        -- the round is over once the loop has noticed that it is
        have hall (hlast : last.isInFlight s = false) : ∀ r ∈ rounds, r.isInFlight s = false := by
          intro r hr
          change r ∈ rounds at hr
          rw [show rounds = ended ++ [last] from hrounds, List.mem_append,
            List.mem_singleton] at hr
          rcases hr with hr | rfl
          · exact hended r hr
          · exact hlast
        cases phase with
        | ended outcome =>
          refine ⟨nofun, fun _ => hall ?_⟩
          rw [Round.isInFlight_eq_false_iff, hreached]
          exact ⟨outcome, rfl⟩
        | _ => exact htracked
      | tick => exact htracked
      | notice => exact htracked
      | _ => cases hevent
  | stopped =>
    have hended : ∀ r ∈ rounds, r.isInFlight s = false := htracked.idle nofun
    cases event <;> exact ⟨nofun, fun _ => hended⟩

/-- Any schedule keeps the rounds in step with the loop. -/
private theorem tracked_recordAll (s : Server) (start : Surroundings) (schedule : List LoopEvent) :
    (s.recordAll start schedule).Tracked s := by
  refine List.foldlRecOn (motive := fun h => h.Tracked s) schedule s.record ?_ ?_
  · exact ⟨nofun, fun _ => nofun⟩
  · intro h htracked event _
    exact tracked_record htracked event

end Server

/-- At most one rebuild of the loop is in flight. -/
theorem LoopHistory.Tracked.countP_le_one (htracked : h.Tracked s) :
    h.rounds.countP (·.isInFlight s) ≤ 1 := by
  have hnone (rounds : List Round) (hended : ∀ r ∈ rounds, r.isInFlight s = false) :
      rounds.countP (·.isInFlight s) = 0 := by
    rw [List.countP_eq_zero]
    intro r hr hflight
    rw [hended r hr] at hflight
    cases hflight
  cases hphase : h.loop.phase with
  | rebuilding phase =>
    obtain ⟨ended, last, hrounds, -, hended⟩ := htracked.current phase hphase
    rw [hrounds, List.countP_append, hnone ended hended, Nat.zero_add]
    exact List.countP_le_length
  | _ =>
    rw [hnone h.rounds (htracked.idle (by rw [hphase]; exact nofun))]
    exact Nat.zero_le 1

-- ============================================================== claims

def LoopPhase.holdsClaim : LoopPhase → Bool
  | .rebuilding phase => phase.holdsClaim
  | _ => false

/-- The claims that others hold and that of the loop make one account,
now and whenever a round was started. -/
structure LoopHistory.Claimed (h : LoopHistory) : Prop where
  loop : h.loop.around.cache.ClaimedBy
    (h.loop.around.session.claims + h.loop.phase.holdsClaim.toNat)
  rounds : ∀ r ∈ h.rounds, r.start.cache.ClaimedBy r.start.session.claims

namespace Server

/-- The claims are counted right through every event of the loop. -/
private theorem claimedBy_loopStep
    (claims : l.around.cache.ClaimedBy (l.around.session.claims + l.phase.holdsClaim.toNat))
    (event : LoopEvent) :
    (s.loopStep l event).around.cache.ClaimedBy
      ((s.loopStep l event).around.session.claims + (s.loopStep l event).phase.holdsClaim.toNat) := by
  obtain ⟨around, phase⟩ := l
  cases event with
  | outside event =>
    -- to a loop that waits, as to a rebuild that has not begun
    cases phase with
    | rebuilding phase => exact claimedBy_step (s := s) (r := ⟨around, phase⟩) claims (.outside event)
    | waiting => exact claimedBy_step (s := s) (r := ⟨around, .ready⟩) claims (.outside event)
    | stopped => exact claimedBy_step (s := s) (r := ⟨around, .ready⟩) claims (.outside event)
  | rebuild event =>
    cases phase with
    | rebuilding phase => exact claimedBy_step (r := ⟨around, phase⟩) claims event
    | _ => exact claims
  | resume =>
    cases phase with
    | rebuilding phase => cases phase <;> exact claims
    | _ => exact claims
  | tick => cases phase <;> exact claims
  | notice =>
    cases phase with
    | waiting =>
      unfold loopStep
      dsimp only
      split
      · exact claims
      · exact claims
    | _ => exact claims

/-- An event keeps the claims counted right at the start of each round. -/
private theorem claimed_record (hclaimed : h.Claimed) (event : LoopEvent) :
    (s.record h event).Claimed := by
  refine ⟨claimedBy_loopStep hclaimed.loop event, ?_⟩
  obtain ⟨⟨around, phase⟩, rounds⟩ := h
  intro r hr
  change r ∈ LoopHistory.roundsAfter _ event at hr
  unfold LoopHistory.roundsAfter at hr
  cases phase with
  | waiting =>
    cases event with
    | tick =>
      rcases List.mem_append.mp hr with hr | hr
      · exact hclaimed.rounds r hr
      · rw [List.mem_singleton.mp hr]
        exact hclaimed.loop
    | _ => exact hclaimed.rounds r hr
  | rebuilding phase =>
    dsimp only at hr
    split at hr
    next inner _ =>
      -- a round keeps its start
      rcases List.eq_nil_or_concat rounds with rfl | ⟨ended, last, rfl⟩
      · cases hr
      · rw [List.concat_eq_append, List.modifyLast_concat, List.mem_append,
          List.mem_singleton] at hr
        rcases hr with hr | rfl
        · exact hclaimed.rounds r (by simp [hr])
        · exact hclaimed.rounds last (by simp)
    next => exact hclaimed.rounds r hr
  | stopped => exact hclaimed.rounds r hr

private theorem claimed_recordAll {start : Surroundings}
    (claims : start.cache.ClaimedBy start.session.claims) (schedule : List LoopEvent) :
    (s.recordAll start schedule).Claimed := by
  refine List.foldlRecOn (motive := LoopHistory.Claimed) schedule s.record ?_ ?_
  · exact ⟨claims, nofun⟩
  · intro h hclaimed event _
    exact claimed_record hclaimed event

end Server

/-- While no round is in flight the loop holds no claim. -/
theorem LoopHistory.Tracked.holdsClaim_eq_false (htracked : h.Tracked s)
    (hended : ∀ r ∈ h.rounds, r.isInFlight s = false) : h.loop.phase.holdsClaim = false := by
  cases hphase : h.loop.phase with
  | rebuilding phase =>
    obtain ⟨ended, last, hrounds, hreached, -⟩ := htracked.current phase hphase
    have hlast := hended last (by simp [hrounds])
    rw [Round.isInFlight_eq_false_iff, hreached] at hlast
    obtain ⟨outcome, rfl⟩ := hlast
    rfl
  | _ => rfl

-- ============================================================== signals

namespace Server

theorem hasFired_step {r : Rebuild} (fired : r.around.shutdown.hasFired = true)
    (event : RebuildEvent) : (s.step r event).around.shutdown.hasFired = true := by
  have hstep := rebuildStep_step s r event
  generalize s.step r event = after at hstep
  cases hstep with
  | outside event => exact Surroundings.hasFired_step fired event
  | _ => exact fired

private theorem hasFired_loopStep (fired : l.around.shutdown.hasFired = true) (event : LoopEvent) :
    (s.loopStep l event).around.shutdown.hasFired = true := by
  obtain ⟨around, phase⟩ := l
  cases event with
  | outside event => exact Surroundings.hasFired_step fired event
  | rebuild event =>
    cases phase with
    | rebuilding phase => exact hasFired_step (r := ⟨around, phase⟩) fired event
    | _ => exact fired
  | resume =>
    cases phase with
    | rebuilding phase => cases phase <;> exact fired
    | _ => exact fired
  | tick => cases phase <;> exact fired
  | notice =>
    unfold loopStep
    cases phase with
    | waiting =>
      dsimp only
      split
      · exact fired
      · exact fired
    | _ => exact fired

/-- After the signal a round that has not looked for the last time, or
that is still to be started, does not get past that look. -/
private theorem quiet_record (htracked : h.Tracked s)
    (fired : h.loop.around.shutdown.hasFired = true)
    {index : Nat}
    (quiet : ∀ r, h.rounds[index]? = some r → (r.reached s).phase.isCommitted = false)
    (event : LoopEvent) (r : Round) (hr : (s.record h event).rounds[index]? = some r) :
    (r.reached s).phase.isCommitted = false := by
  change (h.roundsAfter event)[index]? = some r at hr
  obtain ⟨⟨around, loopPhase⟩, rounds⟩ := h
  -- Only the last round moves, and only while its rebuild runs.
  cases loopPhase with
  | waiting =>
    cases event with
    | tick =>
      change (rounds ++ [⟨around, []⟩])[index]? = some r at hr
      rw [List.getElem?_append] at hr
      split at hr
      · exact quiet r hr
      · rw [List.mem_singleton.mp (List.mem_of_getElem? hr)]
        rfl
    | _ => exact quiet r hr
  | rebuilding phase =>
    cases hevent : event.toRebuild? with
    | some inner =>
      obtain ⟨ended, last, hrounds, hreached, -⟩ := htracked.current phase rfl
      rw [roundsAfter_rebuilding rfl hevent hrounds, List.getElem?_append] at hr
      change rounds = ended ++ [last] at hrounds
      subst hrounds
      split at hr
      next hearlier =>
        apply quiet
        rw [List.getElem?_append_left hearlier]
        exact hr
      next hlater =>
        obtain rfl := List.mem_singleton.mp (List.mem_of_getElem? hr)
        have hindex : index = ended.length := by
          have hbound := (List.getElem?_eq_some_iff.mp hr).1
          rw [List.length_singleton] at hbound
          omega
        have hbefore := quiet last (by simp [hindex])
        rw [Round.reached_extend, hreached]
        rw [hreached] at hbefore
        -- the rebuild sees the signal before it installs
        exact (stopped_step fired hbefore inner).2
    | none =>
      unfold LoopHistory.roundsAfter at hr
      dsimp only at hr
      rw [hevent] at hr
      exact quiet r hr
  | stopped => exact quiet r hr

/-- A round that had not come to its install by the signal does not come to
it in any number of events. -/
private theorem quiet_recordAll (start : Surroundings) (earlier later : List LoopEvent)
    (fired : (s.recordAll start earlier).loop.around.shutdown.hasFired = true) {index : Nat}
    (quiet : ∀ r, (s.recordAll start earlier).rounds[index]? = some r →
      (r.reached s).phase.isCommitted = false)
    (r : Round) (hr : (s.recordAll start (earlier ++ later)).rounds[index]? = some r) :
    (r.reached s).phase.isCommitted = false := by
  rw [recordAll_append] at hr
  -- the three facts carry each other through the later events
  have hkept : (later.foldl s.record (s.recordAll start earlier)).Tracked s
      ∧ (later.foldl s.record (s.recordAll start earlier)).loop.around.shutdown.hasFired = true
      ∧ ∀ r, (later.foldl s.record (s.recordAll start earlier)).rounds[index]? = some r →
        (r.reached s).phase.isCommitted = false := by
    refine List.foldlRecOn (motive := fun h => h.Tracked s
      ∧ h.loop.around.shutdown.hasFired = true
      ∧ ∀ r, h.rounds[index]? = some r → (r.reached s).phase.isCommitted = false)
      later s.record ⟨tracked_recordAll s start earlier, fired, quiet⟩ ?_
    rintro h ⟨htracked, hfired, hquiet⟩ event _
    exact ⟨tracked_record htracked event, hasFired_loopStep hfired event,
      quiet_record htracked hfired hquiet event⟩
  exact hkept.2.2 r hr

-- ============================================================== stopping

/-- The loop stops by noticing the signal while it waits, and in no other
way. -/
private theorem stopped_loopStep_iff {event : LoopEvent} :
    (s.loopStep l event).phase = .stopped
      ↔ l.phase = .stopped
        ∨ event = .notice ∧ l.phase = .waiting ∧ l.around.shutdown.hasFired = true := by
  obtain ⟨around, phase⟩ := l
  unfold loopStep
  cases event with
  | resume =>
    cases phase with
    | rebuilding phase => cases phase <;> simp
    | _ => simp
  | notice =>
    cases phase with
    | waiting => cases hfired : around.shutdown.hasFired <;> simp
    | _ => simp
  | _ => cases phase <;> simp

/-- A loop has stopped exactly when it noticed the signal while it was
waiting. -/
private theorem stopped_loopSteps_iff {schedule : List LoopEvent} (running : l.phase ≠ .stopped) :
    (s.loopSteps l schedule).phase = .stopped
      ↔ ∃ earlier later, schedule = earlier ++ .notice :: later
        ∧ (s.loopSteps l earlier).phase = .waiting
        ∧ (s.loopSteps l earlier).around.shutdown.hasFired = true := by
  induction schedule using List.reverseRecOn with
  | nil => simp [loopSteps, running]
  | append_singleton schedule event ih =>
    rw [show s.loopSteps l (schedule ++ [event]) = s.loopStep (s.loopSteps l schedule) event by
      unfold loopSteps; rw [List.foldl_append, List.foldl_cons, List.foldl_nil],
      stopped_loopStep_iff, ih]
    constructor
    · rintro (⟨earlier, later, rfl, hbefore⟩ | ⟨rfl, hbefore⟩)
      · exact ⟨earlier, later ++ [event], List.append_assoc .., hbefore⟩
      · exact ⟨schedule, [], rfl, hbefore⟩
    · rintro ⟨earlier, later, hschedule, hbefore⟩
      rcases List.eq_nil_or_concat later with rfl | ⟨rest, last, rfl⟩
      -- the notice is the last event
      · obtain ⟨rfl, hevent⟩ := List.append_inj' hschedule rfl
        exact .inr ⟨List.singleton_inj.mp hevent, hbefore⟩
      -- or it came before that one
      · rw [List.concat_eq_append, ← List.cons_append, ← List.append_assoc] at hschedule
        obtain ⟨rfl, -⟩ := List.append_inj' hschedule rfl
        exact .inl ⟨earlier, rest, rfl, hbefore⟩

/-- A rebuild that has ended, however it ended, is followed by the next at
the next tick. -/
private theorem phase_resume_tick {outcome : RebuildOutcome}
    (hended : l.phase = .rebuilding (.ended outcome)) :
    (s.loopStep (s.loopStep l .resume) .tick).phase = .rebuilding .ready := by
  obtain ⟨around, _⟩ := l
  cases hended
  rfl

-- =============================================== in every interleaving

/-- The loop after any schedule of ticks, of steps of its rebuilds in
which they succeed, fail, are cancelled or break down, and of what others
do to the cache and the signal.

The rebuild under way is the last one that a tick has started, and no
other one is in flight. The loop stops exactly by noticing the
signal while it waits, and then all its rebuilds are over. Whenever they
are, the cache is marked as claimed only for a claim of somebody else. A
rebuild that is over is followed by the next one at the next tick,
whatever its outcome, and if it installed nothing others see, from its
tick on, just what they do themselves. Once the signal has fired, a
rebuild that has not passed its last look at it, started or not, installs
nothing. -/
theorem loop_safe_in_every_interleaving (s : Server) (history : List CacheOperation)
    (shutdown : Shutdown) (schedule : List LoopEvent) :
    let start : Surroundings := ⟨CacheSession.new.run history, shutdown⟩
    let after := s.recordAll start schedule
    after.loop = s.loopSteps ⟨start, .waiting⟩ schedule
      ∧ (∀ phase, after.loop.phase = .rebuilding phase → ∃ last,
          after.rounds.getLast? = some last ∧ last.reached s = ⟨after.loop.around, phase⟩)
      ∧ after.rounds.countP (·.isInFlight s) ≤ 1
      ∧ (after.loop.phase = .stopped ↔ ∃ earlier later, schedule = earlier ++ .notice :: later
          ∧ (s.loopSteps ⟨start, .waiting⟩ earlier).phase = .waiting
          ∧ (s.loopSteps ⟨start, .waiting⟩ earlier).around.shutdown.hasFired = true)
      ∧ (after.loop.phase = .stopped → ∀ r ∈ after.rounds, r.isInFlight s = false)
      ∧ ((∀ r ∈ after.rounds, r.isInFlight s = false) →
          (after.loop.around.cache.rebuilding = true ↔ after.loop.around.session.claims = 1))
      ∧ (∀ outcome, after.loop.phase = .rebuilding (.ended outcome) →
          (s.loopSteps ⟨start, .waiting⟩ (schedule ++ [.resume, .tick])).phase
            = .rebuilding .ready)
      ∧ (∀ r ∈ after.rounds, (r.reached s).phase.installed? = none →
          (r.reached s).around.Alike (r.start.steps (outsideEvents r.schedule)))
      ∧ ∀ earlier later, schedule = earlier ++ later →
          (s.recordAll start earlier).loop.around.shutdown.hasFired = true →
            ∀ index : Nat, (∀ r : Round, (s.recordAll start earlier).rounds[index]? = some r →
                (r.reached s).phase.isCommitted = false) →
              ∀ r : Round, after.rounds[index]? = some r →
                (r.reached s).phase.installed? = none := by
  intro start after
  have htracked : after.Tracked s := s.tracked_recordAll start schedule
  have hstart : start.cache.ClaimedBy start.session.claims := CacheSession.claimedBy_run_new history
  have hclaimed : after.Claimed := claimed_recordAll hstart schedule
  have hloop : after.loop = s.loopSteps ⟨start, .waiting⟩ schedule :=
    s.loop_recordAll start schedule
  refine ⟨hloop, ?current, htracked.countP_le_one, ?stops, ?finished, ?claim, ?goesOn, ?kept,
    ?signal⟩
  case current =>
    intro phase hphase
    obtain ⟨ended, last, hrounds, hreached, -⟩ := htracked.current phase hphase
    exact ⟨last, by rw [hrounds, List.getLast?_concat], hreached⟩
  case stops =>
    rw [hloop]
    exact stopped_loopSteps_iff nofun
  case finished =>
    intro hstopped
    exact htracked.idle (by rw [hstopped]; exact nofun)
  case claim =>
    intro hended
    have hclaims := hclaimed.loop
    rw [htracked.holdsClaim_eq_false hended] at hclaims
    exact hclaims.isMarked
  case goesOn =>
    intro outcome hended
    rw [hloop] at hended
    rw [show s.loopSteps ⟨start, .waiting⟩ (schedule ++ [.resume, .tick])
      = s.loopStep (s.loopStep (s.loopSteps ⟨start, .waiting⟩ schedule) .resume) .tick from
        List.foldl_append]
    exact phase_resume_tick hended
  case kept =>
    intro r hr
    exact (s.accounted_steps r.start (hclaimed.rounds r hr) r.schedule).kept
  case signal =>
    intro earlier later hschedule hfired index hquiet r hr
    apply RebuildPhase.installed?_of_isCommitted
    subst hschedule
    exact quiet_recordAll start earlier later hfired hquiet r hr

end Server

-- ========================================================= a small loop

/-- The first rebuild breaks down, the second one is told to stop by a
signal that is sent while it builds, and somebody else claims the cache
between the two. -/
def smallLoop : List LoopEvent :=
  [.tick, .rebuild .begin, .rebuild (.scan smallTree ⟨0⟩), .tick, .rebuild .crash, .resume,
    .outside (.use .claim), .outside (.use .release),
    .tick, .rebuild .begin, .rebuild (.scan smallTree ⟨0⟩),
    .rebuild (.build 0 ⟨7, fun _ => 1, fun i => i⟩), .outside .send, .notice,
    .rebuild .conclude, .rebuild (.install ⟨0⟩), .rebuild .release, .resume, .notice, .tick]

theorem loop_safe_in_every_interleaving_smallLoop :
    let after := smallServer.recordAll ⟨CacheSession.new.run [], .silent⟩ smallLoop
    after.loop.phase = .stopped ∧ after.rounds.length = 2
      ∧ (∀ r ∈ after.rounds, r.isInFlight smallServer = false)
      ∧ after.loop.around.cache.rebuilding = false
      ∧ ∀ r, after.rounds[1]? = some r → (r.reached smallServer).phase.installed? = none := by
  intro after
  obtain ⟨-, -, -, -, hfinished, hclaim, -, -, hsignal⟩ :=
    Server.loop_safe_in_every_interleaving smallServer [] .silent smallLoop
  have hstopped : after.loop.phase = .stopped := by decide +kernel
  have hclaims : after.loop.around.session.claims = 0 := by decide +kernel
  -- the signal is sent by the thirteenth event, while the second rebuild builds
  let sent := smallServer.recordAll ⟨CacheSession.new.run [], .silent⟩ (smallLoop.take 13)
  have hfired : sent.loop.around.shutdown.hasFired = true := by decide +kernel
  have hquiet : sent.rounds[1]?.all (fun r => !(r.reached smallServer).phase.isCommitted) = true := by
    decide +kernel
  refine ⟨hstopped, by decide +kernel, hfinished hstopped, ?unmarked, ?quiet⟩
  case unmarked =>
    cases hmarked : after.loop.around.cache.rebuilding with
    | false => rfl
    | true =>
      have hheld := (hclaim (hfinished hstopped)).mp hmarked
      rw [hclaims] at hheld
      cases hheld
  case quiet =>
    apply hsignal (smallLoop.take 13) (smallLoop.drop 13) (List.take_append_drop 13 smallLoop).symm
      hfired
    intro r hr
    have hround := hquiet
    rw [show sent.rounds[1]? = some r from hr, Option.all_some] at hround
    simpa using hround

end RouterSeed

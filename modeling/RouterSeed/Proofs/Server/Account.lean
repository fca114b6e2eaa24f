/-
What a rebuild does to its surroundings.

Others use the cache and the signal fires while a rebuild works. What
they would see without it is the run of their own events alone,
`Surroundings.steps`, and the rebuild is held against that run:

- what is served, the handles and the signal are as in that run, with
  one generation put into it by the rebuild if it installs one
  (`around_step`);
- the claims of the others and that of the rebuild make one account
  (`claimedBy_step`);
- a rebuild that is turned away has not even touched the cache
  (`isOutside_step`).

`Rebuild.Accounted` says so after a schedule, and `accounted_steps` is
the induction over the schedule.

Consumed by Outcome.
-/
import RouterSeed.Proofs.Server.Steps

namespace RouterSeed

-- ============================================================== others

/-- What somebody else does. -/
def RebuildEvent.outside? : RebuildEvent → Option OutsideEvent
  | .outside event => some event
  | _ => none

/-- What the others do in a schedule, in order. -/
def outsideEvents (schedule : List RebuildEvent) : List OutsideEvent :=
  schedule.filterMap RebuildEvent.outside?

/-- What others do in an event is the whole event. -/
theorem RebuildEvent.outside?_eq_some {event : RebuildEvent} {outside : OutsideEvent}
    (h : event.outside? = some outside) : event = .outside outside := by
  cases event with
  | outside event =>
    cases h
    rfl
  | _ => cases h

/-- The last event is the last of what others do, or is none of it. -/
private theorem outsideEvents_concat (schedule : List RebuildEvent) (event : RebuildEvent) :
    outsideEvents (schedule ++ [event]) = outsideEvents schedule ++ event.outside?.toList := by
  unfold outsideEvents
  rw [List.filterMap_append]
  cases event <;> rfl

namespace Surroundings

variable {a b c : Surroundings}

def steps (a : Surroundings) (events : List OutsideEvent) : Surroundings := events.foldl step a

private theorem steps_append (a : Surroundings) (first later : List OutsideEvent) :
    a.steps (first ++ later) = (a.steps first).steps later := List.foldl_append

/-- A signal that has fired stays fired. -/
theorem hasFired_step (h : a.shutdown.hasFired = true) (event : OutsideEvent) :
    (a.step event).shutdown.hasFired = true := by
  cases event with
  | use operation => exact h
  | send =>
    unfold step
    dsimp only
    split
    · rfl
    · exact h
  | drop => rfl

/-- The surroundings differ in the claims on the cache at most. -/
structure Alike (a b : Surroundings) : Prop where
  current : a.cache.current = b.cache.current
  handles : a.session.handles = b.session.handles
  shutdown : a.shutdown = b.shutdown

theorem Alike.refl (a : Surroundings) : a.Alike a := ⟨rfl, rfl, rfl⟩

theorem Alike.trans (h : a.Alike b) (h' : b.Alike c) : a.Alike c where
  current := h.current.trans h'.current
  handles := h.handles.trans h'.handles
  shutdown := h.shutdown.trans h'.shutdown

/-- What others do keeps surroundings alike. -/
theorem Alike.step (h : a.Alike b) (event : OutsideEvent) : (a.step event).Alike (b.step event) := by
  have hcurrent : a.session.cache.current = b.session.cache.current := h.current
  cases event with
  | use operation =>
    constructor
    -- neither what is served nor the handles depend on the claims
    case current =>
      show (a.session.step operation).2.cache.current = (b.session.step operation).2.cache.current
      rw [CacheSession.current_step, CacheSession.current_step, hcurrent]
    case handles =>
      show (a.session.step operation).2.handles = (b.session.step operation).2.handles
      rw [CacheSession.handles_step, CacheSession.handles_step, hcurrent, h.handles]
    case shutdown => exact h.shutdown
  | send =>
    unfold Surroundings.step
    dsimp only
    rw [h.shutdown]
    split
    · exact ⟨h.current, h.handles, rfl⟩
    · exact h
  | drop => exact ⟨h.current, h.handles, rfl⟩

theorem Alike.steps (h : a.Alike b) (events : List OutsideEvent) :
    (a.steps events).Alike (b.steps events) := by
  induction events generalizing a b with
  | nil => exact h
  | cons event events ih => exact ih (h.step event)

end Surroundings

-- ================================================== what others see

/-- The generation that a rebuild installed. -/
def RebuildPhase.installed? (phase : RebuildPhase) : Option Generation :=
  match phase.outcome? with
  | some (.installed generation) => some generation
  | _ => none

namespace Server

variable {s : Server} {r : Rebuild} {event : RebuildEvent}

/-- A step of a rebuild leaves what the others see as it is, whether it is
one of theirs or not, unless the rebuild installs what it has built. -/
private theorem around_step (s : Server) (r : Rebuild) (event : RebuildEvent) :
    ((s.step r event).phase.installed? = r.phase.installed?
        ∧ (s.step r event).around.Alike (r.around.steps event.outside?.toList))
      ∨ ∃ g, event = .install g.builtAt ∧ r.phase.installed? = none
          ∧ (s.step r event).phase.installed? = some g
          ∧ (s.step r event).around.Alike (r.around.steps [.use (.install g)]) := by
  -- What others do is the same on both sides; of the rebuild's own steps, only the install
  -- and the claim reach the cache.
  cases houtside : event.outside? with
  | some outside =>
    obtain rfl := RebuildEvent.outside?_eq_some houtside
    exact .inl ⟨rfl, .refl _⟩
  | none =>
    have hstep := rebuildStep_step s r event
    generalize s.step r event = after at hstep
    cases hstep with
    | outside => cases houtside
    | claimed _ free => exact .inl ⟨rfl, Cache.current_beginRebuild? free, rfl, rfl⟩
    | @installed around bundles now nonempty =>
      have hinstall : around.session.step (.install ⟨bundles, now⟩) = (.done, _) :=
        CacheSession.step_install_of_nonempty nonempty
      refine .inr ⟨⟨bundles, now⟩, rfl, rfl, rfl, ?_⟩
      unfold Surroundings.steps
      rw [List.foldl_cons, List.foldl_nil]
      unfold Surroundings.step
      dsimp only
      rw [hinstall]
      exact .refl _
    | crashed _ unsettled =>
      refine .inl ⟨?_, rfl, rfl, rfl⟩
      unfold RebuildPhase.installed?
      rw [unsettled]
      rfl
    | _ => exact .inl ⟨rfl, rfl, rfl, rfl⟩

-- ============================================================== claims

/-- A step keeps the account of the claims, of which a rebuild under way
holds one. -/
theorem claimedBy_step
    (h : r.around.cache.ClaimedBy (r.around.session.claims + r.phase.holdsClaim.toNat))
    (event : RebuildEvent) :
    (s.step r event).around.cache.ClaimedBy
      ((s.step r event).around.session.claims + (s.step r event).phase.holdsClaim.toNat) := by
  have hstep := rebuildStep_step s r event
  generalize s.step r event = after at hstep
  cases hstep with
  | outside event =>
    cases event with
    | use operation => exact CacheSession.claimedBy_step h operation
    | send =>
      unfold Surroundings.step
      dsimp only
      split
      · exact h
      · exact h
    | drop => exact h
  -- the claim that is taken is counted by the phase from now on
  | claimed _ free => exact (h.beginRebuild? free).2
  | installed => exact h.of_rebuilding_eq rfl
  | released => exact Cache.ClaimedBy.endRebuild h
  | crashed claim =>
    rw [claim] at h
    exact Cache.ClaimedBy.endRebuild h
  | _ => exact h

end Server

-- ========================================================= turned away

/-- What a rebuild fails with that does not get the claim. -/
def Failure.isRefusal : Failure → Bool
  | .missingSigningKey => true
  | .rebuildFailed .alreadyRunning => true
  | _ => false

/-- The rebuild has not had the claim: it has not begun, or it was turned
away. -/
def RebuildPhase.isOutside : RebuildPhase → Bool
  | .ready => true
  | .ended (.failed failure) => failure.isRefusal
  | _ => false

/-- A rebuild that gives back the claim was not refused it. -/
def RebuildPhase.IsAdmitted (phase : RebuildPhase) : Prop :=
  ∀ failure, phase = .leaving (.failed failure) → failure.isRefusal = false

private theorem Failure.isRefusal_ofTask (failure : Failure) :
    failure.ofTask.isRefusal = false := by
  cases failure <;> rfl

namespace Server

variable {s : Server} {r : Rebuild} {event : RebuildEvent}

/-- Once past the claim, no step ends in the refusal that belongs to it. -/
private theorem isAdmitted_step (h : r.phase.IsAdmitted) (event : RebuildEvent) :
    (s.step r event).phase.IsAdmitted := by
  have hstep := rebuildStep_step s r event
  generalize s.step r event = after at hstep
  cases hstep with
  | outside => exact h
  | idle => exact h
  -- a task fails with its own failures, and the refusal is none of them
  | @aborted _ _ _ failure =>
    intro _ hleaving
    cases hleaving
    exact failure.isRefusal_ofTask
  | unreadable | cancelled | refused =>
    intro _ hleaving
    cases hleaving
    rfl
  | _ =>
    intro _ hleaving
    cases hleaving

/-- A rebuild that has not had the claim has not done anything. -/
private theorem isOutside_step (admitted : r.phase.IsAdmitted)
    (h : (s.step r event).phase.isOutside = true) :
    r.phase.isOutside = true ∧ (s.step r event).around = r.around.steps event.outside?.toList := by
  cases houtside : event.outside? with
  | some outside =>
    obtain rfl := RebuildEvent.outside?_eq_some houtside
    exact ⟨h, rfl⟩
  | none =>
    have hstep := rebuildStep_step s r event
    generalize s.step r event = after at hstep h
    cases hstep with
    | outside => cases houtside
    | keyMissing => exact ⟨rfl, rfl⟩
    | busy => exact ⟨rfl, rfl⟩
    | idle => exact ⟨h, rfl⟩
    | @released _ outcome =>
      cases outcome with
      | failed failure =>
        -- whoever leaves has been inside
        have hrefusal : failure.isRefusal = true := h
        rw [admitted failure rfl] at hrefusal
        cases hrefusal
      | _ => cases h
    | _ => cases h

/-- A rebuild is told that the cache is claimed when it is, and not by the
rebuild itself. -/
private theorem alreadyRunning_step (admitted : r.phase.IsAdmitted)
    (claims : r.around.cache.ClaimedBy (r.around.session.claims + r.phase.holdsClaim.toNat))
    (h : (s.step r event).phase = .ended (.failed (.rebuildFailed .alreadyRunning))) :
    r.phase = .ended (.failed (.rebuildFailed .alreadyRunning))
      ∨ event = .begin ∧ r.phase = .ready ∧ r.around.session.claims = 1 := by
  have hstep := rebuildStep_step s r event
  generalize s.step r event = after at hstep h
  cases hstep with
  | outside => exact .inl h
  | idle => exact .inl h
  | busy _ taken => exact .inr ⟨rfl, rfl, claims.beginRebuild?_eq_none_iff.mp taken⟩
  | released =>
    cases h
    cases admitted _ rfl
  | _ => cases h

end Server

-- ========================================================= the account

/-- What is known of the surroundings of a rebuild after a schedule, when
they were `start` before it. -/
structure Rebuild.Accounted (start : Surroundings) (schedule : List RebuildEvent) (r : Rebuild) :
    Prop where
  claims : r.around.cache.ClaimedBy (r.around.session.claims + r.phase.holdsClaim.toNat)
  admitted : r.phase.IsAdmitted
  kept : r.phase.installed? = none → r.around.Alike (start.steps (outsideEvents schedule))
  swapped : ∀ g, r.phase.installed? = some g → ∃ earlier later,
    schedule = earlier ++ .install g.builtAt :: later
      ∧ r.around.Alike
          (start.steps (outsideEvents earlier ++ .use (.install g) :: outsideEvents later))
  untouched : r.phase.isOutside = true → r.around = start.steps (outsideEvents schedule)
  refused : r.phase = .ended (.failed (.rebuildFailed .alreadyRunning)) → ∃ earlier later,
    schedule = earlier ++ .begin :: later
      ∧ (start.steps (outsideEvents earlier)).session.claims = 1

namespace Server

variable {s : Server} {r : Rebuild} {event : RebuildEvent} {start : Surroundings}
  {schedule : List RebuildEvent}

private theorem accounted_start (claims : start.cache.ClaimedBy start.session.claims) :
    Rebuild.Accounted start [] ⟨start, .ready⟩ where
  claims := claims
  admitted := nofun
  kept _ := .refl _
  swapped := nofun
  untouched _ := rfl
  refused := nofun

/-- Each step keeps the account: of the swap, of the claim, and of what is
left untouched. -/
private theorem accounted_step (h : Rebuild.Accounted start schedule r) (event : RebuildEvent) :
    Rebuild.Accounted start (schedule ++ [event]) (s.step r event) := by
  constructor
  case claims => exact claimedBy_step h.claims event
  case admitted => exact isAdmitted_step h.admitted event
  case kept =>
    intro hnone
    rcases around_step s r event with ⟨hsame, halike⟩ | ⟨g, -, -, hsome, -⟩
    · rw [outsideEvents_concat, Surroundings.steps_append]
      exact halike.trans ((h.kept (hsame.symm.trans hnone)).steps _)
    · rw [hnone] at hsome
      cases hsome
  case swapped =>
    intro g hg
    rcases around_step s r event with ⟨hsame, halike⟩ | ⟨installed, rfl, hbefore, hafter, halike⟩
    -- it was installed before, and the event comes later
    · obtain ⟨earlier, later, rfl, hswapped⟩ := h.swapped g (hsame.symm.trans hg)
      refine ⟨earlier, later ++ [event], List.append_assoc .., ?_⟩
      rw [outsideEvents_concat, ← List.cons_append, ← List.append_assoc,
        Surroundings.steps_append]
      exact halike.trans (hswapped.steps _)
    -- it is installed now, at the end of the schedule so far
    · cases hafter.symm.trans hg
      refine ⟨schedule, [], rfl, ?_⟩
      rw [Surroundings.steps_append]
      exact halike.trans ((h.kept hbefore).steps _)
  case untouched =>
    intro houtside
    obtain ⟨hbefore, hsame⟩ := isOutside_step h.admitted houtside
    rw [hsame, h.untouched hbefore, outsideEvents_concat, Surroundings.steps_append]
  case refused =>
    intro hrefused
    rcases alreadyRunning_step h.admitted h.claims hrefused with hbefore | ⟨rfl, hready, hclaims⟩
    · obtain ⟨earlier, later, rfl, hearlier⟩ := h.refused hbefore
      exact ⟨earlier, later ++ [event], List.append_assoc .., hearlier⟩
    · rw [h.untouched (by rw [hready]; rfl)] at hclaims
      exact ⟨schedule, [], rfl, hclaims⟩

-- ================================================================ runs

/-- What every step keeps of a rebuild and the schedule so far, a run
keeps. -/
private theorem steps_induction {motive : List RebuildEvent → Rebuild → Prop} (start : motive [] r)
    (step : ∀ earlier r event, motive earlier r → motive (earlier ++ [event]) (s.step r event))
    (schedule : List RebuildEvent) : motive schedule (s.steps r schedule) := by
  -- the schedule continues an earlier one
  have hlater (earlier : List RebuildEvent) (before : Rebuild) (h : motive earlier before) :
      motive (earlier ++ schedule) (s.steps before schedule) := by
    induction schedule generalizing earlier before with
    | nil =>
      rw [List.append_nil]
      exact h
    | cons event schedule ih =>
      have hrest := ih (earlier ++ [event]) (s.step before event) (step earlier before event h)
      rw [List.append_assoc] at hrest
      exact hrest
  exact hlater [] r start

/-- Any schedule keeps the account. -/
theorem accounted_steps (s : Server) (start : Surroundings)
    (claims : start.cache.ClaimedBy start.session.claims) (schedule : List RebuildEvent) :
    Rebuild.Accounted start schedule (s.steps ⟨start, .ready⟩ schedule) :=
  steps_induction (accounted_start claims) (fun _ _ event h => accounted_step h event) schedule

end Server

end RouterSeed

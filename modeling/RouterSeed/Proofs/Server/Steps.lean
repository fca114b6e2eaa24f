/-
What one step of a rebuild can do.

`RebuildStep` lists the steps with all that has to hold for each, and
`rebuildStep_step` says that `Server.step` makes no others. That is the
one proof that goes through the cases of the machine; the facts from
which everything about whole runs follows are read off the list:

- what is served changes when the rebuild itself installs what it has
  built, and otherwise only when somebody else installs something
  (`current_step`);
- an outcome is final (`outcome?_step`);
- a bundle that a rebuild has was built from the descriptors that it
  works on (`bundles_step`), which it reads in one step (`infos?_step`).

Consumed by Served and Account.
-/
import RouterSeed.Proofs.Cache.Session
import RouterSeed.Server.Service

namespace RouterSeed

-- ============================================================ outcomes

/-- How a rebuild went, once that is settled. -/
def RebuildPhase.outcome? : RebuildPhase → Option RebuildOutcome
  | .leaving outcome => some outcome
  | .ended outcome => some outcome
  | _ => none

/-- Bundles that fill all slots come from the slots. -/
private theorem filledSlots?_eq_some {slots : List (Option Bytes)} {bundles : List Bytes}
    (h : filledSlots? slots = some bundles) : slots = bundles.map some := by
  induction slots generalizing bundles with
  | nil =>
    cases h
    rfl
  | cons slot slots ih =>
    cases slot with
    | none => cases h
    | some bundle =>
      obtain ⟨rest, hrest, rfl⟩ := Option.map_eq_some_iff.mp h
      rw [List.map_cons, ih hrest]

-- =============================================================== steps

/-- The steps of a rebuild, with what has to hold for each. -/
inductive RebuildStep (s : Server) : Rebuild → RebuildEvent → Rebuild → Prop
  /-- Something happens around the rebuild. -/
  | outside {around : Surroundings} {phase : RebuildPhase} (event : OutsideEvent) :
      RebuildStep s ⟨around, phase⟩ (.outside event) ⟨around.step event, phase⟩
  | keyMissing {around : Surroundings} (missing : s.identity = none) :
      RebuildStep s ⟨around, .ready⟩ .begin ⟨around, .ended (.failed .missingSigningKey)⟩
  | claimed {around : Surroundings} {identity : SigningIdentity} {cache : Cache}
      (signs : s.identity = some identity) (free : around.cache.beginRebuild? = some cache) :
      RebuildStep s ⟨around, .ready⟩ .begin ⟨around.withCache cache, .claimed⟩
  | busy {around : Surroundings} {identity : SigningIdentity}
      (signs : s.identity = some identity) (taken : around.cache.beginRebuild? = none) :
      RebuildStep s ⟨around, .ready⟩ .begin
        ⟨around, .ended (.failed (.rebuildFailed .alreadyRunning))⟩
  | scanned {around : Surroundings} {tree : FileTree} {now : Instant} {infos : List RouterInfo}
      (read : s.netDb.scan tree now = .ok infos) :
      RebuildStep s ⟨around, .claimed⟩ (.scan tree now)
        ⟨around, .building infos (List.replicate (s.bundleCount infos.length) none) none⟩
  | unreadable {around : Surroundings} {tree : FileTree} {now : Instant} {fault : IoFault}
      (unread : s.netDb.scan tree now = .error fault) :
      RebuildStep s ⟨around, .claimed⟩ (.scan tree now)
        ⟨around, .leaving (.failed (.rebuildFailed (.unreadableNetDb s.netDb.path fault)))⟩
  | built {around : Surroundings} {infos : List RouterInfo} {slots : List (Option Bytes)}
      {identity : SigningIdentity} {index : Nat} {inputs : BundleInputs} {bundle : Bytes}
      (signs : s.identity = some identity) (vacant : slots[index]? = some none)
      (made : s.taskBundle identity around.shutdown.hasFired infos inputs = .ok bundle) :
      RebuildStep s ⟨around, .building infos slots none⟩ (.build index inputs)
        ⟨around, .building infos (slots.set index (some bundle)) none⟩
  | taskFailed {around : Surroundings} {infos : List RouterInfo} {slots : List (Option Bytes)}
      {identity : SigningIdentity} {index : Nat} {inputs : BundleInputs} {failure : Failure}
      (signs : s.identity = some identity) (vacant : slots[index]? = some none)
      (unmade : s.taskBundle identity around.shutdown.hasFired infos inputs = .error failure) :
      RebuildStep s ⟨around, .building infos slots none⟩ (.build index inputs)
        ⟨around, .building infos slots (some failure)⟩
  | aborted {around : Surroundings} {infos : List RouterInfo} {slots : List (Option Bytes)}
      {failure : Failure} :
      RebuildStep s ⟨around, .building infos slots (some failure)⟩ .conclude
        ⟨around, .leaving (.failed failure.ofTask)⟩
  | cancelled {around : Surroundings} {infos : List RouterInfo} {bundles : List Bytes}
      (fired : around.shutdown.hasFired = true) :
      RebuildStep s ⟨around, .building infos (bundles.map some) none⟩ .conclude
        ⟨around, .leaving (.failed .rebuildCancelled)⟩
  | concluded {around : Surroundings} {infos : List RouterInfo} {bundles : List Bytes}
      (silent : around.shutdown.hasFired = false) :
      RebuildStep s ⟨around, .building infos (bundles.map some) none⟩ .conclude
        ⟨around, .installing bundles⟩
  | installed {around : Surroundings} {bundles : List Bytes} {now : Instant}
      (nonempty : bundles ≠ []) :
      RebuildStep s ⟨around, .installing bundles⟩ (.install now)
        ⟨around.withCache { around.cache with current := some ⟨bundles, now⟩ },
          .leaving (.installed ⟨bundles, now⟩)⟩
  | refused {around : Surroundings} {now : Instant} :
      RebuildStep s ⟨around, .installing []⟩ (.install now)
        ⟨around, .leaving (.failed (.rebuildFailed .emptyGeneration))⟩
  | released {around : Surroundings} {outcome : RebuildOutcome} :
      RebuildStep s ⟨around, .leaving outcome⟩ .release
        ⟨around.withCache around.cache.endRebuild, .ended outcome⟩
  | crashedUnclaimed {around : Surroundings} :
      RebuildStep s ⟨around, .ready⟩ .crash ⟨around, .ended .crashed⟩
  | crashed {around : Surroundings} {phase : RebuildPhase} (claim : phase.holdsClaim = true)
      (unsettled : phase.outcome? = none) :
      RebuildStep s ⟨around, phase⟩ .crash (Rebuild.afterCrash ⟨around, phase⟩)
  /-- The phase has no such step, or not yet. -/
  | idle {r : Rebuild} {event : RebuildEvent} : RebuildStep s r event r

/-- The steps of `RebuildStep` are all the steps that there are. -/
theorem rebuildStep_step (s : Server) (r : Rebuild) (event : RebuildEvent) :
    RebuildStep s r event (s.step r event) := by
  obtain ⟨around, phase⟩ := r
  cases event with
  | «begin» =>
    cases phase with
    | ready =>
      unfold Server.step
      cases hidentity : s.identity with
      | none => exact .keyMissing hidentity
      | some identity =>
        dsimp only
        cases hclaim : around.cache.beginRebuild? with
        | none => exact .busy hidentity hclaim
        | some cache => exact .claimed hidentity hclaim
    | _ => exact .idle
  | scan tree now =>
    cases phase with
    | claimed =>
      unfold Server.step
      dsimp only
      cases hread : s.netDb.scan tree now with
      | ok infos => exact .scanned hread
      | error fault => exact .unreadable hread
    | _ => exact .idle
  | build index inputs =>
    cases phase with
    | building infos slots failure =>
      unfold Server.step
      cases failure with
      | some failure => exact .idle
      | none =>
        cases hidentity : s.identity with
        | none => exact .idle
        | some identity =>
          dsimp only
          by_cases hvacant : slots[index]? = some none
          · rw [if_pos hvacant]
            cases hmade : s.taskBundle identity around.shutdown.hasFired infos inputs with
            | ok bundle => exact .built hidentity hvacant hmade
            | error failure => exact .taskFailed hidentity hvacant hmade
          · rw [if_neg hvacant]
            exact .idle
    | _ => exact .idle
  | conclude =>
    cases phase with
    | building infos slots failure =>
      unfold Server.step
      cases failure with
      | some failure => exact .aborted
      | none =>
        dsimp only
        cases hfilled : filledSlots? slots with
        | none => exact .idle
        | some bundles =>
          obtain rfl := filledSlots?_eq_some hfilled
          dsimp only
          cases hfired : around.shutdown.hasFired with
          | true => exact .cancelled hfired
          | false => exact .concluded hfired
    | _ => exact .idle
  | install now =>
    cases phase with
    | installing bundles =>
      unfold Server.step Cache.install
      dsimp only
      by_cases hempty : bundles = []
      · rw [if_pos hempty, hempty]
        exact .refused
      · rw [if_neg hempty]
        exact .installed hempty
    | _ => exact .idle
  | release =>
    cases phase with
    | leaving outcome => exact .released
    | _ => exact .idle
  | crash =>
    cases phase with
    | ready => exact .crashedUnclaimed
    | claimed => exact .crashed rfl rfl
    | building => exact .crashed rfl rfl
    | installing => exact .crashed rfl rfl
    | leaving => exact .idle
    | ended => exact .idle
  | outside event => exact .outside event

-- ===================================================== what is served

/-- Things that happen around a rebuild leave what is served, unless
somebody installs something. -/
theorem Surroundings.current_step {around : Surroundings} {event : OutsideEvent}
    (h : ∀ generation, event ≠ .use (.install generation)) :
    (around.step event).cache.current = around.cache.current := by
  cases event with
  | use operation =>
    apply CacheSession.current_step_of_ne_install
    rintro generation rfl
    exact h generation rfl
  | send =>
    unfold step
    dsimp only
    split <;> rfl
  | drop => rfl

namespace Server

variable {s : Server} {r : Rebuild}

/-- What is served is another generation only when the rebuild installs
the one that it has built. -/
theorem current_step {event : RebuildEvent} (own : event.isForeignInstall = false) :
    (s.step r event).around.cache.current = r.around.cache.current
      ∨ ∃ generation, r.phase = .installing generation.bundles
          ∧ (s.step r event).phase = .leaving (.installed generation)
          ∧ (s.step r event).around.cache.current = some generation := by
  have hstep := rebuildStep_step s r event
  generalize s.step r event = after at hstep
  cases hstep with
  | outside event =>
    left
    apply Surroundings.current_step
    rintro generation rfl
    cases own
  | claimed _ free => exact .inl (Cache.current_beginRebuild? free)
  | @installed _ bundles now => exact .inr ⟨⟨bundles, now⟩, rfl, rfl, rfl⟩
  | _ => exact .inl rfl

-- ============================================================== finality

/-- How a rebuild went does not change any more. -/
theorem outcome?_step {outcome : RebuildOutcome} (h : r.phase.outcome? = some outcome)
    (event : RebuildEvent) : (s.step r event).phase.outcome? = some outcome := by
  have hstep := rebuildStep_step s r event
  generalize s.step r event = after at hstep
  cases hstep with
  | outside => exact h
  | released => exact h
  | idle => exact h
  | crashed _ unsettled =>
    rw [unsettled] at h
    cases h
  | _ => cases h

end Server

-- ============================================================= bundles

/-- The bundles that a rebuild put into service. -/
def RebuildOutcome.bundles : RebuildOutcome → List Bytes
  | .installed generation => generation.bundles
  | _ => []

/-- The bundles that a rebuild has so far, and in the end those that it
put into service. -/
def RebuildPhase.bundles : RebuildPhase → List Bytes
  | .building _ slots _ => slots.filterMap id
  | .installing bundles => bundles
  | .leaving outcome => outcome.bundles
  | .ended outcome => outcome.bundles
  | _ => []

/-- A phase with an outcome holds the bundles of the outcome. -/
theorem RebuildPhase.bundles_of_outcome? {phase : RebuildPhase} {outcome : RebuildOutcome}
    (h : phase.outcome? = some outcome) : phase.bundles = outcome.bundles := by
  cases phase with
  | leaving settled =>
    cases h
    rfl
  | ended settled =>
    cases h
    rfl
  | _ => cases h

/-- A bundle has been made when it fills a slot. -/
private theorem mem_filledSlots_iff {slots : List (Option Bytes)} {bundle : Bytes} :
    bundle ∈ slots.filterMap id ↔ some bundle ∈ slots := by
  rw [List.mem_filterMap]
  constructor
  · rintro ⟨slot, hslot, rfl⟩
    exact hslot
  · intro h
    exact ⟨some bundle, h, rfl⟩

namespace Server

variable {s : Server} {r : Rebuild}

/-- The server builds such a bundle from the descriptors. -/
def Builds (s : Server) (infos : List RouterInfo) (bundle : Bytes) : Prop :=
  ∃ identity inputs, s.identity = some identity
    ∧ encodedBundle infos s.config.infosPerBundle identity s.config.signatureType inputs
        = .ok bundle

/-- A task that was done has made its bundle. -/
theorem taskBundle_eq_ok {identity : SigningIdentity} {stop : Bool} {infos : List RouterInfo}
    {inputs : BundleInputs} {bundle : Bytes}
    (h : s.taskBundle identity stop infos inputs = .ok bundle) :
    encodedBundle infos s.config.infosPerBundle identity s.config.signatureType inputs
      = .ok bundle := by
  unfold taskBundle at h
  split at h
  · cases h
  · exact h

/-- A step adds a bundle only by building it from the descriptors that
the rebuild works on. -/
theorem bundles_step {event : RebuildEvent} {bundle : Bytes}
    (h : bundle ∈ (s.step r event).phase.bundles) :
    bundle ∈ r.phase.bundles
      ∨ ∃ infos, r.phase.infos? = some infos ∧ s.Builds infos bundle := by
  have hstep := rebuildStep_step s r event
  generalize s.step r event = after at hstep h
  cases hstep with
  | outside => exact .inl h
  | idle => exact .inl h
  | released => exact .inl h
  | installed => exact .inl h
  | taskFailed => exact .inl h
  | scanned =>
    cases List.eq_of_mem_replicate (mem_filledSlots_iff.mp h)
  -- one slot is filled, with a bundle made from the records that are being built from
  | @built _ infos _ identity _ inputs _ signs _ made =>
    rcases List.mem_or_eq_of_mem_set (mem_filledSlots_iff.mp h) with hslot | hslot
    · exact .inl (mem_filledSlots_iff.mpr hslot)
    · cases hslot
      exact .inr ⟨infos, rfl, identity, inputs, signs, taskBundle_eq_ok made⟩
  | concluded =>
    left
    rw [RebuildPhase.bundles, mem_filledSlots_iff]
    exact List.mem_map_of_mem h
  | _ => cases h

-- ========================================================= descriptors

/-- A rebuild reads the netDb in one step, right after it claimed the
cache. -/
theorem infos?_step {event : RebuildEvent} {infos : List RouterInfo}
    (h : (s.step r event).phase.infos? = some infos) :
    r.phase.infos? = some infos
      ∨ r.phase = .claimed
        ∧ ∃ tree now, event = .scan tree now ∧ s.netDb.scan tree now = .ok infos := by
  have hstep := rebuildStep_step s r event
  generalize s.step r event = after at hstep h
  cases hstep with
  | outside => exact .inl h
  | idle => exact .inl h
  | built => exact .inl h
  | taskFailed => exact .inl h
  | @scanned _ tree now _ read =>
    cases h
    exact .inr ⟨rfl, tree, now, rfl, read⟩
  | _ => cases h

end Server

end RouterSeed

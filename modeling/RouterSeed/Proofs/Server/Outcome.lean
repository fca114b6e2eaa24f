/-
What a rebuild ends with.

`Server.Knows` says for each phase what a rebuild has to have done to be
there: which descriptors it read, which task each bundle comes from, and
what went wrong if something did. One step keeps it (`knows_step`), and
so a schedule does (`knows_steps`). From there come the content of what
is installed (`Server.Completes`) and the reasons of every failure
(`Server.FailsWith`).

Two facts are about the signal, which every task looks at and the rebuild
once more when all tasks are done: a rebuild is cancelled only by a signal
that has fired (`cancelled_step`), and none that fires before that last
look comes too late (`stopped_step`).

Consumed by Whole.
-/
import RouterSeed.Proofs.Bundle.Signed
import RouterSeed.Proofs.Server.Account

namespace RouterSeed

-- ======================================================== what is done

namespace Server

/-- A rebuild of this schedule may have read the descriptors. -/
def Reads (s : Server) (schedule : List RebuildEvent) (infos : List RouterInfo) : Prop :=
  ∃ tree now, .scan tree now ∈ schedule ∧ s.netDb.scan tree now = .ok infos

/-- The task of that index comes to the result in the schedule. -/
def Makes (s : Server) (schedule : List RebuildEvent) (infos : List RouterInfo) (index : Nat)
    (result : Except Failure Bytes) : Prop :=
  ∃ identity inputs, s.identity = some identity ∧ .build index inputs ∈ schedule
    ∧ encodedBundle infos s.config.infosPerBundle identity s.config.signatureType inputs = result

/-- The bundles are those of all tasks that there are for the descriptors,
in the order of the tasks. -/
structure Completes (s : Server) (schedule : List RebuildEvent) (infos : List RouterInfo)
    (bundles : List Bytes) : Prop where
  reads : s.Reads schedule infos
  length : bundles.length = s.bundleCount infos.length
  makes : ∀ (index : Nat) (bundle : Bytes), bundles[index]? = some bundle →
    s.Makes schedule infos index (.ok bundle)

/-- What a rebuild fails with, and why. -/
inductive FailsWith (s : Server) (schedule : List RebuildEvent) : Failure → Prop
  | keyMissing (missing : s.identity = none) : FailsWith s schedule .missingSigningKey
  | busy (signs : s.identity ≠ none) : FailsWith s schedule (.rebuildFailed .alreadyRunning)
  | unreadable {tree : FileTree} {now : Instant} {fault : IoFault} (signs : s.identity ≠ none)
      (scans : .scan tree now ∈ schedule) (unread : s.netDb.scan tree now = .error fault) :
      FailsWith s schedule (.rebuildFailed (.unreadableNetDb s.netDb.path fault))
  | badBundle {infos : List RouterInfo} {index : Nat} {failure : Failure}
      (signs : s.identity ≠ none) (reads : s.Reads schedule infos)
      (unmade : s.Makes schedule infos index (.error failure)) :
      FailsWith s schedule (.rebuildFailed (.badBundle failure.message))
  | cancelled (signs : s.identity ≠ none) : FailsWith s schedule .rebuildCancelled

/-- What is known of a rebuild that is over. -/
def Justifies (s : Server) (schedule : List RebuildEvent) : RebuildOutcome → Prop
  | .installed generation => ∃ infos, s.Completes schedule infos generation.bundles
  | .failed failure => s.FailsWith schedule failure
  | .crashed => .crash ∈ schedule

/-- What is known while the tasks are at work. -/
structure Building (s : Server) (schedule : List RebuildEvent) (infos : List RouterInfo)
    (slots : List (Option Bytes)) (failure : Option Failure) : Prop where
  signs : s.identity ≠ none
  reads : s.Reads schedule infos
  length : slots.length = s.bundleCount infos.length
  makes : ∀ (index : Nat) (bundle : Bytes), slots[index]? = some (some bundle) →
    s.Makes schedule infos index (.ok bundle)
  unmade : ∀ cause, failure = some cause →
    cause = .rebuildCancelled ∨ ∃ index, s.Makes schedule infos index (.error cause)

/-- What is known of a rebuild in each phase, if its steps were among
those of the schedule. -/
def Knows (s : Server) (schedule : List RebuildEvent) : RebuildPhase → Prop
  | .ready => True
  | .claimed => s.identity ≠ none
  | .building infos slots failure => s.Building schedule infos slots failure
  | .installing bundles => ∃ infos, s.Completes schedule infos bundles
  | .leaving outcome => s.Justifies schedule outcome
  | .ended outcome => s.Justifies schedule outcome

variable {s : Server} {r : Rebuild} {event : RebuildEvent} {schedule : List RebuildEvent}
  {infos : List RouterInfo} {slots : List (Option Bytes)}

-- ========================================================= the tasks

/-- A task fails because it was cancelled, or because its bundle could not
be made. -/
private theorem taskBundle_eq_error {identity : SigningIdentity} {stop : Bool}
    {inputs : BundleInputs}
    {failure : Failure} (h : s.taskBundle identity stop infos inputs = .error failure) :
    stop = true ∧ failure = .rebuildCancelled
      ∨ encodedBundle infos s.config.infosPerBundle identity s.config.signatureType inputs
          = .error failure := by
  unfold taskBundle at h
  split at h
  next hstop =>
    cases h
    exact .inl ⟨hstop, rfl⟩
  next => exact .inr h

/-- Before the first task every slot is free. -/
private theorem building_start (signs : s.identity ≠ none) (reads : s.Reads schedule infos) :
    s.Building schedule infos (List.replicate (s.bundleCount infos.length) none) none where
  signs := signs
  reads := reads
  length := List.length_replicate
  makes index bundle hslot := by
    cases List.eq_of_mem_replicate (List.mem_of_getElem? hslot)
  unmade := nofun

/-- A task fills its own slot. -/
private theorem Building.fill (h : s.Building schedule infos slots none) {index : Nat}
    {bundle : Bytes}
    (made : s.Makes schedule infos index (.ok bundle)) :
    s.Building schedule infos (slots.set index (some bundle)) none where
  signs := h.signs
  reads := h.reads
  length := List.length_set.trans h.length
  makes other filled hslot := by
    rw [List.getElem?_set] at hslot
    split at hslot
    next hother =>
      subst hother
      split at hslot
      · cases hslot
        exact made
      · cases hslot
    next => exact h.makes other filled hslot
  unmade := nofun

/-- Bundles that fill all slots are complete. -/
private theorem Building.completes {bundles : List Bytes} {failure : Option Failure}
    (h : s.Building schedule infos (bundles.map some) failure) :
    s.Completes schedule infos bundles where
  reads := h.reads
  length := by rw [← h.length, List.length_map]
  makes index bundle hbundle := by
    apply h.makes
    rw [List.getElem?_map, hbundle, Option.map_some]

theorem Completes.ne_nil {bundles : List Bytes} (h : s.Completes schedule infos bundles) :
    bundles ≠ [] := by
  have hpos := s.bundleCount_pos infos.length
  rw [← h.length] at hpos
  exact List.length_pos_iff.mp hpos

/-- The failure of a task becomes that of the rebuild. -/
private theorem Building.failsWith {cause : Failure}
    (h : s.Building schedule infos slots (some cause)) :
    s.FailsWith schedule cause.ofTask := by
  by_cases hcancelled : cause = .rebuildCancelled
  · rw [hcancelled]
    exact .cancelled h.signs
  · have htask : cause.ofTask = .rebuildFailed (.badBundle cause.message) := by
      unfold Failure.ofTask
      split
      next => exact absurd rfl hcancelled
      next => rfl
    rcases h.unmade cause rfl with hcause | ⟨index, hunmade⟩
    · exact absurd hcause hcancelled
    · rw [htask]
      exact .badBundle h.signs h.reads hunmade

/-- Without a key, that is what the rebuild fails with. -/
theorem FailsWith.eq_missingSigningKey {failure : Failure} (h : s.FailsWith schedule failure)
    (missing : s.identity = none) : failure = .missingSigningKey := by
  cases h with
  | keyMissing => rfl
  | busy signs | unreadable signs | badBundle signs | cancelled signs =>
    exact absurd missing signs

/-- With a key, a rebuild is cancelled or fails, but not over an empty
generation. -/
theorem FailsWith.cancelled_or_failed {failure : Failure} (h : s.FailsWith schedule failure)
    (signs : s.identity ≠ none) :
    failure = .rebuildCancelled
      ∨ ∃ fault, failure = .rebuildFailed fault ∧ fault ≠ .emptyGeneration := by
  cases h with
  | keyMissing missing => exact absurd missing signs
  | cancelled => exact .inl rfl
  | busy | unreadable | badBundle => exact .inr ⟨_, rfl, nofun⟩

-- ============================================================ one step

/-- Each step keeps what the phase says true of the schedule. -/
private theorem knows_step (h : s.Knows schedule r.phase) (hevent : event ∈ schedule) :
    s.Knows schedule (s.step r event).phase := by
  have hstep := rebuildStep_step s r event
  generalize s.step r event = after at hstep
  cases hstep with
  | outside => exact h
  | idle => exact h
  | keyMissing missing => exact .keyMissing missing
  | claimed signs => exact fun missing => nomatch signs.symm.trans missing
  | busy signs => exact .busy fun missing => nomatch signs.symm.trans missing
  | @scanned _ tree now _ read => exact building_start h ⟨tree, now, hevent, read⟩
  | unreadable unread => exact .unreadable h hevent unread
  | @built _ _ _ identity _ inputs _ signs _ made =>
    exact Building.fill h ⟨identity, inputs, signs, hevent, taskBundle_eq_ok made⟩
  | @taskFailed _ _ _ identity index inputs _ signs _ unmade =>
    have hbuilding : s.Building schedule _ _ none := h
    refine { hbuilding with unmade := ?_ }
    intro cause hcause
    cases hcause
    rcases taskBundle_eq_error unmade with ⟨-, hcancelled⟩ | hunmade
    · exact .inl hcancelled
    · exact .inr ⟨index, identity, inputs, signs, hevent, hunmade⟩
  | aborted => exact Building.failsWith h
  | cancelled => exact .cancelled (Building.signs h)
  | concluded => exact ⟨_, Building.completes h⟩
  | installed => exact h
  | refused =>
    -- a rebuild has one task at least
    obtain ⟨infos, hcomplete⟩ := h
    exact absurd rfl hcomplete.ne_nil
  | released => exact h
  | crashedUnclaimed => exact hevent
  | crashed => exact hevent

end Server

-- ========================================================== the signal

/-- What went wrong so far. -/
def RebuildPhase.failure? : RebuildPhase → Option Failure
  | .building _ _ failure => failure
  | phase =>
    match phase.outcome? with
    | some (.failed failure) => some failure
    | _ => none

/-- All tasks are done and the rebuild has looked at the signal for the
last time, and installs or has installed. -/
def RebuildPhase.isCommitted : RebuildPhase → Bool
  | .installing _ => true
  | phase => phase.installed?.isSome

namespace Server

variable {s : Server} {r : Rebuild} {schedule : List RebuildEvent}

/-- Only a signal cancels. -/
private theorem cancelled_step
    (h : r.phase.failure? = some .rebuildCancelled → r.around.shutdown.hasFired = true)
    (event : RebuildEvent) (cancelled : (s.step r event).phase.failure? = some .rebuildCancelled) :
    (s.step r event).around.shutdown.hasFired = true := by
  have hstep := rebuildStep_step s r event
  generalize s.step r event = after at hstep cancelled
  cases hstep with
  | outside event => exact Surroundings.hasFired_step (h cancelled) event
  | idle => exact h cancelled
  | taskFailed _ _ unmade =>
    cases cancelled
    rcases taskBundle_eq_error unmade with ⟨hfired, -⟩ | hunmade
    · exact hfired
    -- the task itself does not fail like that
    · cases isOfBuilding_of_encodedBundle hunmade
  | @aborted _ _ _ failure =>
    apply h
    cases failure with
    | rebuildCancelled => rfl
    | _ => cases cancelled
  | cancelled fired => exact fired
  | released => exact h cancelled
  | _ => cases cancelled

/-- A rebuild that has not looked for the last time when the signal fires
does not get past it any more. -/
theorem stopped_step (fired : r.around.shutdown.hasFired = true)
    (before : r.phase.isCommitted = false) (event : RebuildEvent) :
    (s.step r event).around.shutdown.hasFired = true
      ∧ (s.step r event).phase.isCommitted = false := by
  have hstep := rebuildStep_step s r event
  generalize s.step r event = after at hstep
  cases hstep with
  | outside event => exact ⟨Surroundings.hasFired_step fired event, before⟩
  | concluded silent =>
    rw [fired] at silent
    cases silent
  | installed => cases before
  | refused => cases before
  | released => exact ⟨fired, before⟩
  | idle => exact ⟨fired, before⟩
  | _ => exact ⟨fired, rfl⟩

-- ================================================================ runs

/-- Every phase that a schedule leads to tells the truth about it. -/
theorem knows_steps (s : Server) (around : Surroundings) (schedule : List RebuildEvent) :
    s.Knows schedule (s.steps ⟨around, .ready⟩ schedule).phase := by
  refine List.foldlRecOn (motive := fun r => s.Knows schedule r.phase) schedule s.step ?_ ?_
  · exact trivial
  · intro r h event hevent
    exact knows_step h hevent

/-- A cancelled rebuild had its signal. -/
theorem cancelled_steps (s : Server) (around : Surroundings) (schedule : List RebuildEvent)
    (cancelled : (s.steps ⟨around, .ready⟩ schedule).phase.failure? = some .rebuildCancelled) :
    (s.steps ⟨around, .ready⟩ schedule).around.shutdown.hasFired = true := by
  refine List.foldlRecOn (motive := fun r => r.phase.failure? = some .rebuildCancelled →
    r.around.shutdown.hasFired = true) schedule s.step ?_ ?_ cancelled
  · intro h
    cases h
  · intro r h event _
    exact cancelled_step h event

/-- A rebuild that had its signal in time does not install. -/
theorem stopped_steps (fired : r.around.shutdown.hasFired = true)
    (before : r.phase.isCommitted = false) (schedule : List RebuildEvent) :
    (s.steps r schedule).phase.isCommitted = false := by
  have hstopped : (s.steps r schedule).around.shutdown.hasFired = true
      ∧ (s.steps r schedule).phase.isCommitted = false := by
    refine List.foldlRecOn (motive := fun r => r.around.shutdown.hasFired = true
      ∧ r.phase.isCommitted = false) schedule s.step ⟨fired, before⟩ ?_
    intro r h event _
    exact stopped_step h.1 h.2 event
  exact hstopped.2

end Server

end RouterSeed

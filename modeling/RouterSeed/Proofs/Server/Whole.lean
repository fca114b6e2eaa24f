/-
A rebuild installs everything or nothing.

A schedule is whole if the rebuild makes each of its steps in it: it
begins, scans, does all tasks in some order, and leaves. What the others
do may stand anywhere between. `Server.Due` says which steps are left in
each phase; a step of the rebuild keeps it (`due_step`), so that a whole
schedule brings every rebuild to its end (`due_steps`). The steps of a
whole schedule take what they need from given inputs, and the bundles
are then the same in whatever order the tasks are done (`assembles`).

`steps_installs_all_or_none` puts this together with the account of the
surroundings and with what is known of how a rebuild ends.
-/
import RouterSeed.Proofs.Server.Outcome
import RouterSeed.Proofs.Server.Served

namespace RouterSeed

-- ====================================================== whole schedules

/-- A step of the rebuild itself. -/
def RebuildEvent.isOwn (event : RebuildEvent) : Bool := event.outside?.isNone

namespace RebuildInputs

/-- The steps of a rebuild from its tasks on, which are done in the given
order. -/
def tasksOn (inputs : RebuildInputs) (order : List Nat) : List RebuildEvent :=
  order.map (fun index => .build index (inputs.task index))
    ++ [.conclude, .install inputs.installedAt, .release]

/-- The steps of a rebuild. -/
def inOrder (inputs : RebuildInputs) (order : List Nat) : List RebuildEvent :=
  .begin :: .scan inputs.tree inputs.scannedAt :: inputs.tasksOn order

end RebuildInputs

namespace Server

/-- The rebuild makes all its steps, with its tasks in some order. -/
def IsWhole (s : Server) (inputs : RebuildInputs) (schedule : List RebuildEvent) : Prop :=
  ∃ order, order.Perm (List.range (s.taskCount inputs))
    ∧ schedule.filter RebuildEvent.isOwn = inputs.inOrder order

/-- The generation is made of what the tasks build of the descriptors, one
after the other. -/
def Assembles (s : Server) (inputs : RebuildInputs) (generation : Generation) : Prop :=
  ∃ identity infos, s.identity = some identity
    ∧ s.netDb.scan inputs.tree inputs.scannedAt = .ok infos
    ∧ generation.builtAt = inputs.installedAt
    ∧ generation.bundles.map Except.ok = (List.range (s.bundleCount infos.length)).map fun index =>
        encodedBundle infos s.config.infosPerBundle identity s.config.signatureType
          (inputs.task index)

/-- The events are the steps that a rebuild has left. -/
def Due (s : Server) (inputs : RebuildInputs) (left : List RebuildEvent) : RebuildPhase → Prop
  | .ready =>
    ∃ order, order.Perm (List.range (s.taskCount inputs)) ∧ left = inputs.inOrder order
  | .claimed =>
    s.identity ≠ none ∧ ∃ order, order.Perm (List.range (s.taskCount inputs))
      ∧ left = .scan inputs.tree inputs.scannedAt :: inputs.tasksOn order
  | .building _ slots failure =>
    s.identity ≠ none ∧ ∃ order, left = inputs.tasksOn order
      ∧ (failure = none → ∀ index, slots[index]? = some none → index ∈ order)
  | .installing _ => left = [.install inputs.installedAt, .release]
  | .leaving outcome => outcome ≠ .crashed ∧ .release ∈ left
  | .ended outcome => outcome ≠ .crashed

variable {s : Server} {inputs : RebuildInputs} {left : List RebuildEvent} {event : RebuildEvent}
  {around : Surroundings}

-- ========================================================== each phase

/-- After the start, the scan and the tasks are due. -/
private theorem due_begin {order : List Nat} (perm : order.Perm (List.range (s.taskCount inputs))) :
    s.Due inputs (.scan inputs.tree inputs.scannedAt :: inputs.tasksOn order)
      (s.step ⟨around, .ready⟩ .begin).phase := by
  unfold step
  dsimp only
  cases hidentity : s.identity with
  | none => exact nofun
  | some identity =>
    dsimp only
    cases around.cache.beginRebuild? with
    | some cache => exact ⟨by rw [hidentity]; exact nofun, order, perm, rfl⟩
    | none => exact nofun

/-- After the scan, the tasks, one for each slot. -/
private theorem due_scan (signs : s.identity ≠ none) {order : List Nat}
    (perm : order.Perm (List.range (s.taskCount inputs))) :
    s.Due inputs (inputs.tasksOn order)
      (s.step ⟨around, .claimed⟩ (.scan inputs.tree inputs.scannedAt)).phase := by
  unfold step
  dsimp only
  cases hscan : s.netDb.scan inputs.tree inputs.scannedAt with
  | error fault =>
    refine ⟨nofun, ?_⟩
    unfold RebuildInputs.tasksOn
    simp
  | ok infos =>
    have hcount : s.taskCount inputs = s.bundleCount infos.length := by
      unfold taskCount
      rw [hscan]
    refine ⟨signs, order, rfl, fun _ index hvacant => ?_⟩
    rw [perm.mem_iff, List.mem_range, hcount]
    obtain ⟨hindex, -⟩ := List.getElem?_eq_some_iff.mp hvacant
    rw [List.length_replicate] at hindex
    exact hindex

/-- A task is not waited for twice, however it ends. -/
private theorem due_build {infos : List RouterInfo} {slots : List (Option Bytes)}
    {failure : Option Failure} {index : Nat} {order : List Nat} (signs : s.identity ≠ none)
    (vacant : failure = none → ∀ other, slots[other]? = some none → other ∈ index :: order) :
    s.Due inputs (inputs.tasksOn order)
      (s.step ⟨around, .building infos slots failure⟩
        (.build index (inputs.task index))).phase := by
  cases failure with
  | some failure => exact ⟨signs, order, rfl, nofun⟩
  | none =>
    obtain ⟨identity, hidentity⟩ := Option.ne_none_iff_exists'.mp signs
    unfold step
    rw [hidentity]
    dsimp only
    -- the other vacant slots have their tasks still to come
    have hothers (other : Nat) (hne : index ≠ other) (h : slots[other]? = some none) :
        other ∈ order :=
      (List.mem_cons.mp (vacant rfl other h)).resolve_left (Ne.symm hne)
    by_cases hvacant : slots[index]? = some none
    · rw [if_pos hvacant]
      cases s.taskBundle identity around.shutdown.hasFired infos (inputs.task index) with
      | error failure => exact ⟨signs, order, rfl, nofun⟩
      | ok bundle =>
        refine ⟨signs, order, rfl, fun _ other hother => ?_⟩
        rw [List.getElem?_set] at hother
        split at hother
        next =>
          split at hother
          · cases hother
          · cases hother
        next hne => exact hothers other hne hother
    · rw [if_neg hvacant]
      refine ⟨signs, order, rfl, fun _ other hother => hothers other ?_ hother⟩
      rintro rfl
      exact hvacant hother

/-- Slots of which none is vacant are filled. -/
private theorem filledSlots?_isSome {slots : List (Option Bytes)}
    (h : ∀ slot ∈ slots, slot ≠ none) :
    ∃ bundles, filledSlots? slots = some bundles := by
  induction slots with
  | nil => exact ⟨[], rfl⟩
  | cons slot slots ih =>
    obtain ⟨bundle, rfl⟩ := Option.ne_none_iff_exists'.mp (h slot List.mem_cons_self)
    obtain ⟨bundles, hbundles⟩ := ih fun other hother => h other (List.mem_cons_of_mem _ hother)
    refine ⟨bundle :: bundles, ?_⟩
    rw [filledSlots?, hbundles, Option.map_some]

/-- After the last task, the install and the release. -/
private theorem due_conclude {infos : List RouterInfo} {slots : List (Option Bytes)}
    {failure : Option Failure} (vacant : failure = none → ∀ index : Nat, slots[index]? ≠ some none) :
    s.Due inputs [.install inputs.installedAt, .release]
      (s.step ⟨around, .building infos slots failure⟩ .conclude).phase := by
  unfold step
  cases failure with
  | some failure => exact ⟨nofun, by simp⟩
  | none =>
    -- no slot is free any more, so the bundles are all there
    have hall : ∀ slot ∈ slots, slot ≠ none := by
      rintro _ hslot rfl
      obtain ⟨index, hindex⟩ := List.mem_iff_getElem?.mp hslot
      exact vacant rfl index hindex
    obtain ⟨bundles, hbundles⟩ := filledSlots?_isSome hall
    dsimp only
    rw [hbundles]
    dsimp only
    split
    · exact ⟨nofun, by simp⟩
    · exact rfl

/-- After the install, the release. -/
private theorem due_install {bundles : List Bytes} {now : Instant} :
    s.Due inputs [.release] (s.step ⟨around, .installing bundles⟩ (.install now)).phase := by
  unfold step
  dsimp only
  split
  · exact ⟨nofun, List.mem_singleton_self _⟩
  · exact ⟨nofun, List.mem_singleton_self _⟩

/-- After the release, nothing. -/
private theorem due_leaving {outcome : RebuildOutcome} (settled : outcome ≠ .crashed)
    (release : .release ∈ event :: left) :
    s.Due inputs left (s.step ⟨around, .leaving outcome⟩ event).phase := by
  rcases List.mem_cons.mp release with rfl | hrelease
  · exact settled
  · cases event with
    | release => exact settled
    | _ => exact ⟨settled, hrelease⟩

-- ================================================================ runs

/-- One step of a rebuild takes one event from those that are due. -/
private theorem due_step {r : Rebuild} (h : s.Due inputs (event :: left) r.phase) :
    s.Due inputs left (s.step r event).phase := by
  obtain ⟨around, phase⟩ := r
  cases phase with
  | ready =>
    obtain ⟨order, hperm, hleft⟩ := h
    cases hleft
    exact due_begin hperm
  | claimed =>
    obtain ⟨hsigns, order, hperm, hleft⟩ := h
    cases hleft
    exact due_scan hsigns hperm
  | building infos slots failure =>
    obtain ⟨hsigns, order, hleft, hvacant⟩ := h
    cases order with
    | nil =>
      cases hleft
      refine due_conclude fun hnone index hindex => ?_
      cases hvacant hnone index hindex
    | cons index order =>
      cases hleft
      exact due_build hsigns hvacant
  | installing bundles =>
    cases h
    exact due_install
  | leaving outcome => exact due_leaving h.1 h.2
  | ended outcome => cases event <;> exact h

/-- What others do in between takes away nothing that is due. -/
private theorem due_steps {r : Rebuild} {schedule : List RebuildEvent}
    (h : s.Due inputs (schedule.filter RebuildEvent.isOwn) r.phase) :
    s.Due inputs [] (s.steps r schedule).phase := by
  induction schedule generalizing r with
  | nil => exact h
  | cons event schedule ih =>
    apply ih
    cases event with
    | outside event => exact h
    | _ => exact due_step h

/-- A rebuild that makes all its steps comes to an end. -/
private theorem ended_of_isWhole {schedule : List RebuildEvent} (whole : s.IsWhole inputs schedule)
    (around : Surroundings) :
    ∃ outcome, (s.steps ⟨around, .ready⟩ schedule).phase = .ended outcome
      ∧ outcome ≠ .crashed := by
  have hdue : s.Due inputs [] (s.steps ⟨around, .ready⟩ schedule).phase := due_steps whole
  generalize (s.steps ⟨around, .ready⟩ schedule).phase = phase at hdue
  -- in every phase but the last something is still due
  cases phase with
  | ended outcome => exact ⟨outcome, rfl, hdue⟩
  | ready =>
    obtain ⟨order, -, hleft⟩ := hdue
    cases hleft
  | claimed =>
    obtain ⟨-, order, -, hleft⟩ := hdue
    cases hleft
  | building =>
    obtain ⟨-, order, hleft, -⟩ := hdue
    cases order <;> cases hleft
  | installing => cases hdue
  | leaving => cases hdue.2

end Server

-- ======================================================= what is built

/-- What the event takes from outside is that of the inputs. -/
def RebuildEvent.Uses (inputs : RebuildInputs) : RebuildEvent → Prop
  | .scan tree now => tree = inputs.tree ∧ now = inputs.scannedAt
  | .build index taken => taken = inputs.task index
  | .install now => now = inputs.installedAt
  | _ => True

/-- A schedule in order uses its inputs only. -/
private theorem RebuildInputs.uses_of_mem_inOrder {inputs : RebuildInputs} {order : List Nat}
    {event : RebuildEvent} (h : event ∈ inputs.inOrder order) : event.Uses inputs := by
  unfold inOrder tasksOn at h
  simp only [List.mem_cons, List.mem_append, List.mem_map, List.not_mem_nil, or_false] at h
  rcases h with rfl | rfl | ⟨index, -, rfl⟩ | rfl | rfl | rfl
  · trivial
  · exact ⟨rfl, rfl⟩
  · rfl
  · trivial
  · rfl
  · trivial

private theorem RebuildInputs.isOwn_of_mem_inOrder {inputs : RebuildInputs} {order : List Nat}
    {event : RebuildEvent} (h : event ∈ inputs.inOrder order) : event.isOwn = true := by
  unfold inOrder tasksOn at h
  simp only [List.mem_cons, List.mem_append, List.mem_map, List.not_mem_nil, or_false] at h
  rcases h with rfl | rfl | ⟨index, -, rfl⟩ | rfl | rfl | rfl <;> rfl

namespace Server

variable {s : Server} {inputs : RebuildInputs} {event : RebuildEvent}
  {schedule : List RebuildEvent}

/-- A rebuild whose tasks are done one after the other is whole. -/
theorem isWhole_oneByOne (s : Server) (inputs : RebuildInputs) :
    s.IsWhole inputs (s.oneByOne inputs) := by
  have horder : s.oneByOne inputs = inputs.inOrder (List.range (s.taskCount inputs)) := rfl
  refine ⟨List.range (s.taskCount inputs), .refl _, ?_⟩
  rw [horder, List.filter_eq_self]
  exact fun event => RebuildInputs.isOwn_of_mem_inOrder

/-- A rebuild whose tasks are done one after the other comes to an end, and
the answer says which. -/
theorem steps_oneByOne (s : Server) (around : Surroundings) (inputs : RebuildInputs) :
    s.steps ⟨around, .ready⟩ (s.oneByOne inputs)
      = ⟨(s.rebuild around inputs).2,
          .ended (match (s.rebuild around inputs).1 with
            | .ok generation => .installed generation
            | .error failure => .failed failure)⟩ := by
  obtain ⟨outcome, hended, hsettled⟩ := ended_of_isWhole (s.isWhole_oneByOne inputs) around
  unfold rebuild
  dsimp only
  generalize s.steps ⟨around, .ready⟩ (s.oneByOne inputs) = finished at hended
  obtain ⟨left, phase⟩ := finished
  cases hended
  cases outcome with
  | installed generation => rfl
  | failed failure => rfl
  | crashed => exact absurd rfl hsettled

/-- A whole schedule uses its inputs only. -/
private theorem IsWhole.uses (whole : s.IsWhole inputs schedule) (h : event ∈ schedule) :
    event.Uses inputs := by
  obtain ⟨order, -, hown⟩ := whole
  cases houtside : event.outside? with
  | some outside =>
    obtain rfl := RebuildEvent.outside?_eq_some houtside
    trivial
  | none =>
    have hmem : event ∈ schedule.filter RebuildEvent.isOwn := by
      rw [List.mem_filter]
      refine ⟨h, ?_⟩
      unfold RebuildEvent.isOwn
      rw [houtside]
      rfl
    rw [hown] at hmem
    exact RebuildInputs.uses_of_mem_inOrder hmem

/-- Bundles that are complete are those of the inputs, in whatever order
their tasks were done. -/
theorem IsWhole.assembles (whole : s.IsWhole inputs schedule) {infos : List RouterInfo}
    {generation : Generation} (complete : s.Completes schedule infos generation.bundles)
    (installs : .install generation.builtAt ∈ schedule) : s.Assembles inputs generation := by
  obtain ⟨tree, now, hscan, hread⟩ := complete.reads
  obtain ⟨rfl, rfl⟩ := whole.uses hscan
  -- every task took its inputs from the same place, whenever it was done
  have hmade (index : Nat) (bundle : Bytes) (h : generation.bundles[index]? = some bundle) :
      ∃ identity, s.identity = some identity
        ∧ encodedBundle infos s.config.infosPerBundle identity s.config.signatureType
            (inputs.task index) = .ok bundle := by
    obtain ⟨identity, taken, hidentity, hbuild, hmade⟩ := complete.makes index bundle h
    cases whole.uses hbuild
    exact ⟨identity, hidentity, hmade⟩
  have hfirst := List.getElem?_eq_getElem (List.length_pos_iff.mpr complete.ne_nil)
  obtain ⟨identity, hidentity, -⟩ := hmade 0 _ hfirst
  refine ⟨identity, infos, hidentity, hread, whole.uses installs, ?_⟩
  apply List.ext_getElem?
  intro index
  rw [List.getElem?_map, List.getElem?_map, ← complete.length]
  cases hbundle : generation.bundles[index]? with
  | none =>
    rw [List.getElem?_eq_none_iff] at hbundle
    rw [List.getElem?_eq_none (by rw [List.length_range]; exact hbundle)]
    rfl
  | some bundle =>
    obtain ⟨hindex, -⟩ := List.getElem?_eq_some_iff.mp hbundle
    obtain ⟨same, hsame, hencoded⟩ := hmade index bundle hbundle
    cases hidentity.symm.trans hsame
    rw [List.getElem?_range hindex, Option.map_some, Option.map_some, hencoded]

end Server

-- =================================================== everything or nothing

/-- An outcome is justified by the schedule that led to it. -/
theorem Server.justifies_of_outcome? {s : Server} {schedule : List RebuildEvent}
    {phase : RebuildPhase} (h : s.Knows schedule phase) {outcome : RebuildOutcome}
    (settled : phase.outcome? = some outcome) : s.Justifies schedule outcome := by
  cases phase with
  | leaving other =>
    cases settled
    exact h
  | ended other =>
    cases settled
    exact h
  | _ => cases settled

theorem RebuildPhase.installed?_eq_some_iff {phase : RebuildPhase} {generation : Generation} :
    phase.installed? = some generation ↔ phase.outcome? = some (.installed generation) := by
  unfold installed?
  cases phase.outcome? with
  | none => exact ⟨nofun, nofun⟩
  | some outcome =>
    cases outcome with
    | installed other => simp
    | failed failure => exact ⟨nofun, nofun⟩
    | crashed => exact ⟨nofun, nofun⟩

/-- A rebuild that has not come to its install has installed nothing. -/
theorem RebuildPhase.installed?_of_isCommitted {phase : RebuildPhase}
    (h : phase.isCommitted = false) : phase.installed? = none := by
  cases phase with
  | installing => cases h
  | leaving outcome =>
    cases outcome with
    | installed => cases h
    | _ => rfl
  | ended outcome =>
    cases outcome with
    | installed => cases h
    | _ => rfl
  | _ => rfl

namespace Server

/-- A rebuild on a cache that others use as well, after any schedule of its
steps and theirs.

If it makes all its steps it ends, by installing something or with a
failure. What it installs are the bundles of all its tasks, in the order
of the tasks, at least one; it does so by one swap among the operations
of the others. If it installs nothing, what is served is what the others
serve without it. It fails for want of a key when it has none, without a
trace; otherwise it is cancelled, which takes a signal that has fired, or
it has failed, but never over an empty generation. It is turned away only
while somebody else has the claim, which stays as it is. The claim that
it gets itself is given back whenever it is over. A signal that fires
before it has looked for the last time keeps it from installing. -/
theorem steps_installs_all_or_none (s : Server) (history : List CacheOperation)
    (shutdown : Shutdown) (schedule : List RebuildEvent) :
    let start : Surroundings := ⟨CacheSession.new.run history, shutdown⟩
    let others := start.steps (outsideEvents schedule)
    let after := s.steps ⟨start, .ready⟩ schedule
    (∀ inputs, s.IsWhole inputs schedule →
        (∃ g, after.phase = .ended (.installed g) ∧ s.Assembles inputs g)
          ∨ ∃ failure, after.phase = .ended (.failed failure))
      ∧ (∀ g, after.phase.installed? = some g →
        (∃ infos, s.Completes schedule infos g.bundles ∧ 1 ≤ s.bundleCount infos.length)
          ∧ ∃ earlier later, schedule = earlier ++ .install g.builtAt :: later
            ∧ after.around.Alike
                (start.steps (outsideEvents earlier ++ .use (.install g) :: outsideEvents later)))
      ∧ (after.phase.installed? = none → after.around.Alike others)
      ∧ (∀ failure, after.phase = .ended (.failed failure) →
        s.FailsWith schedule failure
          ∧ (s.identity = none → failure = .missingSigningKey ∧ after.around = others)
          ∧ (s.identity ≠ none →
            failure = .rebuildCancelled ∧ after.around.shutdown.hasFired = true
              ∨ ∃ fault, failure = .rebuildFailed fault ∧ fault ≠ .emptyGeneration))
      ∧ (after.phase = .ended (.failed (.rebuildFailed .alreadyRunning)) →
        after.around = others
          ∧ ∃ earlier later, schedule = earlier ++ .begin :: later
            ∧ (start.steps (outsideEvents earlier)).session.claims = 1)
      ∧ (∀ outcome, after.phase = .ended outcome →
        (after.around.cache.rebuilding = true ↔ after.around.session.claims = 1))
      ∧ ∀ earlier later, schedule = earlier ++ later →
        (s.steps ⟨start, .ready⟩ earlier).phase.isCommitted = false →
          (s.steps ⟨start, .ready⟩ earlier).around.shutdown.hasFired = true →
            after.phase.installed? = none := by
  intro start others after
  -- What happened around the rebuild is its account, and why it ended is what it knows.
  have haccount : Rebuild.Accounted start schedule after :=
    s.accounted_steps start (CacheSession.claimedBy_run_new history) schedule
  have hknows : s.Knows schedule after.phase := s.knows_steps start schedule
  have hcomplete (g : Generation) (h : after.phase.installed? = some g) :
      ∃ infos, s.Completes schedule infos g.bundles :=
    justifies_of_outcome? hknows (RebuildPhase.installed?_eq_some_iff.mp h)
  refine ⟨?ends, ?everything, haccount.kept, ?failures, ?refusal, ?claim, ?signal⟩
  -- A whole schedule ends; its outcome tells which of the two it is.
  case ends =>
    intro inputs whole
    obtain ⟨outcome, hended, hsettled⟩ := ended_of_isWhole whole start
    cases outcome with
    | installed g =>
      have hg : after.phase.installed? = some g := by
        show (s.steps ⟨start, .ready⟩ schedule).phase.installed? = some g
        rw [hended]
        rfl
      obtain ⟨infos, hinfos⟩ := hcomplete g hg
      obtain ⟨earlier, later, hschedule, -⟩ := haccount.swapped g hg
      refine .inl ⟨g, hended, whole.assembles hinfos ?_⟩
      rw [hschedule]
      exact List.mem_append_right _ List.mem_cons_self
    | failed failure => exact .inr ⟨failure, hended⟩
    | crashed => exact absurd rfl hsettled
  case everything =>
    intro g hg
    obtain ⟨infos, hinfos⟩ := hcomplete g hg
    exact ⟨⟨infos, hinfos, s.bundleCount_pos infos.length⟩, haccount.swapped g hg⟩
  case failures =>
    intro failure hfailure
    rw [hfailure] at hknows
    have hreason : s.FailsWith schedule failure := hknows
    refine ⟨hreason, fun missing => ?_, fun signs => ?_⟩
    · refine ⟨hreason.eq_missingSigningKey missing, haccount.untouched ?_⟩
      rw [hfailure, hreason.eq_missingSigningKey missing]
      rfl
    · rcases hreason.cancelled_or_failed signs with rfl | hfault
      · refine .inl ⟨rfl, ?_⟩
        apply cancelled_steps s start schedule
        show after.phase.failure? = _
        rw [hfailure]
        rfl
      · exact .inr hfault
  case refusal =>
    intro hrefused
    refine ⟨haccount.untouched ?_, haccount.refused hrefused⟩
    rw [hrefused]
    rfl
  case claim =>
    intro outcome hended
    have hclaims := haccount.claims
    rw [hended] at hclaims
    exact hclaims.isMarked
  case signal =>
    intro earlier later hschedule hbefore hfired
    have hafter : after = s.steps (s.steps ⟨start, .ready⟩ earlier) later := by
      show s.steps ⟨start, .ready⟩ schedule = _
      rw [hschedule]
      exact List.foldl_append
    rw [hafter]
    exact RebuildPhase.installed?_of_isCommitted (stopped_steps hfired hbefore later)

end Server

-- ======================================================= a small rebuild

/-- What a rebuild of the small server reads and draws. -/
def smallInputs : RebuildInputs where
  tree := smallTree
  scannedAt := ⟨0⟩
  task _ := ⟨7, fun _ => 1, fun i => i⟩
  installedAt := ⟨1⟩

/-- Others try to claim the cache meanwhile, and the signal is sent when
the rebuild has looked at it for the last time. -/
def smallRebuild : List RebuildEvent :=
  [.begin, .outside (.use .claim), .scan smallInputs.tree smallInputs.scannedAt,
    .build 0 (smallInputs.task 0), .conclude, .outside .send,
    .install smallInputs.installedAt, .outside (.use .hold), .release]

private theorem isWhole_smallRebuild : smallServer.IsWhole smallInputs smallRebuild := by
  have hcount : smallServer.taskCount smallInputs = 1 := by decide +kernel
  refine ⟨[0], ?_, rfl⟩
  rw [hcount]
  exact .refl _

/-- The small rebuild installs its one generation. -/
theorem steps_installs_all_or_none_smallRebuild :
    ∃ g, (smallServer.steps ⟨⟨CacheSession.new.run [], .silent⟩, .ready⟩ smallRebuild).phase
        = .ended (.installed g)
      ∧ smallServer.Assembles smallInputs g
      ∧ ∃ earlier later, smallRebuild = earlier ++ .install g.builtAt :: later := by
  obtain ⟨hends, heverything, -⟩ :=
    Server.steps_installs_all_or_none smallServer [] .silent smallRebuild
  have hinstalled : (smallServer.steps ⟨⟨CacheSession.new.run [], .silent⟩, .ready⟩
      smallRebuild).phase.installed?.isSome = true := by
    decide +kernel
  rcases hends smallInputs isWhole_smallRebuild with ⟨g, hended, hbundles⟩ | ⟨failure, hended⟩
  · obtain ⟨-, earlier, later, hschedule, -⟩ := heverything g (by rw [hended]; rfl)
    exact ⟨g, hended, hbundles, earlier, later, hschedule⟩
  · rw [hended] at hinstalled
    cases hinstalled

end RouterSeed

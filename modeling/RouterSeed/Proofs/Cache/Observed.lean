/-
What a cache answers about its state is what its state was.

Two looks that are not one may see two things that were never there
together: what is served may have changed by the time of the look at the
claim. It cannot have changed the wrong way, because what is served is
replaced but never taken away (`isServing_step`). So a first look that
finds something is still right when the second one is taken, and one that
finds nothing is an answer by itself. That is the invariant over all
interleavings, `Explains`, and everything else is read off it.
-/
import Mathlib.Data.List.Induction
import RouterSeed.Cache.Observed
import RouterSeed.Proofs.Cache.Session

namespace RouterSeed

-- ============================================================== states

namespace Cache

variable {c : Cache}

/-- The state in its three cases: nothing to serve, a claim on what is
served, or neither. -/
theorem state_eq (c : Cache) :
    c.state = if c.current = none then .empty
      else if c.rebuilding = true then .rebuilding else .ready := by
  obtain ⟨current, rebuilding⟩ := c
  cases current with
  | none => rfl
  | some generation => cases rebuilding <;> rfl

/-- Whoever finds nothing to serve need not look at the claim. -/
theorem state_eq_empty_iff : c.state = .empty ↔ c.current.isSome = false := by
  rw [state_eq, Option.isSome_eq_false_iff, Option.isNone_iff_eq_none]
  split
  next hnone => simp only [hnone]
  next hsome => split <;> simp [hsome]

/-- Once there is something to serve, the claim alone decides. -/
theorem state_of_serving (h : c.current.isSome = true) : c.state = .ofReads true c.rebuilding := by
  unfold state
  rw [h]

end Cache

-- =========================================================== inquiries

namespace Inquiry

/-- How many looks have been taken. -/
def looksTaken : Inquiry → Nat
  | .begun => 0
  | .looked _ => 1
  | .answered _ => 2

private theorem looksTaken_le (inquiry : Inquiry) : inquiry.looksTaken ≤ 2 := by
  cases inquiry <;> simp [looksTaken]

private theorem looksTaken_look (c : Cache) (inquiry : Inquiry) :
    (inquiry.look c).looksTaken = min 2 (inquiry.looksTaken + 1) := by
  cases inquiry <;> rfl

/-- Two looks are all there is to an inquiry. -/
private theorem exists_answer_of_looksTaken {inquiry : Inquiry} (h : 2 ≤ inquiry.looksTaken) :
    ∃ state, inquiry = .answered state := by
  cases inquiry with
  | begun => simp [looksTaken] at h
  | looked isServing => simp [looksTaken] at h
  | answered state => exact ⟨state, rfl⟩

end Inquiry

namespace ObservedCache

variable {o : ObservedCache} {session : CacheSession} {events later : List ObservedEvent}
  {event : ObservedEvent} {index : Nat} {inquiry : Inquiry} {state : CacheState}

-- =============================================================== steps

theorem run_append (o : ObservedCache) (events later : List ObservedEvent) :
    o.run (events ++ later) = (o.run events).run later := List.foldl_append

theorem run_concat (o : ObservedCache) (events : List ObservedEvent) (event : ObservedEvent) :
    o.run (events ++ [event]) = (o.run events).step event := run_append o events [event]

/-- What is served is never taken away. -/
theorem isServing_step (h : o.cache.current.isSome = true) (event : ObservedEvent) :
    (o.step event).cache.current.isSome = true := by
  cases event with
  | use operation =>
    show (o.session.step operation).2.cache.current.isSome = true
    rw [CacheSession.current_step, Option.isSome_or]
    exact Bool.or_eq_true_iff.mpr (.inr h)
  | ask => exact h
  | look index => exact h

/-- The same over a whole run; this is what makes a first look last. -/
theorem isServing_run (h : o.cache.current.isSome = true) (events : List ObservedEvent) :
    (o.run events).cache.current.isSome = true := by
  induction events generalizing o with
  | nil => exact h
  | cons event events ih => exact ih (isServing_step h event)

/-- A look takes one of those who ask further and leaves the others. -/
theorem inquiries_look (o : ObservedCache) (other index : Nat) :
    (o.step (.look other)).inquiries[index]?
      = o.inquiries[index]?.map fun inquiry =>
          if other = index then inquiry.look o.cache else inquiry := by
  show (o.inquiries.modify other (Inquiry.look o.cache))[index]? = _
  rw [List.getElem?_modify]
  rfl

/-- Those who have asked stay, and get no further back. -/
private theorem length_inquiries_step (o : ObservedCache) (event : ObservedEvent) :
    o.inquiries.length ≤ (o.step event).inquiries.length := by
  cases event with
  | use operation => exact Nat.le_refl _
  | ask =>
    show _ ≤ (o.inquiries ++ [Inquiry.begun]).length
    rw [List.length_append]
    exact Nat.le_add_right _ _
  | look index =>
    show _ ≤ (o.inquiries.modify index _).length
    exact Nat.le_of_eq (List.length_modify ..).symm

/-- An index that somebody has asked under stays theirs. -/
private theorem length_inquiries_run (o : ObservedCache) (events : List ObservedEvent) :
    o.inquiries.length ≤ (o.run events).inquiries.length := by
  induction events generalizing o with
  | nil => exact Nat.le_refl _
  | cons event events ih => exact Nat.le_trans (length_inquiries_step o event) (ih _)

-- ============================================================= answers

/-- The cache had this state at an instant at which the inquiry had begun
and was not answered yet. -/
def HadWhileOpen (o : ObservedCache) (events : List ObservedEvent) (index : Nat)
    (state : CacheState) : Prop :=
  ∃ before, before <+: events
    ∧ (∃ inquiry, (o.run before).inquiries[index]? = some inquiry
      ∧ ∀ answer, inquiry ≠ .answered answer)
    ∧ (o.run before).cache.state = state

/-- What was so at an instant stays so of that instant. -/
theorem HadWhileOpen.append (h : o.HadWhileOpen events index state) (later : List ObservedEvent) :
    o.HadWhileOpen (events ++ later) index state := by
  obtain ⟨before, hbefore, hopen, hstate⟩ := h
  exact ⟨before, hbefore.trans (List.prefix_append events later), hopen, hstate⟩

/-- What is known of an inquiry after some events. -/
def Explains (o : ObservedCache) (events : List ObservedEvent) (index : Nat) : Inquiry → Prop
  | .begun => True
  | .looked true => (o.run events).cache.current.isSome = true
  | .looked false => o.HadWhileOpen events index .empty
  | .answered state => o.HadWhileOpen events index state

/-- What an inquiry has seen stays known whatever happens. -/
theorem Explains.concat (h : o.Explains events index inquiry) (event : ObservedEvent) :
    o.Explains (events ++ [event]) index inquiry := by
  cases inquiry with
  | begun => trivial
  | looked isServing =>
    cases isServing with
    | false => exact HadWhileOpen.append h [event]
    | true =>
      show (o.run (events ++ [event])).cache.current.isSome = true
      rw [run_concat]
      exact isServing_step h event
  | answered state => exact HadWhileOpen.append h [event]

/-- A look explains what it is taken to. -/
theorem Explains.look (h : o.Explains events index inquiry)
    (asked : (o.run events).inquiries[index]? = some inquiry) :
    o.Explains (events ++ [.look index]) index (inquiry.look (o.run events).cache) := by
  have hnow (state : CacheState) (hopen : ∀ answer, inquiry ≠ .answered answer)
      (hstate : (o.run events).cache.state = state) :
      o.HadWhileOpen (events ++ [.look index]) index state :=
    ⟨events, List.prefix_append _ _, ⟨inquiry, asked, hopen⟩, hstate⟩
  cases inquiry with
  | begun =>
    unfold Inquiry.look
    cases hserving : (o.run events).cache.current.isSome with
    | false => exact hnow .empty nofun (Cache.state_eq_empty_iff.mpr hserving)
    | true =>
      have hlooked : o.Explains events index (.looked true) := hserving
      exact hlooked.concat (.look index)
  | looked isServing =>
    cases isServing with
    | false => exact HadWhileOpen.append h _
    -- the first look is still right, so both were taken of this cache
    | true => exact hnow _ nofun (Cache.state_of_serving h)
  | answered state => exact HadWhileOpen.append h _

/-- Every inquiry is explained, however the looks are interleaved with
what others do. -/
theorem explains_run (session : CacheSession) (events : List ObservedEvent)
    (h : ((unasked session).run events).inquiries[index]? = some inquiry) :
    (unasked session).Explains events index inquiry := by
  -- Events are added at the end, where the run is: a look is explained by what the cache is
  -- at that instant, which is the run so far.
  induction events using List.reverseRecOn generalizing inquiry with
  | nil => cases h
  | append_singleton events event ih =>
    rw [run_concat] at h
    cases event with
    | use operation => exact (ih h).concat _
    | ask =>
      have hall : (((unasked session).run events).inquiries ++ [Inquiry.begun])[index]?
          = some inquiry := h
      rw [List.getElem?_append] at hall
      split at hall
      next => exact (ih hall).concat _
      next =>
        rw [List.mem_singleton.mp (List.mem_of_getElem? hall)]
        trivial
    | look other =>
      rw [inquiries_look] at h
      obtain ⟨earlier, hearlier, hlooked⟩ := Option.map_eq_some_iff.mp h
      -- a look by somebody else is a step like any other
      split at hlooked
      next hsame =>
        subst hsame hlooked
        exact (ih hearlier).look hearlier
      next =>
        subst hlooked
        exact (ih hearlier).concat _

/-- An answer is a state that the cache had while it was being asked. -/
theorem hadWhileOpen_of_answered
    (h : ((unasked session).run events).inquiries[index]? = some (.answered state)) :
    (unasked session).HadWhileOpen events index state :=
  explains_run session events h

-- ============================================================ progress

/-- Nobody who asks loses a look. -/
private theorem looksTaken_step (h : o.inquiries[index]? = some inquiry) (event : ObservedEvent) :
    ∃ after, (o.step event).inquiries[index]? = some after
      ∧ inquiry.looksTaken ≤ after.looksTaken := by
  obtain ⟨hindex, -⟩ := List.getElem?_eq_some_iff.mp h
  cases event with
  | use operation => exact ⟨inquiry, h, Nat.le_refl _⟩
  | ask => exact ⟨inquiry, (List.getElem?_append_left hindex).trans h, Nat.le_refl _⟩
  | look other =>
    rw [inquiries_look, h]
    refine ⟨_, rfl, ?_⟩
    split
    · rw [Inquiry.looksTaken_look]
      have hbound := inquiry.looksTaken_le
      omega
    · exact Nat.le_refl _

/-- Nobody takes looks back over a whole run. -/
private theorem looksTaken_run (h : o.inquiries[index]? = some inquiry)
    (events : List ObservedEvent) :
    ∃ after, (o.run events).inquiries[index]? = some after
      ∧ inquiry.looksTaken ≤ after.looksTaken := by
  induction events generalizing o inquiry with
  | nil => exact ⟨inquiry, h, Nat.le_refl _⟩
  | cons event events ih =>
    obtain ⟨next, hnext, hfirst⟩ := looksTaken_step h event
    obtain ⟨after, hafter, hrest⟩ := ih hnext
    exact ⟨after, hafter, Nat.le_trans hfirst hrest⟩

/-- Two looks are enough for an answer, whatever happens meanwhile. -/
theorem exists_answer_of_two_looks (h : index < o.inquiries.length)
    (between after : List ObservedEvent) :
    ∃ state, (o.run (.look index :: (between ++ .look index :: after))).inquiries[index]?
      = some (.answered state) := by
  have hfirst : (o.step (.look index)).inquiries[index]?
      = some (o.inquiries[index].look o.cache) := by
    rw [inquiries_look, List.getElem?_eq_getElem h, Option.map_some, if_pos rfl]
  obtain ⟨looked, hlooked, hone⟩ := looksTaken_run hfirst between
  have hsecond : (((o.step (.look index)).run between).step (.look index)).inquiries[index]?
      = some (looked.look ((o.step (.look index)).run between).cache) := by
    rw [inquiries_look, hlooked, Option.map_some, if_pos rfl]
  -- one look before, one now, and none is lost afterwards
  obtain ⟨last, hlast, htwo⟩ := looksTaken_run hsecond after
  rw [Inquiry.looksTaken_look] at hone htwo
  obtain ⟨state, rfl⟩ := Inquiry.exists_answer_of_looksTaken (show 2 ≤ last.looksTaken by omega)
  refine ⟨state, ?_⟩
  rw [← hlast]
  show (((o.step (.look index)).run (between ++ .look index :: after))).inquiries[index]? = _
  rw [run_append]
  rfl

/-- With nobody in between they see one cache. -/
theorem answer_of_looks_at_once (o : ObservedCache) :
    (o.run [.ask, .look o.inquiries.length, .look o.inquiries.length]).inquiries[
        o.inquiries.length]? = some (.answered o.cache.state) := by
  have hasked : (o.step .ask).inquiries[o.inquiries.length]? = some .begun :=
    List.getElem?_concat_length
  have hlooked := inquiries_look (o.step .ask) o.inquiries.length o.inquiries.length
  rw [hasked, Option.map_some, if_pos rfl] at hlooked
  show (((o.step .ask).step (.look _)).step (.look _)).inquiries[_]? = _
  rw [inquiries_look, hlooked, Option.map_some, if_pos rfl]
  exact congrArg some (Inquiry.look_look_begun o.cache)

-- ============================================================= verdict

/-- An answer that tells of something to serve is never taken back: what
is served at its time is served at every later one. -/
theorem isServing_of_answered
    (h : ((unasked session).run events).inquiries[index]? = some (.answered state))
    (hserving : state ≠ .empty) : ((unasked session).run events).cache.current.isSome = true := by
  obtain ⟨before, ⟨after, rfl⟩, -, hstate⟩ := hadWhileOpen_of_answered h
  rw [run_append]
  apply isServing_run
  rw [← Bool.not_eq_false, ← Cache.state_eq_empty_iff, hstate]
  exact hserving

/-- Whoever asks a cache for its state, in two looks between which anybody
may do anything, is told what was so at one instant between the beginning
and the end of the inquiry: empty if no generation was served then, else
rebuilding if the cache was claimed then, else ready. Whoever begins to
ask after somebody was told that there is something to serve is not told
that there is nothing. Two looks always bring an answer, and without
anybody in between it is what is so now. -/
theorem answers_were_true (session : CacheSession) (events : List ObservedEvent) :
    let o := (unasked session).run events
    (∀ (index : Nat) (state : CacheState), o.inquiries[index]? = some (.answered state) →
        ∃ before after, events = before ++ after
          ∧ (∃ inquiry, ((unasked session).run before).inquiries[index]? = some inquiry
            ∧ ∀ answer, inquiry ≠ .answered answer)
          ∧ state = if ((unasked session).run before).cache.current = none then .empty
            else if ((unasked session).run before).cache.rebuilding = true then .rebuilding
            else .ready)
      ∧ (∀ (first : Nat) (told : CacheState), o.inquiries[first]? = some (.answered told) →
        told ≠ .empty → ∀ (later : List ObservedEvent) (second : Nat) (state : CacheState),
          o.inquiries.length ≤ second →
          (o.run later).inquiries[second]? = some (.answered state) → state ≠ .empty)
      ∧ (∀ index < o.inquiries.length, ∀ between after : List ObservedEvent, ∃ state,
        (o.run (.look index :: (between ++ .look index :: after))).inquiries[index]?
          = some (.answered state))
      ∧ (o.run [.ask, .look o.inquiries.length, .look o.inquiries.length]).inquiries[
        o.inquiries.length]? = some (.answered (if o.cache.current = none then .empty
          else if o.cache.rebuilding = true then .rebuilding else .ready)) := by
  intro o
  rw [← Cache.state_eq]
  refine ⟨?past, ?lasting, fun _ => exists_answer_of_two_looks, answer_of_looks_at_once o⟩
  case past =>
    intro index state h
    obtain ⟨before, ⟨after, hevents⟩, hopen, hstate⟩ := hadWhileOpen_of_answered h
    exact ⟨before, after, hevents.symm, hopen, hstate.symm.trans (Cache.state_eq _)⟩
  case lasting =>
    intro first told htold hserving later second state hnew h
    change ((unasked session).run events).inquiries.length ≤ second at hnew
    have hall : o.run later = (unasked session).run (events ++ later) :=
      (run_append _ events later).symm
    rw [hall] at h
    obtain ⟨before, hbefore, ⟨inquiry, hasked, -⟩, hstate⟩ := hadWhileOpen_of_answered h
    -- the second inquiry had begun by then, so that instant is past all of `events`
    have hlater : events <+: before := by
      rcases List.prefix_or_prefix_of_prefix (List.prefix_append events later) hbefore with
        hpast | ⟨rest, rfl⟩
      · exact hpast
      · obtain ⟨hindex, -⟩ := List.getElem?_eq_some_iff.mp hasked
        have hgrown := length_inquiries_run ((unasked session).run before) rest
        rw [← run_append] at hgrown
        omega
    obtain ⟨more, rfl⟩ := hlater
    rw [run_append] at hstate
    rintro rfl
    have hnone := Cache.state_eq_empty_iff.mp hstate
    rw [isServing_run (isServing_of_answered htold hserving) more] at hnone
    cases hnone

/-- One inquiry that begins before there is something to serve and ends
after it, and one during which the cache is claimed. -/
def slowInquiries : List ObservedEvent :=
  [.ask, .look 0, .use (.install ⟨[[1]], ⟨0⟩⟩), .look 0, .ask, .look 1, .use .claim, .look 1]

theorem answers_were_true_slowInquiries :
    let o := (unasked .new).run slowInquiries
    (o.inquiries = [.answered .empty, .answered .rebuilding] ∧ o.cache.rebuilding = true)
      ∧ (∃ before after, slowInquiries = before ++ after
        ∧ (∃ inquiry, ((unasked .new).run before).inquiries[0]? = some inquiry
          ∧ ∀ answer, inquiry ≠ .answered answer)
        ∧ .empty = if ((unasked .new).run before).cache.current = none then CacheState.empty
          else if ((unasked .new).run before).cache.rebuilding = true then .rebuilding
          else .ready)
      ∧ (∀ state, (o.run [.use .release, .ask, .look 2, .look 2]).inquiries[2]?
          = some (.answered state) → state ≠ .empty)
      ∧ ∃ state, (o.run [.ask, .look 2, .use .release, .look 2]).inquiries[2]?
        = some (.answered state) := by
  intro o
  have htold : o.inquiries = [.answered .empty, .answered .rebuilding] := by decide
  obtain ⟨hpast, hlasting, -, -⟩ := answers_were_true .new slowInquiries
  obtain ⟨-, -, hanswered, -⟩ := answers_were_true .new (slowInquiries ++ [.ask])
  refine ⟨⟨htold, by decide⟩, hpast 0 .empty (by decide), ?_, ?_⟩
  · intro state
    exact hlasting 1 .rebuilding (by decide) (by decide) _ 2 state (by decide)
  · exact hanswered 2 (by decide) [.use .release] []

end ObservedCache

end RouterSeed

/-
Every bundle that is handed out is a good one.

The cache says nothing about what is in it. What is known of a bundle is
known where it is built, and this file carries that knowledge to where
the bundle is looked up, over all rebuilds of a service and whatever
happens between their steps:

- a rebuild has only bundles that were built from what it read itself
  (`Attempt.Sound`), which one step preserves (`Attempt.sound_reached`);
- what is served was put there by a rebuild whose outcome says so
  (`Service.Sound`), which one event preserves (`Service.sound_serve`)
  and so a whole schedule (`sound_serveAll`).

`lookup_isGoodBundle` then meets the bundle in that rebuild. It says
nothing about when a rebuild succeeds: rebuilds that fail, are told to
stop or break down are schedules like any other.
-/
import RouterSeed.Proofs.Bundle.Signed
import RouterSeed.Proofs.Server.Steps

namespace RouterSeed

variable {s : Server}

-- ========================================================= one rebuild

/-- What a rebuild has was built from what it read, and that is one of
the scans. -/
structure Attempt.Sound (s : Server) (scanned : List RouterInfo → Prop) (a : Attempt) : Prop where
  reads : ∀ infos, a.phase.infos? = some infos → a.read = some infos
  scanned : ∀ infos, a.read = some infos → scanned infos
  builds : ∀ bundle ∈ a.phase.bundles, ∃ infos, a.read = some infos ∧ s.Builds infos bundle

/-- Before it does anything a rebuild has nothing. -/
private theorem Attempt.sound_new (scanned : List RouterInfo → Prop) (shutdown : Shutdown) :
    (Attempt.new shutdown).Sound s scanned where
  reads := nofun
  scanned := nofun
  builds := nofun

/-- A rebuild that works on descriptors has read them. -/
private theorem Attempt.read_reached_of_infos? {a : Attempt} {r : Rebuild} {infos : List RouterInfo}
    (h : r.phase.infos? = some infos) : (a.reached r).read = some infos := by
  unfold reached
  dsimp only
  rw [h]

/-- An attempt reads its records once. -/
private theorem Attempt.read_reached_of_infos?_none {a : Attempt} {r : Rebuild}
    (h : r.phase.infos? = none) : (a.reached r).read = a.read := by
  unfold reached
  dsimp only
  rw [h]

/-- What was read stays read: nothing leads back to where the netDb is
read. -/
private theorem Attempt.read_reached {scanned : List RouterInfo → Prop} {a : Attempt}
    (h : a.Sound s scanned) {session : CacheSession} {event : RebuildEvent}
    (past : a.phase ≠ .claimed) {infos : List RouterInfo} (hread : a.read = some infos) :
    (a.reached (s.step (a.on session) event)).read = some infos := by
  cases hinfos : (s.step (a.on session) event).phase.infos? with
  | none => rw [read_reached_of_infos?_none hinfos, hread]
  | some other =>
    rcases Server.infos?_step hinfos with hsame | ⟨hclaimed, -⟩
    · rw [read_reached_of_infos? hinfos, ← h.reads other hsame, hread]
    · exact absurd hclaimed past

/-- A step keeps a rebuild sound, if what it scans is one of the scans. -/
private theorem Attempt.sound_reached {scanned : List RouterInfo → Prop} {a : Attempt}
    (h : a.Sound s scanned) (session : CacheSession) {event : RebuildEvent}
    (scans : ∀ tree now infos, event = .scan tree now → s.netDb.scan tree now = .ok infos →
      scanned infos) :
    (a.reached (s.step (a.on session) event)).Sound s scanned := by
  constructor
  case reads =>
    intro infos hinfos
    exact read_reached_of_infos? hinfos
  case scanned =>
    intro infos hread
    cases hinfos : (s.step (a.on session) event).phase.infos? with
    | none =>
      rw [read_reached_of_infos?_none hinfos] at hread
      exact h.scanned infos hread
    | some other =>
      rw [read_reached_of_infos? hinfos] at hread
      cases hread
      rcases Server.infos?_step hinfos with hsame | ⟨-, tree, now, hevent, hscan⟩
      · exact h.scanned infos (h.reads infos hsame)
      · exact scans tree now infos hevent hscan
  -- A bundle is older than the step, or it was built in it from what the scan had read.
  case builds =>
    intro bundle hbundle
    rcases Server.bundles_step hbundle with hold | ⟨infos, hinfos, hbuilds⟩
    · obtain ⟨infos, hread, hbuilds⟩ := h.builds bundle hold
      refine ⟨infos, read_reached h ?_ hread, hbuilds⟩
      intro hclaimed
      rw [show (a.on session).phase = .claimed from hclaimed] at hold
      cases hold
    · refine ⟨infos, read_reached h ?_ (h.reads infos hinfos), hbuilds⟩
      intro hclaimed
      rw [show (a.on session).phase = .claimed from hclaimed] at hinfos
      cases hinfos

-- ========================================================= the service

/-- All rebuilds are sound, and what is served was put there by one of
them. -/
structure Service.Sound (s : Server) (scanned : Nat → List RouterInfo → Prop) (v : Service) :
    Prop where
  attempts : ∀ (index : Nat) (a : Attempt), v.attempts[index]? = some a →
    a.Sound s (scanned index)
  current : ∀ generation, v.session.cache.current = some generation →
    ∃ (index : Nat) (a : Attempt), v.attempts[index]? = some a
      ∧ a.phase.outcome? = some (.installed generation)

namespace Service

variable {scanned : Nat → List RouterInfo → Prop} {v : Service}

private theorem sound_new (s : Server) (scanned : Nat → List RouterInfo → Prop) :
    Service.new.Sound s scanned where
  attempts := nofun
  current := nofun

/-- Starting a rebuild leaves the others where they are. -/
private theorem sound_start (h : v.Sound s scanned) (shutdown : Shutdown) :
    (s.serve v (.start shutdown)).Sound s scanned := by
  constructor
  case attempts =>
    intro index a ha
    have hall : (v.attempts ++ [Attempt.new shutdown])[index]? = some a := ha
    rw [List.getElem?_append] at hall
    split at hall
    · exact h.attempts index a hall
    · rw [List.mem_singleton.mp (List.mem_of_getElem? hall)]
      exact Attempt.sound_new _ shutdown
  case current =>
    intro generation hcurrent
    obtain ⟨index, a, ha, houtcome⟩ := h.current generation hcurrent
    obtain ⟨hindex, -⟩ := List.getElem?_eq_some_iff.mp ha
    exact ⟨index, a, (List.getElem?_append_left hindex).trans ha, houtcome⟩

/-- A user who installs nothing leaves what is served. -/
private theorem sound_use (h : v.Sound s scanned) {operation : CacheOperation}
    (own : (ServiceEvent.use operation).isForeignInstall = false) :
    (s.serve v (.use operation)).Sound s scanned := by
  have hcurrent : (v.session.step operation).2.cache.current = v.session.cache.current := by
    apply CacheSession.current_step_of_ne_install
    rintro generation rfl
    cases own
  constructor
  case attempts => exact h.attempts
  case current =>
    intro generation hgeneration
    exact h.current generation (hcurrent.symm.trans hgeneration)

/-- A step of a rebuild keeps the rebuild sound, and what is served
afterwards is what was served before or what the rebuild installs. -/
private theorem sound_advance (h : v.Sound s scanned) {index : Nat} {event : RebuildEvent}
    (own : event.isForeignInstall = false)
    (scans : ∀ tree now infos, event = .scan tree now → s.netDb.scan tree now = .ok infos →
      scanned index infos) :
    (s.serve v (.advance index event)).Sound s scanned := by
  unfold Server.serve
  dsimp only
  cases hattempt : v.attempts[index]? with
  | none => exact h
  | some attempt =>
    obtain ⟨hindex, -⟩ := List.getElem?_eq_some_iff.mp hattempt
    have hself : (v.attempts.set index
        (attempt.reached (s.step (attempt.on v.session) event)))[index]?
        = some (attempt.reached (s.step (attempt.on v.session) event)) :=
      List.getElem?_set_self hindex
    constructor
    case attempts =>
      intro other a ha
      -- the attempt that moved is sound by its own step; the others are as they were
      by_cases hother : index = other
      · subst hother
        rw [hself] at ha
        cases ha
        exact Attempt.sound_reached (h.attempts index attempt hattempt) v.session scans
      · rw [List.getElem?_set_ne hother] at ha
        exact h.attempts other a ha
    case current =>
      intro generation hgeneration
      -- the current generation is the old one, or the one this attempt has just installed
      rcases Server.current_step (s := s) (r := attempt.on v.session) own with
        hsame | ⟨installed, -, hphase, hcurrent⟩
      · obtain ⟨other, a, ha, houtcome⟩ := h.current generation (hsame.symm.trans hgeneration)
        by_cases hother : index = other
        · subst hother
          rw [hattempt] at ha
          cases ha
          exact ⟨index, _, hself, Server.outcome?_step houtcome event⟩
        · exact ⟨other, a, (List.getElem?_set_ne hother).trans ha, houtcome⟩
      · cases hcurrent.symm.trans hgeneration
        refine ⟨index, _, hself, ?_⟩
        unfold Attempt.reached
        dsimp only
        rw [hphase]
        rfl

/-- An event keeps a service sound, if nobody else fills its cache. -/
private theorem sound_serve (h : v.Sound s scanned) {event : ServiceEvent}
    (own : event.isForeignInstall = false)
    (scans : ∀ index tree now infos, event = .advance index (.scan tree now) →
      s.netDb.scan tree now = .ok infos → scanned index infos) :
    (s.serve v event).Sound s scanned := by
  cases event with
  | start shutdown => exact sound_start h shutdown
  | use operation => exact sound_use h own
  | advance index event =>
    refine sound_advance h own ?_
    rintro tree now infos rfl hscan
    exact scans index tree now infos rfl hscan

/-- Events in order keep what a service has made sound. -/
private theorem sound_foldl (h : v.Sound s scanned) {schedule : List ServiceEvent}
    (own : ∀ event ∈ schedule, event.isForeignInstall = false)
    (scans : ∀ event ∈ schedule, ∀ index tree now infos,
      event = .advance index (.scan tree now) → s.netDb.scan tree now = .ok infos →
        scanned index infos) :
    (schedule.foldl s.serve v).Sound s scanned := by
  induction schedule generalizing v with
  | nil => exact h
  | cons event schedule ih =>
    refine ih ?_ ?_ ?_
    · exact sound_serve h (own event List.mem_cons_self) (scans event List.mem_cons_self)
    · exact fun later hlater => own later (List.mem_cons_of_mem event hlater)
    · exact fun later hlater => scans later (List.mem_cons_of_mem event hlater)

end Service

-- ========================================================== the bundles

/-- A rebuild of the schedule reads the netDb and finds the descriptors. -/
def Server.Scans (s : Server) (schedule : List ServiceEvent) (index : Nat)
    (infos : List RouterInfo) : Prop :=
  ∃ tree now, ServiceEvent.advance index (.scan tree now) ∈ schedule
    ∧ s.netDb.scan tree now = .ok infos

/-- Whatever the schedule, what a service has made is sound if nobody else
installs. -/
private theorem Service.sound_serveAll {schedule : List ServiceEvent}
    (own : ∀ event ∈ schedule, event.isForeignInstall = false) :
    (s.serveAll schedule).Sound s (s.Scans schedule) := by
  refine sound_foldl (sound_new s _) own ?_
  rintro _ hmem index tree now infos rfl hscan
  exact ⟨tree, now, hmem, hscan⟩

/-- A bundle that is handed out belongs to what is served. -/
private theorem Cache.mem_of_lookup {c : Cache} {peer : Peer} {bundle : Bytes}
    (h : c.lookup peer = .ok bundle) :
    ∃ generation, c.current = some generation ∧ bundle ∈ generation.bundles := by
  unfold lookup at h
  split at h
  next found hfound =>
    cases h
    obtain ⟨generation, hcurrent, hbundle⟩ := Option.bind_eq_some_iff.mp hfound
    unfold Generation.bundleFor? at hbundle
    split at hbundle
    · cases hbundle
    · exact ⟨generation, hcurrent, List.mem_of_getElem? hbundle⟩
  next => cases h

/-- Whatever a peer is handed is a good bundle: of the server's identity,
under the configured signature type, with descriptors that the rebuild
which installed it had read. That holds after every schedule of rebuilds
and lookups in which nobody else fills the cache, for a key whose
signatures verify, samples that survive their archive, and a bundle that
64 bits can count the bytes of, as they can for any in memory. -/
theorem lookup_isGoodBundle (s : Server) (schedule : List ServiceEvent) (peer : Peer)
    (bundle : Bytes) (canonical : s.config.signatureType.Canonical)
    (own : ∀ event ∈ schedule, event.isForeignInstall = false)
    (signs : ∀ identity, s.identity = some identity →
      Su3.VerifiesOwn identity.key s.config.signatureType)
    (unzips : ∀ index infos draws, s.Scans schedule index infos →
      UnzipsBack (sampleSeeds infos s.config.infosPerBundle draws))
    (memory : bundle.length < 2 ^ 64)
    (found : (s.serveAll schedule).lookup peer = .ok bundle) :
    ∃ (index : Nat) (attempt : Attempt) (generation : Generation) (infos : List RouterInfo)
        (identity : SigningIdentity) (file : Su3.File),
      (s.serveAll schedule).attempts[index]? = some attempt
        ∧ attempt.phase.outcome? = some (.installed generation)
        ∧ (s.serveAll schedule).session.cache.current = some generation
        ∧ bundle ∈ generation.bundles
        ∧ attempt.read = some infos
        ∧ s.Scans schedule index infos
        ∧ s.identity = some identity
        ∧ IsGoodBundle infos s.config.infosPerBundle identity s.config.signatureType bundle
            file := by
  have hsound := Service.sound_serveAll (s := s) own
  -- From the bundle back to its generation, to the attempt that installed it, and to what
  -- that attempt had read.
  obtain ⟨generation, hcurrent, hbundle⟩ := Cache.mem_of_lookup found
  obtain ⟨index, attempt, hattempt, houtcome⟩ := hsound.current generation hcurrent
  have hmade := hsound.attempts index attempt hattempt
  have hinstalled : bundle ∈ attempt.phase.bundles := by
    rw [RebuildPhase.bundles_of_outcome? houtcome]
    exact hbundle
  obtain ⟨infos, hread, identity, inputs, hidentity, hencoded⟩ := hmade.builds bundle hinstalled
  have hscans := hmade.scanned infos hread
  obtain ⟨file, hgood⟩ := isGoodBundle_of_encodedBundle hencoded canonical
    (signs identity hidentity) (unzips index infos inputs.draws hscans) memory
  exact ⟨index, attempt, generation, infos, identity, file, hattempt, houtcome, hcurrent, hbundle,
    hread, hscans, hidentity, hgood⟩

-- ======================================================= a small service

/-- An identity with a small key. Its certificate plays no part in what
it signs. -/
def smallIdentity : SigningIdentity where
  signerId := "a@b"
  key := .dsa Su3.smallKey
  certificate :=
    { body :=
        { version := .v1
          serial := [1]
          algorithm := ⟨⟨[]⟩, none⟩
          issuer := []
          validity := ⟨⟨.utc, ⟨1970, 1, 1, 0, 0, 0⟩⟩, ⟨.utc, ⟨1970, 1, 1, 0, 0, 0⟩⟩⟩
          subject := []
          subjectKey := ⟨⟨⟨[]⟩, none⟩, ⟨0, []⟩⟩
          issuerId := none
          subjectId := none
          extensions := none }
      algorithm := ⟨⟨[]⟩, none⟩
      signature := ⟨0, []⟩ }

/-- A server of one bundle with one descriptor. -/
def smallServer : Server where
  config :=
    { Config.default with
      netDb := "db"
      infosPerBundle := 1
      bundleCount := 1
      signatureType := .dsaSha1 }
  identity := some smallIdentity

/-- A netDb of two descriptors. -/
def smallTree : FileTree where
  nodes :=
    [(["db"], .directory),
      (["db", "routerInfo-a.dat"], .file [1, 2] 0o644 ⟨0⟩),
      (["db", "routerInfo-b.dat"], .file [3] 0o644 ⟨0⟩)]
  workingDirectory := []

def smallInfos : List RouterInfo :=
  [⟨"routerInfo-a.dat", ⟨0⟩, [1, 2]⟩, ⟨"routerInfo-b.dat", ⟨0⟩, [3]⟩]

/-- A rebuild that succeeds while another one finds the cache claimed, and
a third one that is told to stop before it has built anything. -/
def smallSchedule : List ServiceEvent :=
  [.start .silent, .advance 0 .begin, .advance 0 (.scan smallTree ⟨0⟩),
    .start .silent, .advance 1 .begin,
    .advance 0 (.build 0 ⟨7, fun _ => 1, fun i => i⟩), .use (.lookup ⟨"p"⟩),
    .advance 0 .conclude, .advance 0 (.install ⟨0⟩), .advance 0 .release,
    .start .sent, .advance 2 .begin, .advance 2 (.scan smallTree ⟨0⟩),
    .advance 2 (.build 0 ⟨8, fun _ => 0, fun i => i⟩)]

/-- Everybody gets the only bundle of a generation. -/
private theorem Cache.lookup_of_singleton {c : Cache} {generation : Generation} {bundle : Bytes}
    (current : c.current = some generation) (single : generation.bundles = [bundle])
    (peer : Peer) : c.lookup peer = .ok bundle := by
  have hslot : peer.slot [bundle].length = 0 :=
    Nat.lt_one_iff.mp (peer.slot_lt Nat.one_pos)
  unfold lookup
  rw [current, Option.bind_some]
  unfold Generation.bundleFor?
  rw [single, hslot]
  rfl

/-- In the small schedule every scan finds the same records. -/
private theorem eq_smallInfos_of_scans {index : Nat} {infos : List RouterInfo}
    (h : smallServer.Scans smallSchedule index infos) : infos = smallInfos := by
  obtain ⟨tree, now, hmem, hscan⟩ := h
  have hread : tree = smallTree ∧ now = ⟨0⟩ := by
    simp only [smallSchedule, List.mem_cons, List.not_mem_nil, ServiceEvent.advance.injEq,
      RebuildEvent.scan.injEq, reduceCtorEq, and_false, or_false, false_or] at hmem
    rcases hmem with hfirst | hthird
    · exact hfirst.2
    · exact hthird.2
  obtain ⟨rfl, rfl⟩ := hread
  have hinfos : (smallServer.netDb.scan smallTree ⟨0⟩).toOption = some smallInfos := by
    decide +kernel
  rw [hscan] at hinfos
  exact Option.some.inj hinfos

private theorem unzipsBack_smallInfos : ∀ i : Fin smallInfos.length, UnzipsBack
    [smallInfos.get i] := by
  decide +kernel

/-- A small server that was asked once its rebuild had ended. -/
theorem lookup_isGoodBundle_smallSchedule :
    ∃ bundle, (smallServer.serveAll smallSchedule).lookup ⟨"p"⟩ = .ok bundle
      ∧ ∃ file, IsGoodBundle smallInfos 1 smallIdentity .dsaSha1 bundle file := by
  have hserved : ((smallServer.serveAll smallSchedule).session.cache.current.map fun generation =>
      generation.bundles.map List.length) = some [203] := by
    decide +kernel
  obtain ⟨generation, hcurrent, hlengths⟩ := Option.map_eq_some_iff.mp hserved
  obtain ⟨bundle, hbundles, hlength⟩ := List.map_eq_singleton_iff.mp hlengths
  have hfound : (smallServer.serveAll smallSchedule).lookup ⟨"p"⟩ = .ok bundle :=
    Cache.lookup_of_singleton hcurrent hbundles _
  have hunzips : ∀ index infos draws, smallServer.Scans smallSchedule index infos →
      UnzipsBack (sampleSeeds infos 1 draws) := by
    intro index infos draws hscans
    rw [eq_smallInfos_of_scans hscans]
    obtain ⟨positions, -, hlength, hsample⟩ := sampleSeeds_positions smallInfos 1 draws
    obtain ⟨i, rfl⟩ := List.length_eq_one_iff.mp hlength
    rw [hsample]
    exact unzipsBack_smallInfos i
  have hsigns : ∀ identity, smallServer.identity = some identity →
      Su3.VerifiesOwn identity.key .dsaSha1 := by
    intro identity hidentity
    cases hidentity
    exact Su3.verifiesOwn_smallKey
  obtain ⟨index, attempt, _, infos, identity, file, -, -, -, -, -, hscans, hidentity, hgood⟩ :=
    lookup_isGoodBundle smallServer smallSchedule ⟨"p"⟩ bundle rfl (by decide +kernel) hsigns hunzips
      (by rw [hlength]; decide) hfound
  cases hidentity
  rw [eq_smallInfos_of_scans hscans] at hgood
  exact ⟨bundle, hfound, file, hgood⟩

end RouterSeed

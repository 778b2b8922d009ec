import Mathlib.Data.List.Nodup
import SwarmAutoscaler.Cluster.Deployment
import SwarmAutoscaler.Cluster.Rounds

/-! Several managers. Each has a keep-alive table of its own, and which of them handles a
request depends on the node it comes from. -/
namespace Cluster

open Docker Process

/-- The hostnames and IPs under `managers` and `workers`. -/
structure Config where
  managers : List (String × String)
  workers : List (String × String)
  keepAlive : Nat := 5

/-- The order of the entries is the order in which Go goes through the maps. -/
def createswarmNodeInfo (config : Config) (hostname : String) : SwarmNodeInfo where
  autoscalerManager := (config.managers.lookup hostname).isSome
  otherNodes :=
    (config.managers.filter fun entry => entry.1 ≠ hostname).map (fun entry => ⟨entry.1, entry.2, true⟩) ++
      config.workers.map fun entry => ⟨entry.1, entry.2, false⟩
  keepAlive := config.keepAlive

/-- Every node has read the configuration, each in an order of its own. -/
structure Configured (nodes : Nodes) (config : Config) : Prop where
  managed : config.managers ≠ []
  ips : nodes.ips = (config.managers ++ config.workers).map Prod.snd
  read : ∀ entry ∈ config.managers ++ config.workers, ∃ managers workers, managers.Perm config.managers ∧
    workers.Perm config.workers ∧ nodes.info entry.2 =
      createswarmNodeInfo ⟨managers, workers, config.keepAlive⟩ entry.1

/-- The manager that handles what the monitors of a node report. -/
def handler (nodes : Nodes) (origin : String) : String :=
  if (nodes.info origin).autoscalerManager then origin else managerAddress (nodes.info origin).otherNodes

/-- Requests come from the nodes and go where these send them, timers fire. -/
def Reported (nodes : Nodes) (_ : Series) (round : Round) : Prop :=
  match round.task with
  | .request ip direction =>
      (∃ origin ∈ nodes.ips, ip = handler nodes origin) ∧ nodes.serves ip .scale = true ∧
        (direction = "over" ∨ direction = "under")
  | .timer _ => True
  | .packet _ _ => False

/-- An "over" request has returned success since the goroutine was started. -/
def Superseded (s : Series) (keepAlive : KeepAlive) : Prop :=
  ∃ later ip, keepAlive.ch < later ∧ s.past[later]? = some (.request ip "over", .ok ())

/-- On its way the round asks Docker for 0 replicas. -/
def PutsToSleep (nodes : Nodes) (serviceID : String) (s : Series) (round : Round) : Prop :=
  ∃ site version spec, round.task.start serviceID s.site = some site ∧
    Op.serviceUpdate serviceID version spec ∈
      (round.task.code nodes serviceID).performed (solo nodes s.past.length) round.fails 0 site ∧
    spec.replicas? = some 0

/-- No goroutine puts a service to sleep for which more replicas were asked since. -/
def Obeys (nodes : Nodes) (serviceID : String) (s : Series) (round : Round) : Prop :=
  ∀ keepAlive, round.task = .timer keepAlive → Superseded s keepAlive → ¬ PutsToSleep nodes serviceID s round

/-- Several managers behave like one. -/
def AlwaysObeyed : Prop :=
  ∀ (nodes : Nodes) (config : Config) (serviceID : String) (w : World) (rounds : List Round),
    Configured nodes config → (∀ key, w.keepAliveOps key = none) →
    (∀ service ∈ w.services serviceID, service.id = serviceID) →
    Meets (Series.step nodes serviceID) (Reported nodes) ⟨⟨w, []⟩, []⟩ rounds →
    Meets (Series.step nodes serviceID) (Obeys nodes serviceID) ⟨⟨w, []⟩, []⟩ rounds

/-- Two managers and a worker that finds the second manager first. -/
def trioConfig : Config where
  managers := [("host1", "manager"), ("host3", "second")]
  workers := [("host2", "worker")]

/-- A cluster with two managers, of which the worker's file names the second one first. -/
def trio : Nodes where
  ips := ["manager", "second", "worker"]
  info ip :=
    if ip = "manager" then createswarmNodeInfo trioConfig "host1"
    else if ip = "second" then createswarmNodeInfo trioConfig "host3"
    else createswarmNodeInfo { trioConfig with managers := trioConfig.managers.reverse } "host2"

theorem configured_trio : Configured trio trioConfig where
  managed := by decide
  ips := rfl
  read := by
    intro entry hEntry
    simp only [trioConfig, List.cons_append, List.nil_append, List.mem_cons, List.not_mem_nil, or_false] at hEntry
    rcases hEntry with rfl | rfl | rfl
    · exact ⟨_, _, .refl _, .refl _, rfl⟩
    · exact ⟨_, _, .refl _, .refl _, rfl⟩
    · exact ⟨_, _, List.reverse_perm _, .refl _, rfl⟩

/-- The first manager's own container is idle, the worker's is not, and then the timer of
the first manager fires. -/
def divided : List Round :=
  [{ task := .request "manager" "under" }, { task := .request "second" "over" },
    { task := .timer ⟨"manager", "web", 0⟩ }]

theorem not_alwaysObeyed : ¬ AlwaysObeyed := by
  intro h
  have hReported : Meets (Series.step trio "web") (Reported trio) ⟨⟨awake (web 1), []⟩, []⟩ divided := by
    refine ⟨⟨⟨"manager", by decide, rfl⟩, rfl, Or.inr rfl⟩, fun next hNext => ?_⟩
    cases hNext
    refine ⟨⟨⟨"worker", by decide, rfl⟩, rfl, Or.inl rfl⟩, fun next hNext => ?_⟩
    exact ⟨trivial, fun _ _ => trivial⟩
  have hObeys := h trio trioConfig "web" (awake (web 1)) divided configured_trio (fun _ => rfl)
    (fun service hStored => by cases hStored; rfl) hReported
  have hTimer := ((hObeys.2 _ rfl).2 _ rfl).1
  have hSuperseded := hTimer ⟨"manager", "web", 0⟩ rfl ⟨1, "second", by decide, rfl⟩
  exact hSuperseded ⟨_, 1, (web 0).spec, rfl, List.mem_of_getElem? (i := 11) rfl, rfl⟩

/-- No other manager has a goroutine waiting when a manager handles an "over" request. -/
def HandlesAlone (s : Series) (round : Round) : Prop :=
  ∀ ip, round.task = .request ip "over" → ∀ keepAlive ∈ s.site.waiting, keepAlive.ip = ip

section Invariant

variable {nodes : Nodes} {serviceID ip direction : String} {s t : Series} {round : Round} {before after mid : Site}
  {thread ch : Nat} {fails : Nat → Bool} {outcome : Outcome Site Result}

/-- What a round can do to the keep-alives. -/
inductive Changes (serviceID : String) (thread : Nat) (before after : Site) : Prop where
  | same (entries : after.world.keepAliveOps = before.world.keepAliveOps)
    (waiting : after.waiting = before.waiting)
  | started (ip : String) (free : before.world.keepAliveOps (ip, serviceID) = none)
      (entries : after.world.keepAliveOps = Function.update before.world.keepAliveOps (ip, serviceID)
        (some thread))
      (waiting : after.waiting = before.waiting ++ [⟨ip, serviceID, thread⟩])
  | cancelled (ip : String) (ch : Nat) (found : before.world.keepAliveOps (ip, serviceID) = some ch)
      (entries : after.world.keepAliveOps = Function.update before.world.keepAliveOps (ip, serviceID) none)
      (waiting : after.waiting = (before.receive ch).waiting)
  | aborted (keepAlive : KeepAlive) (entries : after.world.keepAliveOps = before.world.keepAliveOps)
      (waiting : after.waiting = before.waiting.erase keepAlive)
  | lapsed (keepAlive : KeepAlive) (mem : keepAlive ∈ before.waiting)
      (entries : after.world.keepAliveOps = Function.update before.world.keepAliveOps
        (keepAlive.ip, serviceID) none)
      (waiting : after.waiting = before.waiting.erase keepAlive)

/-- Every waiting goroutine has its entry and a channel of its own. -/
structure Tabled (serviceID : String) (next : Nat) (site : Site) : Prop where
  found : ∀ keepAlive ∈ site.waiting, site.world.keepAliveOps (keepAlive.ip, serviceID) = some keepAlive.ch
  early : ∀ keepAlive ∈ site.waiting, keepAlive.ch < next
  apart : (site.waiting.map KeepAlive.ch).Nodup

theorem Tabled.ch_ne (h : Tabled serviceID thread before) {keepAlive : KeepAlive}
    (hMem : keepAlive ∈ (before.receive ch).waiting) : keepAlive.ch ≠ ch := by
  have hApart := h.apart
  simp only [Site.receive] at hMem
  generalize before.waiting = waiting at hApart hMem
  induction waiting with
  | nil => cases hMem
  | cons head rest ih =>
      rw [List.map_cons, List.nodup_cons] at hApart
      by_cases hHead : head.ch = ch
      · rw [List.eraseP_cons_of_pos (by simpa using hHead)] at hMem
        intro hSame
        exact hApart.1 (List.mem_map.mpr ⟨keepAlive, hMem, hSame.trans hHead.symm⟩)
      · rw [List.eraseP_cons_of_neg (by simpa using hHead)] at hMem
        rcases List.mem_cons.mp hMem with rfl | hRest
        · exact hHead
        · exact ih hApart.2 hRest

/-- Goroutines end, and those that still wait have their entries. -/
theorem Tabled.fewer (h : Tabled serviceID thread before) (hFewer : after.waiting.Sublist before.waiting)
    (hFound : ∀ keepAlive ∈ after.waiting,
      after.world.keepAliveOps (keepAlive.ip, serviceID) = before.world.keepAliveOps (keepAlive.ip, serviceID)) :
    Tabled serviceID (thread + 1) after where
  found keepAlive hMem := (hFound keepAlive hMem).trans (h.found keepAlive (hFewer.subset hMem))
  early keepAlive hMem := Nat.lt_succ_of_lt (h.early keepAlive (hFewer.subset hMem))
  apart := h.apart.sublist (hFewer.map KeepAlive.ch)

theorem Tabled.more (h : Tabled serviceID thread before)
    (hFree : before.world.keepAliveOps (ip, serviceID) = none)
    (hEntries : after.world.keepAliveOps = Function.update before.world.keepAliveOps (ip, serviceID) (some thread))
    (hWaiting : after.waiting = before.waiting ++ [⟨ip, serviceID, thread⟩]) :
    Tabled serviceID (thread + 1) after := by
  have hOther (keepAlive : KeepAlive) (hMem : keepAlive ∈ before.waiting) :
      (keepAlive.ip, serviceID) ≠ (ip, serviceID) := by
    intro hSame
    have hFound := h.found keepAlive hMem
    rw [hSame, hFree] at hFound
    cases hFound
  constructor
  · rw [hEntries, hWaiting]
    intro keepAlive hMem
    rcases List.mem_append.mp hMem with hOld | hNew
    · rw [Function.update_of_ne (hOther keepAlive hOld)]
      exact h.found keepAlive hOld
    · rw [List.mem_singleton.mp hNew, Function.update_self]
  · rw [hWaiting]
    intro keepAlive hMem
    rcases List.mem_append.mp hMem with hOld | hNew
    · exact Nat.lt_succ_of_lt (h.early keepAlive hOld)
    · rw [List.mem_singleton.mp hNew]
      exact Nat.lt_succ_self thread
  · rw [hWaiting, List.map_append]
    refine List.nodup_append.mpr ⟨h.apart, List.nodup_singleton _, ?_⟩
    intro ch hMem other hOther hSame
    obtain ⟨keepAlive, hOld, rfl⟩ := List.mem_map.mp hMem
    have hEarly := h.early keepAlive hOld
    rw [hSame, List.mem_singleton.mp hOther] at hEarly
    exact absurd hEarly (Nat.lt_irrefl thread)

theorem Tabled.changes (h : Tabled serviceID thread before) (hChanges : Changes serviceID thread before after) :
    Tabled serviceID (thread + 1) after := by
  cases hChanges with
  | same hEntries hWaiting =>
      exact h.fewer (hWaiting ▸ .refl _) fun _ _ => by rw [hEntries]
  | started ip hFree hEntries hWaiting => exact h.more hFree hEntries hWaiting
  | cancelled ip ch hFound hEntries hWaiting =>
      refine h.fewer (hWaiting ▸ List.eraseP_sublist) fun keepAlive hMem => ?_
      rw [hWaiting] at hMem
      have hOther : (keepAlive.ip, serviceID) ≠ (ip, serviceID) := by
        intro hSame
        have hOwn := h.found keepAlive (List.mem_of_mem_eraseP hMem)
        rw [hSame, hFound] at hOwn
        exact h.ch_ne hMem (Option.some.inj hOwn).symm
      rw [hEntries, Function.update_of_ne hOther]
  | aborted keepAlive hEntries hWaiting =>
      exact h.fewer (hWaiting ▸ List.erase_sublist) fun _ _ => by rw [hEntries]
  | lapsed keepAlive hGone hEntries hWaiting =>
      refine h.fewer (hWaiting ▸ List.erase_sublist) fun other hMem => ?_
      rw [hWaiting] at hMem
      have hOther : (other.ip, serviceID) ≠ (keepAlive.ip, serviceID) := by
        intro hSame
        have hOwn := h.found other (List.mem_of_mem_erase hMem)
        rw [hSame, h.found keepAlive hGone] at hOwn
        have hEqual := List.inj_on_of_nodup_map h.apart hGone (List.mem_of_mem_erase hMem) (Option.some.inj hOwn)
        subst hEqual
        exact (List.Nodup.mem_erase_iff h.apart.of_map).mp hMem |>.1 rfl
      rw [hEntries, Function.update_of_ne hOther]

theorem keepAlives_scaleOutcome {calls : Nat} {service : Service} {replicas : UInt64} :
    (scaleOutcome fails calls mid serviceID service replicas).state.world.keepAliveOps = mid.world.keepAliveOps ∧
      (scaleOutcome fails calls mid serviceID service replicas).state.waiting = mid.waiting := by
  unfold scaleOutcome
  split
  · exact ⟨rfl, rfl⟩
  · split <;> exact ⟨rfl, rfl⟩

theorem changes_of_course (h : Course nodes ip serviceID direction thread fails before outcome) :
    Changes serviceID thread before outcome.state := by
  cases h with
  | refused => exact .same rfl rfl
  | kept =>
      cases hEntry : before.world.keepAliveOps (ip, serviceID) with
      | none => exact .started ip hEntry rfl rfl
      | some ch => exact .same rfl rfl
  | counted _ _ _ _ _ hPrepares =>
      rcases hPrepares.keepAlives with ⟨_, hEntries, hWaiting⟩ | ⟨_, ch, hFound, _, hEntries, hWaiting⟩
      · exact .same (keepAlives_scaleOutcome.1.trans hEntries) (keepAlives_scaleOutcome.2.trans hWaiting)
      · exact .cancelled ip ch hFound (keepAlives_scaleOutcome.1.trans hEntries)
          (keepAlives_scaleOutcome.2.trans hWaiting)

theorem changes_of_step (hNamed : ∀ service ∈ s.site.world.services serviceID, service.id = serviceID)
    (hReported : Reported nodes s round) (hStep : s.step nodes serviceID round = some t) :
    Changes serviceID s.past.length s.site t.site := by
  obtain ⟨site, outcome, hStart, hEval, _, rfl⟩ := ran_of_step hStep
  cases hTask : round.task with
  | request ip direction =>
      rw [hTask] at hStart hEval
      cases hStart
      exact changes_of_course (course_of_eval (fun service hStored _ => hNamed service hStored) hEval)
  | timer keepAlive =>
      rw [hTask] at hStart hEval
      simp only [Task.start] at hStart
      split at hStart
      · next hWaits =>
          cases hStart
          have hLapse := lapse_of_eval hEval
          dsimp only
          generalize outcome.result = result at hLapse
          generalize outcome.state = after at hLapse ⊢
          cases hLapse with
          | gone => exact .aborted keepAlive rfl rfl
          | aborted _ _ hKept => exact .aborted keepAlive hKept.entries hKept.waiting
          | @slept mid _ _ _ _ hKept =>
              have hEntries : Function.update mid.world.keepAliveOps (keepAlive.ip, serviceID) none =
                  Function.update s.site.world.keepAliveOps (keepAlive.ip, serviceID) none := by rw [hKept.entries]
              exact .lapsed keepAlive hWaits.1 hEntries hKept.waiting
      · cases hStart
  | packet ip port =>
      unfold Reported at hReported
      rw [hTask] at hReported
      exact hReported.elim

theorem named_of_course (hNamed : ∀ service ∈ before.world.services serviceID, service.id = serviceID)
    (h : Course nodes ip serviceID direction thread fails before outcome) :
    ∀ service ∈ outcome.state.world.services serviceID, service.id = serviceID := by
  cases h with
  | refused => exact hNamed
  | kept =>
      split
      · exact hNamed
      · exact hNamed
  | @counted service replicas target mid _ hStored _ _ _ hPrepares =>
      have hReadied : (readied service direction).id = serviceID := id_readied.trans (hNamed service hStored)
      have hMid : mid.world.services serviceID = some (readied service direction) := hPrepares.stored hStored
      intro later hLater
      unfold scaleOutcome at hLater
      split at hLater
      · cases hMid.symm.trans hLater
        exact hReadied
      · split at hLater
        · cases hMid.symm.trans hLater
          exact hReadied
        · cases (Function.update_self ..).symm.trans hLater
          exact hReadied

theorem named_of_step (hNamed : ∀ service ∈ s.site.world.services serviceID, service.id = serviceID)
    (hReported : Reported nodes s round) (hStep : s.step nodes serviceID round = some t) :
    ∀ service ∈ t.site.world.services serviceID, service.id = serviceID := by
  obtain ⟨site, outcome, hStart, hEval, _, rfl⟩ := ran_of_step hStep
  have hSite : ∀ service ∈ site.world.services serviceID, service.id = serviceID := by
    rw [world_of_start hStart]
    exact hNamed
  cases hTask : round.task with
  | request ip direction =>
      rw [hTask] at hEval
      exact named_of_course hSite (course_of_eval (fun service hStored _ => hSite service hStored) hEval)
  | timer keepAlive =>
      rw [hTask] at hEval
      have hLapse := lapse_of_eval hEval
      dsimp only
      generalize outcome.result = result at hLapse
      generalize outcome.state = after at hLapse ⊢
      cases hLapse with
      | gone => exact hSite
      | aborted _ _ hKept =>
          rw [hKept.services]
          exact hSite
      | slept _ _ hStored _ =>
          intro later hLater
          cases (Function.update_self ..).symm.trans hLater
          have hId := hSite _ hStored
          exact hId
  | packet ip port =>
      unfold Reported at hReported
      rw [hTask] at hReported
      exact hReported.elim

/-- An "over" request that returns success has ended the only goroutine there was. -/
theorem waiting_of_over (hTabled : Tabled serviceID thread before)
    (hAlone : ∀ keepAlive ∈ before.waiting, keepAlive.ip = ip) (hOk : outcome.result = .ok ())
    (h : Course nodes ip serviceID "over" thread fails before outcome) : outcome.state.waiting = [] := by
  cases h with
  | refused => cases hOk
  | kept _ _ _ hUnder => exact absurd hUnder (by decide)
  | counted _ _ _ _ _ hPrepares =>
      rw [keepAlives_scaleOutcome.2, List.eq_nil_iff_forall_not_mem]
      intro keepAlive hMem
      rcases hPrepares.keepAlives with ⟨hNone, _, hWaiting⟩ | ⟨_, ch, hFound, _, _, hWaiting⟩
      · rw [hWaiting] at hMem
        have hOwn := hTabled.found keepAlive hMem
        rw [hAlone keepAlive hMem, hNone rfl] at hOwn
        cases hOwn
      · rw [hWaiting] at hMem
        have hOld : keepAlive ∈ before.waiting := List.mem_of_mem_eraseP hMem
        have hOwn := hTabled.found keepAlive hOld
        rw [hAlone keepAlive hOld, hFound] at hOwn
        exact hTabled.ch_ne hMem (Option.some.inj hOwn).symm

/-- Nothing waits that a later "over" request has superseded. -/
structure Dutiful (serviceID : String) (s : Series) : Prop where
  named : ∀ service ∈ s.site.world.services serviceID, service.id = serviceID
  tabled : Tabled serviceID s.past.length s.site
  current : ∀ keepAlive ∈ s.site.waiting, ¬ Superseded s keepAlive

theorem superseded_append_iff {task : Task} {result : Result} {keepAlive : KeepAlive} :
    Superseded ⟨after, s.past ++ [(task, result)]⟩ keepAlive ↔ Superseded s keepAlive ∨
      keepAlive.ch < s.past.length ∧ (∃ ip, task = .request ip "over") ∧ result = .ok () := by
  constructor
  · rintro ⟨later, ip, hLater, hPast⟩
    simp only [List.getElem?_append] at hPast
    split at hPast
    · exact Or.inl ⟨later, ip, hLater, hPast⟩
    · next hEnd =>
        obtain ⟨hIndex, hEntry⟩ := List.getElem?_eq_some_iff.mp hPast
        have hLast : later = s.past.length := by
          rw [List.length_singleton] at hIndex
          omega
        simp only [List.getElem_singleton, Prod.mk.injEq] at hEntry
        exact Or.inr ⟨hLast ▸ hLater, ⟨ip, hEntry.1⟩, hEntry.2⟩
  · rintro (⟨later, ip, hLater, hPast⟩ | ⟨hEarly, ⟨ip, rfl⟩, rfl⟩)
    · obtain ⟨hIndex, _⟩ := List.getElem?_eq_some_iff.mp hPast
      exact ⟨later, ip, hLater, by rw [List.getElem?_append_left hIndex, hPast]⟩
    · exact ⟨s.past.length, ip, hEarly, by simp⟩

theorem mem_of_changes (h : Changes serviceID thread before after) {keepAlive : KeepAlive}
    (hMem : keepAlive ∈ after.waiting) : keepAlive ∈ before.waiting ∨ keepAlive.ch = thread := by
  cases h with
  | same _ hWaiting => exact Or.inl (hWaiting ▸ hMem)
  | started _ _ _ hWaiting =>
      rw [hWaiting] at hMem
      rcases List.mem_append.mp hMem with hOld | hNew
      · exact Or.inl hOld
      · rw [List.mem_singleton.mp hNew]
        exact Or.inr rfl
  | cancelled _ _ _ _ hWaiting => exact Or.inl (List.mem_of_mem_eraseP (hWaiting ▸ hMem))
  | aborted _ _ hWaiting => exact Or.inl (List.mem_of_mem_erase (hWaiting ▸ hMem))
  | lapsed _ _ _ hWaiting => exact Or.inl (List.mem_of_mem_erase (hWaiting ▸ hMem))

theorem Dutiful.step (h : Dutiful serviceID s) (hReported : Reported nodes s round) (hAlone : HandlesAlone s round)
    (hStep : s.step nodes serviceID round = some t) : Dutiful serviceID t := by
  have hChanges := changes_of_step h.named hReported hStep
  have hNamed := named_of_step h.named hReported hStep
  obtain ⟨site, outcome, hStart, hEval, _, rfl⟩ := ran_of_step hStep
  refine ⟨hNamed, ?_, ?_⟩
  · rw [List.length_append, List.length_singleton]
    exact h.tabled.changes hChanges
  · intro keepAlive hMem hSuperseded
    rcases superseded_append_iff.mp hSuperseded with hBefore | ⟨_, ⟨ip, hTask⟩, hOk⟩
    · rcases mem_of_changes hChanges hMem with hOld | hNew
      · exact h.current keepAlive hOld hBefore
      · obtain ⟨later, ip, hLater, hPast⟩ := hBefore
        obtain ⟨hIndex, _⟩ := List.getElem?_eq_some_iff.mp hPast
        omega
    · rw [hTask] at hStart hEval
      cases hStart
      have hCourse := course_of_eval (fun service hStored _ => h.named service hStored) hEval
      have hNone := waiting_of_over h.tabled (hAlone ip hTask) hOk hCourse
      rw [hNone] at hMem
      cases hMem

end Invariant

/-- Where every "over" request is handled by the only manager with a waiting goroutine, none
is put to sleep by a goroutine started earlier. -/
theorem obeys_of_handlesAlone {nodes : Nodes} {serviceID : String} {w : World} {rounds : List Round}
    (hNamed : ∀ service ∈ w.services serviceID, service.id = serviceID)
    (hReported : Meets (Series.step nodes serviceID) (Reported nodes) ⟨⟨w, []⟩, []⟩ rounds)
    (hAlone : Meets (Series.step nodes serviceID) HandlesAlone ⟨⟨w, []⟩, []⟩ rounds) :
    Meets (Series.step nodes serviceID) (Obeys nodes serviceID) ⟨⟨w, []⟩, []⟩ rounds := by
  have hDutiful : Dutiful serviceID ⟨⟨w, []⟩, []⟩ := ⟨hNamed, ⟨nofun, nofun, .nil⟩, nofun⟩
  refine meets_of_invariant (fun s round t hInv hGuard hStep => hInv.step hGuard.1 hGuard.2 hStep) ?_ hDutiful
    (hReported.and hAlone)
  rintro s round hInv _ keepAlive hTask hSuperseded ⟨site, _, _, hStart, _, _⟩
  rw [hTask] at hStart
  simp only [Task.start] at hStart
  split at hStart
  · next hWaits => exact hInv.current keepAlive hWaits.1 hSuperseded
  · cases hStart

/-- Down and up again on one of two managers, and then the other one puts the service to
sleep. -/
def relayed : List Round :=
  [{ task := .request "manager" "under" }, { task := .request "manager" "over" },
    { task := .request "second" "under" }, { task := .request "second" "under" },
    { task := .timer ⟨"second", "web", 3⟩ }]

theorem obeys_of_handlesAlone_trio :
    Meets (Series.step trio "web") (Obeys trio "web") ⟨⟨awake (web 1), []⟩, []⟩ relayed ∧
      (run (Series.step trio "web") ⟨⟨awake (web 1), []⟩, []⟩ relayed).bind
        (fun s => s.site.world.replicas "web") = some 0 := by
  have hUnder (s : Series) (ip : String) : HandlesAlone s { task := .request ip "under" } := by
    intro other hTask
    simp at hTask
  have hTimer (s : Series) (keepAlive : KeepAlive) : HandlesAlone s { task := .timer keepAlive } := by
    intro other hTask
    cases hTask
  refine ⟨obeys_of_handlesAlone ?_ ?_ ?_, rfl⟩
  · intro service hStored
    cases hStored
    rfl
  · refine ⟨⟨⟨"manager", by decide, rfl⟩, rfl, Or.inr rfl⟩, fun next hNext => ?_⟩
    refine ⟨⟨⟨"manager", by decide, rfl⟩, rfl, Or.inl rfl⟩, fun next hNext => ?_⟩
    refine ⟨⟨⟨"worker", by decide, rfl⟩, rfl, Or.inr rfl⟩, fun next hNext => ?_⟩
    refine ⟨⟨⟨"worker", by decide, rfl⟩, rfl, Or.inr rfl⟩, fun next hNext => ?_⟩
    exact ⟨trivial, fun _ _ => trivial⟩
  · refine ⟨hUnder _ _, fun next hNext => ?_⟩
    cases hNext
    refine ⟨fun ip hTask keepAlive hMem => ?_, fun next hNext => ?_⟩
    · cases hTask
      cases List.mem_singleton.mp hMem
      rfl
    · exact ⟨hUnder _ _, fun _ _ => ⟨hUnder _ _, fun _ _ => ⟨hTimer _ _, fun _ _ => trivial⟩⟩⟩

end Cluster

import SwarmAutoscaler.Cluster.Rounds
import SwarmAutoscaler.Cluster.Tidy

/-! The code of all nodes against the abstract autoscaler. While no call fails, requests,
timers and packets do to a service what the abstract one does, one after the other. -/
namespace Cluster

open Docker Process

/-- What a task is to the abstract autoscaler. Workers refuse requests. -/
def Task.stimulus (manager : String) : Task → Stimulus
  | .request ip direction =>
      if ip = manager ∧ direction = "over" then .over
      else if ip = manager ∧ direction = "under" then .under
      else .noise
  | .timer _ => .elapse
  | .packet ip _ => .knock (decide (ip = manager))

/-- A round in which no call fails. -/
def Series.turn (nodes : Nodes) (serviceID : String) (s : Series) (task : Task) : Option Series :=
  s.step nodes serviceID ⟨task, fun _ => false⟩

/-- The task is about the cluster and the port of the service. -/
def Task.Placed (nodes : Nodes) (port : UInt32) (site : Site) : Task → Prop
  | .request ip _ => ip ∈ nodes.ips
  | .timer keepAlive => keepAlive ∈ site.waiting
  | .packet ip other => ip ∈ nodes.ips ∧ other = port

instance (nodes : Nodes) (port : UInt32) (site : Site) : DecidablePred (Task.Placed nodes port site)
  | .request ip _ => inferInstanceAs (Decidable (ip ∈ nodes.ips))
  | .timer keepAlive => inferInstanceAs (Decidable (keepAlive ∈ site.waiting))
  | .packet ip other => inferInstanceAs (Decidable (ip ∈ nodes.ips ∧ other = port))

/-- The task has its place, and the count is not the largest one. -/
def Calm (nodes : Nodes) (serviceID : String) (port : UInt32) (s : Series) (task : Task) : Prop :=
  s.site.world.replicas serviceID ≠ some (-1) ∧ task.Placed nodes port s.site

instance (nodes : Nodes) (serviceID : String) (port : UInt32) (s : Series) :
    DecidablePred (Calm nodes serviceID port s) :=
  fun _ => inferInstanceAs (Decidable (_ ∧ _))

/-- The code has ended, and on the picture of the site it was the stimulus. -/
def Acts (nodes : Nodes) (manager serviceID : String) (port : UInt32) (site : Site) (stimulus : Stimulus)
    (ended : Option (Outcome Site Result)) : Prop :=
  ∃ outcome, ended = some outcome ∧ Tidy nodes manager serviceID port outcome.state ∧
    (picture manager serviceID port site).step stimulus = some (picture manager serviceID port outcome.state)

section Acts

variable {nodes : Nodes} {manager serviceID ip direction : String} {port : UInt32} {thread calls : Nat}
  {fails : Nat → Bool} {site : Site} {outcome : Outcome Site Result}

theorem toNat_add_one {replicas : UInt64} (hSmall : replicas ≠ -1) :
    (replicas + 1).toNat = replicas.toNat + 1 := by
  have hLt := replicas.toNat_lt
  have hNe : replicas.toNat ≠ 2 ^ 64 - 1 := fun hEq => hSmall (UInt64.toNat_inj.mp hEq)
  rw [UInt64.toNat_add]
  exact Nat.mod_eq_of_lt (by show replicas.toNat + 1 < _; omega)

theorem toNat_sub_one {replicas : UInt64} (hMany : replicas > 1) : (replicas - 1).toNat = replicas.toNat - 1 :=
  UInt64.toNat_sub_of_le _ _ (UInt64.le_of_lt hMany)

theorem Tidy.named (h : Tidy nodes manager serviceID port site) :
    ∀ service ∈ site.world.services serviceID, service.id = serviceID := by
  obtain ⟨other, hOther, hFit⟩ := h.deployed
  intro service hStored
  rw [Option.mem_unique hStored hOther]
  exact hFit.id

theorem Tidy.placed (h : Tidy nodes manager serviceID port site) : ∀ service ∈ site.world.services serviceID,
    constrains service "over" = true → service.spec.taskTemplate.placement.isSome = true := by
  obtain ⟨other, hOther, hFit⟩ := h.deployed
  intro service hStored hConstrains
  obtain rfl := Option.mem_unique hStored hOther
  exact hFit.placed (constrains_iff.mp hConstrains).1

theorem scaleOutcome_of_never (hNever : ∀ call, fails call = false) {service : Service} {replicas : UInt64} :
    scaleOutcome fails calls site serviceID service replicas =
      ⟨.ok (), calls + 2, site.setService serviceID (scaled service replicas)⟩ := by
  rw [scaleOutcome, hNever, hNever]
  rfl

theorem Prepares.fewer {key : String × String} {service : Service} {replicas target : UInt64} {mid : Site}
    (h : Prepares key site service replicas direction target mid) (hUnder : direction = "under") :
    replicas > 1 ∧ target = replicas - 1 := by
  cases h with
  | under hMany => exact ⟨hMany, rfl⟩
  | «over» => exact absurd hUnder (by decide)

theorem Tidy.over (h : Tidy nodes manager serviceID port site)
    (hManager : (nodes.info manager).autoscalerManager = true) (hNever : ∀ call, fails call = false)
    (hSmall : site.world.replicas serviceID ≠ some (-1))
    (hCourse : Course nodes manager serviceID "over" thread fails site outcome) :
    Tidy nodes manager serviceID port outcome.state ∧
      (picture manager serviceID port site).step .over = some (picture manager serviceID port outcome.state) := by
  obtain ⟨service, replicas, hStored, hFit, hReplicas, hCount⟩ := h.counted
  have hShown : (picture manager serviceID port site).replicas = replicas.toNat := by simp [picture, hCount]
  cases hCourse with
  | refused early =>
      rcases early.broken hManager hStored hReplicas (Or.inl rfl) with hFails | ⟨_, hFails⟩
      · simp [hNever] at hFails
      · simp [hNever] at hFails
  | kept _ _ _ hUnder => exact absurd hUnder (by decide)
  | @counted other count target mid _ hOther hOtherCount _ _ hPrepares =>
      cases hStored.symm.trans hOther
      cases hReplicas.symm.trans hOtherCount
      have hNe : replicas ≠ -1 := fun hMax => hSmall (hMax ▸ hCount)
      obtain ⟨hMid, hMidShown⟩ := h.prepared hStored hFit hPrepares
      obtain rfl := hPrepares.target_eq rfl
      have hScaled : Fit serviceID port (scaled (readied service "over") (replicas + 1)) := hFit.readied.scaled
      obtain ⟨hTidy, hDone⟩ := hMid.recount hScaled (ServiceSpec.replicas?_setReplicas ..)
      rw [scaleOutcome_of_never hNever]
      refine ⟨hTidy, ?_⟩
      rw [hDone, hMidShown, toNat_add_one hNe, ← hShown]
      rfl

theorem Tidy.under (h : Tidy nodes manager serviceID port site)
    (hManager : (nodes.info manager).autoscalerManager = true) (hNever : ∀ call, fails call = false)
    (hCourse : Course nodes manager serviceID "under" thread fails site outcome) :
    Tidy nodes manager serviceID port outcome.state ∧
      (picture manager serviceID port site).step .under =
        some (picture manager serviceID port outcome.state) := by
  obtain ⟨service, replicas, hStored, hFit, hReplicas, hCount⟩ := h.counted
  have hShown : (picture manager serviceID port site).replicas = replicas.toNat := by simp [picture, hCount]
  cases hCourse with
  | refused early =>
      rcases early.broken hManager hStored hReplicas (Or.inr rfl) with hFails | ⟨_, hFails⟩
      · simp [hNever] at hFails
      · simp [hNever] at hFails
  | @kept other count hOther hOtherCount hFew _ =>
      cases hStored.symm.trans hOther
      cases hReplicas.symm.trans hOtherCount
      have hFewNat : ¬ 1 < (picture manager serviceID port site).replicas := by
        rw [hShown]
        exact fun hLt => hFew (UInt64.lt_iff_toNat_lt.mpr hLt)
      rw [Autoscaler.step, if_neg hFewNat]
      cases hEntry : site.world.keepAliveOps (manager, serviceID) with
      | some ch =>
          refine ⟨h, ?_⟩
          simp [picture, hEntry]
      | none =>
          obtain ⟨hTidy, hStarted⟩ := h.started thread hEntry
          exact ⟨hTidy, congrArg some hStarted.symm⟩
  | @counted other count target mid _ hOther hOtherCount _ _ hPrepares =>
      cases hStored.symm.trans hOther
      cases hReplicas.symm.trans hOtherCount
      obtain ⟨hMid, hMidShown⟩ := h.prepared hStored hFit hPrepares
      obtain ⟨hMany, rfl⟩ := hPrepares.fewer rfl
      have hManyNat : 1 < (picture manager serviceID port site).replicas := by
        rw [hShown]
        exact UInt64.lt_iff_toNat_lt.mp hMany
      have hScaled : Fit serviceID port (scaled (readied service "under") (replicas - 1)) := hFit.readied.scaled
      obtain ⟨hTidy, hDone⟩ := hMid.recount hScaled (ServiceSpec.replicas?_setReplicas ..)
      rw [scaleOutcome_of_never hNever, Autoscaler.step, if_pos hManyNat]
      refine ⟨hTidy, ?_⟩
      rw [hDone, hMidShown, toNat_sub_one hMany, ← hShown]
      rfl

theorem Tidy.acts_request (h : Tidy nodes manager serviceID port site) (hWired : Wired nodes manager)
    (hIp : ip ∈ nodes.ips) (hNever : ∀ call, fails call = false)
    (hSmall : site.world.replicas serviceID ≠ some (-1)) :
    Acts nodes manager serviceID port site ((Task.request ip direction).stimulus manager)
      ((changeServiceReplicas ⟨ip, nodes.info ip⟩ serviceID direction).eval (solo nodes thread) fails 0 site) := by
  simp only [Task.stimulus]
  by_cases hSame : ip = manager
  · subst hSame
    obtain ⟨outcome, hEval, _⟩ := @eval_changeServiceReplicas nodes thread 0 fails serviceID ⟨ip, nodes.info ip⟩
      site direction (h.tame hSmall)
    have hCourse := course_of_eval (fun service hStored _ => h.named service hStored) hEval
    refine ⟨outcome, hEval, ?_⟩
    by_cases hOver : direction = "over"
    · subst hOver
      rw [if_pos ⟨rfl, rfl⟩]
      exact h.over hWired.manages_manager hNever hSmall hCourse
    · rw [if_neg fun hBoth => hOver hBoth.2]
      by_cases hUnder : direction = "under"
      · subst hUnder
        rw [if_pos ⟨rfl, rfl⟩]
        exact h.under hWired.manages_manager hNever hCourse
      · rw [if_neg fun hBoth => hUnder hBoth.2]
        cases hCourse with
        | refused early => exact ⟨h, rfl⟩
        | kept _ _ _ under => exact absurd under hUnder
        | counted _ _ _ _ _ prepares => exact (prepares.directed.elim hOver hUnder).elim
  · rw [if_neg fun hBoth => hSame hBoth.1, if_neg fun hBoth => hSame hBoth.1, changeServiceReplicas,
      hWired.worker hIp hSame]
    exact ⟨_, rfl, h, rfl⟩

theorem Tidy.acts_timer (h : Tidy nodes manager serviceID port site) (hWired : Wired nodes manager)
    (hNever : ∀ call, fails call = false) {keepAlive : KeepAlive} (hWaits : keepAlive ∈ site.waiting) :
    Acts nodes manager serviceID port site .elapse
      ((scaleDown ⟨keepAlive.ip, nodes.info keepAlive.ip⟩ serviceID).eval (solo nodes thread) fails 0
        { site with waiting := site.waiting.erase keepAlive }) := by
  obtain ⟨service, hStored, hFit⟩ := h.deployed
  rw [h.waiting] at hWaits ⊢
  cases hEntry : site.world.keepAliveOps (manager, serviceID) with
  | none =>
      rw [hEntry] at hWaits
      cases hWaits
  | some ch =>
      rw [hEntry] at hWaits
      obtain rfl : keepAlive = ⟨manager, serviceID, ch⟩ := List.mem_singleton.mp hWaits
      have hFound : (site.world.keepAliveOps (manager, serviceID)).isSome = true := by
        rw [hEntry]
        rfl
      obtain ⟨hTidy, hSlept⟩ := h.slept hFit hWired
      have hDrowsy : (picture manager serviceID port site).drowsy = true := hFound
      have hErase : ((some ch).toList.map (KeepAlive.mk manager serviceID)).erase ⟨manager, serviceID, ch⟩ = [] :=
        List.erase_cons_head ..
      rw [hErase]
      exact ⟨_, slept_scaleDown hNever hFound hStored hFit.published hFit.mode
        (hWired.serves hWired.manager_mem (by decide)), hTidy, (if_pos hDrowsy).trans (congrArg some hSlept.symm)⟩

theorem Tidy.acts_packet (h : Tidy nodes manager serviceID port site) (hWired : Wired nodes manager)
    (hIp : ip ∈ nodes.ips) (hNever : ∀ call, fails call = false)
    (hSmall : site.world.replicas serviceID ≠ some (-1)) (hListens : Listening site.world port ip) :
    Acts nodes manager serviceID port site (.knock (decide (ip = manager)))
      ((wakeUp nodes ip port serviceID).eval (solo nodes thread) fails 0 site) := by
  have hWatched : (picture manager serviceID port site).watched = true :=
    decide_eq_true ((h.alike ip hIp).mp hListens)
  have hCount : (site.forgetAll port (ip :: (nodes.info ip).otherNodes.map SwarmNode.ip)).world.replicas
      serviceID = site.world.replicas serviceID := by
    rw [World.replicas, World.replicas, kept_forgetAll.services]
  obtain ⟨hTidy, hForgotten⟩ := h.forgotten hWired hIp
  rw [eval_wakeUp, reached_of_never hNever (hWired.serves hIp (by decide))]
  generalize Site.forgetAll _ _ _ = deaf at hTidy hForgotten hCount ⊢
  generalize afterRemoval _ _ _ _ = calls
  by_cases hSame : ip = manager
  · subst hSame
    obtain ⟨service, hStored, hFit⟩ := hTidy.deployed
    have hScaled : Fit serviceID port (scaled service 1) := hFit.scaled
    obtain ⟨hDone, hShown⟩ := hTidy.recount hScaled (ServiceSpec.replicas?_setReplicas ..)
    rw [scaleBackUp, if_pos hWired.manages_manager, eval_scaleTo hStored hFit.mode, scaleOutcome_of_never hNever]
    refine ⟨_, rfl, hDone, ?_⟩
    rw [decide_eq_true rfl, Autoscaler.step, if_pos hWatched, hShown, hForgotten]
    rfl
  · have hWorker := hWired.worker hIp hSame
    have hServes : nodes.serves manager .scale = true := by
      simp [Nodes.serves, hWired.manager_mem, hWired.manages_manager]
    have hNotManager : ¬ (nodes.info ip).autoscalerManager = true := by simp [hWorker]
    have hAddress := hWired.address hIp hSame
    obtain ⟨outcome, hEval⟩ : ∃ outcome,
        (scaleBackUp nodes ip serviceID).eval (solo nodes thread) fails calls deaf = some outcome := by
      have hPost : scaleBackUp nodes ip serviceID =
          sendScaleRequest (changeServiceReplicas ⟨managerAddress (nodes.info ip).otherNodes,
            nodes.info (managerAddress (nodes.info ip).otherNodes)⟩) serviceID "over"
            (managerAddress (nodes.info ip).otherNodes) := if_neg hNotManager
      obtain ⟨asked, hAsked, _⟩ := @eval_changeServiceReplicas nodes thread (calls + 1) fails serviceID
        ⟨manager, nodes.info manager⟩ deaf "over" (hTidy.tame (hCount ▸ hSmall))
      rw [hPost, hAddress, eval_sendScaleRequest hTidy.placed, if_pos ⟨hServes, hNever calls⟩, hAsked]
      exact ⟨_, rfl⟩
    have hRises := rises_of_eval (fun service hStored _ => hTidy.named service hStored) hTidy.placed hEval
    refine ⟨outcome, hEval, ?_⟩
    rw [decide_eq_false hSame, Autoscaler.step, if_pos hWatched]
    generalize outcome.state = after at hRises ⊢
    cases hRises with
    | scaled hManager => exact absurd hManager hNotManager
    | failed hManager => exact absurd hManager hNotManager
    | unheard _ hLost =>
        rw [hAddress] at hLost
        exact absurd ⟨hServes, hNever calls⟩ hLost
    | @asked asked _ _ _ hCourse =>
        rw [hAddress] at hCourse
        have hOver := hTidy.over hWired.manages_manager (fun call => hNever _) (hCount ▸ hSmall) hCourse
        refine ⟨hOver.1, ?_⟩
        rw [← hOver.2, hForgotten]
        rfl

end Acts

theorem wired_pair : Wired pair "manager" := ⟨oneManager_pair, by decide⟩

/-- The service has run with a count, and nothing has happened to it yet. -/
def fresh (replicas : UInt64) : Series := ⟨⟨awake (web replicas), []⟩, []⟩

theorem tidy_fresh (replicas : UInt64) : Tidy pair "manager" "web" 80 (fresh replicas).site where
  deployed := ⟨web replicas, rfl, rfl, rfl, rfl, nofun⟩
  elsewhere _ _ := rfl
  waiting := rfl
  alike _ _ := Iff.rfl
  own _ _ h := nomatch h

/-- Too little load twice, a timer, and a packet at the worker. -/
def quietDay : List Task :=
  [.request "manager" "under", .request "manager" "under", .timer ⟨"manager", "web", 1⟩, .packet "worker" 80]

section Runs

variable {nodes : Nodes} {manager serviceID : String} {port : UInt32} {s : Series} {task : Task}

/-- A task does what its stimulus does on the picture, or neither of them can happen. -/
theorem acts_of_calm (hWired : Wired nodes manager) (h : Tidy nodes manager serviceID port s.site)
    (hCalm : Calm nodes serviceID port s task) :
    Acts nodes manager serviceID port s.site (task.stimulus manager)
        (s.outcome nodes serviceID ⟨task, fun _ => false⟩) ∨
      (s.outcome nodes serviceID ⟨task, fun _ => false⟩ = none ∧
        (picture manager serviceID port s.site).step (task.stimulus manager) = none) := by
  obtain ⟨hSmall, hPlaced⟩ := hCalm
  rw [Series.outcome]
  cases task with
  | request ip direction => exact Or.inl (h.acts_request hWired hPlaced (fun _ => rfl) hSmall)
  | timer keepAlive =>
      have hOwn : keepAlive.serviceID = serviceID := by
        have hWaits := hPlaced
        rw [Task.Placed, h.waiting] at hWaits
        obtain ⟨ch, _, rfl⟩ := List.mem_map.mp hWaits
        rfl
      rw [Task.start, if_pos ⟨hPlaced, hOwn⟩]
      exact Or.inl (h.acts_timer hWired (fun _ => rfl) hPlaced)
  | packet ip other =>
      obtain ⟨hIp, rfl⟩ := hPlaced
      by_cases hListens : Listening s.site.world other ip
      · obtain ⟨id, hKnown⟩ := Option.isSome_iff_exists.mp hListens.1
        obtain rfl := h.own ip id hKnown
        rw [Task.start, if_pos ⟨hListens, hKnown⟩]
        exact Or.inl (h.acts_packet hWired hIp (fun _ => rfl) hSmall hListens)
      · rw [Task.start, if_neg fun hBoth => hListens hBoth.1]
        have hDeaf : ¬ (picture manager serviceID other s.site).watched = true :=
          fun hWatched => hListens ((h.alike ip hIp).mpr (of_decide_eq_true hWatched))
        refine Or.inr ⟨rfl, ?_⟩
        rw [Task.stimulus]
        cases decide (ip = manager) <;> exact if_neg hDeaf

theorem commutes_picture (hWired : Wired nodes manager) :
    Commutes (Series.turn nodes serviceID) Autoscaler.step (fun s => Tidy nodes manager serviceID port s.site)
      (Calm nodes serviceID port) (fun s => picture manager serviceID port s.site) (Task.stimulus manager) where
  keep s task t h hCalm hTurn := by
    obtain ⟨outcome, hOutcome, rfl⟩ := Option.map_eq_some_iff.mp hTurn
    rcases acts_of_calm hWired h hCalm with ⟨other, hOther, hTidy, _⟩ | ⟨hNone, _⟩
    · cases hOutcome.symm.trans hOther
      exact hTidy
    · cases hOutcome.symm.trans hNone
  commute s task h hCalm := by
    rcases acts_of_calm hWired h hCalm with ⟨outcome, hOutcome, _, hActs⟩ | ⟨hNone, hActs⟩
    · rw [Series.turn, Series.step, hOutcome, hActs]
      rfl
    · rw [Series.turn, Series.step, hNone, hActs]
      rfl

/-- A calm run, on all nodes and in Docker, is a run of the abstract autoscaler, and happens
whenever that one does. -/
theorem run_picture (hWired : Wired nodes manager) {start : Series} {tasks : List Task}
    (hTidy : Tidy nodes manager serviceID port start.site)
    (hCalm : Meets (Series.turn nodes serviceID) (Calm nodes serviceID port) start tasks) :
    (run (Series.turn nodes serviceID) start tasks).map (fun s => picture manager serviceID port s.site) =
      run Autoscaler.step (picture manager serviceID port start.site) (tasks.map (Task.stimulus manager)) :=
  (commutes_picture hWired).run hTidy hCalm

theorem run_picture_quietDay :
    (run (Series.turn pair "web") (fresh 2) quietDay).map (fun s => picture "manager" "web" 80 s.site) =
      some ⟨1, false, false⟩ :=
  (run_picture wired_pair (tidy_fresh 2) (by decide)).trans rfl

theorem replicas_picture (h : Tidy nodes manager serviceID port s.site) {count : UInt64} :
    s.site.world.replicas serviceID = some count ↔
      (picture manager serviceID port s.site).replicas = count.toNat := by
  obtain ⟨_, replicas, _, _, _, hCount⟩ := h.counted
  simp only [picture, hCount, Option.some.injEq, Option.map_some, Option.getD_some]
  exact UInt64.toNat_inj.symm

/-- A packet to any node gives the service that sleeps its first replica; nobody waits for a
timer when the service has more than one. -/
structure Secure (nodes : Nodes) (serviceID : String) (port : UInt32) (s : Series) : Prop where
  wakes : s.site.world.replicas serviceID = some 0 → ∀ ip ∈ nodes.ips, ∃ t,
    s.turn nodes serviceID (.packet ip port) = some t ∧ t.site.world.replicas serviceID = some 1
  few : s.site.waiting ≠ [] → ∃ replicas ∈ s.site.world.replicas serviceID, replicas ≤ 1

theorem secure_of_sane (hWired : Wired nodes manager) (h : Tidy nodes manager serviceID port s.site)
    (hSane : (picture manager serviceID port s.site).Sane) : Secure nodes serviceID port s where
  wakes hZero ip hIp := by
    obtain ⟨a, hStep, hOne⟩ := hSane.wakes ((replicas_picture h).mp hZero) (decide (ip = manager))
    have hCalm : Calm nodes serviceID port s (.packet ip port) := ⟨by rw [hZero]; decide, hIp, rfl⟩
    have hCommute := (commutes_picture hWired).commute s (.packet ip port) h hCalm
    obtain ⟨t, hTurn, hShown⟩ := Option.map_eq_some_iff.mp (hCommute.trans hStep)
    refine ⟨t, hTurn, (replicas_picture ((commutes_picture hWired).keep s _ t h hCalm hTurn)).mpr ?_⟩
    rw [hShown]
    exact hOne
  few hWaits := by
    obtain ⟨_, replicas, _, _, _, hCount⟩ := h.counted
    have hDrowsy : (picture manager serviceID port s.site).drowsy = true := by
      rw [h.waiting] at hWaits
      cases hEntry : s.site.world.keepAliveOps (manager, serviceID) with
      | none => simp [hEntry] at hWaits
      | some ch => simp [picture, hEntry]
    refine ⟨replicas, hCount, UInt64.le_iff_toNat_le.mpr ?_⟩
    rw [← (replicas_picture h).mp hCount]
    exact hSane.few hDrowsy

/-- A calm run never gets to a service that no packet can wake. -/
theorem secure_throughout (hWired : Wired nodes manager) {start : Series} {tasks : List Task}
    (hTidy : Tidy nodes manager serviceID port start.site)
    (hSane : (picture manager serviceID port start.site).Sane)
    (hCalm : Meets (Series.turn nodes serviceID) (Calm nodes serviceID port) start tasks) :
    Throughout (Series.turn nodes serviceID) (Secure nodes serviceID port) start tasks :=
  (commutes_picture hWired).throughout (fun _ _ _ hInv hStep => hInv.step hStep)
    (fun _ hInv hInv' => secure_of_sane hWired hInv hInv') hTidy hSane hCalm

theorem secure_quietDay : Throughout (Series.turn pair "web") (Secure pair "web" 80) (fresh 2) quietDay :=
  secure_throughout wired_pair (tidy_fresh 2) ⟨nofun, nofun⟩ (by decide)

theorem stimulus_eq_over : task.stimulus manager = .over ↔ task = .request manager "over" := by
  cases task <;> simp [Task.stimulus]
  grind

theorem stimulus_eq_under : task.stimulus manager = .under ↔ task = .request manager "under" := by
  cases task <;> simp [Task.stimulus]
  grind

theorem stimulus_eq_elapse : task.stimulus manager = .elapse ↔ ∃ keepAlive, task = .timer keepAlive := by
  cases task <;> simp [Task.stimulus]
  grind

/-- The manager was told that there is too little load, and since then neither that there is
too much nor, through a worker, of a packet; and no timer has fired since. -/
def Unwanted (manager : String) (port : UInt32) (tasks : List Task) : Prop :=
  ∃ before since, tasks = before ++ .request manager "under" :: since ∧ .request manager "over" ∉ since ∧
    (∀ keepAlive, .timer keepAlive ∉ since) ∧ ∀ ip, ip ≠ manager → .packet ip port ∉ since

theorem unwanted_of_idle {tasks : List Task} (h : Autoscaler.Idle (tasks.map (Task.stimulus manager))) :
    Unwanted manager port tasks := by
  obtain ⟨before, since, hTasks, hOver, hElapse, hKnock⟩ := h
  obtain ⟨earlier, later, rfl, rfl, hLater⟩ := List.map_eq_append_iff.mp hTasks
  obtain ⟨first, rest, rfl, hFirst, rfl⟩ := List.map_eq_cons_iff.mp hLater
  obtain rfl := stimulus_eq_under.mp hFirst
  refine ⟨earlier, rest, rfl, fun hMem => ?_, fun keepAlive hMem => ?_, fun ip hWorker hMem => ?_⟩
  · exact hOver (List.mem_map.mpr ⟨_, hMem, stimulus_eq_over.mpr rfl⟩)
  · exact hElapse (List.mem_map.mpr ⟨_, hMem, rfl⟩)
  · exact hKnock (List.mem_map.mpr ⟨_, hMem, by rw [Task.stimulus, decide_eq_false hWorker]⟩)

/-- The tasks before a timer that fires on a service with replicas, takes the last one, and
is followed by tasks that leave the service asleep. -/
def PutToSleep (nodes : Nodes) (serviceID : String) (start : Series) (before : List Task)
    (keepAlive : KeepAlive) (since : List Task) : Prop :=
  ∃ s t, run (Series.turn nodes serviceID) start before = some s ∧
    s.site.world.replicas serviceID ≠ some 0 ∧ s.turn nodes serviceID (.timer keepAlive) = some t ∧
      Throughout (Series.turn nodes serviceID) (fun s => s.site.world.replicas serviceID = some 0) t since

/-- A service that had replicas has lost the last one to a timer, when nobody wanted it, and
it has slept since then. -/
theorem unwanted_of_asleep (hWired : Wired nodes manager) {start finish : Series} {tasks : List Task}
    (hTidy : Tidy nodes manager serviceID port start.site) (hAwake : start.site.world.replicas serviceID ≠ some 0)
    (hNobody : start.site.waiting = [])
    (hCalm : Meets (Series.turn nodes serviceID) (Calm nodes serviceID port) start tasks)
    (hRun : run (Series.turn nodes serviceID) start tasks = some finish)
    (hAsleep : finish.site.world.replicas serviceID = some 0) :
    ∃ before keepAlive since, tasks = before ++ .timer keepAlive :: since ∧ Unwanted manager port before ∧
      PutToSleep nodes serviceID start before keepAlive since := by
  obtain ⟨before, task, since, s, t, rfl, hFirst, hSome, hTurn, hSleeps⟩ :=
    (@last_entry _ _ _ (fun s => s.site.world.replicas serviceID = some 0) _ _ _ hRun hAsleep).resolve_left
      fun hStays => hAwake hStays.at_start
  have hCommutes := @commutes_picture nodes manager serviceID port hWired
  have hTidyBefore : Tidy nodes manager serviceID port s.site :=
    invariant_run hCommutes.keep hTidy hCalm.first hFirst
  have hCalmHere := hCalm.second hFirst
  have hTidyAfter := hCommutes.keep s task t hTidyBefore hCalmHere.1 hTurn
  have hStep := hCommutes.commute s task hTidyBefore hCalmHere.1
  rw [hTurn, Option.map_some] at hStep
  have hPositive : 0 < (picture manager serviceID port s.site).replicas :=
    Nat.pos_of_ne_zero fun hZero => hSome ((replicas_picture hTidyBefore).mpr hZero)
  obtain ⟨hElapse, hDrowsy⟩ := Autoscaler.elapse_of_asleep hStep.symm hPositive
    ((replicas_picture hTidyAfter).mp hSleeps.at_start)
  obtain ⟨keepAlive, rfl⟩ := stimulus_eq_elapse.mp hElapse
  have hStill : (picture manager serviceID port start.site).drowsy = false := by
    have hEmpty := hTidy.waiting
    rw [hNobody] at hEmpty
    cases hEntry : start.site.world.keepAliveOps (manager, serviceID) with
    | none => simp [picture, hEntry]
    | some ch => simp [hEntry] at hEmpty
  have hPicture := run_picture hWired hTidy hCalm.first
  rw [hFirst, Option.map_some] at hPicture
  have hIdle := Autoscaler.idle_of_drowsy hStill hPicture.symm hDrowsy
  exact ⟨before, keepAlive, since, rfl, unwanted_of_idle hIdle, s, t, hFirst, hSome, hTurn, hSleeps⟩

theorem unwanted_of_asleep_quietDay : ∃ before keepAlive since,
    quietDay.take 3 = before ++ .timer keepAlive :: since ∧ Unwanted "manager" 80 before ∧
      PutToSleep pair "web" (fresh 2) before keepAlive since := by
  have hRun : run (Series.turn pair "web") (fresh 2) (quietDay.take 3) = some _ := rfl
  exact unwanted_of_asleep wired_pair (tidy_fresh 2) (by decide) rfl (by decide) hRun rfl

end Runs

end Cluster

import SwarmAutoscaler.Cluster.Deployment
import SwarmAutoscaler.Cluster.Stage

/-! Scaling to zero on a single manager. The decision to scale down is taken when an
"under" request sees at most one replica, and nothing looks at the count again when the
timer has fired; only an "over" request that finds the entry of the keep-alive stops it. -/
namespace Cluster

open Docker Process

/-- What happened since the thread began that made the channel; a channel is named after it. -/
def since (ch : Nat) (log : List Event) : List Event := log.dropWhile fun event => event.thread != ch

/-- Docker has taken an update of the service. -/
def updated (serviceID : String) (op : Op) : op.Answer → Bool :=
  match op with
  | .serviceUpdate id _ _ => fun answer => id == serviceID && answer.isOk
  | _ => fun _ => false

/-- Demand for the service: an "over" request returns nil, or a wake-up scales it. -/
def asks (serviceID : String) (event : Event) : Call → Bool
  | .request _ id direction => id == serviceID && direction == "over" && event.result.any Except.isOk
  | .listener _ => updated serviceID event.op event.answer
  | .keepAlive _ _ _ => false

/-- The event is a demand for the service, seen with the call of the thread that performed
it. -/
def demand (serviceID : String) (s : State) (event : Event) : Bool :=
  ((s.threads[event.thread]?).map Thread.call).any (asks serviceID event)

/-- No demand for the service since the channel was entered in the table. -/
def Undemanded (serviceID : String) (ch : Nat) (s : State) : Prop :=
  ∀ event ∈ since ch s.log, demand serviceID s event = false

/-- The service has at most one replica. -/
def AtMostOne (serviceID : String) (w : World) : Prop := ∃ count ∈ w.replicas serviceID, count ≤ 1

/-- The channel of the keep-alive goroutine that is about to set the service to 0 replicas. -/
def scalesDown (serviceID : String) (thread : Thread signature Call Result) : Option Nat :=
  match thread.call with
  | .keepAlive _ _ ch => (thread.program.head.bind (Op.updateOf serviceID)).map fun _ => ch
  | _ => none

/-- When a keep-alive executes its update to 0, the service has at most one replica, and
there was no demand for it since the request that started the keep-alive. -/
def NotOverridden (serviceID : String) (s : State) : Action → Prop
  | .step i _ => ∀ thread ∈ s.threads[i]?, ∀ ch ∈ scalesDown serviceID thread,
      AtMostOne serviceID s.world ∧ Undemanded serviceID ch s
  | _ => True

instance (serviceID : String) (ch : Nat) (s : State) : Decidable (Undemanded serviceID ch s) :=
  inferInstanceAs (Decidable (∀ event ∈ since ch s.log, demand serviceID s event = false))

instance (serviceID : String) (w : World) : Decidable (AtMostOne serviceID w) :=
  inferInstanceAs (Decidable (∃ count ∈ w.replicas serviceID, count ≤ 1))

instance (serviceID : String) (s : State) : DecidablePred (NotOverridden serviceID s)
  | .step i _ => inferInstanceAs (Decidable (∀ thread ∈ s.threads[i]?, ∀ ch ∈ scalesDown serviceID thread,
      AtMostOne serviceID s.world ∧ Undemanded serviceID ch s))
  | .invoke _ | .meet _ _ | .disturb _ => isTrue trivial

/-- On a cluster of one manager no keep-alive sets to 0 a service that has more than one
replica or for which there was a demand since the entry, in no interleaving. -/
def NeverOverridden : Prop :=
  ∀ (nodes : Nodes) (manager serviceID : String) (w : World) (actions : List Action),
    nodes.ips = [manager] → (nodes.info manager).autoscalerManager = true →
    (∀ key, w.keepAliveOps key = none) →
    Meets (machine nodes).step (OneServiceRun nodes serviceID) (start nodes w) actions →
    Meets (machine nodes).step (NotOverridden serviceID) (start nodes w) actions

/-- A cluster of one node, which is the manager. -/
def alone : Nodes where
  ips := ["manager"]
  info _ := ⟨true, [], 5⟩

/-- The "over" request looks for a keep-alive just before the "under" request makes its
entry, and returns nil before the timer fires. -/
def overridden : List Action :=
  [.invoke (.request "manager" "web" "under"), .step 1 false,
    .invoke (.request "manager" "web" "over"), .step 2 false, .step 2 false] ++
  List.replicate 4 (.step 1 false) ++ List.replicate 2 (.step 2 false) ++ List.replicate 7 (.step 3 false)

theorem not_neverOverridden : ¬ NeverOverridden := by
  intro h
  have hMeets := h alone "manager" "web" (awake (web 1)) overridden rfl rfl (fun _ => rfl) (by decide)
  exact absurd hMeets (by decide)

section Condition

/-- The channel that an operation enters in the keep-alive table. -/
def Op.entered : Op → Option Nat
  | .keepAliveOpsSet _ _ ch => some ch
  | _ => none

/-- The version under which an event loop is about to update the service. -/
def wakes (serviceID : String) (thread : Thread signature Call Result) : Option Nat :=
  match thread.call with
  | .listener _ => thread.program.head.bind (Op.updateOf serviceID)
  | _ => none

variable (nodes : Nodes) (manager serviceID : String)

/-- No other keep-alive is entered, the count is still at most 1 and was not asked to
grow, and no other request has a count in hand that it computed before. -/
def Unopposed (s : State) (ch : Nat) : Prop :=
  s.world.keepAliveOps (manager, serviceID) = none ∧ AtMostOne serviceID s.world ∧
    Undemanded serviceID ch s ∧
      ∀ j < s.threads.length, ∀ stage ∈ (stages nodes).running s j, stage.contends = false

/-- A keep-alive is entered only when nothing opposes it, and Docker takes no update of a
wake-up while an entered keep-alive may still set the replicas to 0. -/
def Uncontested (s : State) : Action → Prop
  | .step i fail => ∀ thread ∈ s.threads[i]?,
      (∀ ch ∈ thread.program.head.bind Op.entered, Unopposed nodes manager serviceID s ch) ∧
        ∀ version ∈ wakes serviceID thread, Accepts fail s.world serviceID version →
          ∀ j < s.threads.length, ∀ stage ∈ (stages nodes).running s j, stage.awaited = none
  | _ => True

instance (s : State) (ch : Nat) : Decidable (Unopposed nodes manager serviceID s ch) :=
  inferInstanceAs (Decidable (_ ∧ _ ∧ _ ∧ ∀ j < s.threads.length,
    ∀ stage ∈ (stages nodes).running s j, stage.contends = false))

instance (s : State) : DecidablePred (Uncontested nodes manager serviceID s)
  | .step i fail => inferInstanceAs (Decidable (∀ thread ∈ s.threads[i]?,
      (∀ ch ∈ thread.program.head.bind Op.entered, Unopposed nodes manager serviceID s ch) ∧
        ∀ version ∈ wakes serviceID thread, Accepts fail s.world serviceID version →
          ∀ j < s.threads.length, ∀ stage ∈ (stages nodes).running s j, stage.awaited = none))
  | .invoke _ | .meet _ _ | .disturb _ => isTrue trivial

end Condition

section Invariant

variable {nodes : Nodes} {manager serviceID direction ip : String} {s t : State} {action : Action} {w w' : World}
  {i ch : Nat} {fail : Bool} {call : Call} {op : Op} {next : op.Answer → Code Result} {answer : op.Answer}
  {point : Point}

/-- The calls of a run about one service on one manager. -/
def Kind (manager serviceID : String) : Call → Prop
  | .request ip id _ | .keepAlive ip id _ => ip = manager ∧ id = serviceID
  | .listener ip => ip = manager

/-- An update under the version of this inspect would be accepted only while the count is
the one inspected. -/
def Current (serviceID : String) (w : World) (service : Service) (replicas : UInt64) : Prop :=
  ∃ stored, w.services serviceID = some stored ∧ service.version ≤ stored.version ∧
    (service.version = stored.version → stored.spec.replicas? = some replicas)

/-- What is known of a running request by where it stands. -/
def Known (serviceID : String) (w : World) : Stage → Prop
  | .request direction (.looking _ _) | .request direction (.sending _ _)
  | .request direction (.cancelling _) => direction = "over"
  | .request direction (.constraining service replicas) =>
      direction = "under" ∧ replicas - 1 = 1 ∧ Current serviceID w service replicas
  | .request direction (.starting _ _) | .request direction (.naming _ _ _)
  | .request direction (.started _) => direction = "under"
  | _ => True

/-- The calls of the run are about one service on one manager, and what each thread knows of
the service is right: the part of the invariant that does not speak of demands. -/
structure Placed (nodes : Nodes) (manager serviceID : String) (s : State) : Prop where
  logged : Machine.Logged s
  kinds : ∀ (i : Nat) (thread : Thread signature Call Result), s.threads[i]? = some thread →
    Kind manager serviceID thread.call
  standing : ∀ i stage, (stages nodes).running s i = some stage → Known serviceID s.world stage

/-- The whole invariant: one thread at most holds the entry of the table, and while a
keep-alive is awaited the count is at most 1, there was no demand since its entry and no
thread contends for the service. -/
structure DemandInv (nodes : Nodes) (manager serviceID : String) (s : State) : Prop
    extends Placed nodes manager serviceID s where
  tracked : Machine.EachThread (stages nodes).Tracked s
  orderly : Orderly ((stages nodes).running s) ((s.world.keepAliveOps (manager, serviceID)).isSome = true)
    (AtMostOne serviceID s.world) fun ch => Undemanded serviceID ch s

theorem Current.of_effect {service : Service} {replicas : UInt64} (h : Current serviceID w service replicas)
    (hEffect : Effect w op answer w') : Current serviceID w' service replicas := by
  obtain ⟨stored, hStored, hLe, hSame⟩ := h
  cases hUpdate : op.updateOf serviceID with
  | none =>
      rw [Current, services_of_effect hEffect hUpdate]
      exact ⟨stored, hStored, hLe, hSame⟩
  | some version =>
      obtain ⟨spec, rfl⟩ := Op.updateOf_eq_some_iff.mp hUpdate
      cases hEffect with
      | none inert => exact ⟨stored, hStored, hLe, hSame⟩
      | update stored' current =>
          obtain rfl := Option.some.inj (hStored.symm.trans stored')
          refine ⟨_, by simp; rfl, ?_, ?_⟩
          · show service.version ≤ version + 1
            omega
          · intro hEq
            have hLater : service.version = version + 1 := hEq
            omega

theorem Known.of_effect {stage : Stage} (h : Known serviceID w stage) (hEffect : Effect w op answer w') :
    Known serviceID w' stage := by
  cases stage with
  | request direction point =>
      cases point with
      | constraining service replicas => exact ⟨h.1, h.2.1, h.2.2.of_effect hEffect⟩
      | _ => exact h
  | _ => exact h

section Request

theorem Known.advance (hPermits : point.permits manager serviceID op)
    (hStanding : Known serviceID w (.request direction point))
    (answered : exec nodes i op fail w = some (answer, w')) :
    Known serviceID w' (.request direction (point.advance direction op answer)) := by
  cases point with
  | fresh =>
      obtain rfl : op = .serviceInspect serviceID := hPermits
      obtain ⟨rfl, hService⟩ := inspect_of_exec answered
      cases answer with
      | error err => trivial
      | ok service =>
          have hStored := hService service rfl
          simp only [Point.advance, Point.inspected]
          cases hReplicas : service.spec.replicas? with
          | none => trivial
          | some replicas =>
              dsimp only
              split
              · assumption
              · split
                · split
                  · split
                    · exact ⟨by assumption, by assumption, service, hStored, Nat.le_refl _, fun _ => hReplicas⟩
                    · trivial
                  · assumption
                · trivial
  | looking service replicas =>
      rcases hPermits with rfl | rfl | ⟨rfl, spec, rfl, _⟩
      · cases answer with
        | none => trivial
        | some ch => exact hStanding
      · exact answer.elim
      · cases answer with
        | error err => trivial
        | ok _ => exact hStanding
  | sending replicas ch =>
      obtain rfl : op = .chanSend ch := hPermits
      exact hStanding
  | cancelling replicas =>
      obtain rfl : op = .keepAliveOpsDelete manager serviceID := hPermits
      trivial
  | constraining service replicas =>
      rcases hPermits with rfl | rfl | ⟨_, spec, rfl, _⟩
      · cases answer <;> trivial
      · exact answer.elim
      · cases answer <;> trivial
  | starting service replicas =>
      rcases hPermits with rfl | rfl
      · cases answer with
        | true => trivial
        | false => exact hStanding
      · exact hStanding
  | naming service replicas ch =>
      obtain rfl : op = .keepAliveOpsSet manager serviceID ch := hPermits
      exact hStanding
  | started ch =>
      obtain rfl : op = .goKeepAlive manager serviceID ch := hPermits
      trivial
  | committed newReplicas =>
      obtain rfl : op = .serviceInspect serviceID := hPermits
      cases answer <;> trivial
  | writing current newReplicas =>
      rcases hPermits with rfl | ⟨spec, rfl, _⟩
      · exact answer.elim
      · cases answer <;> trivial
  | succeeded | kept | failed => exact hPermits.elim

/-- While a keep-alive is entered for at most one replica, no request comes to contend. -/
theorem not_contends_advance (hPermits : point.permits manager serviceID op)
    (hStanding : Known serviceID w (.request direction point))
    (answered : exec nodes i op fail w = some (answer, w')) (hSmall : AtMostOne serviceID w)
    (hEntered : (w.keepAliveOps (manager, serviceID)).isSome = true)
    (hContends : (Stage.request direction point).contends = false)
    (hCancelling : (Stage.request direction point).holds = false) :
    (Stage.request direction (point.advance direction op answer)).contends = false := by
  cases point with
  | fresh =>
      obtain rfl : op = .serviceInspect serviceID := hPermits
      obtain ⟨rfl, hService⟩ := inspect_of_exec answered
      cases answer with
      | error err => rfl
      | ok service =>
          obtain ⟨count, hCount, hLe⟩ := hSmall
          have hReplicas : service.spec.replicas? = some count := by
            simpa [World.replicas, hService service rfl] using hCount
          have hNotAbove : ¬ count > 1 := UInt64.not_lt.mpr hLe
          simp only [Point.advance, Point.inspected, hReplicas, hNotAbove, ↓reduceIte]
          split
          · rfl
          · split <;> rfl
  | looking service replicas =>
      rcases hPermits with rfl | rfl | ⟨rfl, spec, rfl, _⟩
      · obtain ⟨hFound, _⟩ := found_of_exec answered
        rw [← hFound] at hEntered
        cases answer with
        | none => cases hEntered
        | some ch => rfl
      · exact answer.elim
      · cases answer <;> rfl
  | sending replicas ch =>
      obtain rfl : op = .chanSend ch := hPermits
      rfl
  | cancelling replicas => cases hCancelling
  | constraining service replicas =>
      obtain ⟨rfl, hOne, _⟩ := hStanding
      rcases hPermits with rfl | rfl | ⟨_, spec, rfl, _⟩
      · cases answer with
        | error err => rfl
        | ok current => simp [Point.advance, Stage.contends, hOne]
      · exact answer.elim
      · cases answer with
        | error err => rfl
        | ok _ => simp [Point.advance, Stage.contends, hOne]
  | starting service replicas =>
      rcases hPermits with rfl | rfl
      · cases answer <;> rfl
      · rfl
  | naming service replicas ch =>
      obtain rfl : op = .keepAliveOpsSet manager serviceID ch := hPermits
      rfl
  | started ch =>
      obtain rfl : op = .goKeepAlive manager serviceID ch := hPermits
      rfl
  | committed newReplicas =>
      obtain rfl : op = .serviceInspect serviceID := hPermits
      cases answer with
      | error err => rfl
      | ok current => exact hContends
  | writing current newReplicas =>
      rcases hPermits with rfl | ⟨spec, rfl, _⟩
      · exact answer.elim
      · cases answer <;> rfl
  | succeeded | kept | failed => exact hPermits.elim

/-- A request that does not contend leaves a small count small. -/
theorem atMostOne_advance (hPermits : point.permits manager serviceID op)
    (hStanding : Known serviceID w (.request direction point)) (hEffect : Effect w op answer w')
    (hSmall : AtMostOne serviceID w) (hContends : (Stage.request direction point).contends = false) :
    AtMostOne serviceID w' := by
  cases hUpdate : op.updateOf serviceID with
  | none => rwa [AtMostOne, World.replicas, services_of_effect hEffect hUpdate]
  | some version =>
      obtain ⟨spec, rfl⟩ := Op.updateOf_eq_some_iff.mp hUpdate
      have written {count : UInt64} (hSpec : spec.replicas? = some count) (hLe : count ≤ 1) :
          AtMostOne serviceID w' := by
        cases hEffect with
        | none inert => exact hSmall
        | update stored current => exact ⟨count, by rw [replicas_setService]; exact hSpec, hLe⟩
      cases point with
      | looking service replicas =>
          rcases hPermits with hOp | hOp | ⟨rfl, spec', hOp, hSpec⟩
          · cases hOp
          · cases hOp
          · obtain rfl : spec = spec' := by injection hOp
            exact written hSpec (UInt64.le_refl 1)
      | constraining service replicas =>
          obtain ⟨_, hOne, stored, hStored, _, hSame⟩ := hStanding
          rcases hPermits with hOp | hOp | ⟨_, spec', hOp, _⟩
          · cases hOp
          · cases hOp
          · injection hOp with _ hVersion
            cases hEffect with
            | none inert => exact hSmall
            | update stored' current =>
                obtain rfl := Option.some.inj (hStored.symm.trans stored')
                obtain ⟨count, hCount, hLe⟩ := hSmall
                have hReplicas : stored.spec.replicas? = some count := by
                  simpa [World.replicas, hStored] using hCount
                obtain rfl := Option.some.inj ((hSame (hVersion.symm.trans current.symm)).symm.trans hReplicas)
                rw [eq_two_of_sub_one hOne] at hLe
                exact absurd hLe (by decide)
      | writing current newReplicas =>
          rcases hPermits with hOp | ⟨spec', hOp, hSpec⟩
          · cases hOp
          · obtain rfl : spec = spec' := by injection hOp
            have hNotAbove : ¬ 1 < newReplicas := by
              simp only [Stage.contends, Bool.or_eq_false_iff, decide_eq_false_iff_not] at hContends
              exact hContends.2
            exact written hSpec (UInt64.not_lt.mp hNotAbove)
      | starting => rcases hPermits with hOp | hOp <;> cases hOp
      | succeeded | kept | failed => exact hPermits.elim
      | _ => cases hPermits

/-- Only a request that contends can return nil to an "over". -/
theorem not_asks_advance {result : Option Result} (hPermits : point.permits manager serviceID op)
    (hStanding : Known serviceID w (.request direction point))
    (hEnds : ∀ r, result = some r → (point.advance direction op answer).ends r)
    (hContends : (Stage.request direction point).contends = false) :
    asks serviceID ⟨i, op, answer, result⟩ (.request ip serviceID direction) = false := by
  rw [asks, Bool.eq_false_iff]
  intro hAsks
  simp only [beq_self_eq_true, Bool.true_and, Bool.and_eq_true, beq_iff_eq, Option.any_eq_true] at hAsks
  obtain ⟨rfl, r, hResult, hOk⟩ := hAsks
  have hEnd := hEnds r hResult
  have failed (h : r.isOk = false) : False := absurd hOk (by simp [h])
  cases point with
  | fresh =>
      obtain rfl : op = .serviceInspect serviceID := hPermits
      cases answer with
      | error err => exact failed hEnd
      | ok service =>
          simp only [Point.advance, Point.inspected] at hEnd
          split at hEnd
          · exact failed hEnd
          · exact hEnd
  | looking service replicas =>
      rcases hPermits with rfl | rfl | ⟨rfl, spec, rfl, _⟩
      · cases answer <;> exact hEnd
      · exact answer.elim
      · cases answer with
        | error err => exact failed hEnd
        | ok _ => exact hEnd
  | sending replicas ch =>
      obtain rfl : op = .chanSend ch := hPermits
      exact hEnd
  | cancelling replicas =>
      obtain rfl : op = .keepAliveOpsDelete manager serviceID := hPermits
      exact hEnd
  | constraining => exact absurd hStanding.1 (by decide)
  | starting | naming | started => exact absurd (show "over" = "under" from hStanding) (by decide)
  | committed | writing => simp [Stage.contends] at hContends
  | succeeded | kept | failed => exact hPermits.elim

end Request

section Step

theorem mem_since_append {log : List Event} {event new : Event} (h : event ∈ since ch (log ++ [new])) :
    event ∈ since ch log ∨ event = new := by
  rw [since, List.dropWhile_append] at h
  split at h
  · exact Or.inr (List.mem_singleton.mp ((List.dropWhile_sublist _).subset h))
  · rcases List.mem_append.mp h with hOld | hNew
    · exact Or.inl hOld
    · exact Or.inr (List.mem_singleton.mp hNew)

theorem call_resume {world : World} {j : Nat} (atOp : s.threads[i]? = some ⟨call, .perform op next⟩)
    (hj : j < s.threads.length) :
    (((machine nodes).resume { s with world := world } i call op next answer).threads[j]?).map Thread.call =
      (s.threads[j]?).map Thread.call := by
  by_cases hji : j = i
  · subst hji
    have hSelf : ((machine nodes).resume { s with world := world } j call op next answer).threads[j]? = _ :=
      (machine nodes).resume_self hj
    rw [hSelf, atOp]
    rfl
  · have hThread : s.threads[j]? = some s.threads[j] := List.getElem?_eq_getElem hj
    have hOther : ((machine nodes).resume { s with world := world } i call op next answer).threads[j]? = _ :=
      (machine nodes).resume_other hThread hji
    rw [hOther, hThread]

theorem undemanded_resume {world : World} (hLogged : Machine.Logged s)
    (atOp : s.threads[i]? = some ⟨call, .perform op next⟩)
    (hAsks : asks serviceID ⟨i, op, answer, (next answer).result⟩ call = false) (h : Undemanded serviceID ch s) :
    Undemanded serviceID ch ((machine nodes).resume { s with world := world } i call op next answer) := by
  intro event hEvent
  have hi : i < s.threads.length := (List.getElem?_eq_some_iff.mp atOp).1
  rcases mem_since_append hEvent with hOld | rfl
  · have hMem : event ∈ s.log := (List.dropWhile_sublist _).subset hOld
    rw [demand, call_resume atOp (hLogged event hMem)]
    exact h event hOld
  · rw [demand, call_resume atOp hi, atOp]
    exact hAsks

theorem Placed.resume {world : World} (h : Placed nodes manager serviceID s)
    (atOp : s.threads[i]? = some ⟨call, .perform op next⟩) (hEffect : Effect s.world op answer world)
    (hFork : ∀ child, (machine nodes).forks op = some child → Kind manager serviceID child)
    (hStanding : Known serviceID world (((stages nodes).phase s.log i call).advance op answer)) :
    Placed nodes manager serviceID
      ((machine nodes).resume { s with world := world } i call op next answer) where
  logged := Machine.Logged.resume (machine nodes) (s := { s with world := world }) h.logged atOp answer
  kinds j thread hThread := by
    rcases (machine nodes).resume_threads hThread with ⟨rfl, rfl⟩ | ⟨_, hOld⟩ | ⟨_, child, hChild, rfl⟩
    · exact h.kinds j ⟨call, .perform op next⟩ atOp
    · exact h.kinds j thread hOld
    · exact hFork child hChild
  standing j stage hStage := by
    rcases (stages nodes).running_resume (machine nodes) (s := { s with world := world }) atOp h.logged hStage with
      ⟨_, rfl⟩ | ⟨_, hOld⟩ | ⟨_, child, _, rfl⟩
    · exact hStanding
    · exact (h.standing j stage hOld).of_effect hEffect
    · cases child <;> trivial

/-- Where a request of the service stands when it is about to perform an operation. -/
theorem DemandInv.request (hInv : DemandInv nodes manager serviceID s) {id : String}
    (atOp : s.threads[i]? = some ⟨.request ip id direction, .perform op next⟩) :
    (ip = manager ∧ id = serviceID) ∧
      ∃ point, (stages nodes).phase s.log i (.request ip id direction) = .request direction point ∧
        point.permits manager serviceID op ∧ Known serviceID s.world (.request direction point) ∧
          ∀ answer r, (next answer).result = some r → (point.advance direction op answer).ends r := by
  obtain ⟨rfl, rfl⟩ := hInv.kinds i _ atOp
  have hRunning := (stages nodes).running_of_perform atOp
  have hTracked := hInv.tracked i _ atOp
  rw [Tracking.Tracked] at hTracked
  refine ⟨⟨rfl, rfl⟩, ?_⟩
  cases hStage : (stages nodes).phase s.log i (.request ip id direction) with
  | request d point =>
      rw [hStage] at hTracked hRunning
      obtain ⟨rfl, hPermits⟩ := hTracked.1
      refine ⟨point, rfl, hPermits, hInv.standing i _ hRunning, fun answer r hResult => ?_⟩
      have hNext := hTracked.2 answer trivial
      cases hProgram : next answer with
      | perform other rest =>
          rw [hProgram] at hResult
          cases hResult
      | done result =>
          rw [hProgram] at hNext hResult
          cases hResult
          exact hNext
  | _ =>
      rw [hStage] at hTracked
      exact hTracked.1.elim

theorem keepAliveOps_of_effect (hEffect : Effect w op answer w') (hEntering : op.entering = false) :
    w'.keepAliveOps = w.keepAliveOps := by
  cases hEffect with
  | keepAliveSet | keepAliveDelete => cases hEntering
  | _ => rfl

/-- A request that does not hold the entry and does not make one has nothing to do with it. -/
theorem aside_of_request (hPermits : point.permits manager serviceID op)
    (hHolds : (Stage.request direction point).holds = false) (hEntered : op.entered = none)
    (answered : exec nodes i op fail w = some (answer, w')) :
    (Stage.request direction (point.advance direction op answer)).holds = false ∧ op.entering = false := by
  cases point with
  | fresh =>
      obtain rfl : op = .serviceInspect serviceID := hPermits
      refine ⟨?_, rfl⟩
      cases answer with
      | error err => rfl
      | ok service =>
          simp only [Point.advance, Point.inspected]
          repeat' split
          all_goals rfl
  | looking service replicas =>
      rcases hPermits with rfl | rfl | ⟨rfl, spec, rfl, _⟩
      · cases answer <;> exact ⟨rfl, rfl⟩
      · exact answer.elim
      · cases answer <;> exact ⟨rfl, rfl⟩
  | sending replicas ch =>
      obtain rfl : op = .chanSend ch := hPermits
      cases fail <;> cases answered
  | cancelling | started => cases hHolds
  | constraining service replicas =>
      rcases hPermits with rfl | rfl | ⟨_, spec, rfl, _⟩
      · cases answer <;> exact ⟨rfl, rfl⟩
      · exact answer.elim
      · cases answer <;> exact ⟨rfl, rfl⟩
  | starting service replicas =>
      rcases hPermits with rfl | rfl
      · cases answer <;> exact ⟨rfl, rfl⟩
      · exact ⟨rfl, rfl⟩
  | naming service replicas ch =>
      obtain rfl : op = .keepAliveOpsSet manager serviceID ch := hPermits
      cases hEntered
  | committed newReplicas =>
      obtain rfl : op = .serviceInspect serviceID := hPermits
      cases answer <;> exact ⟨rfl, rfl⟩
  | writing current newReplicas =>
      rcases hPermits with rfl | ⟨spec, rfl, _⟩
      · exact answer.elim
      · cases answer <;> exact ⟨rfl, rfl⟩
  | succeeded | kept | failed => exact hPermits.elim

theorem naming_of_entered (hPermits : point.permits manager serviceID op) (hEntered : op.entered = some ch) :
    ∃ service replicas, point = .naming service replicas ch ∧ op = .keepAliveOpsSet manager serviceID ch := by
  cases op with
  | keepAliveOpsSet ip id ch' =>
      cases hEntered
      cases point with
      | naming service replicas ch'' =>
          cases hPermits
          exact ⟨service, replicas, rfl, rfl⟩
      | fresh | sending | cancelling | started | committed => cases hPermits
      | starting => rcases hPermits with hOp | hOp <;> cases hOp
      | looking | constraining => rcases hPermits with hOp | hOp | ⟨_, _, hOp, _⟩ <;> cases hOp
      | writing => rcases hPermits with hOp | ⟨_, hOp, _⟩ <;> cases hOp
      | succeeded | kept | failed => exact hPermits.elim
  | _ => cases hEntered

/-- The part of the invariant about the entry, for a given state. -/
def Ordered (nodes : Nodes) (manager serviceID : String) (s : State) : Prop :=
  Orderly ((stages nodes).running s) ((s.world.keepAliveOps (manager, serviceID)).isSome = true)
    (AtMostOne serviceID s.world) fun ch => Undemanded serviceID ch s

theorem origin_of_resume {world : World} {stage : Stage} (hLogged : Machine.Logged s)
    (atOp : s.threads[i]? = some ⟨call, .perform op next⟩) (hFork : (machine nodes).forks op = none)
    (hStage : ((stages nodes).phase s.log i call).advance op answer = stage) :
    ∀ j b, (stages nodes).running ((machine nodes).resume { s with world := world } i call op next answer) j =
      some b → (j = i ∧ b = stage) ∨ (j ≠ i ∧ (stages nodes).running s j = some b) := by
  intro j b hb
  rcases (stages nodes).running_resume (machine nodes) (s := { s with world := world }) atOp hLogged hb with
    ⟨hSelf, rfl⟩ | hOld | ⟨_, child, hChild, _⟩
  · exact Or.inl ⟨hSelf, hStage⟩
  · exact Or.inr hOld
  · cases hFork.symm.trans hChild

theorem forks_eq_none (h : op.entering = false) : (machine nodes).forks op = none := by
  cases op <;> first | rfl | cases h

theorem DemandInv.ordered_request {world : World} (hInv : DemandInv nodes manager serviceID s)
    (hGuard : Uncontested nodes manager serviceID s (.step i fail))
    (atOp : s.threads[i]? = some ⟨.request ip serviceID direction, .perform op next⟩)
    (answered : exec nodes i op fail s.world = some (answer, world)) :
    Ordered nodes manager serviceID
      ((machine nodes).resume { s with world := world } i (.request ip serviceID direction) op next answer) := by
  obtain ⟨⟨rfl, _⟩, point, hStage, hPermits, hStanding, hEnds⟩ := hInv.request atOp
  have hEffect := effect_of_exec answered
  have hAt := (stages nodes).running_of_perform atOp
  rw [hStage] at hAt
  have hAdvance : ((stages nodes).phase s.log i (.request ip serviceID direction)).advance op answer =
      .request direction (point.advance direction op answer) := by rw [hStage]; rfl
  have quiet {ch : Nat} (hContends : (Stage.request direction point).contends = false)
      (hClean : Undemanded serviceID ch s) : Undemanded serviceID ch ((machine nodes).resume
        { s with world := world } i (.request ip serviceID direction) op next answer) :=
    undemanded_resume hInv.logged atOp (not_asks_advance hPermits hStanding (hEnds answer) hContends) hClean
  cases hHolds : (Stage.request direction point).holds with
  | false =>
      cases hEntered : op.entered with
      | none =>
          have hOutside : (Stage.request direction (point.advance direction op answer)).holds = false ∧
              op.entering = false := aside_of_request hPermits hHolds hEntered answered
          obtain ⟨hAside, hEntering⟩ := hOutside
          refine hInv.orderly.move hAt (origin_of_resume hInv.logged atOp (forks_eq_none hEntering) hAdvance)
            ?_ ?_ ?_ ?_
          · simp [hAside]
          · intro ch hAwaited
            exact absurd (Stage.holds_of_awaited hAwaited) (by simp [hAside])
          · intro j b _ _ _ hSome
            rwa [Machine.resume_world, keepAliveOps_of_effect hEffect hEntering]
          · intro j b ch hj hb _
            obtain ⟨hSmall, hClean, hOthers⟩ := hInv.orderly.awaited j b ch hj hb
            have hContends := hOthers i _ hAt
            have hSome := hInv.orderly.entered j b hj (Stage.holds_of_awaited hb)
            exact ⟨not_contends_advance hPermits hStanding answered hSmall hSome hContends hHolds,
              atMostOne_advance hPermits hStanding hEffect hSmall hContends, quiet hContends hClean⟩
      | some ch =>
          obtain ⟨hNone, hSmall, hClean, hOthers⟩ := (hGuard _ atOp).1 ch hEntered
          obtain ⟨service, replicas, rfl, rfl⟩ := naming_of_entered hPermits hEntered
          cases hEffect with
          | none inert => exact inert.elim
          | keepAliveSet ip' id ch =>
              have hSome : ((s.world.setKeepAlive (ip, serviceID) (some ch)).keepAliveOps
                  (ip, serviceID)).isSome = true := by simp
              refine hInv.orderly.enter (by simp [hNone]) (origin_of_resume hInv.logged atOp rfl hAdvance)
                hSome rfl (fun j b hj => ?_) ?_
              · obtain ⟨thread, hThread, _⟩ := Option.bind_eq_some_iff.mp hj
                exact hOthers j (List.getElem?_eq_some_iff.mp hThread).1 b hj
              · intro ch' hAwaited
                cases hAwaited
                exact ⟨hSmall, quiet rfl hClean⟩
  | true =>
      cases point with
      | cancelling replicas =>
          obtain rfl : op = .keepAliveOpsDelete ip serviceID := hPermits
          refine hInv.orderly.move hAt (origin_of_resume hInv.logged atOp rfl hAdvance) ?_ ?_ ?_ ?_
          · exact fun _ => rfl
          · exact fun _ hAwaited => nomatch hAwaited
          · intro j b hj hb hSelf _
            exact nomatch hSelf (hInv.orderly.sole j i b _ hj hAt hb rfl)
          · intro j b ch hj hb hSelf
            have hSame := hInv.orderly.sole j i b _ hj hAt (Stage.holds_of_awaited hb) rfl
            exact nomatch hSelf hSame
      | started ch =>
          obtain rfl : op = .goKeepAlive ip serviceID ch := hPermits
          cases hEffect with
          | none inert =>
              refine hInv.orderly.pass hAt rfl (y := s.threads.length) (b := .elapsing ch) ?_ rfl ?_ ?_
              · intro k c hk
                rcases (stages nodes).running_resume (machine nodes) atOp hInv.logged hk with
                  ⟨_, rfl⟩ | hOld | ⟨hNew, child, hChild, rfl⟩
                · rw [hStage]
                  exact Or.inl ⟨rfl, rfl⟩
                · exact Or.inr (Or.inr hOld)
                · cases hChild
                  exact Or.inr (Or.inl ⟨hNew, rfl⟩)
              · exact fun _ => id
              · exact fun _ _ => quiet rfl
      | _ => cases hHolds

theorem updated_eq_false (h : op.updateOf serviceID = none) : updated serviceID op answer = false := by
  cases op with
  | serviceUpdate id version spec =>
      have hOther : id ≠ serviceID := by
        intro hSame
        simp [Op.updateOf, hSame] at h
      simp [updated, hOther]
  | _ => rfl

/-- A closing goroutine stays there without touching Docker, or has nothing more to do
with the replica count. -/
theorem closing_advance (serviceID : String) (op : Op) (answer : op.Answer) :
    (Stage.advance (.closing ch) op answer = .closing ch ∧ op.updateOf serviceID = none) ∨
      ((Stage.advance (.closing ch) op answer).awaited = none ∧
        (Stage.advance (.closing ch) op answer).contends = false) := by
  cases op with
  | serviceUpdate => cases answer <;> exact Or.inr ⟨rfl, rfl⟩
  | _ => exact Or.inl ⟨rfl, rfl⟩

theorem DemandInv.ordered_keepAlive {world : World} (hInv : DemandInv nodes manager serviceID s) {id : String}
    (atOp : s.threads[i]? = some ⟨.keepAlive ip id ch, .perform op next⟩)
    (answered : exec nodes i op fail s.world = some (answer, world)) :
    Ordered nodes manager serviceID
      ((machine nodes).resume { s with world := world } i (.keepAlive ip id ch) op next answer) := by
  obtain ⟨rfl, rfl⟩ := hInv.kinds i _ atOp
  have hPermits : stagePermits nodes (.keepAlive ip id ch)
      ((stages nodes).phase s.log i (.keepAlive ip id ch)) op := (hInv.tracked i _ atOp).1
  have hEffect := effect_of_exec answered
  have hAt := (stages nodes).running_of_perform atOp
  have quiet {ch' : Nat} (hClean : Undemanded id ch' s) : Undemanded id ch' ((machine nodes).resume
      { s with world := world } i (.keepAlive ip id ch) op next answer) :=
    undemanded_resume hInv.logged atOp rfl hClean
  cases hStage : (stages nodes).phase s.log i (.keepAlive ip id ch) with
  | elapsing ch' =>
      rw [hStage] at hAt hPermits
      obtain ⟨rfl, keepAlive, rfl⟩ := hPermits
      cases fail with
      | true => cases answered
      | false =>
          cases answered
          have hAdvance : ((stages nodes).phase s.log i (.keepAlive ip id ch')).advance
              (.selectTimer keepAlive ch') .timer = .closing ch' := by rw [hStage]; rfl
          refine hInv.orderly.move hAt (origin_of_resume hInv.logged atOp rfl hAdvance) ?_ ?_ ?_ ?_
          · exact fun _ => rfl
          · exact fun _ hAwaited => hAwaited
          · exact fun _ _ _ _ _ hSome => hSome
          · intro j b c hj hb _
            obtain ⟨hSmall, hClean, _⟩ := hInv.orderly.awaited j b c hj hb
            exact ⟨rfl, hSmall, quiet hClean⟩
  | closing ch' =>
      rw [hStage] at hAt hPermits
      obtain ⟨rfl, hEntering⟩ := hPermits
      have hAdvance : ((stages nodes).phase s.log i (.keepAlive ip id ch')).advance op answer =
          Stage.advance (.closing ch') op answer := by rw [hStage]
      refine hInv.orderly.move hAt (origin_of_resume hInv.logged atOp (forks_eq_none hEntering) hAdvance)
        ?_ ?_ ?_ ?_
      · exact fun _ => rfl
      · intro c hAwaited
        rcases closing_advance id op answer with ⟨hStay, _⟩ | ⟨hNone, _⟩
        · rwa [hStay] at hAwaited
        · cases hNone.symm.trans hAwaited
      · intro j b _ _ _ hSome
        rwa [Machine.resume_world, keepAliveOps_of_effect hEffect hEntering]
      · intro j b c hj hb hSelf
        have hAwaited := hSelf (hInv.orderly.sole j i b _ hj hAt (Stage.holds_of_awaited hb) rfl)
        obtain ⟨hSmall, hClean, _⟩ := hInv.orderly.awaited j b c hj hb
        rcases closing_advance id op answer with ⟨hStay, hOther⟩ | ⟨hNone, _⟩
        · refine ⟨by rw [hStay]; rfl, ?_, quiet hClean⟩
          rwa [AtMostOne, Machine.resume_world, World.replicas, services_of_effect hEffect hOther]
        · cases hNone.symm.trans hAwaited
  | deleting =>
      rw [hStage] at hAt hPermits
      obtain rfl : op = .keepAliveOpsDelete ip id := hPermits
      have hAdvance : ((stages nodes).phase s.log i (.keepAlive ip id ch)).advance
          (.keepAliveOpsDelete ip id) answer = .finished := by rw [hStage]; rfl
      refine hInv.orderly.move hAt (origin_of_resume hInv.logged atOp rfl hAdvance) ?_ ?_ ?_ ?_
      · exact fun _ => rfl
      · intro _ hAwaited
        cases hAwaited
      · intro j b hj hb hSelf _
        cases hSelf (hInv.orderly.sole j i b _ hj hAt hb rfl)
      · intro j b c hj hb hSelf
        cases hSelf (hInv.orderly.sole j i b _ hj hAt (Stage.holds_of_awaited hb) rfl)
  | _ =>
      rw [hStage] at hPermits
      exact hPermits.elim

theorem DemandInv.ordered_listener {world : World} (hInv : DemandInv nodes manager serviceID s)
    (hManager : (nodes.info manager).autoscalerManager = true)
    (hGuard : Uncontested nodes manager serviceID s (.step i fail))
    (atOp : s.threads[i]? = some ⟨.listener ip, .perform op next⟩)
    (answered : exec nodes i op fail s.world = some (answer, world)) :
    Ordered nodes manager serviceID
      ((machine nodes).resume { s with world := world } i (.listener ip) op next answer) := by
  obtain rfl : ip = manager := hInv.kinds i _ atOp
  have hPermits : stagePermits nodes (.listener ip) ((stages nodes).phase s.log i (.listener ip)) op :=
    (hInv.tracked i _ atOp).1
  have hEffect := effect_of_exec answered
  have hAt := (stages nodes).running_of_perform atOp
  cases hStage : (stages nodes).phase s.log i (.listener ip) with
  | listening =>
      rw [hStage] at hAt hPermits
      have hEntering : op.entering = false := hPermits hManager
      have hAdvance : ((stages nodes).phase s.log i (.listener ip)).advance op answer = .listening := by
        rw [hStage]
        cases op <;> rfl
      refine hInv.orderly.move hAt (origin_of_resume hInv.logged atOp (forks_eq_none hEntering) hAdvance)
        ?_ ?_ ?_ ?_
      · exact id
      · exact fun _ => id
      · intro j b _ _ _ hSome
        rwa [Machine.resume_world, keepAliveOps_of_effect hEffect hEntering]
      · intro j b c hj hb _
        obtain ⟨hSmall, hClean, _⟩ := hInv.orderly.awaited j b c hj hb
        have hAside : world.services serviceID = s.world.services serviceID ∧
            updated serviceID op answer = false := by
          cases hUpdate : op.updateOf serviceID with
          | none => exact ⟨services_of_effect hEffect hUpdate, updated_eq_false hUpdate⟩
          | some version =>
              obtain ⟨spec, rfl⟩ := Op.updateOf_eq_some_iff.mp hUpdate
              rcases update_of_exec answered with ⟨hAccepts, _⟩ | ⟨_, ⟨err, rfl⟩, rfl⟩
              · have hj' : j < s.threads.length := by
                  obtain ⟨thread, hThread, _⟩ := Option.bind_eq_some_iff.mp hj
                  exact (List.getElem?_eq_some_iff.mp hThread).1
                cases ((hGuard _ atOp).2 version hUpdate hAccepts j hj' b hj).symm.trans hb
              · exact ⟨rfl, by simp [updated, Except.isOk, Except.toBool]⟩
        refine ⟨rfl, ?_, undemanded_resume hInv.logged atOp hAside.2 hClean⟩
        rwa [AtMostOne, Machine.resume_world, World.replicas, hAside.1]
  | _ =>
      rw [hStage] at hPermits
      exact hPermits.elim

/-- What a keep-alive does besides sleeping: nothing with channels or the table, until it
deletes its entry. -/
theorem op_of_keepAlive {id : String} {stage : Stage}
    (hPermits : stagePermits nodes (.keepAlive ip id ch) stage op) :
    (stage = .elapsing ch ∧ ∃ keepAlive, op = .selectTimer keepAlive ch) ∨
      op.entering = false ∨ op = .keepAliveOpsDelete ip id := by
  cases stage with
  | elapsing ch' =>
      obtain ⟨rfl, hOp⟩ := hPermits
      exact Or.inl ⟨rfl, hOp⟩
  | closing ch' => exact Or.inr (Or.inl hPermits.2)
  | deleting => exact Or.inr (Or.inr hPermits)
  | request | finished | listening => exact hPermits.elim

theorem entering_of_listener {stage : Stage} (hManager : (nodes.info ip).autoscalerManager = true)
    (hPermits : stagePermits nodes (.listener ip) stage op) : op.entering = false := by
  cases stage with
  | listening => exact hPermits hManager
  | _ => exact hPermits.elim

theorem DemandInv.sender (hInv : DemandInv nodes manager serviceID s)
    (hManager : (nodes.info manager).autoscalerManager = true) {sent : Unit → Code Result}
    (atOp : s.threads[i]? = some ⟨call, .perform (Op.chanSend ch) sent⟩) :
    ∃ ip id direction replicas, call = .request ip id direction ∧
      (stages nodes).phase s.log i call = .request direction (.sending replicas ch) ∧ direction = "over" := by
  have hPermits : stagePermits nodes call ((stages nodes).phase s.log i call) (.chanSend ch) :=
    (hInv.tracked i _ atOp).1
  cases call with
  | request ip id direction =>
      obtain ⟨_, point, hStage, hPoint, hStanding, _⟩ := hInv.request atOp
      cases point with
      | sending replicas ch' =>
          cases hPoint
          exact ⟨ip, id, direction, replicas, rfl, hStage, hStanding⟩
      | fresh | cancelling | naming | started | committed => cases hPoint
      | starting => rcases hPoint with hOp | hOp <;> cases hOp
      | looking | constraining => rcases hPoint with hOp | hOp | ⟨_, _, hOp, _⟩ <;> cases hOp
      | writing => rcases hPoint with hOp | ⟨_, hOp, _⟩ <;> cases hOp
      | succeeded | kept | failed => exact hPoint.elim
  | keepAlive ip id ch' =>
      rcases op_of_keepAlive hPermits with ⟨_, _, hOp⟩ | hOp | hOp <;> cases hOp
  | listener ip =>
      obtain rfl : ip = manager := hInv.kinds i _ atOp
      cases entering_of_listener hManager hPermits

theorem DemandInv.receiver (hInv : DemandInv nodes manager serviceID s)
    (hManager : (nodes.info manager).autoscalerManager = true) {keepAlive : Nat}
    {received : SelectCase → Code Result}
    (atOp : s.threads[i]? = some ⟨call, .perform (Op.selectTimer keepAlive ch) received⟩) :
    ∃ ip id, call = .keepAlive ip id ch ∧ (stages nodes).phase s.log i call = .elapsing ch := by
  have hPermits : stagePermits nodes call ((stages nodes).phase s.log i call) (.selectTimer keepAlive ch) :=
    (hInv.tracked i _ atOp).1
  cases call with
  | request ip id direction =>
      obtain ⟨_, point, _, hPoint, _, _⟩ := hInv.request atOp
      cases Point.reaches_of_permits hPoint
  | keepAlive ip id ch' =>
      rcases op_of_keepAlive hPermits with ⟨hStage, _, hOp⟩ | hOp | hOp
      · cases hOp
        exact ⟨ip, id, rfl, hStage⟩
      · cases hOp
      · cases hOp
  | listener ip =>
      obtain rfl : ip = manager := hInv.kinds i _ atOp
      cases entering_of_listener hManager hPermits

/-- A send on the channel of a keep-alive: the goroutine ends and the sender holds the entry. -/
theorem DemandInv.meet_step {j keepAlive : Nat} {sender receiver : Call}
    {sent : signature.Answer (Op.chanSend ch) → Code Result}
    {received : signature.Answer (Op.selectTimer keepAlive ch) → Code Result}
    (hInv : DemandInv nodes manager serviceID s)
    (hManager : (nodes.info manager).autoscalerManager = true)
    (hTracked : Machine.EachThread (stages nodes).Tracked t) (apart : i ≠ j)
    (atSend : s.threads[i]? = some ⟨sender, .perform (Op.chanSend ch) sent⟩)
    (atReceive : s.threads[j]? = some ⟨receiver, .perform (Op.selectTimer keepAlive ch) received⟩)
    (waits : ((machine nodes).resume s i sender (Op.chanSend ch) sent ()).threads[j]? =
      some ⟨receiver, .perform (Op.selectTimer keepAlive ch) received⟩)
    (ht : t = (machine nodes).resume ((machine nodes).resume s i sender (Op.chanSend ch) sent ()) j receiver
      (Op.selectTimer keepAlive ch) received .received) : DemandInv nodes manager serviceID t := by
  obtain ⟨ip, id, direction, replicas, rfl, hSending, hOver⟩ := hInv.sender hManager atSend
  obtain ⟨ip', id', rfl, hElapsing⟩ := hInv.receiver hManager atReceive
  have hSent : Placed nodes manager serviceID
      ((machine nodes).resume s i (.request ip id direction) (Op.chanSend ch) sent ()) :=
    hInv.toPlaced.resume atSend (.none trivial) nofun (by rw [hSending]; exact hOver)
  have hWaiting : (stages nodes).phase ((machine nodes).resume s i (.request ip id direction)
      (Op.chanSend ch) sent ()).log j (.keepAlive ip' id' ch) = .elapsing ch :=
    (Tracking.phase_append_other _ apart).trans hElapsing
  have hPlaced : Placed nodes manager serviceID t := by
    rw [ht]
    apply hSent.resume waits (.none trivial) nofun
    rw [hWaiting]
    trivial
  refine { toPlaced := hPlaced, tracked := hTracked, orderly := ?_ }
  have hAt := (stages nodes).running_of_perform atReceive
  rw [hElapsing] at hAt
  rw [ht]
  refine hInv.orderly.pass hAt rfl (y := i) (b := .request direction (.cancelling replicas)) ?_ rfl ?_ ?_
  · intro k c hk
    rcases (stages nodes).running_resume (machine nodes) waits hSent.logged hk with
      ⟨_, rfl⟩ | ⟨hOther, hBefore⟩ | ⟨_, _, hChild, _⟩
    · rw [hWaiting]
      exact Or.inl ⟨rfl, rfl⟩
    · rcases (stages nodes).running_resume (machine nodes) atSend hInv.logged hBefore with
        ⟨hSelf, rfl⟩ | ⟨_, hOld⟩ | ⟨_, _, hChild, _⟩
      · rw [hSending]
        exact Or.inr (Or.inl ⟨hSelf, rfl⟩)
      · exact Or.inr (Or.inr ⟨hOther, hOld⟩)
      · cases hChild
    · cases hChild
  · exact fun _ hAwaited => nomatch hAwaited
  · exact fun _ hAwaited => nomatch hAwaited

theorem undemanded_invoke {started : Call} (hLogged : Machine.Logged s) (h : Undemanded serviceID ch s) :
    Undemanded serviceID ch { s with threads := s.threads ++ [(machine nodes).spawn started] } := by
  intro event hEvent
  have hMem : event ∈ s.log := (List.dropWhile_sublist _).subset hEvent
  rw [demand, List.getElem?_append_left (hLogged event hMem)]
  exact h event hEvent

theorem child_of_forks {child : Call} (hPermits : point.permits manager serviceID op)
    (hFork : (machine nodes).forks op = some child) : Kind manager serviceID child := by
  cases op with
  | goKeepAlive ip id ch =>
      cases hFork
      cases point with
      | started ch' =>
          cases hPermits
          exact ⟨rfl, rfl⟩
      | fresh | sending | cancelling | naming | committed => cases hPermits
      | starting => rcases hPermits with hOp | hOp <;> cases hOp
      | looking | constraining => rcases hPermits with hOp | hOp | ⟨_, _, hOp, _⟩ <;> cases hOp
      | writing => rcases hPermits with hOp | ⟨_, hOp, _⟩ <;> cases hOp
      | succeeded | kept | failed => exact hPermits.elim
  | _ => cases hFork

theorem keepAlive_quiet {id : String} {stage : Stage}
    (hPermits : stagePermits nodes (.keepAlive ip id ch) stage op) :
    (machine nodes).forks op = none ∧ Known serviceID w (stage.advance op answer) := by
  cases stage with
  | elapsing ch' =>
      obtain ⟨_, keepAlive, rfl⟩ := hPermits
      cases answer <;> exact ⟨rfl, trivial⟩
  | closing ch' =>
      refine ⟨forks_eq_none hPermits.2, ?_⟩
      cases op with
      | serviceUpdate => cases answer <;> trivial
      | _ => trivial
  | deleting =>
      obtain rfl : op = .keepAliveOpsDelete ip id := hPermits
      exact ⟨rfl, trivial⟩
  | request | finished | listening => exact hPermits.elim

theorem listener_quiet {stage : Stage} (hManager : (nodes.info ip).autoscalerManager = true)
    (hPermits : stagePermits nodes (.listener ip) stage op) :
    (machine nodes).forks op = none ∧ Known serviceID w (stage.advance op answer) := by
  cases stage with
  | listening => exact ⟨forks_eq_none (hPermits hManager), by cases op <;> trivial⟩
  | _ => exact hPermits.elim

theorem DemandInv.step (hManager : (nodes.info manager).autoscalerManager = true)
    (hNode : nodes.ips = [manager]) (hInv : DemandInv nodes manager serviceID s)
    (hAdmits : Machine.Admits (ForService nodes serviceID) s action)
    (hGuard : Uncontested nodes manager serviceID s action)
    (hStep : (machine nodes).step s action = some t) : DemandInv nodes manager serviceID t := by
  have hTracked := stages_step hInv.logged hInv.tracked hStep
  cases (machine nodes).stepCase_of_step hStep with
  | invoke call =>
      have hKind : Kind manager serviceID call ∧ ∃ direction,
          (stages nodes).initial call = .request direction .fresh := by
        cases call with
        | request ip id direction =>
            obtain ⟨hIp, hId⟩ := hAdmits
            rw [hNode] at hIp
            exact ⟨⟨List.mem_singleton.mp hIp, hId⟩, direction, rfl⟩
        | keepAlive | listener => exact hAdmits.elim
      obtain ⟨hKind, direction, hInitial⟩ := hKind
      refine { logged := (machine nodes).logged_step hInv.logged hStep, kinds := ?_, standing := ?_,
               tracked := hTracked, orderly := ?_ }
      · intro j thread hThread
        rcases (machine nodes).invoke_threads.mp hThread with hOld | ⟨_, rfl⟩
        · exact hInv.kinds j thread hOld
        · exact hKind
      · intro j stage hStage
        rcases (stages nodes).running_invoke (machine nodes) hInv.logged hStage with hOld | ⟨_, rfl⟩
        · exact hInv.standing j stage hOld
        · rw [hInitial]
          trivial
      · refine hInv.orderly.keep (fun k c hk => ?_) fun ch => undemanded_invoke hInv.logged
        rcases (stages nodes).running_invoke (machine nodes) hInv.logged hk with hOld | ⟨_, rfl⟩
        · exact Or.inr hOld
        · rw [hInitial]
          exact Or.inl ⟨rfl, rfl⟩
  | @disturb env world happens =>
      obtain ⟨hEntries, hServices⟩ := disturb_eq happens
      refine { logged := hInv.logged, kinds := hInv.kinds, standing := fun j stage hStage => ?_,
               tracked := hTracked, orderly := ?_ }
      · have hBefore := hInv.standing j stage hStage
        cases stage with
        | request direction point =>
            cases point with
            | constraining service replicas =>
                rw [Known, Current, hServices]
                exact hBefore
            | _ => exact hBefore
        | _ => exact hBefore
      · show Orderly _ ((world.keepAliveOps (manager, serviceID)).isSome = true) (AtMostOne serviceID world) _
        rw [hEntries, AtMostOne, World.replicas, hServices]
        exact hInv.orderly
  | meet atSend atReceive apart met waits =>
      obtain ⟨ch, keepAlive, rfl, rfl⟩ := channel_of_meet met
      have hAnswers := met
      simp only [machine, meet, ↓reduceIte, Option.some.injEq] at hAnswers
      cases hAnswers
      exact hInv.meet_step hManager hTracked apart atSend atReceive waits rfl
  | @step i fail call op next answer world atOp answered =>
      have hEffect := effect_of_exec answered
      cases call with
      | request ip id direction =>
          obtain ⟨⟨rfl, rfl⟩, point, hStage, hPermits, hStanding, _⟩ := hInv.request atOp
          have hPlaced := hInv.toPlaced.resume atOp hEffect (fun child => child_of_forks hPermits)
            (by rw [hStage]; exact hStanding.advance hPermits answered)
          exact { toPlaced := hPlaced, tracked := hTracked, orderly := hInv.ordered_request hGuard atOp answered }
      | keepAlive ip id ch =>
          obtain ⟨hFork, hStanding⟩ := keepAlive_quiet (hInv.tracked i _ atOp).1
          have hPlaced := hInv.toPlaced.resume atOp hEffect
            (fun child hChild => absurd (hFork.symm.trans hChild) (Option.some_ne_none child).symm) hStanding
          exact { toPlaced := hPlaced, tracked := hTracked, orderly := hInv.ordered_keepAlive atOp answered }
      | listener ip =>
          obtain rfl : ip = manager := hInv.kinds i _ atOp
          obtain ⟨hFork, hStanding⟩ := listener_quiet hManager (hInv.tracked i _ atOp).1
          have hPlaced := hInv.toPlaced.resume atOp hEffect
            (fun child hChild => absurd (hFork.symm.trans hChild) (Option.some_ne_none child).symm) hStanding
          exact { toPlaced := hPlaced, tracked := hTracked,
                  orderly := hInv.ordered_listener hManager hGuard atOp answered }

theorem DemandInv.start {w : World} (hNode : nodes.ips = [manager]) :
    DemandInv nodes manager serviceID (Cluster.start nodes w) := by
  have listener (i : Nat) (thread : Thread signature Call Result)
    (hThread : (Cluster.start nodes w).threads[i]? = some thread) :
      thread = ⟨.listener manager, listenForEvents nodes manager⟩ := by
    obtain ⟨ip, hIp, rfl⟩ := List.mem_map.mp (List.mem_of_getElem? hThread)
    rw [hNode] at hIp
    rw [List.mem_singleton.mp hIp]
  have listening (i : Nat) (stage : Stage) (hStage : (stages nodes).running (Cluster.start nodes w) i =
    some stage) :
      stage = .listening := by
    obtain ⟨thread, hThread, hPhase⟩ := Option.bind_eq_some_iff.mp hStage
    obtain rfl := listener i thread hThread
    exact (Option.some.inj hPhase).symm
  refine { logged := Machine.logged_of_nil rfl, kinds := ?_, standing := ?_, tracked := ?_, orderly := ?_ }
  · intro i thread hThread
    rw [listener i thread hThread]
    rfl
  · intro i stage hStage
    rw [listening i stage hStage]
    trivial
  · intro i thread hThread
    rw [listener i thread hThread]
    exact follows_stages_listener
  · constructor
    · intro i j a b hi _ hHolds _
      rw [listening i a hi] at hHolds
      cases hHolds
    · intro i a hi hHolds
      rw [listening i a hi] at hHolds
      cases hHolds
    · intro i a ch hi hAwaited
      rw [listening i a hi] at hAwaited
      cases hAwaited

/-- A keep-alive that is about to set the replicas to 0 is awaited. -/
theorem DemandInv.notOverridden (hInv : DemandInv nodes manager serviceID s) :
    NotOverridden serviceID s action := by
  cases action with
  | step i fail =>
      intro thread hThread ch hScales
      obtain ⟨call, program⟩ := thread
      unfold scalesDown at hScales
      split at hScales
      · next ip id ch' hCall =>
          obtain rfl : call = .keepAlive ip id ch' := hCall
          obtain ⟨version, hUpdate, rfl⟩ := Option.map_eq_some_iff.mp hScales
          obtain ⟨op, hHead, hVersion⟩ := Option.bind_eq_some_iff.mp hUpdate
          obtain ⟨next, hProgram⟩ := Program.head_eq_some_iff.mp hHead
          obtain rfl : program = .perform op next := hProgram
          obtain ⟨spec, rfl⟩ := Op.updateOf_eq_some_iff.mp hVersion
          have hPermits := (hInv.tracked i _ hThread).1
          have hAt := (stages nodes).running_of_perform hThread
          cases hStage : (stages nodes).phase s.log i (.keepAlive ip id ch') with
          | closing ch =>
              rw [hStage] at hPermits hAt
              obtain ⟨rfl, _⟩ := hPermits
              obtain ⟨hSmall, hUndemanded, _⟩ := hInv.orderly.awaited i _ ch hAt rfl
              exact ⟨hSmall, hUndemanded⟩
          | elapsing ch =>
              rw [hStage] at hPermits
              obtain ⟨_, keepAlive, hOp⟩ := hPermits
              cases hOp
          | deleting =>
              rw [hStage] at hPermits
              cases hPermits
          | request | finished | listening =>
              rw [hStage] at hPermits
              exact hPermits.elim
      · cases hScales
  | invoke | meet | disturb => trivial

end Step

end Invariant

/-- In a run in which no entered keep-alive is contested, no keep-alive sets a service to 0
replicas against newer demand. -/
theorem notOverridden_of_uncontested {nodes : Nodes} {manager serviceID : String} {w : World}
    {actions : List Action}
    (hNode : nodes.ips = [manager]) (hManager : (nodes.info manager).autoscalerManager = true)
    (hMeets : Meets (machine nodes).step (fun s action => OneServiceRun nodes serviceID s action ∧
      Uncontested nodes manager serviceID s action) (start nodes w) actions) :
    Meets (machine nodes).step (NotOverridden serviceID) (start nodes w) actions :=
  meets_of_invariant (fun _ _ _ hInv hGuard hStep => hInv.step hManager hNode hGuard.1.1 hGuard.2 hStep)
    (fun _ _ hInv _ => hInv.notOverridden) (DemandInv.start hNode) hMeets

/-- A scale-down that nothing disturbs. -/
def undisturbed : List Action :=
  .invoke (.request "manager" "web" "under") ::
    (List.replicate 5 (.step 1 false) ++ List.replicate 8 (.step 2 false))

theorem notOverridden_undisturbed :
    Meets (machine alone).step (NotOverridden "web") (start alone (awake (web 1))) undisturbed :=
  notOverridden_of_uncontested rfl rfl (show Meets (machine alone).step (fun s action =>
    OneServiceRun alone "web" s action ∧ Uncontested alone "manager" "web" s action)
      (start alone (awake (web 1))) undisturbed by decide)

end Cluster

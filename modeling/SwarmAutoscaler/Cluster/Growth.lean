import SwarmAutoscaler.Cluster.Footprint
import SwarmAutoscaler.Cluster.Work

/-! How far the replicas of a service can grow. An "over" request and an event that wakes
the service are worth one replica each; the count never gets above what they are worth. -/
namespace Cluster

open Docker Process

/-- By how much an update would raise the count above the level. -/
def raise (serviceID : String) (level : Nat) : Op → Nat
  | .serviceUpdate id _ spec => if id = serviceID then ((spec.replicas?.map UInt64.toNat).getD 0) - level else 0
  | _ => 0

/-- Docker names services by their IDs, and the service has no more replicas than the level. -/
def Below (serviceID : String) (level : Nat) (op : Op) : op.Answer → Prop :=
  match op with
  | .serviceInspect id => fun answer => ∀ service, answer = .ok service → service.id = id ∧
      (id = serviceID → ∀ replicas ∈ service.spec.replicas?, replicas.toNat ≤ level)
  | _ => fun _ => True

/-- The code raises the level by no more than the credit. -/
abbrev Climber {Value : Type} (serviceID : String) (level credit : Nat) (program : Code Value) : Prop :=
  program.Climbs (raise serviceID) (Below serviceID) level credit

/-- What a request is worth. -/
def worth (serviceID : String) : Call → Nat
  | .request _ id direction => if id = serviceID ∧ direction = "over" then 1 else 0
  | _ => 0

section Code

variable {serviceID id ip direction : String} {level : Nat} {self : Instance} {service : Service}
  {replicas : UInt64} {nodes : Nodes} {port : UInt32}

/-- Operations that are no update are free. -/
theorem raise_free {op : Op} (h : op.updateOf serviceID = none) (level : Nat) : raise serviceID level op = 0 := by
  cases op with
  | serviceUpdate id version spec => exact if_neg (by simpa [Op.updateOf] using h)
  | _ => rfl

/-- The only update that can raise a count is that of `scaleTo`, and its credit is what the
count exceeds the level by. -/
theorem climbs_scaleTo {credit : Nat} (hReplicas : id = serviceID → replicas.toNat ≤ level + credit) :
    Climber serviceID level credit (scaleTo id replicas) := by
  intro higher hHigher
  refine ⟨credit, Nat.le_of_eq (Nat.zero_add _), fun answer _ => ?_⟩
  cases answer with
  | error err => trivial
  | ok service =>
      dsimp only
      split
      · exact fun top hTop => ⟨credit, Nat.le_of_eq (Nat.zero_add _), fun never => nomatch never⟩
      · intro top hTop
        refine ⟨0, ?_, fun answer _ => by cases answer <;> trivial⟩
        rw [raise, ServiceSpec.replicas?_setReplicas]
        split
        · next hSame =>
            have hBound := hReplicas hSame
            have hLevel : higher + raise serviceID higher (.serviceInspect id) = higher := rfl
            simp only [Option.map_some, Option.getD_some]
            omega
        · exact Nat.zero_le _

/-- The constraints are written with the count that was read. -/
theorem climbs_constrain {p : Prop} [Decidable p] {add : Bool}
    (hRead : service.id = serviceID → ∀ replicas ∈ service.spec.replicas?, replicas.toNat ≤ level) :
    Climber serviceID level 0
      (if p then updateServiceConstraints service add else .done (.ok ()) : Code Result) := by
  split
  · unfold updateServiceConstraints
    split
    · trivial
    · split
      · exact fun higher _ => ⟨0, Nat.le_refl 0, fun never => nomatch never⟩
      · intro higher hHigher
        refine ⟨0, ?_, fun _ _ => trivial⟩
        rw [raise, ServiceSpec.replicas?_setPlacement]
        split
        · next hSame =>
            cases hReplicas : service.spec.replicas? with
            | none => simp
            | some replicas =>
                have hBound := hRead hSame replicas hReplicas
                simp only [Option.map_some, Option.getD_some]
                omega
        · exact Nat.le_refl 0
  · trivial

/-- The sum may wrap around to 0, which is no growth. -/
theorem toNat_add_one_le (replicas : UInt64) : (replicas + 1).toNat ≤ replicas.toNat + 1 := by
  rw [UInt64.toNat_add]
  exact Nat.mod_le _ _

/-- Above 1 the difference does not wrap around. -/
theorem toNat_sub_one_le (replicas : UInt64) (h : replicas > 1) : (replicas - 1).toNat ≤ replicas.toNat := by
  rw [UInt64.toNat_sub_of_le _ _ (UInt64.le_of_lt h)]
  exact Nat.sub_le ..

/-- Operations that are no update of a service need no credit. -/
theorem climbs_aside {credit : Nat} {Value : Type} {program : Code Value}
    (h : program.Uses anyAnswer fun op : Op => ∀ id, op.updateOf id = none) :
    Climber serviceID level credit program :=
  Program.climbs_of_uses (fun _ hOp level => raise_free (hOp serviceID) level) h

/-- A keep-alive ends in an update to 0, so neither it nor its start raises a count. -/
theorem climbs_startKeepAlive {credit : Nat} : Climber serviceID level credit (startKeepAlive self id) := by
  refine climbs_aside ⟨fun _ => rfl, fun found _ => ?_⟩
  cases found with
  | true => trivial
  | false => exact ⟨fun _ => rfl, fun _ _ => ⟨fun _ => rfl, fun _ _ => ⟨fun _ => rfl, fun _ _ => trivial⟩⟩⟩

/-- Besides the cancellation, the update is that of `scaleTo`. -/
theorem climbs_cancelKeepAlive {credit : Nat} (hReplicas : id = serviceID → replicas.toNat ≤ level + credit) :
    Climber serviceID level credit (cancelKeepAlive self id replicas) := by
  intro higher hHigher
  have hLater (top : Nat) (hTop : higher ≤ top) : Climber serviceID top credit (scaleTo id replicas) :=
    (climbs_scaleTo hReplicas).mono (Nat.le_trans hHigher hTop) (Nat.le_refl _)
  refine ⟨credit, Nat.le_of_eq (Nat.zero_add _), fun found _ => ?_⟩
  cases found with
  | none => exact hLater _ (Nat.le_add_right ..)
  | some ch =>
      intro top hTop
      refine ⟨credit, Nat.le_of_eq (Nat.zero_add _), fun _ _ peak hPeak => ?_⟩
      exact ⟨credit, Nat.le_of_eq (Nat.zero_add _), fun _ _ => hLater _ (by omega)⟩

variable (hRead : service.id = id) (hCount : id = serviceID → replicas.toNat ≤ level)
  (hReplicas : service.spec.replicas? = some replicas)

include hRead hCount hReplicas

/-- An "over" request raises the count of its own service by 1 at most, from the count it
has read. -/
theorem climbs_changeOver : Climber serviceID level (if id = serviceID then 1 else 0)
    (changeOver self id service replicas) := by
  have hSeen (hSame : service.id = serviceID) : ∀ seen ∈ service.spec.replicas?, seen.toNat ≤ level := by
    intro seen hMem
    rw [Option.mem_unique hMem hReplicas]
    exact hCount (hRead ▸ hSame)
  refine Program.climbs_bind 0 _ (Nat.le_of_eq (Nat.zero_add _)) (climbs_constrain hSeen) ?_
  intro result higher hHigher
  cases result with
  | error err => trivial
  | ok _ =>
      refine climbs_cancelKeepAlive fun hSame => ?_
      have hBound := hCount hSame
      have hNext := toNat_add_one_le replicas
      rw [if_pos hSame]
      omega

/-- An "under" request raises no count. -/
theorem climbs_changeUnder : Climber serviceID level 0 (changeUnder self id service replicas) := by
  have hSeen (hSame : service.id = serviceID) : ∀ seen ∈ service.spec.replicas?, seen.toNat ≤ level := by
    intro seen hMem
    rw [Option.mem_unique hMem hReplicas]
    exact hCount (hRead ▸ hSame)
  unfold changeUnder
  split
  · next hMany =>
      refine Program.climbs_bind 0 0 (Nat.le_refl 0) (climbs_constrain hSeen) fun result higher hHigher => ?_
      cases result with
      | error err => trivial
      | ok _ =>
          refine climbs_scaleTo fun hSame => ?_
          have hBound := hCount hSame
          have hLess := toNat_sub_one_le replicas hMany
          omega
  · exact climbs_startKeepAlive

omit hRead hCount hReplicas in
/-- A request raises the count by what it is worth, and the count it reads is not above the
level. -/
theorem climbs_changeServiceReplicas : Climber serviceID level (worth serviceID (.request ip id direction))
    (changeServiceReplicas self id direction) := by
  unfold changeServiceReplicas
  split
  · trivial
  · intro higher hHigher
    refine ⟨_, Nat.le_of_eq (Nat.zero_add _), fun answer hAnswer => ?_⟩
    cases answer with
    | error err => trivial
    | ok service =>
        obtain ⟨hNamed, hCount⟩ := hAnswer service rfl
        dsimp only
        cases hReplicas : service.spec.replicas? with
        | none => trivial
        | some replicas =>
            have hSeen (hSame : id = serviceID) :
                replicas.toNat ≤ higher + raise serviceID higher (.serviceInspect id) :=
              hCount hSame replicas hReplicas
            dsimp only
            split
            · next hOver =>
                simp only [worth, hOver, and_true]
                exact climbs_changeOver hNamed hSeen hReplicas
            · split
              · exact (climbs_changeUnder hNamed hSeen hReplicas).mono (Nat.le_refl _) (Nat.zero_le _)
              · trivial

omit hRead hCount hReplicas

/-- The goroutine of a keep-alive raises no count. -/
theorem climbs_keepAliveAndScaleDown {ch : Nat} :
    Climber serviceID level 0 (keepAliveAndScaleDown self id ch) := by
  intro higher hHigher
  refine ⟨0, Nat.le_refl 0, fun ready _ => ?_⟩
  cases ready with
  | received => trivial
  | timer =>
      intro top hTop
      refine ⟨0, Nat.le_refl 0, fun found _ => ?_⟩
      cases found with
      | false => trivial
      | true =>
          refine Program.climbs_bind 0 0 (Nat.le_refl 0)
            (climbs_aside (uses_getPublishedPort fun _ => rfl)) fun result _ _ => ?_
          cases result with
          | error err => trivial
          | ok port =>
              refine Program.climbs_bind 0 0 (Nat.le_refl 0)
                (climbs_aside (uses_listenOnPort (fun _ => rfl) fun _ => rfl)) fun result _ _ => ?_
              cases result with
              | error err => trivial
              | ok _ =>
                  refine Program.climbs_bind 0 0 (Nat.le_refl 0)
                    (climbs_aside (uses_broadcast fun ip => uses_post (fun _ => rfl) (fun _ _ => rfl)
                      fun _ => uses_listenOnPort (fun _ => rfl) fun _ => rfl)) fun result _ _ => ?_
                  cases result with
                  | error err => trivial
                  | ok _ =>
                      refine Program.climbs_bind 0 0 (Nat.le_refl 0)
                        (climbs_scaleTo fun _ => Nat.zero_le _) fun result _ _ => ?_
                      cases result with
                      | error err => trivial
                      | ok _ => exact fun _ _ => ⟨0, Nat.le_refl 0, fun _ _ => trivial⟩

/-- A wake-up sets the count to 1 on the manager, and from a worker adds 1 to it. -/
theorem climbs_scaleBackUp : Climber serviceID level 1 (scaleBackUp nodes ip id) := by
  unfold scaleBackUp
  split
  · exact climbs_scaleTo fun _ => Nat.le_add_left 1 level
  · intro higher hHigher
    refine ⟨1, Nat.le_refl 1, fun answer _ => ?_⟩
    cases answer with
    | error err => trivial
    | ok _ =>
        have hWorth : worth serviceID (.request ip id "over") ≤ 1 := by
          rw [worth]
          split <;> decide
        refine Program.climbs_bind 1 0 (Nat.le_refl 1)
          (Program.climbs_attempt ?_ fun op handler hTrap _ => ?_) fun response _ _ => ?_
        · simp only [createScalerHandler, handle, ne_eq, not_true_eq_false, ↓reduceIte]
          refine Program.climbs_bind 1 0 (Nat.le_refl 1)
            (climbs_changeServiceReplicas.mono (Nat.le_refl _) hWorth) fun result _ _ => ?_
          cases result <;> trivial
        · obtain ⟨rfl, rfl⟩ := Op.trap_eq_some_iff.mp hTrap
          rfl
        · cases response <;> trivial

/-- The rest of a turn raises the count by 1 at most. -/
theorem climbs_wakeUp : Climber serviceID level 1 (wakeUp nodes ip port id) := by
  have hRemove (other : String) :
      (removePort other port).Uses anyAnswer fun op : Op => ∀ id, op.updateOf id = none :=
    uses_removePort (fun _ => rfl) (fun _ => rfl) fun _ => rfl
  refine Program.climbs_bind 0 1 (Nat.le_refl 1) (climbs_aside (hRemove ip)) fun _ _ _ => ?_
  refine Program.climbs_bind 0 1 (Nat.le_refl 1)
    (climbs_aside (uses_broadcast fun other => uses_post (fun _ => rfl) (fun _ _ => rfl)
      fun _ => hRemove other)) fun _ _ _ => ?_
  exact climbs_scaleBackUp

/-- What follows an event that was read. -/
theorem climbs_turn {op : Op} {next : signature.Answer op → Code Result}
    (hTurn : listenForEvents nodes ip = .perform op next) (answer : signature.Answer op) :
    Climber serviceID level (gain op answer) (next answer) := by
  cases hTurn
  cases answer with
  | error err => trivial
  | ok rawSample =>
      show Climber serviceID level 1 _
      dsimp only
      split
      · intro higher hHigher
        refine ⟨1, Nat.le_refl 1, fun found _ => ?_⟩
        cases found with
        | none => trivial
        | some id => exact climbs_wakeUp
      · trivial

end Code

/-- The thread has credit for what its code may raise. An event loop that waits needs none. -/
def Covered (nodes : Nodes) (serviceID : String) (level credit : Nat) (thread : Thread signature Call Result) :
    Prop :=
  Climber serviceID level credit thread.program ∨
    ∃ ip, thread.call = .listener ip ∧ thread.program = listenForEvents nodes ip

/-- What an action is worth: an "over" request for the service, a packet. -/
def Action.worth (serviceID : String) : Action → Nat
  | .invoke call => Cluster.worth serviceID call
  | .disturb _ => 1
  | .step _ _ | .meet _ _ => 0

/-- The count is below a level that is paid for, with all that the threads can still raise
it and the events that wait. -/
structure Grown (nodes : Nodes) (serviceID : String) (paid : Nat) (s : State) : Prop where
  named : ∀ id, ∀ service ∈ s.world.services id, service.id = id
  level : ∃ level total queued, (∀ replicas ∈ s.world.replicas serviceID, replicas.toNat ≤ level) ∧
    Machine.Funded (Covered nodes serviceID level) s total ∧ Queues queued s.world ∧
      level + total + queued.length ≤ paid

section Grown

variable {nodes : Nodes} {serviceID : String} {level paid i : Nat} {s t : State} {action : Action} {world : World}
  {call : Call} {op : Op} {next : op.Answer → Code Result} {answer : op.Answer}

/-- A started call has the credit that its invocation is worth. -/
theorem covered_spawn : Covered nodes serviceID level (worth serviceID call) ((machine nodes).spawn call) := by
  cases call with
  | request => exact Or.inl climbs_changeServiceReplicas
  | keepAlive => exact Or.inl climbs_keepAliveAndScaleDown
  | listener ip => exact Or.inr ⟨ip, rfl, rfl⟩

/-- A keep-alive is started without credit and needs none. -/
theorem covered_child (op : Op) :
    ∀ child ∈ (machine nodes).forks op, Covered nodes serviceID level 0 ((machine nodes).spawn child) := by
  intro child hChild
  cases op with
  | goKeepAlive =>
      cases hChild
      exact Or.inl climbs_keepAliveAndScaleDown
  | _ => cases hChild

/-- Code that has ended and starts over needs no credit until it has read an event. -/
theorem covered_settle {program : Code Result} {credit : Nat} (h : Climber serviceID level credit program) :
    Covered nodes serviceID level credit ⟨call, (machine nodes).settle call program⟩ := by
  cases program with
  | perform other rest => exact Or.inl h
  | done result =>
      cases call with
      | listener ip => exact Or.inr ⟨ip, rfl, rfl⟩
      | request | keepAlive => exact Or.inl trivial

/-- What raises the count by no more than its credit does so from a higher level as well. -/
theorem covered_mono {higher credit : Nat} (hLevel : level ≤ higher) (thread : Thread signature Call Result)
    (h : Covered nodes serviceID level credit thread) : Covered nodes serviceID higher credit thread :=
  h.imp_left fun hClimbs => hClimbs.mono hLevel (Nat.le_refl _)

/-- The thread pays for what its operation may raise. -/
theorem pays_raise (hBelow : Below serviceID level op answer) (credit : Nat)
    (h : Covered nodes serviceID level credit ⟨call, .perform op next⟩) : ∃ rest share,
    Covered nodes serviceID (level + raise serviceID level op) rest
        ⟨call, (machine nodes).settle call (next answer)⟩ ∧
      (∀ child ∈ (machine nodes).forks op,
        Covered nodes serviceID (level + raise serviceID level op) share ((machine nodes).spawn child)) ∧
        rest + share + raise serviceID level op ≤ credit + gain op answer := by
  rcases h with hClimbs | ⟨ip, hCall, hTurn⟩
  · obtain ⟨rest, hPays, hNext⟩ := hClimbs level (Nat.le_refl _)
    exact ⟨rest, 0, covered_settle (hNext answer hBelow), covered_child op, by omega⟩
  · obtain rfl : op = .perfRead ip := by
      have hHead := congrArg Program.head hTurn
      exact Option.some.inj hHead
    exact ⟨gain (.perfRead ip) answer, 0, covered_settle (climbs_turn hTurn.symm answer), covered_child _,
      Nat.le_add_left ..⟩

/-- One thread performs one operation; the level rises, and its credit pays. -/
theorem Grown.resume {total : Nat} {queued : List String}
    (hNamed : ∀ id, ∀ service ∈ s.world.services id, service.id = id)
    (hCount : ∀ replicas ∈ s.world.replicas serviceID, replicas.toNat ≤ level + raise serviceID level op)
    (hFunded : Machine.Funded (Covered nodes serviceID level) s total) (hQueued : Queues queued s.world)
    (hPaid : level + total + gain op answer + queued.length ≤ paid) (hBelow : Below serviceID level op answer)
    (atOp : s.threads[i]? = some ⟨call, .perform op next⟩) :
    Grown nodes serviceID paid ((machine nodes).resume s i call op next answer) := by
  obtain ⟨left, hLeft, hSum⟩ := hFunded.resume atOp
    (fun _ thread => covered_mono (Nat.le_add_right level (raise serviceID level op)) thread) (pays_raise hBelow)
  exact ⟨hNamed, _, left, queued, hCount, hLeft, hQueued, by omega⟩

/-- A thread learns no more of a service than Docker has. -/
theorem below_of_exec {fail : Bool} {w w' : World} (h : exec nodes i op fail w = some (answer, w'))
    (hNamed : ∀ id, ∀ service ∈ w.services id, service.id = id)
    (hCount : ∀ replicas ∈ w.replicas serviceID, replicas.toNat ≤ level) : Below serviceID level op answer := by
  cases op with
  | serviceInspect id =>
      intro service hAnswer
      have hStored := (inspect_of_exec h).2 service hAnswer
      refine ⟨hNamed id service hStored, fun hSame replicas hReplicas => hCount replicas ?_⟩
      rw [← hSame, World.replicas, hStored]
      exact hReplicas
  | _ => trivial

/-- An update raises the count by no more than the level shows. -/
theorem replicas_le_of_effect {w w' : World} (h : Effect w op answer w')
    (hCount : ∀ replicas ∈ w.replicas serviceID, replicas.toNat ≤ level) :
    ∀ replicas ∈ w'.replicas serviceID, replicas.toNat ≤ level + raise serviceID level op := by
  intro replicas hReplicas
  cases h with
  | @update id version spec service stored current =>
      by_cases hSame : id = serviceID
      · subst hSame
        rw [replicas_setService] at hReplicas
        have hSpec : spec.replicas? = some replicas := hReplicas
        rw [raise, if_pos rfl, hSpec]
        simp only [Option.map_some, Option.getD_some]
        omega
      · rw [World.replicas, World.setService_services, Function.update_of_ne (Ne.symm hSame)] at hReplicas
        exact Nat.le_add_right_of_le (hCount replicas hReplicas)
  | _ => exact Nat.le_add_right_of_le (hCount replicas hReplicas)

/-- Docker keeps every service under the ID that the service itself has. -/
theorem named_of_effect {w w' : World} (h : Effect w op answer w')
    (hNamed : ∀ id, ∀ service ∈ w.services id, service.id = id) :
    ∀ id, ∀ service ∈ w'.services id, service.id = id := by
  intro other found hFound
  cases h with
  | @update id version spec service stored current =>
      by_cases hSame : other = id
      · subst hSame
        rw [World.setService_services, Function.update_self] at hFound
        cases hFound
        exact hNamed _ service stored
      · rw [World.setService_services, Function.update_of_ne hSame] at hFound
        exact hNamed other found hFound
  | _ => exact hNamed other found hFound

/-- One step of the cluster keeps the count below what has been paid: an update climbs on
the credit of its thread, a packet brings the credit that its turn will need. -/
theorem grown_step (h : Grown nodes serviceID paid s) (hStep : (machine nodes).step s action = some t) :
    Grown nodes serviceID (paid + action.worth serviceID) t := by
  obtain ⟨hNamed, level, total, queued, hCount, hFunded, hQueued, hPaid⟩ := h
  cases (machine nodes).stepCase_of_step hStep with
  | invoke call =>
      refine ⟨hNamed, level, _, queued, hCount, hFunded.invoke covered_spawn, hQueued, ?_⟩
      simp only [Action.worth]
      omega
  | @step i fail call op next answer world atOp answered =>
      have hEffect := effect_of_exec answered
      have hBelow := below_of_exec answered hNamed hCount
      rcases perf_of_exec answered with ⟨hPerf, hGain, _⟩ | ⟨ip, sample, rest, _, hQueue, hPerf, hGain⟩
      · exact Grown.resume (s := { s with world := world }) (named_of_effect hEffect hNamed)
          (replicas_le_of_effect hEffect hCount) hFunded (fun ip => hPerf ▸ hQueued ip) (by omega) hBelow atOp
      · obtain ⟨hTaken, hLength⟩ := hQueued.taken hQueue hPerf
        exact Grown.resume (s := { s with world := world }) (named_of_effect hEffect hNamed)
          (replicas_le_of_effect hEffect hCount) hFunded hTaken (by omega) hBelow atOp
  | @meet i j sender receiver send receive sent received answers atSend atReceive apart met waits =>
      obtain ⟨ch, keepAlive, rfl, rfl⟩ := channel_of_meet met
      have hSent : Grown nodes serviceID paid ((machine nodes).resume s i sender _ sent answers.1) :=
        Grown.resume hNamed hCount hFunded hQueued hPaid trivial atSend
      obtain ⟨hNamed, level, total, queued, hCount, hFunded, hQueued, hPaid⟩ := hSent
      exact Grown.resume hNamed hCount hFunded hQueued hPaid trivial waits
  | @disturb env world happens =>
      obtain ⟨ip, port⟩ := env
      simp only [machine, disturb] at happens
      split at happens
      · cases happens
        exact ⟨hNamed, level, total, queued, hCount, hFunded, hQueued, Nat.le_add_right_of_le hPaid⟩
      · cases happens
        exact ⟨hNamed, level, total, ip :: queued, hCount, hFunded, hQueued.put ip _,
          by simp only [List.length_cons, Action.worth]; omega⟩

end Grown

/-- The number of replicas, 0 for a service without a count. -/
def World.count (w : World) (serviceID : String) : Nat := ((w.replicas serviceID).map UInt64.toNat).getD 0

/-- The stored count is at most what has been paid. -/
theorem Grown.count_le {nodes : Nodes} {serviceID : String} {paid : Nat} {s : State}
    (h : Grown nodes serviceID paid s) : s.world.count serviceID ≤ paid := by
  obtain ⟨_, level, total, queued, hCount, _, _, hPaid⟩ := h
  rw [World.count]
  cases hReplicas : s.world.replicas serviceID with
  | none => exact Nat.zero_le _
  | some replicas =>
      have hBound := hCount replicas hReplicas
      simp only [Option.map_some, Option.getD_some]
      omega

section Runs

variable {nodes : Nodes} {w : World} {actions : List Action} {s : State}
  (hNamed : ∀ id, ∀ service ∈ w.services id, service.id = id) (hEmpty : ∀ ip, w.perf ip = [])

include hNamed hEmpty

/-- At the start the count itself is what has been paid. -/
theorem grown_start (nodes : Nodes) (serviceID : String) :
    Grown nodes serviceID (w.count serviceID) (start nodes w) := by
  refine ⟨hNamed, w.count serviceID, 0, [], fun replicas hReplicas => ?_,
    Machine.funded_of_forall fun thread hThread => ?_, fun ip => ?_, Nat.le_refl _⟩
  · have hStored : w.replicas serviceID = some replicas := hReplicas
    rw [World.count, hStored]
    exact Nat.le_refl _
  · obtain ⟨ip, _, rfl⟩ := List.mem_map.mp hThread
    exact Or.inr ⟨ip, rfl, rfl⟩
  · rw [start, hEmpty ip]
    rfl

/-- The run lemma: the first count and the worth of every action together pay for the count
at the end. -/
theorem grown_run (serviceID : String) (hRun : run (machine nodes).step (start nodes w) actions = some s) :
    Grown nodes serviceID (w.count serviceID + (actions.map (Action.worth serviceID)).sum) s := by
  have hKeep (past : List Action) (s : State) (action : Action) (t : State)
      (h : Grown nodes serviceID (w.count serviceID + (past.map (Action.worth serviceID)).sum) s)
      (hStep : (machine nodes).step s action = some t) :
      Grown nodes serviceID (w.count serviceID + ((past ++ [action]).map (Action.worth serviceID)).sum) t := by
    rw [List.map_append, List.sum_append, List.map_singleton, List.sum_singleton, ← Nat.add_assoc]
    exact grown_step h hStep
  have hStart : Grown nodes serviceID (w.count serviceID + (([] : List Action).map (Action.worth serviceID)).sum)
      (start nodes w) := grown_start hNamed hEmpty nodes serviceID
  exact history_run hKeep hStart hRun

/-- The count never gets above the first one, the "over" requests and the packets together,
whatever interleaves and whatever fails. -/
theorem count_le_worth (serviceID : String) (hRun : run (machine nodes).step (start nodes w) actions = some s) :
    s.world.count serviceID ≤ w.count serviceID + (actions.map (Action.worth serviceID)).sum :=
  (grown_run hNamed hEmpty serviceID hRun).count_le

end Runs

/-- Two requests, one after the other. -/
def busyHour : List Action :=
  [.invoke (.request "manager" "web" "over"), .invoke (.request "manager" "web" "over")] ++
    List.replicate 4 (.step 2 false) ++ List.replicate 4 (.step 3 false)

/-- The bound is reached. -/
theorem count_le_worth_busyHour : ∃ s, run (machine pair).step (start pair (awake (web 1))) busyHour = some s ∧
    s.world.count "web" ≤ (awake (web 1)).count "web" + (busyHour.map (Action.worth "web")).sum ∧
      s.world.count "web" = 3 ∧ (busyHour.map (Action.worth "web")).sum = 2 := by
  have hNamed (id : String) (service : Service) (h : (awake (web 1)).services id = some service) :
      service.id = id := by
    by_cases hSame : id = "web"
    · subst hSame
      cases h
      rfl
    · simp [awake, web, hSame] at h
  have hRun : run (machine pair).step (start pair (awake (web 1))) busyHour = some _ := rfl
  exact ⟨_, hRun, count_le_worth hNamed (fun _ => rfl) "web" hRun, rfl, rfl⟩

end Cluster

import SwarmAutoscaler.Cluster.Deployment
import SwarmAutoscaler.Cluster.Holding

/-! Whole specs are written back from copies that were read earlier. Other clients of Docker
update the services at any time; Docker takes an update only under the version it has. -/
namespace Cluster

open Docker Process

/-- What may become of a stored service: nothing, or updates under later versions. -/
def Evolves (old new : Service) : Prop := new.id = old.id ∧ (new = old ∨ old.version < new.version)

/-- The copy is what Docker stores under the ID, or what it stored some updates ago. -/
def Held (w : World) (serviceID : String) (copy : Service) : Prop :=
  ∃ stored, w.services serviceID = some stored ∧ Evolves copy stored

/-- Docker's table after any number of updates. -/
def Later (w w' : World) : Prop :=
  ∀ id, w'.services id = w.services id ∨
    ∃ old new, w.services id = some old ∧ w'.services id = some new ∧ Evolves old new

/-- `ServiceInspect` returns the service it was asked for. -/
def Named (w : World) : Prop := ∀ id service, w.services id = some service → service.id = id

theorem named_awake (service : Service) : Named (awake service) := by
  intro id other hOther
  simp only [awake, Function.update_apply] at hOther
  split at hOther
  · next hSame =>
      cases hOther
      exact hSame.symm
  · cases hOther

section Evolution

variable {w w' : World} {serviceID : String} {copy old new stored : Service}

theorem Evolves.refl (service : Service) : Evolves service service := ⟨rfl, Or.inl rfl⟩

theorem Evolves.trans {newer : Service} (h : Evolves old new) (hLater : Evolves new newer) :
    Evolves old newer := by
  refine ⟨hLater.1.trans h.1, ?_⟩
  rcases hLater.2 with rfl | hNewer
  · exact h.2
  · rcases h.2 with rfl | hNew
    · exact Or.inr hNewer
    · exact Or.inr (Nat.lt_trans hNew hNewer)

/-- Under the same version the copy is still the stored service. -/
theorem Held.eq_of_version (h : Held w serviceID copy) (hStored : w.services serviceID = some stored)
    (hVersion : stored.version = copy.version) : stored = copy := by
  obtain ⟨found, hFound, _, hEvolved⟩ := h
  cases hStored.symm.trans hFound
  rcases hEvolved with hSame | hNewer
  · exact hSame
  · exact absurd hVersion (Nat.ne_of_gt hNewer)

theorem Held.later (h : Held w serviceID copy) (hLater : Later w w') : Held w' serviceID copy := by
  obtain ⟨stored, hStored, hEvolved⟩ := h
  rcases hLater serviceID with hSame | ⟨old, new, hOld, hNew, hNewer⟩
  · exact ⟨stored, hSame.trans hStored, hEvolved⟩
  · cases hStored.symm.trans hOld
    exact ⟨new, hNew, hEvolved.trans hNewer⟩

theorem held_of_stored (h : w.services serviceID = some copy) : Held w serviceID copy :=
  ⟨copy, h, Evolves.refl copy⟩

theorem Named.later (h : Named w) (hLater : Later w w') : Named w' := by
  intro id service hService
  rcases hLater id with hSame | ⟨old, new, hOld, hNew, hEvolved⟩
  · exact h id service (hSame.symm.trans hService)
  · cases hService.symm.trans hNew
    rw [hEvolved.1]
    exact h id old hOld

theorem later_of_services (h : w'.services = w.services) : Later w w' := by
  intro id
  rw [h]
  exact Or.inl rfl

theorem later_setService (hStored : w.services serviceID = some stored) (hEvolved : Evolves stored new) :
    Later w (w.setService serviceID new) := by
  intro id
  by_cases hSame : id = serviceID
  · subst hSame
    exact Or.inr ⟨stored, new, hStored, Function.update_self .., hEvolved⟩
  · exact Or.inl (Function.update_of_ne hSame ..)

theorem later_of_effect {op : Op} {answer : op.Answer} (h : Effect w op answer w') : Later w w' := by
  cases h with
  | update hStored hCurrent =>
      refine later_setService hStored ⟨rfl, Or.inr ?_⟩
      rw [hCurrent]
      exact Nat.lt_succ_self _
  | none | keepAliveSet | keepAliveDelete | portStore | portDelete | mapUpdate | mapDelete | read =>
      exact later_of_services rfl

end Evolution

/-- What a thread can still write back, with the ID of the service. -/
def Holding.copies : Holding → List (String × Service)
  | .changing serviceID copy => [(serviceID, copy)]
  | .changed serviceID before => [(serviceID, constrained before)]
  | .scaling before? serviceID copy =>
      (serviceID, copy) :: (before?.map fun before => (serviceID, constrained before)).toList
  | _ => []

/-- Every copy of a thread was stored once, and so was what it has written. -/
structure Faithful (w : World) (holding : Holding) : Prop where
  held : ∀ entry ∈ holding.copies, Held w entry.1 entry.2 ∧ entry.2.id = entry.1
  changed : ∀ before ∈ holding.before?, (constrained before).version = before.version + 1

section Faithful

variable {w w' : World} {holding : Holding}

theorem Faithful.later (h : Faithful w holding) (hLater : Later w w') : Faithful w' holding where
  held entry hEntry := ⟨(h.held entry hEntry).1.later hLater, (h.held entry hEntry).2⟩
  changed := h.changed

theorem constrained_id (service : Service) : (constrained service).id = service.id := by
  unfold constrained
  split <;> rfl

theorem constrained_eq {copy : Service} (hLabel : (copy.spec.labels.lookup "autoscaler.handlerNode").isSome = true)
    (hPlacement : copy.spec.taskTemplate.placement.isSome = true) :
    constrained copy = { copy with version := copy.version + 1, spec := (constrained copy).spec } := by
  obtain ⟨hostName, hHost⟩ := Option.isSome_iff_exists.mp hLabel
  obtain ⟨placement, hPlaced⟩ := Option.isSome_iff_exists.mp hPlacement
  simp [constrained, hHost, hPlaced]

/-- What an accepted update stores is written back from the stored service itself. -/
theorem Faithful.writes {serviceID : String} {version : Nat} {spec : ServiceSpec} {stored : Service}
    (h : Faithful w holding) (hWrites : holding.Writes serviceID version spec)
    (hStored : w.services serviceID = some stored) (hCurrent : stored.version = version) :
    (∃ id, holding = .changing id stored ∧ id = serviceID) ∨
      ∃ before?, holding = .scaling before? serviceID stored := by
  cases holding with
  | changing id copy =>
      obtain ⟨rfl, rfl, _⟩ := hWrites
      obtain ⟨hHeld, hId⟩ := h.held (id, copy) (List.mem_singleton_self _)
      obtain rfl : copy.id = id := hId
      exact Or.inl ⟨copy.id, by rw [hHeld.eq_of_version hStored hCurrent], rfl⟩
  | scaling before? id copy =>
      obtain ⟨rfl, rfl, _⟩ := hWrites
      obtain ⟨hHeld, _⟩ := h.held (serviceID, copy) (List.mem_cons_self ..)
      exact Or.inr ⟨before?, by rw [hHeld.eq_of_version hStored hCurrent]⟩
  | nothing | entered | changed => exact hWrites.elim

theorem faithful_nothing : Faithful w .nothing := ⟨nofun, nofun⟩

theorem Faithful.inspected {serviceID : String} {copy : Service} {before? : Option Service} (hNamed : Named w)
    (hStored : w.services serviceID = some copy)
    (hBefore : ∀ before ∈ before?, Faithful w (.changed serviceID before)) :
    Faithful w (.scaling before? serviceID copy) := by
  constructor
  · intro entry hEntry
    rcases List.mem_cons.mp hEntry with rfl | hBeforeEntry
    · exact ⟨held_of_stored hStored, hNamed serviceID copy hStored⟩
    · cases before? with
      | none => cases hBeforeEntry
      | some before => exact (hBefore before rfl).held entry hBeforeEntry
  · exact fun before hChanged => (hBefore before hChanged).changed before rfl

/-- An inspect gives the thread a copy of what is stored. -/
theorem Faithful.inspect {serviceID : String} {answer : Except String Service} (h : Faithful w holding)
    (hNamed : Named w) (hPermits : holding.permits (.serviceInspect serviceID))
    (hStored : ∀ copy, answer = .ok copy → w.services serviceID = some copy) :
    Faithful w (holding.advance (.serviceInspect serviceID) answer) := by
  cases answer with
  | error err => cases holding <;> exact faithful_nothing
  | ok copy =>
      have hCopy := hStored copy rfl
      cases holding with
      | entered =>
          refine ⟨fun entry hEntry => ?_, nofun⟩
          obtain rfl := List.mem_singleton.mp hEntry
          exact ⟨held_of_stored hCopy, hNamed serviceID copy hCopy⟩
      | changed id before =>
          have hSame : Holding.changed id before = .changed serviceID before := hPermits before rfl
          refine Faithful.inspected hNamed hCopy fun other hOther => ?_
          cases hOther
          exact hSame ▸ h
      | nothing | changing | scaling => exact Faithful.inspected hNamed hCopy nofun

/-- After an accepted constraint update the service is stored as the update made it. -/
theorem Faithful.update {nodes : Nodes} {i : Nat} {fail : Bool} {serviceID : String} {version : Nat}
    {spec : ServiceSpec} {answer : Except String Unit} (h : Faithful w holding)
    (hPermits : holding.permits (.serviceUpdate serviceID version spec))
    (hExec : exec nodes i (.serviceUpdate serviceID version spec) fail w = some (answer, w')) :
    Faithful w' (holding.advance (.serviceUpdate serviceID version spec) answer) := by
  rcases update_of_exec hExec with ⟨hAccepts, rfl, stored, hStored, rfl⟩ | ⟨_, ⟨err, rfl⟩, rfl⟩
  · have hCurrent : stored.version = version := by
      have hVersion := hAccepts.2
      rw [hStored] at hVersion
      exact Option.some.inj hVersion
    cases holding with
    | changing id copy =>
        rcases h.writes hPermits hStored hCurrent with ⟨_, hSame, rfl⟩ | ⟨_, hSame⟩
        · cases hSame
          obtain ⟨_, hVersion, hSpec, hLabel, hPlacement, _⟩ := hPermits
          have hWritten : constrained stored = { stored with version := version + 1, spec := spec } := by
            rw [constrained_eq hLabel hPlacement, hSpec, hCurrent]
          constructor
          · intro entry hEntry
            obtain rfl := List.mem_singleton.mp hEntry
            refine ⟨held_of_stored ?_, (constrained_id stored).trans
              (h.held (_, stored) (List.mem_singleton_self _)).2⟩
            rw [hWritten]
            exact Function.update_self ..
          · intro before hBefore
            cases hBefore
            rw [hWritten, hCurrent]
        · cases hSame
    | nothing | entered | changed | scaling => exact faithful_nothing
  · cases holding <;> exact faithful_nothing

theorem Faithful.own {nodes : Nodes} {i : Nat} {op : Op} {fail : Bool} {answer : op.Answer}
    (h : Faithful w holding) (hNamed : Named w) (hPermits : holding.permits op)
    (hExec : exec nodes i op fail w = some (answer, w')) : Faithful w' (holding.advance op answer) := by
  have hLater := later_of_effect (effect_of_exec hExec)
  have stays (hSame : holding.advance op answer = holding) : Faithful w' (holding.advance op answer) := by
    rw [hSame]
    exact h.later hLater
  cases op with
  | serviceInspect serviceID =>
      obtain ⟨rfl, hStored⟩ := inspect_of_exec hExec
      exact h.inspect hNamed hPermits hStored
  | serviceUpdate serviceID version spec => exact h.update hPermits hExec
  | httpPost ip endpoint =>
      cases endpoint with
      | scale =>
          cases answer with
          | error err => exact stays (by cases holding <;> rfl)
          | ok _ => cases holding <;> exact ⟨nofun, nofun⟩
      | listen | remove => exact stays (Holding.advance_of_besides rfl)
  | perfRead ip => cases holding <;> exact faithful_nothing
  | nilDereference => exact answer.elim
  | recover => cases holding <;> exact faithful_nothing
  | selectTimer keepAlive ch => exact stays (by cases holding <;> rfl)
  | _ => exact stays (Holding.advance_of_besides rfl)

end Faithful

section Machine

variable {E : Type} {nodes : Nodes} {s t : State}

/-- The copies of all threads are faithful. -/
structure CopiesInv (s : State) : Prop where
  logged : Machine.Logged s
  tracked : Machine.EachThread holdings.Tracked s
  named : Named s.world
  faithful : holdings.EachPhase (fun w _ holding => Faithful w holding) s

theorem CopiesInv.step {disturb : E → World → Option World} {action : Process.Action Call E}
    (hDisturb : ∀ env w w', disturb env w = some w' → Later w w') (h : CopiesInv s)
    (hStep : (machineAmid disturb nodes).step s action = some t) : CopiesInv t where
  logged := Machine.logged_step _ h.logged hStep
  tracked := holdings_step h.logged h.tracked hStep
  named := by
    cases (machineAmid disturb nodes).stepCase_of_step hStep with
    | invoke | meet => exact h.named
    | step atOp answered => exact h.named.later (later_of_effect (effect_of_exec answered))
    | disturb happens => exact h.named.later (hDisturb _ _ _ happens)
  faithful := by
    refine holdings.eachPhase_step (machineAmid disturb nodes) (fun w call => ?_)
      (fun _ _ _ _ hLater hFaithful => hFaithful.later hLater)
      (fun _ _ _ _ _ _ _ _ hExec hNamed hPermits hFaithful => hFaithful.own hNamed hPermits hExec)
      (fun send receive answers w call holding met hFaithful => ?_)
      (fun _ _ _ _ _ _ hExec => later_of_effect (effect_of_exec hExec)) hDisturb h.logged h.tracked h.named
      h.faithful hStep
    · cases call <;> exact ⟨nofun, nofun⟩
    · obtain ⟨ch, keepAlive, rfl, rfl⟩ := channel_of_meet met
      have hReceive : holding.advance (.selectTimer keepAlive ch) answers.2 = holding := by cases holding <;> rfl
      refine ⟨?_, ?_⟩
      · exact (congrArg (Faithful w) (Holding.advance_of_besides rfl)).mpr hFaithful
      · exact (congrArg (Faithful w) hReceive).mpr hFaithful

theorem copiesInv_start {w : World} (hNamed : Named w) : CopiesInv (start nodes w) := by
  have listener (i : Nat) (thread : Thread signature Call Result)
    (hThread : (start nodes w).threads[i]? = some thread) :
      ∃ ip, thread = ⟨.listener ip, listenForEvents nodes ip⟩ := by
    obtain ⟨ip, _, rfl⟩ := List.mem_map.mp (List.mem_of_getElem? hThread)
    exact ⟨ip, rfl⟩
  constructor
  · exact Machine.logged_of_nil rfl
  · intro i thread hThread
    obtain ⟨ip, rfl⟩ := listener i thread hThread
    exact Holding.follows_listenForEvents rfl
  · exact hNamed
  · intro i thread hThread
    obtain ⟨ip, rfl⟩ := listener i thread hThread
    exact faithful_nothing

end Machine

section Clients

/-- What happens around the autoscaler: packets arrive, and Docker accepts updates of other
clients, of any fields of a service and under any later version. -/
inductive Client where
  | packet (ip : String) (port : UInt32)
  | update (serviceID : String) (version : Nat) (spec : ServiceSpec) (endpoint : List UInt32)

/-- The other client changes Docker, not just the packets. -/
def Client.updates : Client → Bool
  | .packet _ _ => false
  | .update _ _ _ _ => true

/-- What other clients of Docker and of the network do: a packet, or an update of a stored
service to a later version. -/
def disturbClients : Client → World → Option World
  | .packet ip port, w => disturb (.packet ip port) w
  | .update serviceID version spec endpoint, w => (w.services serviceID).bind fun stored =>
      if stored.version < version then
        some (w.setService serviceID { stored with version := version, spec := spec, endpoint := endpoint })
      else none

theorem later_of_clients {client : Client} {w w' : World} (h : disturbClients client w = some w') :
    Later w w' := by
  cases client with
  | packet ip port =>
      have hPacket : disturb (.packet ip port) w = some w' := h
      exact later_of_services (disturb_eq hPacket).2
  | update serviceID version spec endpoint =>
      obtain ⟨stored, hStored, hAccepted⟩ := Option.bind_eq_some_iff.mp h
      split at hAccepted
      · next hNewer =>
          cases hAccepted
          exact later_setService hStored ⟨rfl, Or.inr hNewer⟩
      · cases hAccepted

/-- The cluster amid other clients of Docker. -/
def shared (nodes : Nodes) : Machine signature World Call Result Client := machineAmid disturbClients nodes

/-- Only `Mode.Replicated.Replicas` differs. -/
def OnlyReplicas (old new : ServiceSpec) : Prop :=
  old.mode.replicated.isSome = true ∧ ∃ replicas, new = old.setReplicas replicas

/-- Only `TaskTemplate.Placement.Constraints` differs. -/
def OnlyConstraints (old new : ServiceSpec) : Prop :=
  ∃ placement constraints, old.taskTemplate.placement = some placement ∧
    new = old.setPlacement { placement with constraints := constraints }

/-- All fields of a spec but these two. -/
def otherFields (spec : ServiceSpec) : ServiceSpec :=
  { spec with
    mode := { spec.mode with replicated := spec.mode.replicated.map fun _ => ⟨none⟩ }
    taskTemplate := { spec.taskTemplate with
      placement := spec.taskTemplate.placement.map fun placement => { placement with constraints := [] } } }

theorem OnlyReplicas.otherFields {old new : ServiceSpec} (h : OnlyReplicas old new) :
    otherFields new = otherFields old := by
  obtain ⟨hReplicated, replicas, rfl⟩ := h
  obtain ⟨mode, hMode⟩ := Option.isSome_iff_exists.mp hReplicated
  simp [Cluster.otherFields, ServiceSpec.setReplicas, hMode]

theorem OnlyConstraints.otherFields {old new : ServiceSpec} (h : OnlyConstraints old new) :
    otherFields new = otherFields old := by
  obtain ⟨placement, constraints, hPlacement, rfl⟩ := h
  simp [Cluster.otherFields, ServiceSpec.setPlacement, hPlacement]

/-- If this step is an update that Docker accepts, the new spec differs from the stored one
in the one field that its function is for. -/
def Framed (s : State) (action : Process.Action Call Client) : Prop :=
  ∀ i call serviceID version spec next stored, action = .step i false →
    s.threads[i]? = some ⟨call, .perform (.serviceUpdate serviceID version spec) next⟩ →
    s.world.services serviceID = some stored → stored.version = version →
      (holdings.phase s.log i call).writer = some .scaleTo ∧ OnlyReplicas stored.spec spec ∨
      (holdings.phase s.log i call).writer = some .updateServiceConstraints ∧ OnlyConstraints stored.spec spec

/-- Unless it is an update of another client, the step leaves the other fields of every
service as they are. -/
def LeavesOtherFields (nodes : Nodes) (s : State) (action : Process.Action Call Client) : Prop :=
  ∀ t, (shared nodes).step s action = some t → (∀ client, action = .disturb client → client.updates = false) →
    ∀ id, (t.world.services id).map (fun service => otherFields service.spec) =
      (s.world.services id).map fun service => otherFields service.spec

variable {nodes : Nodes} {s : State} {action : Process.Action Call Client}

theorem CopiesInv.framed (h : CopiesInv s) : Framed s action := by
  intro i call serviceID version spec next stored _ atOp hStored hCurrent
  have hWrites : (holdings.phase s.log i call).Writes serviceID version spec :=
    Tracking.Tracked.permits holdings h.tracked atOp
  have hFaithful : Faithful s.world (holdings.phase s.log i call) := h.faithful i _ atOp
  rcases hFaithful.writes hWrites hStored hCurrent with ⟨id, hHolding, _⟩ | ⟨before?, hHolding⟩
  · rw [hHolding] at hWrites ⊢
    obtain ⟨_, _, rfl, hLabel, hPlacement, _⟩ := hWrites
    obtain ⟨hostName, hHost⟩ := Option.isSome_iff_exists.mp hLabel
    obtain ⟨placement, hPlaced⟩ := Option.isSome_iff_exists.mp hPlacement
    exact Or.inr ⟨rfl, placement, _, hPlaced, by simp [constrained, hHost, hPlaced]; rfl⟩
  · rw [hHolding] at hWrites ⊢
    obtain ⟨_, _, hReplicated, replicas, rfl, _⟩ := hWrites
    exact Or.inl ⟨rfl, hReplicated, replicas, rfl⟩

theorem CopiesInv.leavesOtherFields (h : CopiesInv s) : LeavesOtherFields nodes s action := by
  intro t hStep hOwn id
  cases (shared nodes).stepCase_of_step hStep with
  | invoke | meet => rfl
  | @step i fail call op next answer world atOp answered =>
      cases op with
      | serviceUpdate serviceID version spec =>
          rcases update_of_exec answered with ⟨hAccepts, rfl, stored, hStored, rfl⟩ | ⟨_, _, rfl⟩
          · have hCurrent : stored.version = version := by
              have hVersion := hAccepts.2
              rw [hStored] at hVersion
              exact Option.some.inj hVersion
            have hFields : otherFields spec = otherFields stored.spec := by
              have hFramed : Framed s (.step i false) := h.framed
              have hFramed := hFramed i call serviceID version spec next stored rfl atOp hStored hCurrent
              rcases hFramed with ⟨_, hOnly⟩ | ⟨_, hOnly⟩
              · exact hOnly.otherFields
              · exact hOnly.otherFields
            by_cases hSame : id = serviceID
            · subst hSame
              simp [Machine.resume, hStored, hFields]
            · simp [Machine.resume, Function.update_of_ne hSame]
          · rfl
      | _ =>
          have hOther : world.services id = s.world.services id := services_of_effect (effect_of_exec answered) rfl
          exact congrArg (Option.map fun service : Service => otherFields service.spec) hOther
  | @disturb client world happens =>
      cases client with
      | packet ip port =>
          have hPacket : disturb (.packet ip port) s.world = some world := happens
          rw [(disturb_eq hPacket).2]
      | update => cases hOwn _ rfl

/-- However other clients update the services in between, every update of `scaleTo` that
Docker accepts changes the count alone, every one of `updateServiceConstraints` the
constraints alone, and no other field is ever reverted. -/
theorem framed_throughout (nodes : Nodes) (w : World) (actions : List (Process.Action Call Client))
    (hNamed : Named w) :
    Meets (shared nodes).step (fun s action => Framed s action ∧ LeavesOtherFields nodes s action)
      (start nodes w) actions := by
  have hAny : Meets (shared nodes).step (fun _ _ => True) (start nodes w) actions :=
    meets_of_forall (fun _ _ => trivial) _ _
  refine meets_of_invariant ?_ ?_ (copiesInv_start hNamed) hAny
  · exact fun _ _ _ h _ hStep => h.step (fun _ _ _ => later_of_clients) hStep
  · exact fun _ _ h _ => ⟨h.framed, h.leavesOtherFields⟩

/-- Another client renames the environment of the tasks while an "over" request has removed
the constraint and not yet written its count. -/
def contended : List (Process.Action Call Client) :=
  .invoke (.request "manager" "web" "over") :: List.replicate 2 (.step 2 false) ++
    .disturb (.update "web" 5 { (tied 1 []).spec with other := "renamed" } [80]) :: List.replicate 3
      (.step 2 false)

theorem framed_contended :
    Meets (shared pair).step (fun s action => Framed s action ∧ LeavesOtherFields pair s action)
      (start pair (awake (tied 1 [handlerConstraint "host1"]))) contended ∧
    ((run (shared pair).step (start pair (awake (tied 1 [handlerConstraint "host1"]))) contended).bind fun s =>
      (s.world.services "web").map fun service => (service.spec.replicas?, service.spec.other)) =
        some (some 2, "renamed") :=
  ⟨framed_throughout pair _ contended (named_awake _), by decide⟩

end Clients

end Cluster

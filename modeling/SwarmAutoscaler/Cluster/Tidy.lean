import SwarmAutoscaler.Cluster.Autoscaler
import SwarmAutoscaler.Cluster.Crash
import SwarmAutoscaler.Cluster.Retry

/-! The site between two tasks of one service while no call fails, and the abstract
autoscaler that it stands for. Each change of the site is a change of that picture. -/
namespace Cluster

open Docker Process

/-- `listenOnPort`, when the kernel takes the entry. -/
def Site.hear (site : Site) (port : UInt32) (serviceID ip : String) : Site :=
  { site with
    world := (site.world.setPortToServiceID (ip, port) (some serviceID)).setPortsMap (ip, port) (some 1) }

/-- The site after each of these nodes has entered the port in its tables, one after the
other. -/
def Site.hearAll (site : Site) (port : UInt32) (serviceID : String) (ips : List String) : Site :=
  ips.foldl (fun site ip => site.hear port serviceID ip) site

/-- One manager, and all the other nodes that a node knows run an autoscaler. -/
structure Wired (nodes : Nodes) (manager : String) : Prop extends OneManager nodes manager where
  known : ∀ ip ∈ nodes.ips, ∀ node ∈ (nodes.info ip).otherNodes, node.ip ∈ nodes.ips

/-- A service with a count that publishes the port first; a handler node comes with a placement. -/
structure Fit (serviceID : String) (port : UInt32) (service : Service) : Prop where
  id : service.id = serviceID
  published : service.endpoint.head? = some port
  counted : service.spec.replicas?.isSome = true
  placed : (service.spec.labels.lookup "autoscaler.handlerNode").isSome = true →
    service.spec.taskTemplate.placement.isSome = true

/-- Only the manager has an entry for the service, with a goroutine that waits; the nodes
listen all or none, and for this service. -/
structure Tidy (nodes : Nodes) (manager serviceID : String) (port : UInt32) (site : Site) : Prop where
  deployed : ∃ service, site.world.services serviceID = some service ∧ Fit serviceID port service
  elsewhere : ∀ ip, ip ≠ manager → site.world.keepAliveOps (ip, serviceID) = none
  waiting : site.waiting =
    (site.world.keepAliveOps (manager, serviceID)).toList.map (KeepAlive.mk manager serviceID)
  alike : ∀ ip ∈ nodes.ips, Listening site.world port ip ↔ Listening site.world port manager
  own : ∀ ip, ∀ id ∈ site.world.portToServiceID (ip, port), id = serviceID

/-- The abstract autoscaler that a site stands for. -/
def picture (manager serviceID : String) (port : UInt32) (site : Site) : Autoscaler where
  replicas := ((site.world.replicas serviceID).map UInt64.toNat).getD 0
  drowsy := (site.world.keepAliveOps (manager, serviceID)).isSome
  watched := decide (Listening site.world port manager)

section Hear

variable {site : Site} {port : UInt32} {serviceID ip other : String} {ips : List String}

theorem kept_hear : Kept site (site.hear port serviceID ip) := ⟨rfl, rfl, rfl⟩

theorem kept_hearAll : Kept site (site.hearAll port serviceID ips) := by
  induction ips generalizing site with
  | nil => exact .refl site
  | cons ip rest ih => exact kept_hear.trans ih

theorem listening_hear : Listening (site.hear port serviceID ip).world port other ↔
    other = ip ∨ Listening site.world port other := by
  unfold Site.hear Listening
  by_cases hSame : other = ip
  · subst hSame
    simp
  · simp [hSame]

theorem listening_hearAll : Listening (site.hearAll port serviceID ips).world port other ↔
    other ∈ ips ∨ Listening site.world port other := by
  induction ips generalizing site with
  | nil => simp [Site.hearAll]
  | cons ip rest ih =>
      have hHearAll : site.hearAll port serviceID (ip :: rest) =
        (site.hear port serviceID ip).hearAll port serviceID rest := rfl
      rw [hHearAll, ih, listening_hear, List.mem_cons]
      tauto

theorem own_hear (hOwn : ∀ ip, ∀ id ∈ site.world.portToServiceID (ip, port), id = serviceID) :
    ∀ ip', ∀ id ∈ (site.hear port serviceID ip).world.portToServiceID (ip', port), id = serviceID := by
  intro ip' id hId
  by_cases hSame : ip' = ip
  · subst hSame
    simpa [Site.hear] using hId.symm
  · have hApart : (ip', port) ≠ (ip, port) := fun h => hSame (congrArg Prod.fst h)
    refine hOwn ip' id ?_
    simpa [Site.hear, Function.update_of_ne hApart] using hId

theorem own_hearAll (hOwn : ∀ ip, ∀ id ∈ site.world.portToServiceID (ip, port), id = serviceID) :
    ∀ ip, ∀ id ∈ (site.hearAll port serviceID ips).world.portToServiceID (ip, port), id = serviceID := by
  induction ips generalizing site with
  | nil => exact hOwn
  | cons ip rest ih => exact ih (own_hear hOwn)

theorem own_forget (hOwn : ∀ ip, ∀ id ∈ site.world.portToServiceID (ip, port), id = serviceID) :
    ∀ ip', ∀ id ∈ (site.forget port ip).world.portToServiceID (ip', port), id = serviceID := by
  intro ip' id hId
  unfold Site.forget at hId
  split at hId
  · exact hOwn ip' id hId
  · by_cases hSame : ip' = ip
    · subst hSame
      simp at hId
    · have hApart : (ip', port) ≠ (ip, port) := fun h => hSame (congrArg Prod.fst h)
      refine hOwn ip' id ?_
      simpa [Function.update_of_ne hApart] using hId

theorem own_forgetAll (hOwn : ∀ ip, ∀ id ∈ site.world.portToServiceID (ip, port), id = serviceID) :
    ∀ ip, ∀ id ∈ (site.forgetAll port ips).world.portToServiceID (ip, port), id = serviceID := by
  induction ips generalizing site with
  | nil => exact hOwn
  | cons ip rest ih => exact ih (own_forget hOwn)

end Hear

section Never

variable {nodes : Nodes} {self : Instance} {serviceID ip : String} {port : UInt32} {thread calls : Nat}
  {fails : Nat → Bool} {site : Site} {service : Service} (hNever : ∀ call, fails call = false)

include hNever

theorem heard_listenOnPort : (listenOnPort ip port serviceID).eval (solo nodes thread) fails calls site =
    some ⟨.ok (), calls + 1, site.hear port serviceID ip⟩ := by
  rw [listenOnPort, eval_answered rfl rfl, Program.eval_call rfl, hNever]
  rfl

theorem heard_sendListenRequest (hServes : nodes.serves ip .listen = true) :
    (sendListenRequest (listenOnPort ip) port serviceID ip).eval (solo nodes thread) fails calls site =
      some ⟨.ok (), calls + 2, site.hear port serviceID ip⟩ := by
  rw [sendListenRequest_eq, eval_post, if_pos ⟨hServes, hNever calls⟩]
  dsimp only
  rw [Program.eval_bind, heard_listenOnPort hNever]
  rfl

theorem heard_sendListenRequestToAllNodes {info : SwarmNodeInfo}
    (hServe : ∀ node ∈ info.otherNodes, nodes.serves node.ip .listen = true) :
    (sendListenRequestToAllNodes listenOnPort info port serviceID).eval (solo nodes thread) fails calls site =
      some ⟨.ok (), calls + 2 * info.otherNodes.length,
        site.hearAll port serviceID (info.otherNodes.map SwarmNode.ip)⟩ := by
  unfold sendListenRequestToAllNodes
  generalize info.otherNodes = others at hServe
  induction others generalizing calls site with
  | nil => rfl
  | cons node rest ih =>
      rw [broadcast, Program.eval_bind, heard_sendListenRequest hNever (hServe node (List.mem_cons_self ..))]
      rw [List.length_cons, Nat.mul_succ, Nat.add_comm (2 * rest.length), ← Nat.add_assoc]
      exact ih fun other hMem => hServe other (List.mem_cons_of_mem _ hMem)

/-- A goroutine whose timer has fired puts the service to sleep. -/
theorem slept_scaleDown (hEntry : (site.world.keepAliveOps (self.ip, serviceID)).isSome = true)
    (hStored : site.world.services serviceID = some service) (hPort : service.endpoint.head? = some port)
    (hMode : service.spec.mode.replicated.isSome = true)
    (hServe : ∀ node ∈ self.nodeInfo.otherNodes, nodes.serves node.ip .listen = true) :
    (scaleDown self serviceID).eval (solo nodes thread) fails calls site = some ⟨.ok (),
      calls + 1 + 1 + 2 * self.nodeInfo.otherNodes.length + 2,
      ((site.hearAll port serviceID (self.ip :: self.nodeInfo.otherNodes.map SwarmNode.ip)).setService serviceID
        (scaled service 0)).setKeepAlive (self.ip, serviceID) none⟩ := by
  have hHas : Site.exec nodes thread (.keepAliveOpsHas self.ip serviceID) false site = some (true, site) := by
    rw [← hEntry]
    rfl
  obtain ⟨rest, hEndpoint⟩ := List.head?_eq_some_iff.mp hPort
  have hPublish : (getPublishedPort serviceID).eval (solo nodes thread) fails calls site =
      some ⟨.ok port, calls + 1, site⟩ := by
    rw [getPublishedPort, eval_inspect, hNever]
    simp only [World.inspect, hStored, Bool.false_eq_true, ↓reduceIte, hEndpoint]
    rfl
  have hKept := @kept_hearAll site port serviceID (self.ip :: self.nodeInfo.otherNodes.map SwarmNode.ip)
  rw [scaleDown, eval_answered rfl hHas]
  dsimp only
  rw [Program.eval_bind, hPublish, Option.bind_some]
  dsimp only
  rw [Program.eval_bind, heard_listenOnPort hNever, Option.bind_some]
  dsimp only
  rw [Program.eval_bind, heard_sendListenRequestToAllNodes hNever hServe, Option.bind_some]
  dsimp only
  rw [Program.eval_bind, eval_scaleTo (hKept.services ▸ hStored) hMode, Option.bind_some, scaleOutcome,
    hNever, hNever]
  rfl

/-- Every other node gets the remove request. -/
theorem reached_of_never {others : List SwarmNode}
    (hServe : ∀ node ∈ others, nodes.serves node.ip .remove = true) :
    reached nodes fails calls others = others.map SwarmNode.ip := by
  induction others generalizing calls with
  | nil => rfl
  | cons node rest ih =>
      rw [reached, if_pos ⟨hServe node (List.mem_cons_self ..), hNever calls⟩, List.map_cons,
        ih fun other hMem => hServe other (List.mem_cons_of_mem _ hMem)]

end Never

section Fit

variable {serviceID direction : String} {port : UInt32} {service : Service} {replicas : UInt64}

theorem Fit.readied (h : Fit serviceID port service) : Fit serviceID port (readied service direction) := by
  unfold Cluster.readied constrained
  split
  · split
    · exact ⟨h.id, h.published, h.counted, fun _ => rfl⟩
    · exact h
  · exact h

theorem Fit.scaled (h : Fit serviceID port service) : Fit serviceID port (scaled service replicas) :=
  ⟨h.id, h.published, rfl, h.placed⟩

theorem Fit.mode (h : Fit serviceID port service) : service.spec.mode.replicated.isSome = true := by
  obtain ⟨replicas, hReplicas⟩ := Option.isSome_iff_exists.mp h.counted
  exact mode_of_replicas? hReplicas

theorem Fit.sturdy (h : Fit serviceID port service) (hSmall : service.spec.replicas? ≠ some (-1)) :
    Sturdy service.spec where
  mode := h.mode
  small := hSmall
  placed hLabel hNone := by simpa [hNone] using h.placed hLabel

end Fit

section Wired

variable {nodes : Nodes} {manager ip : String}

theorem Wired.serves (h : Wired nodes manager) (hIp : ip ∈ nodes.ips) {endpoint : Endpoint}
    (hEndpoint : endpoint ≠ .scale) :
    ∀ node ∈ (nodes.info ip).otherNodes, nodes.serves node.ip endpoint = true := by
  intro node hNode
  simp [Nodes.serves, h.known ip hIp node hNode, hEndpoint]

/-- A node and those in its list are all the nodes. -/
theorem Wired.everyone (h : Wired nodes manager) (hIp : ip ∈ nodes.ips) {other : String} :
    other ∈ ip :: (nodes.info ip).otherNodes.map SwarmNode.ip ↔ other ∈ nodes.ips := by
  rw [List.mem_cons, List.mem_map]
  constructor
  · rintro (rfl | ⟨node, hNode, rfl⟩)
    · exact hIp
    · exact h.known ip hIp node hNode
  · intro hOther
    by_cases hSame : other = ip
    · exact Or.inl hSame
    · exact Or.inr (h.others ip hIp other hOther hSame)

theorem Wired.address (h : Wired nodes manager) (hIp : ip ∈ nodes.ips) (hWorker : ip ≠ manager) :
    managerAddress (nodes.info ip).otherNodes = manager := by
  obtain ⟨node, hNode, hManager⟩ := manager_of_worker h.toOneManager hIp hWorker
  rw [managerAddress, hNode]
  exact hManager

theorem Wired.manages_manager (h : Wired nodes manager) : (nodes.info manager).autoscalerManager = true :=
  (h.manages manager h.manager_mem).mpr rfl

theorem Wired.worker (h : Wired nodes manager) (hIp : ip ∈ nodes.ips) (hWorker : ip ≠ manager) :
    (nodes.info ip).autoscalerManager = false :=
  Bool.eq_false_iff.mpr fun hManager => hWorker ((h.manages ip hIp).mp hManager)

end Wired

section Tidy

variable {nodes : Nodes} {manager serviceID direction : String} {port : UInt32} {site mid after : Site}
  {service : Service} {replicas target : UInt64}

theorem Tidy.allWait (h : Tidy nodes manager serviceID port site) : AllWait serviceID site := by
  intro ip
  unfold Site.cancelled
  by_cases hSame : ip = manager
  · subst hSame
    cases hEntry : site.world.keepAliveOps (ip, serviceID) with
    | none => rfl
    | some ch => simp [Site.listens, h.waiting, hEntry]
  · rw [h.elsewhere ip hSame]
    rfl

theorem Tidy.counted (h : Tidy nodes manager serviceID port site) : ∃ service replicas,
    site.world.services serviceID = some service ∧ Fit serviceID port service ∧
      service.spec.replicas? = some replicas ∧ site.world.replicas serviceID = some replicas := by
  obtain ⟨service, hStored, hFit⟩ := h.deployed
  obtain ⟨replicas, hReplicas⟩ := Option.isSome_iff_exists.mp hFit.counted
  exact ⟨service, replicas, hStored, hFit, hReplicas, by rw [World.replicas, hStored]; exact hReplicas⟩

theorem Tidy.tame (h : Tidy nodes manager serviceID port site)
    (hSmall : site.world.replicas serviceID ≠ some (-1)) : Tame serviceID site := by
  intro service hStored
  obtain ⟨other, hOther, hFit⟩ := h.deployed
  obtain rfl := Option.mem_unique hStored hOther
  refine ⟨hFit.sturdy fun hMax => hSmall ?_, fun _ => h.allWait⟩
  rw [World.replicas, hOther]
  exact hMax

/-- Where ports and keep-alives stay, a fit service with another count changes the picture
in its count. -/
theorem Tidy.recount (h : Tidy nodes manager serviceID port site) (hFit : Fit serviceID port service)
    (hReplicas : service.spec.replicas? = some replicas) :
    Tidy nodes manager serviceID port (site.setService serviceID service) ∧
      picture manager serviceID port (site.setService serviceID service) = ⟨replicas.toNat,
        (picture manager serviceID port site).drowsy, (picture manager serviceID port site).watched⟩ := by
  refine ⟨⟨⟨service, Function.update_self .., hFit⟩, h.elsewhere, h.waiting, h.alike, h.own⟩, ?_⟩
  rw [picture, Site.setService, replicas_setService, hReplicas]
  rfl

/-- The site as a request has prepared it, before the count. -/
theorem Tidy.prepared (h : Tidy nodes manager serviceID port site)
    (hStored : site.world.services serviceID = some service) (hFit : Fit serviceID port service)
    (hPrepares : Prepares (manager, serviceID) site service replicas direction target mid) :
    Tidy nodes manager serviceID port mid ∧
      picture manager serviceID port mid = ⟨(picture manager serviceID port site).replicas,
        if direction = "over" then false else (picture manager serviceID port site).drowsy,
        (picture manager serviceID port site).watched⟩ := by
  have hMid := hPrepares.stored hStored
  have hCount : mid.world.replicas serviceID = site.world.replicas serviceID := by
    rw [World.replicas, World.replicas, hMid, hStored]
    exact replicas?_readied
  obtain ⟨hPorts, hMap⟩ := hPrepares.ports
  have hListening (ip : String) : Listening mid.world port ip ↔ Listening site.world port ip := by
    rw [Listening, Listening, hPorts, hMap]
  have hOwn (ip id : String) (hId : id ∈ mid.world.portToServiceID (ip, port)) : id = serviceID :=
    h.own ip id (hPorts ▸ hId)
  have hAlike (ip : String) (hIp : ip ∈ nodes.ips) :
      Listening mid.world port ip ↔ Listening mid.world port manager := by
    rw [hListening, hListening]
    exact h.alike ip hIp
  simp only [picture, hCount, hListening]
  rcases hPrepares.keepAlives with ⟨hNone, hEntries, hWaiting⟩ | ⟨rfl, ch, hFound, _, hEntries, hWaiting⟩
  · refine ⟨⟨⟨_, hMid, hFit.readied⟩, ?_, ?_, hAlike, hOwn⟩, ?_⟩
    · rw [hEntries]
      exact h.elsewhere
    · rw [hEntries, hWaiting]
      exact h.waiting
    · rw [hEntries]
      split
      · next hOver => rw [hNone hOver]; rfl
      · rfl
  · refine ⟨⟨⟨_, hMid, hFit.readied⟩, fun ip hOther => ?_, ?_, hAlike, hOwn⟩, ?_⟩
    · have hApart : (ip, serviceID) ≠ (manager, serviceID) := fun hSame => hOther (congrArg Prod.fst hSame)
      rw [hEntries, Function.update_of_ne hApart]
      exact h.elsewhere ip hOther
    · rw [hEntries, hWaiting, Function.update_self]
      simp [Site.receive, h.waiting, hFound]
    · rw [hEntries, Function.update_self]
      rfl

/-- The site with a new entry of the manager and its goroutine. -/
theorem Tidy.started (h : Tidy nodes manager serviceID port site) (ch : Nat)
    (hNone : site.world.keepAliveOps (manager, serviceID) = none) :
    Tidy nodes manager serviceID port (site.started manager serviceID ch) ∧
      picture manager serviceID port (site.started manager serviceID ch) =
        ⟨(picture manager serviceID port site).replicas, true, (picture manager serviceID port site).watched⟩ := by
  refine ⟨⟨h.deployed, fun ip hOther => ?_, ?_, h.alike, h.own⟩, ?_⟩
  · have hApart : (ip, serviceID) ≠ (manager, serviceID) := fun hSame => hOther (congrArg Prod.fst hSame)
    simp [Site.started, Function.update_of_ne hApart, h.elsewhere ip hOther]
  · simp [Site.started, h.waiting, hNone]
  · rw [picture, Site.started, World.setKeepAlive_keepAliveOps, Function.update_self]
    rfl

/-- The site when the goroutine has put the service to sleep. -/
theorem Tidy.slept (h : Tidy nodes manager serviceID port site) (hFit : Fit serviceID port service)
    (hWired : Wired nodes manager) :
    Tidy nodes manager serviceID port (((({ site with waiting := [] } : Site).hearAll port serviceID
      (manager :: (nodes.info manager).otherNodes.map SwarmNode.ip)).setService serviceID
        (scaled service 0)).setKeepAlive (manager, serviceID) none) ∧
      picture manager serviceID port (((({ site with waiting := [] } : Site).hearAll port serviceID
        (manager :: (nodes.info manager).otherNodes.map SwarmNode.ip)).setService serviceID
          (scaled service 0)).setKeepAlive (manager, serviceID) none) = ⟨0, false, true⟩ := by
  have hKept := @kept_hearAll { site with waiting := [] } port serviceID
    (manager :: (nodes.info manager).otherNodes.map SwarmNode.ip)
  have hOwn := @own_hearAll { site with waiting := [] } port serviceID
    (manager :: (nodes.info manager).otherNodes.map SwarmNode.ip) h.own
  have hHeard (ip : String) (hIp : ip ∈ nodes.ips) : Listening (({ site with waiting := [] } : Site).hearAll
      port serviceID (manager :: (nodes.info manager).otherNodes.map SwarmNode.ip)).world port ip :=
    listening_hearAll.mpr (Or.inl ((hWired.everyone hWired.manager_mem).mpr hIp))
  generalize Site.hearAll _ _ _ _ = heard at hKept hOwn hHeard ⊢
  refine ⟨⟨⟨_, Function.update_self .., hFit.scaled⟩, fun ip hOther => ?_, ?_, fun ip hIp => ?_, hOwn⟩, ?_⟩
  · have hApart : (ip, serviceID) ≠ (manager, serviceID) := fun hSame => hOther (congrArg Prod.fst hSame)
    simp [Site.setKeepAlive, Site.setService, Function.update_of_ne hApart, hKept.entries, h.elsewhere ip hOther]
  · simp [Site.setKeepAlive, Site.setService, hKept.waiting]
  · exact iff_of_true (hHeard ip hIp) (hHeard manager hWired.manager_mem)
  · have hManager := hHeard manager hWired.manager_mem
    simp only [Listening] at hManager
    simp [picture, Site.setKeepAlive, Site.setService, World.replicas, scaled, Listening, hManager]

/-- The site when all nodes have forgotten the port. -/
theorem Tidy.forgotten (h : Tidy nodes manager serviceID port site) (hWired : Wired nodes manager) {ip : String}
    (hIp : ip ∈ nodes.ips) :
    Tidy nodes manager serviceID port
        (site.forgetAll port (ip :: (nodes.info ip).otherNodes.map SwarmNode.ip)) ∧
      picture manager serviceID port (site.forgetAll port (ip :: (nodes.info ip).otherNodes.map SwarmNode.ip)) =
        ⟨(picture manager serviceID port site).replicas, (picture manager serviceID port site).drowsy, false⟩ := by
  have hKept := @kept_forgetAll port site (ip :: (nodes.info ip).otherNodes.map SwarmNode.ip)
  have hOwn := @own_forgetAll site port serviceID (ip :: (nodes.info ip).otherNodes.map SwarmNode.ip) h.own
  have hDeaf (other : String) (hOther : other ∈ nodes.ips) : ¬ Listening
      (site.forgetAll port (ip :: (nodes.info ip).otherNodes.map SwarmNode.ip)).world port other := by
    rw [listening_forgetAll]
    exact fun hBoth => hBoth.1 ((hWired.everyone hIp).mpr hOther)
  generalize Site.forgetAll _ _ _ = deaf at hKept hOwn hDeaf ⊢
  refine ⟨⟨?_, ?_, ?_, fun other hOther => ?_, hOwn⟩, ?_⟩
  · rw [hKept.services]
    exact h.deployed
  · rw [hKept.entries]
    exact h.elsewhere
  · rw [hKept.entries, hKept.waiting]
    exact h.waiting
  · exact iff_of_false (hDeaf other hOther) (hDeaf manager hWired.manager_mem)
  · simp [picture, World.replicas, hKept.services, hKept.entries, hDeaf manager hWired.manager_mem]

end Tidy

end Cluster

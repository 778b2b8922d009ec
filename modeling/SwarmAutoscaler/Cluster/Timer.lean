import SwarmAutoscaler.Cluster.Site

/-! What a keep-alive goroutine does when its timer has fired and it runs alone: it finds
its entry gone, it gives up at one of its calls, or it puts the service to sleep. -/
namespace Cluster

open Docker Process

/-- Call number `calls` and every second one after it are listen requests that get through. -/
def Delivered (nodes : Nodes) (fails : Nat → Bool) : Nat → List SwarmNode → Prop
  | _, [] => True
  | calls, node :: rest =>
      nodes.serves node.ip .listen = true ∧ fails calls = false ∧ Delivered nodes fails (calls + 2) rest

/-- None of the four steps fails: looking up the port, listening, telling the other nodes,
scaling to 0. -/
def Completes (nodes : Nodes) (self : Instance) (serviceID : String) (fails : Nat → Bool) (before : World) :
    Prop :=
  (∃ service ∈ before.services serviceID, service.endpoint ≠ []) ∧ fails 0 = false ∧ fails 1 = false ∧
    Delivered nodes fails 2 self.nodeInfo.otherNodes ∧
    fails (2 + 2 * self.nodeInfo.otherNodes.length) = false ∧
      fails (3 + 2 * self.nodeInfo.otherNodes.length) = false

/-- Services and keep-alives are as before. -/
structure Kept (before after : Site) : Prop where
  services : after.world.services = before.world.services
  entries : after.world.keepAliveOps = before.world.keepAliveOps
  waiting : after.waiting = before.waiting

theorem Kept.refl (site : Site) : Kept site site := ⟨rfl, rfl, rfl⟩

theorem Kept.trans {before site after : Site} (h : Kept before site) (hNext : Kept site after) :
    Kept before after :=
  ⟨hNext.services.trans h.services, hNext.entries.trans h.entries, hNext.waiting.trans h.waiting⟩

/-- All that a goroutine whose timer has fired can do when it runs alone. -/
inductive Lapse (nodes : Nodes) (self : Instance) (serviceID : String) (fails : Nat → Bool) (before : Site) :
    Result → Site → Prop where
  | gone (none : before.world.keepAliveOps (self.ip, serviceID) = none) :
      Lapse nodes self serviceID fails before (.ok ()) before
  | aborted {err : String} {after : Site} (found : before.world.keepAliveOps (self.ip, serviceID) ≠ none)
      (failed : ¬ Completes nodes self serviceID fails before.world) (kept : Kept before after) :
      Lapse nodes self serviceID fails before (.error err) after
  | slept {mid : Site} {service : Service} (found : before.world.keepAliveOps (self.ip, serviceID) ≠ none)
      (completed : Completes nodes self serviceID fails before.world)
      (stored : before.world.services serviceID = some service) (kept : Kept before mid) :
      Lapse nodes self serviceID fails before (.ok ())
        ((mid.setService serviceID (scaled service 0)).setKeepAlive (self.ip, serviceID) none)

section Eval

variable {nodes : Nodes} {self : Instance} {serviceID ip : String} {port : UInt32} {thread calls : Nat}
  {fails : Nat → Bool} {site before : Site} {outcome : Outcome Site Result}

theorem eval_getPublishedPort : ∃ result,
    (getPublishedPort serviceID).eval (solo nodes thread) fails calls site = some ⟨result, calls + 1, site⟩ ∧
      (result.isOk = true ↔ (∃ service ∈ site.world.services serviceID, service.endpoint ≠ []) ∧
        fails calls = false) := by
  rw [getPublishedPort, eval_inspect]
  cases hFails : fails calls with
  | true => exact ⟨_, rfl, iff_of_false Bool.false_ne_true (by simp)⟩
  | false =>
      cases hStored : site.world.services serviceID with
      | none =>
          simp only [World.inspect, hStored, Bool.false_eq_true, ↓reduceIte]
          exact ⟨_, rfl, iff_of_false Bool.false_ne_true (by simp)⟩
      | some service =>
          simp only [World.inspect, hStored, Bool.false_eq_true, ↓reduceIte]
          cases hPorts : service.endpoint with
          | nil => exact ⟨_, rfl, iff_of_false Bool.false_ne_true (by simp [hPorts])⟩
          | cons port rest => exact ⟨_, rfl, iff_of_true rfl (by simp [hPorts])⟩

theorem eval_listenOnPort : ∃ result after,
    (listenOnPort ip port serviceID).eval (solo nodes thread) fails calls site = some ⟨result, calls + 1, after⟩ ∧
      (result = .ok () ↔ fails calls = false) ∧ Kept site after := by
  rw [listenOnPort, eval_answered rfl rfl, Program.eval_call rfl]
  cases hFails : fails calls with
  | true => exact ⟨_, _, rfl, iff_of_false nofun nofun, rfl, rfl, rfl⟩
  | false => exact ⟨_, _, rfl, iff_of_true rfl rfl, rfl, rfl, rfl⟩

/-- A listen request. Whether the other node could listen is not seen. -/
theorem eval_sendListenRequest : ∃ result after,
    (sendListenRequest (listenOnPort ip) port serviceID ip).eval (solo nodes thread) fails calls site = some
        ⟨result, if result = .ok () then calls + 2 else calls + 1, after⟩ ∧
      (result = .ok () ↔ nodes.serves ip .listen = true ∧ fails calls = false) ∧ Kept site after := by
  rw [sendListenRequest_eq, eval_post]
  split
  · next hServes =>
      obtain ⟨listened, after, hListen, _, hKept⟩ :=
        @eval_listenOnPort nodes serviceID ip port thread (calls + 1) fails site
      dsimp only
      rw [Program.eval_bind, hListen]
      exact ⟨_, _, rfl, iff_of_true rfl hServes, hKept⟩
  · next hServes => exact ⟨_, _, rfl, iff_of_false nofun hServes, .refl _⟩

theorem eval_sendListenRequestToAllNodes {info : SwarmNodeInfo} : ∃ result calls' after,
    (sendListenRequestToAllNodes listenOnPort info port serviceID).eval (solo nodes thread) fails calls site =
        some ⟨result, calls', after⟩ ∧
      (result = .ok () ↔ Delivered nodes fails calls info.otherNodes) ∧
      (result = .ok () → calls' = calls + 2 * info.otherNodes.length) ∧ Kept site after := by
  unfold sendListenRequestToAllNodes
  generalize info.otherNodes = others
  induction others generalizing calls site with
  | nil => exact ⟨_, _, _, rfl, iff_of_true rfl trivial, fun _ => rfl, .refl _⟩
  | cons node rest ih =>
      obtain ⟨result, after, hSend, hOk, hKept⟩ :=
        @eval_sendListenRequest nodes serviceID node.ip port thread calls fails site
      rw [broadcast, Program.eval_bind, hSend, Delivered]
      cases result with
      | error err =>
          refine ⟨_, _, _, rfl, iff_of_false nofun ?_, nofun, hKept⟩
          intro h
          cases hOk.mpr ⟨h.1, h.2.1⟩
      | ok _ =>
          obtain ⟨result, calls', last, hRest, hRestOk, hCalls, hRestKept⟩ := @ih (calls + 2) after
          obtain ⟨hServes, hFails⟩ := hOk.mp rfl
          refine ⟨result, calls', last, hRest, ?_, ?_, hKept.trans hRestKept⟩
          · simp [hRestOk, hServes, hFails]
          · intro h
            rw [hCalls h, List.length_cons]
            omega

/-- A step that fails ends the goroutine at once. -/
theorem lapse_of_eval
    (h : (scaleDown self serviceID).eval (solo nodes thread) fails 0 before = some outcome) :
    Lapse nodes self serviceID fails before outcome.result outcome.state := by
  have hHas : Site.exec nodes thread (.keepAliveOpsHas self.ip serviceID) false before =
      some ((before.world.keepAliveOps (self.ip, serviceID)).isSome, before) := rfl
  rw [scaleDown, eval_answered rfl hHas] at h
  cases hEntry : before.world.keepAliveOps (self.ip, serviceID) with
  | none =>
      rw [hEntry] at h
      cases h
      exact .gone hEntry
  | some ch =>
      have hFound : before.world.keepAliveOps (self.ip, serviceID) ≠ none := by simp [hEntry]
      rw [hEntry] at h
      simp only [Option.isSome_some] at h
      obtain ⟨published, hPublish, hPublished⟩ := @eval_getPublishedPort nodes serviceID thread 0 fails before
      rw [Program.eval_bind, hPublish] at h
      cases published with
      | error err =>
          cases h
          exact .aborted hFound (fun hAll => nomatch hPublished.mpr ⟨hAll.1, hAll.2.1⟩) (.refl _)
      | ok port =>
          simp only [Option.bind_some] at h
          obtain ⟨listened, site, hListen, hListened, hKept⟩ :=
            @eval_listenOnPort nodes serviceID self.ip port thread 1 fails before
          rw [Program.eval_bind, hListen] at h
          cases listened with
          | error err =>
              cases h
              exact .aborted hFound (fun hAll => nomatch hListened.mpr hAll.2.2.1) hKept
          | ok _ =>
              simp only [Option.bind_some] at h
              obtain ⟨sent, calls, informed, hSend, hSent, hCalls, hKeptNodes⟩ :=
                @eval_sendListenRequestToAllNodes nodes serviceID port thread 2 fails site self.nodeInfo
              have hKept := hKept.trans hKeptNodes
              rw [Program.eval_bind, hSend] at h
              cases sent with
              | error err =>
                  cases h
                  exact .aborted hFound (fun hAll => nomatch hSent.mpr hAll.2.2.2.1) hKept
              | ok _ =>
                  simp only [Option.bind_some] at h
                  obtain rfl := hCalls rfl
                  rw [Program.eval_bind] at h
                  obtain ⟨last, hScale, h⟩ := Option.bind_eq_some_iff.mp h
                  rcases scaleTo_of_eval hScale with ⟨service, hStored, hInspect, hUpdate, rfl⟩ |
                    ⟨hFails, hSame, hErr⟩
                  · cases h
                    rw [hKept.services] at hStored
                    obtain ⟨hPorts, hRead⟩ := hPublished.mp rfl
                    have hUpdate : fails (3 + 2 * self.nodeInfo.otherNodes.length) = false := by
                      rwa [Nat.add_right_comm] at hUpdate
                    exact .slept hFound ⟨hPorts, hRead, hListened.mp rfl, hSent.mp rfl, hInspect, hUpdate⟩
                      hStored hKept
                  · have hIncomplete : ¬ Completes nodes self serviceID fails before.world := by
                      rintro ⟨⟨service, hStored, _⟩, _, _, _, hInspect, hUpdate⟩
                      rw [Nat.add_right_comm] at hFails
                      have hTrue := hFails (by rw [hKept.services, hStored]; nofun) hInspect
                      rw [hUpdate] at hTrue
                      cases hTrue
                    cases hResult : last.result with
                    | ok _ => exact absurd hResult hErr
                    | error err =>
                        rw [hResult] at h
                        cases h
                        rw [hSame]
                        exact .aborted hFound hIncomplete hKept

end Eval

end Cluster

import SwarmAutoscaler.Cluster.Scale
import SwarmAutoscaler.Process.Track

/-! A scale request as an automaton. The points of `changeServiceReplicas` carry what the
request knows: the service as it first inspected it, the count it is going to write, the
channel it found or made. The code keeps to the automaton for all answers. -/
namespace Cluster

open Docker Process

/-- Where a call of `changeServiceReplicas` stands, with what it has read so far and still
uses. -/
inductive Point where
  | fresh
  /-- "over", before its look at the keep-alive table -/
  | looking (service : Service) (replicas : UInt64)
  /-- "over", has found the channel of a keep-alive -/
  | sending (replicas : UInt64) (ch : Nat)
  /-- "over", has sent and is about to delete the entry -/
  | cancelling (replicas : UInt64)
  /-- "under", has 2 replicas and may have to add the constraint -/
  | constraining (service : Service) (replicas : UInt64)
  /-- "under", has at most 1 replica and no channel yet -/
  | starting (service : Service) (replicas : UInt64)
  | naming (service : Service) (replicas : UInt64) (ch : Nat)
  /-- "under", has made the entry and is about to start the goroutine -/
  | started (ch : Nat)
  /-- on the way into `scaleTo` -/
  | committed (newReplicas : UInt64)
  /-- in `scaleTo`, about to update under the version of its own inspect -/
  | writing (service : Service) (newReplicas : UInt64)
  | succeeded
  | kept
  | failed

/-- Only from 2 does the subtraction of 1 lead to 1, also modulo 2^64. -/
theorem eq_two_of_sub_one {replicas : UInt64} (h : replicas - 1 = 1) : replicas = 2 := by
  calc replicas = replicas - 1 + 1 := (UInt64.sub_add_cancel replicas 1).symm
    _ = 1 + 1 := by rw [h]

namespace Point

/-- The call has made its update and is about to return nil. -/
def isSucceeded : Point → Bool
  | .succeeded => true
  | _ => false

/-- Where the request stands after its first inspect. -/
def inspected (direction : String) (service : Service) : Point :=
  match service.spec.replicas? with
  | none => .failed
  | some replicas =>
      if direction = "over" then .looking service replicas
      else if direction = "under" then
        if replicas > 1 then
          if replicas - 1 = 1 then .constraining service replicas else .committed (replicas - 1)
        else .starting service replicas
      else .failed

/-- Where the answer to an operation takes the call. An error ends it, and the branches are
those of the count in the first inspect. -/
def advance (direction : String) (point : Point) (op : Op) : op.Answer → Point :=
  match point, op with
  | .fresh, .serviceInspect _ => fun
      | .error _ => .failed
      | .ok service => inspected direction service
  | .looking service replicas, .serviceUpdate _ _ _ => fun
      | .error _ => .failed
      | .ok _ => .looking service replicas
  | .looking _ replicas, .keepAliveOpsGet _ _ => fun
      | none => .committed (replicas + 1)
      | some ch => .sending replicas ch
  | .sending replicas _, .chanSend _ => fun _ => .cancelling replicas
  | .cancelling replicas, .keepAliveOpsDelete _ _ => fun _ => .committed (replicas + 1)
  | .constraining _ replicas, .serviceUpdate _ _ _ => fun
      | .error _ => .failed
      | .ok _ => .committed (replicas - 1)
  | .constraining _ replicas, .serviceInspect _ => fun
      | .error _ => .failed
      | .ok current => .writing current (replicas - 1)
  | .starting service replicas, .keepAliveOpsHas _ _ => fun
      | true => .kept
      | false => .starting service replicas
  | .starting service replicas, .makeChan => fun ch => .naming service replicas ch
  | .naming _ _ ch, .keepAliveOpsSet _ _ _ => fun _ => .started ch
  | .started _, .goKeepAlive _ _ _ => fun _ => .kept
  | .committed newReplicas, .serviceInspect _ => fun
      | .error _ => .failed
      | .ok current => .writing current newReplicas
  | .writing _ _, .serviceUpdate _ _ _ => fun
      | .error _ => .failed
      | .ok _ => .succeeded
  | point, _ => fun _ => point

/-- The operations at each point. -/
def permits (ip serviceID : String) (point : Point) (op : Op) : Prop :=
  match point with
  | .fresh => op = .serviceInspect serviceID
  | .looking service replicas => op = .keepAliveOpsGet ip serviceID ∨ op = .nilDereference ∨
      (replicas = 1 ∧ ∃ spec, op = .serviceUpdate service.id service.version spec ∧
        spec.replicas? = some replicas)
  | .sending _ ch => op = .chanSend ch
  | .cancelling _ => op = .keepAliveOpsDelete ip serviceID
  | .constraining service replicas => op = .serviceInspect serviceID ∨ op = .nilDereference ∨
      (replicas - 1 = 1 ∧ ∃ spec, op = .serviceUpdate service.id service.version spec ∧
        spec.replicas? = some replicas)
  | .starting _ _ => op = .keepAliveOpsHas ip serviceID ∨ op = .makeChan
  | .naming _ _ ch => op = .keepAliveOpsSet ip serviceID ch
  | .started ch => op = .goKeepAlive ip serviceID ch
  | .committed _ => op = .serviceInspect serviceID
  | .writing current newReplicas => op = .nilDereference ∨
      ∃ spec, op = .serviceUpdate serviceID current.version spec ∧ spec.replicas? = some newReplicas
  | .succeeded | .kept | .failed => False

/-- The points where the code of a request may end. -/
def mayEnd : Point → Bool
  | .fresh | .succeeded | .kept | .failed => true
  | _ => false

/-- A call returns nil where it has scaled, or where it left the service to its keep-alive,
and otherwise an error. -/
def ends : Point → Result → Prop
  | .succeeded, result | .kept, result => result = .ok ()
  | .fresh, result | .failed, result => result.isOk = false
  | _, _ => False

/-- A call ends only at points at which it may end. -/
theorem mayEnd_of_ends {point : Point} {result : Result} (h : point.ends result) : point.mayEnd = true := by
  cases point <;> first | rfl | exact h.elim

/-- A request uses the Docker API, the keep-alive table and its channels. -/
def reaches : Op → Bool
  | .perfRead _ | .httpPost _ _ | .selectTimer _ _ | .recover => false
  | .portToServiceIDLoad _ _ | .portToServiceIDStore _ _ _ | .portToServiceIDDelete _ _ => false
  | .portsMapUpdate _ _ _ | .portsMapDelete _ _ => false
  | _ => true

/-- What a protocol of a request permits, a request can come to perform. -/
theorem reaches_of_permits {ip serviceID : String} {point : Point} {op : Op}
    (h : point.permits ip serviceID op) : reaches op = true := by
  cases point with
  | fresh | sending | cancelling | naming | started | committed =>
      rw [show op = _ from h]
      rfl
  | starting => rcases h with rfl | rfl <;> rfl
  | looking | constraining => rcases h with rfl | rfl | ⟨_, spec, rfl, _⟩ <;> rfl
  | writing => rcases h with rfl | ⟨spec, rfl, _⟩ <;> rfl
  | succeeded | kept | failed => exact h.elim

end Point

/-- What one call of `changeServiceReplicas` can do at each point, and how it can end
there. -/
def requestProtocol (ip serviceID direction : String) : Program.Protocol signature Point Result where
  permits := Point.permits ip serviceID
  advance := Point.advance direction
  ends := Point.ends

section Code

variable {ip serviceID direction : String}

/-- `scaleTo` from a point before its inspection of the service. -/
theorem follows_scaleTo_inspecting {point : Point} {newReplicas : UInt64}
    (hInspects : point.permits ip serviceID (.serviceInspect serviceID))
    (hFails : ∀ err, Point.advance direction point (.serviceInspect serviceID) (.error err) = .failed)
    (hFound : ∀ service,
      Point.advance direction point (.serviceInspect serviceID) (.ok service) = .writing service newReplicas) :
    (scaleTo serviceID newReplicas).Follows (requestProtocol ip serviceID direction) anyAnswer point := by
  refine ⟨hInspects, fun answer _ => ?_⟩
  dsimp only [requestProtocol]
  cases answer with
  | error err =>
      rw [hFails err]
      rfl
  | ok service =>
      rw [hFound service]
      dsimp only
      split
      · exact ⟨Or.inl rfl, fun never => nomatch never⟩
      · refine ⟨Or.inr ⟨_, rfl, ServiceSpec.replicas?_setReplicas _ _⟩, fun answer _ => ?_⟩
        cases answer <;> rfl

/-- `scaleTo` for a call that has computed its count and has no constraint to change. -/
theorem follows_scaleTo_committed {newReplicas : UInt64} :
    (scaleTo serviceID newReplicas).Follows (requestProtocol ip serviceID direction) anyAnswer
      (.committed newReplicas) :=
  follows_scaleTo_inspecting rfl (fun _ => rfl) fun _ => rfl

/-- The second half of "over", from its look at the keep-alive table. -/
theorem follows_cancelKeepAlive_looking {nodeInfo : SwarmNodeInfo} {service : Service}
    {replicas : UInt64} :
    (cancelKeepAlive ⟨ip, nodeInfo⟩ serviceID (replicas + 1)).Follows
      (requestProtocol ip serviceID direction) anyAnswer (.looking service replicas) := by
  refine ⟨Or.inl rfl, fun found _ => ?_⟩
  cases found with
  | none => exact follows_scaleTo_committed
  | some ch => exact ⟨rfl, fun _ _ => ⟨rfl, fun _ _ => follows_scaleTo_committed⟩⟩

/-- The keep-alive that an "under" request leaves the last replica to. -/
theorem follows_startKeepAlive_starting {nodeInfo : SwarmNodeInfo} {service : Service}
    {replicas : UInt64} :
    (startKeepAlive ⟨ip, nodeInfo⟩ serviceID).Follows
      (requestProtocol ip serviceID direction) anyAnswer (.starting service replicas) := by
  refine ⟨Or.inl rfl, fun exists? _ => ?_⟩
  cases exists? with
  | true => rfl
  | false => exact ⟨Or.inr rfl, fun ch _ => ⟨rfl, fun _ _ => ⟨rfl, fun _ _ => rfl⟩⟩⟩

/-- "over" past its inspect, with the change of the constraints at 1. -/
theorem follows_changeOver_looking {nodeInfo : SwarmNodeInfo} {service : Service} {replicas : UInt64}
    (hReplicas : service.spec.replicas? = some replicas) :
    (changeOver ⟨ip, nodeInfo⟩ serviceID service replicas).Follows
      (requestProtocol ip serviceID direction) anyAnswer (.looking service replicas) := by
  refine Program.follows_bind ?_
  split
  · next hOne =>
      unfold updateServiceConstraints
      split
      · exact follows_cancelKeepAlive_looking
      · split
        · exact ⟨Or.inr (Or.inl rfl), fun never => nomatch never⟩
        · refine ⟨Or.inr (Or.inr ⟨hOne, _, rfl, hReplicas⟩), fun answer _ => ?_⟩
          cases answer with
          | error err => rfl
          | ok _ => exact follows_cancelKeepAlive_looking
  · exact follows_cancelKeepAlive_looking

/-- `scaleTo` where the constraints may be changed first: its inspect is then not the next
operation. -/
theorem follows_scaleTo_constraining {service : Service} {replicas : UInt64} :
    (scaleTo serviceID (replicas - 1)).Follows (requestProtocol ip serviceID direction) anyAnswer
      (.constraining service replicas) :=
  follows_scaleTo_inspecting (Or.inl rfl) (fun _ => rfl) fun _ => rfl

/-- "under" past its inspect, in each of the three branches of the count. -/
theorem follows_changeUnder_inspected {nodeInfo : SwarmNodeInfo} {service : Service} {replicas : UInt64}
    (hReplicas : service.spec.replicas? = some replicas) :
    (changeUnder ⟨ip, nodeInfo⟩ serviceID service replicas).Follows
      (requestProtocol ip serviceID direction) anyAnswer
      (if replicas > 1 then if replicas - 1 = 1 then .constraining service replicas
        else .committed (replicas - 1) else .starting service replicas) := by
  unfold changeUnder
  split
  · refine Program.follows_bind ?_
    split
    · next hOne =>
        unfold updateServiceConstraints
        split
        · exact follows_scaleTo_constraining
        · split
          · exact ⟨Or.inr (Or.inl rfl), fun never => nomatch never⟩
          · refine ⟨Or.inr (Or.inr ⟨hOne, _, rfl, hReplicas⟩), fun answer _ => ?_⟩
            cases answer with
            | error err => rfl
            | ok _ => exact follows_scaleTo_committed
    · exact follows_scaleTo_committed
  · exact follows_startKeepAlive_starting

/-- The code of a scale request keeps to its automaton. -/
theorem follows_request {nodeInfo : SwarmNodeInfo} :
    (changeServiceReplicas ⟨ip, nodeInfo⟩ serviceID direction).Follows
      (requestProtocol ip serviceID direction) anyAnswer .fresh := by
  unfold changeServiceReplicas
  split
  · rfl
  · refine ⟨rfl, fun answer _ => ?_⟩
    cases answer with
    | error err => rfl
    | ok service =>
        simp only [requestProtocol, Point.advance, Point.inspected]
        cases hReplicas : service.spec.replicas? with
        | none => rfl
        | some replicas =>
            dsimp only
            split
            · exact follows_changeOver_looking hReplicas
            · split
              · exact follows_changeUnder_inspected hReplicas
              · rfl

/-- Except where it leaves the service to its keep-alive, a call has returned nil exactly
when it has made its update. -/
theorem result_of_follows {program : Code Result} {point : Point}
    (h : program.Follows (requestProtocol ip serviceID direction) anyAnswer point) (hKept : point ≠ .kept) :
    program.result.any Except.isOk = point.isSucceeded := by
  cases program with
  | done result =>
      have hEnds : Point.ends point result := h
      cases point <;> simp_all [Point.ends, Point.isSucceeded, Program.result, Except.isOk, Except.toBool]
  | perform other rest =>
      have hPermits : Point.permits ip serviceID point other := h.1
      cases point <;> first | rfl | exact hPermits.elim

end Code

end Cluster

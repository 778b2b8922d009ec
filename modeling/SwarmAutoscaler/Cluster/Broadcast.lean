import SwarmAutoscaler.Cluster.Deployment
import SwarmAutoscaler.Cluster.Footprint

/-! What a broadcast hears from the other nodes. A handler signals a failure by the status
of its response, and no client looks at it: to the sender, a node that answered with an
error is a node that succeeded. -/
namespace Cluster

open Docker Process

/-- `post` for a body that arrives as `body`, be it what was sent or something that does
not decode. -/
def postBody {Data : Type} (context ip : String) (endpoint : Endpoint) (handler : Request Data → Code Response)
    (body : Except String Data) : Code Result :=
  .perform (Op.httpPost ip endpoint) fun
    | .error err => .done (.error (context ++ err))
    | .ok _ => ((handler ⟨"POST", body⟩).attempt Op.trap).bind fun
        | none => .done (.error (context ++ "EOF"))
        | some _ => .done (.ok ())

/-- A request of the clients is one whose body arrives as it was sent. -/
theorem post_eq_postBody {Data : Type} (context ip : String) (endpoint : Endpoint)
    (handler : Request Data → Code Response) (data : Data) :
    post context ip endpoint handler data = postBody context ip endpoint handler (.ok data) := by
  unfold post postBody
  rfl

/-- What became of a request: a transport error, a rejected body, or the function behind
the handler was called and has panicked or returned. -/
inductive Exchange where
  | undelivered (err : String)
  | rejected (err : String)
  | dropped
  | returned (result : Result)
  deriving DecidableEq

/-- The client has got a response, whatever its status. -/
def Exchange.responded : Exchange → Bool
  | .undelivered _ | .dropped => false
  | _ => true

/-- A result, and what became of the requests before it, each under the IP it was sent to. -/
structure Heard where
  result : Result
  exchanges : List (String × Exchange)
  deriving DecidableEq

/-- `postBody` with a note of what became of the request. -/
def exchange {Data : Type} (context ip : String) (endpoint : Endpoint) (action : Data → Code Result)
    (body : Except String Data) : Code Heard :=
  .perform (Op.httpPost ip endpoint) fun
    | .error err => .done ⟨.error (context ++ err), [(ip, .undelivered err)]⟩
    | .ok _ =>
        match body with
        | .error err => .done ⟨.ok (), [(ip, .rejected err)]⟩
        | .ok data => ((action data).attempt Op.trap).bind fun
            | none => .done ⟨.error (context ++ "EOF"), [(ip, .dropped)]⟩
            | some result => .done ⟨.ok (), [(ip, .returned result)]⟩

/-- `broadcast` with a note of what became of the requests. -/
def exchanges (context : String) (send : String → Code Heard) : List SwarmNode → Code Heard
  | [] => .done ⟨.ok (), []⟩
  | node :: rest => (send node.ip).bind fun heard =>
      match heard.result with
      | .error err => .done ⟨.error (context ++ node.ip ++ ": " ++ err), heard.exchanges⟩
      | .ok _ => (exchanges context send rest).bind fun later =>
          .done ⟨later.result, heard.exchanges ++ later.exchanges⟩

/-- The program without the note. -/
def Heard.erase (program : Code Heard) : Code Result := program.bind fun heard => .done heard.result

/-- Without its note an exchange is the client's request. -/
theorem erase_exchange (success : String) {Data : Type} {context ip : String} {endpoint : Endpoint}
    {action : Data → Code Result} {body : Except String Data} :
    Heard.erase (exchange context ip endpoint action body) =
      postBody context ip endpoint (handle success action) body := by
  unfold Heard.erase exchange postBody
  rw [Program.perform_bind]
  congr 1
  funext delivery
  cases delivery with
  | error err => rfl
  | ok _ =>
      cases body with
      | error err => rfl
      | ok data =>
          simp only [handle, ne_eq, not_true_eq_false, ↓reduceIte, Program.attempt_bind, Program.bind_assoc]
          refine Program.bind_congr fun result => ?_
          rcases result with _ | (err | _) <;> rfl

/-- Without their notes the exchanges are the broadcast. -/
theorem erase_exchanges {context : String} {send : String → Code Heard} {others : List SwarmNode} :
    Heard.erase (exchanges context send others) = broadcast context (fun ip => Heard.erase (send ip)) others := by
  induction others with
  | nil => rfl
  | cons node rest ih =>
      unfold Heard.erase at ih ⊢
      rw [exchanges, broadcast, Program.bind_assoc, Program.bind_assoc]
      refine Program.bind_congr fun heard => ?_
      cases hResult : heard.result with
      | error err => rfl
      | ok _ =>
          simp only [Program.bind_assoc, Program.done_bind]
          exact ih

section Requests

/-- The body of a request as it arrives at a node; `spoiled` says where it does not decode. -/
def arriving {Data : Type} (spoiled : String → Option String) (ip : String) (data : Data) : Except String Data :=
  match spoiled ip with
  | none => .ok data
  | some err => .error err

variable (spoiled : String → Option String)

/-- `sendListenRequestToAllNodes` with a note of what became of each of its requests. -/
def heardListen (listenOnPort : String → UInt32 → String → Code Result) (swarmNodeInfo : SwarmNodeInfo)
    (port : UInt32) (serviceID : String) : Code Heard :=
  exchanges "error sending listen request to node "
    (fun ip => exchange "error sending listen request to manager node: " ip .listen
      (fun data => listenOnPort ip data.1 data.2) (arriving spoiled ip (port, serviceID))) swarmNodeInfo.otherNodes

/-- `sendRemoveRequestToAllNodes` with a note of what became of each of its requests. -/
def heardRemove (removePort : String → UInt32 → Code Result) (swarmNodeInfo : SwarmNodeInfo) (port : UInt32) :
    Code Heard :=
  exchanges "error sending remove request to node "
    (fun ip => exchange "error sending remove request to manager node: " ip .remove
      (removePort ip) (arriving spoiled ip port)) swarmNodeInfo.otherNodes

/-- `sendScaleRequest` with a note of what became of its one request. -/
def heardScale (scaleFunc : String → String → Code Result) (serviceId direction managerIP : String) : Code Heard :=
  exchange "error sending scale request to manager node: " managerIP .scale
    (fun data => scaleFunc data.1 data.2) (arriving spoiled managerIP (serviceId, direction))

/-- How a keep-alive goroutine ends, whether its own node listens, what its broadcast heard
if it came to that, and whether it went on to scale the service to 0. -/
structure ScaledDown where
  result : Result
  listens : Bool := false
  broadcast : Option Heard := none
  asked : Bool := false

/-- `keepAliveAndScaleDown` with a note of its broadcast. -/
def heardScaleDown (self : Instance) (serviceID : String) (keepAliveCh : Nat) : Code ScaledDown :=
  .perform (Op.selectTimer self.nodeInfo.keepAlive keepAliveCh) fun
    | .received => .done { result := .ok () }
    | .timer => .perform (Op.keepAliveOpsHas self.ip serviceID) fun
        | false => .done { result := .ok () }
        | true => (getPublishedPort serviceID).bind fun
            | .error err => .done { result := .error err }
            | .ok port => (Cluster.listenOnPort self.ip port serviceID).bind fun
                | .error err => .done { result := .error err }
                | .ok _ => (heardListen spoiled Cluster.listenOnPort self.nodeInfo port serviceID).bind
                  fun heard =>
                    match heard.result with
                    | .error err => .done { result := .error err, listens := true, broadcast := some heard }
                    | .ok _ => (scaleTo serviceID 0).bind fun
                        | .error err => .done
                          { result := .error err, listens := true, broadcast := some heard, asked := true }
                        | .ok _ => .perform (Op.keepAliveOpsDelete self.ip serviceID) fun _ =>
                            .done { result := .ok (), listens := true, broadcast := some heard, asked := true }

end Requests

section Erasure

variable {swarmNodeInfo : SwarmNodeInfo} {port : UInt32} {serviceID ip : String}

/-- Where no body is spoiled, the annotated client is the source's. -/
theorem erase_heardListen {listenOnPort : String → UInt32 → String → Code Result} :
    Heard.erase (heardListen (fun _ => none) listenOnPort swarmNodeInfo port serviceID) =
      sendListenRequestToAllNodes listenOnPort swarmNodeInfo port serviceID := by
  rw [heardListen, erase_exchanges, sendListenRequestToAllNodes]
  simp only [erase_exchange "Listening on port.", arriving]
  rfl

/-- The same for the broadcast after a wake-up. -/
theorem erase_heardRemove {removePort : String → UInt32 → Code Result} :
    Heard.erase (heardRemove (fun _ => none) removePort swarmNodeInfo port) =
      sendRemoveRequestToAllNodes removePort swarmNodeInfo port := by
  rw [heardRemove, erase_exchanges, sendRemoveRequestToAllNodes]
  simp only [erase_exchange "Removed port.", arriving]
  rfl

/-- The same for the request of a worker. -/
theorem erase_heardScale {scaleFunc : String → String → Code Result} {direction : String} :
    Heard.erase (heardScale (fun _ => none) scaleFunc serviceID direction ip) =
      sendScaleRequest scaleFunc serviceID direction ip := by
  rw [heardScale, erase_exchange "Scaling successful."]
  rfl

/-- The same for the goroutine of a keep-alive. -/
theorem erase_heardScaleDown {self : Instance} {ch : Nat} :
    ((heardScaleDown (fun _ => none) self serviceID ch).bind fun ended => .done ended.result) =
      keepAliveAndScaleDown self serviceID ch := by
  unfold heardScaleDown keepAliveAndScaleDown scaleDown
  rw [Program.perform_bind]
  congr 1
  funext selected
  cases selected with
  | received => rfl
  | timer =>
      dsimp only
      rw [Program.perform_bind]
      congr 1
      funext found
      cases found with
      | false => rfl
      | true =>
          dsimp only
          rw [Program.bind_assoc]
          refine Program.bind_congr fun published => ?_
          cases published with
          | error err => rfl
          | ok port =>
              dsimp only
              rw [Program.bind_assoc]
              refine Program.bind_congr fun listened => ?_
              cases listened with
              | error err => rfl
              | ok _ =>
                  dsimp only
                  rw [← erase_heardListen, Heard.erase, Program.bind_assoc, Program.bind_assoc]
                  refine Program.bind_congr fun heard => ?_
                  cases hResult : heard.result with
                  | error err => rfl
                  | ok _ =>
                      simp only [Program.done_bind]
                      rw [Program.bind_assoc]
                      refine Program.bind_congr fun scaledTo => ?_
                      cases scaledTo <;> rfl

end Erasure

/-- A request for nothing but success is one that every node has heard and carried out. -/
def Truthful (others : List String) (heard : Heard) : Prop :=
  heard.result = .ok () → heard.exchanges = others.map fun ip => (ip, .returned (.ok ()))

/-- The service is scaled to 0 only when every node listens, this one and all the others. -/
def SleepsHeard (others : List String) (ended : ScaledDown) : Prop :=
  ended.asked = true → ended.listens = true ∧
    ∃ heard ∈ ended.broadcast, heard.exchanges = others.map fun ip => (ip, .returned (.ok ()))

/-- The peers of a node, in the order in which the broadcasts go through them. -/
def addresses (swarmNodeInfo : SwarmNodeInfo) : List String := swarmNodeInfo.otherNodes.map SwarmNode.ip

/-- The four programs with a property of how each ends, whatever its operations are answered. -/
structure EachEnds (spoiled : String → Option String) (listenOnPort : String → UInt32 → String → Code Result)
    (removePort : String → UInt32 → Code Result) (scaleFunc : String → String → Code Result) (node : Instance)
    (property : List String → Heard → Prop) (last : List String → ScaledDown → Prop) : Prop where
  listen : ∀ port serviceID, (heardListen spoiled listenOnPort node.nodeInfo port serviceID).Returns anyAnswer
    (property (addresses node.nodeInfo))
  remove : ∀ port, (heardRemove spoiled removePort node.nodeInfo port).Returns anyAnswer
    (property (addresses node.nodeInfo))
  scale : ∀ serviceId direction managerIP, (heardScale spoiled scaleFunc serviceId direction managerIP).Returns
    anyAnswer (property [managerIP])
  sleep : ∀ serviceID ch, (heardScaleDown spoiled node serviceID ch).Returns anyAnswer
    (last (addresses node.nodeInfo))

/-- A client reports success only when the other node has done what it was asked: the
statement for all clients, peer lists and failures. -/
def AlwaysTruthful : Prop :=
  ∀ spoiled listenOnPort removePort scaleFunc node,
    EachEnds spoiled listenOnPort removePort scaleFunc node Truthful SleepsHeard

/-- A request got no response, or every node that was asked has carried out its request. -/
def Unhidden (heard : Heard) : Prop :=
  (∃ exchange ∈ heard.exchanges, exchange.2.responded = false) ∨
    ∀ exchange ∈ heard.exchanges, exchange.2 = .returned (.ok ())

/-- The worker's `ports_map` is full. -/
theorem not_alwaysTruthful : ¬ AlwaysTruthful := by
  intro h
  have hListen := (h (fun _ => none) listenOnPort removePort (fun _ _ => .done (.ok ()))
    ⟨"manager", pair.info "manager"⟩).listen 80 "web"
  have hTruthful := hListen (.ok ()) trivial () trivial (.error "update: no space left on device") trivial
  exact absurd (hTruthful rfl) (by decide)

section Returns

variable {context ip : String} {others : List SwarmNode} {heard : Heard}

/-- What a client makes of what became of its requests. -/
structure Hears (others : List String) (heard : Heard) : Prop where
  ok_iff : heard.result = .ok () ↔ ∀ exchange ∈ heard.exchanges, exchange.2.responded = true
  asked : heard.exchanges.map Prod.fst <+: others
  all : heard.result = .ok () → heard.exchanges.map Prod.fst = others

/-- A request leaves one note, under the address it was sent to. -/
theorem returns_exchange {Data : Type} {endpoint : Endpoint} {action : Data → Code Result}
    {body : Except String Data} : (exchange context ip endpoint action body).Returns anyAnswer (Hears [ip]) := by
  intro delivery _
  cases delivery with
  | error err =>
      have hUndelivered : Exchange.responded (.undelivered err) = false := rfl
      exact ⟨iff_of_false nofun (by simp [hUndelivered]), List.prefix_refl _, nofun⟩
  | ok _ =>
      cases body with
      | error err =>
          have hResponded : Exchange.responded (.rejected err) = true := rfl
          exact ⟨iff_of_true rfl (by simp [hResponded]), List.prefix_refl _, fun _ => rfl⟩
      | ok data =>
          refine Program.returns_bind (Program.returns_true _) fun result _ => ?_
          cases result with
          | none =>
              have hDropped : Exchange.responded .dropped = false := rfl
              exact ⟨iff_of_false nofun (by simp [hDropped]), List.prefix_refl _, nofun⟩
          | some result =>
              have hReturned : Exchange.responded (.returned result) = true := rfl
              exact ⟨iff_of_true rfl (by simp [hReturned]), List.prefix_refl _, fun _ => rfl⟩

/-- A broadcast leaves notes for a first part of its peers, and fails exactly when the last
of them gave no response. -/
theorem returns_exchanges {send : String → Code Heard}
    (hSend : ∀ ip, (send ip).Returns anyAnswer (Hears [ip])) :
    (exchanges context send others).Returns anyAnswer (Hears (others.map SwarmNode.ip)) := by
  induction others with
  | nil => exact ⟨iff_of_true rfl nofun, List.prefix_refl _, fun _ => rfl⟩
  | cons node rest ih =>
      refine Program.returns_bind (hSend node.ip) fun heard hHeard => ?_
      cases hResult : heard.result with
      | error err =>
          have hNotOk : heard.result ≠ .ok () := by
            rw [hResult]
            nofun
          refine ⟨iff_of_false nofun fun hAll => hNotOk (hHeard.ok_iff.mpr hAll), ?_, nofun⟩
          exact hHeard.asked.trans ⟨_, rfl⟩
      | ok _ =>
          have hFirst := hHeard.all hResult
          refine Program.returns_bind ih fun later hLater => ⟨?_, ?_, fun hOk => ?_⟩
          · rw [hLater.ok_iff]
            have hResponded := hHeard.ok_iff.mp hResult
            constructor
            · intro hAll exchange hMem
              exact (List.mem_append.mp hMem).elim (hResponded exchange) (hAll exchange)
            · intro hAll exchange hMem
              exact hAll exchange (List.mem_append_right _ hMem)
          · rw [List.map_append, hFirst]
            exact (List.prefix_append_right_inj _).mpr hLater.asked
          · rw [List.map_append, hFirst, hLater.all hOk]
            rfl

/-- A broadcast is truthful exactly when no error was hidden behind a response. -/
theorem truthful_iff_unhidden {others : List String} (h : Hears others heard) :
    Truthful others heard ↔ Unhidden heard := by
  constructor
  · intro hTruthful
    by_cases hAll : ∀ exchange ∈ heard.exchanges, exchange.2.responded = true
    · refine Or.inr fun exchange hMem => ?_
      rw [hTruthful (h.ok_iff.mpr hAll)] at hMem
      obtain ⟨ip, _, rfl⟩ := List.mem_map.mp hMem
      rfl
    · refine Or.inl ?_
      push Not at hAll
      simpa using hAll
  · intro hUnhidden hOk
    have hResponded := h.ok_iff.mp hOk
    have hReturned : ∀ exchange ∈ heard.exchanges, exchange.2 = .returned (.ok ()) := by
      refine hUnhidden.resolve_left fun hSome => ?_
      obtain ⟨exchange, hMem, hFalse⟩ := hSome
      rw [hResponded exchange hMem] at hFalse
      cases hFalse
    rw [← h.all hOk, List.map_map]
    refine (List.map_id _).symm.trans (List.map_congr_left fun exchange hMem => ?_)
    exact Prod.ext rfl (hReturned exchange hMem)

/-- The goroutine goes on to scale to 0 when its broadcast reports success. -/
structure Slept (others : List String) (ended : ScaledDown) : Prop where
  silent : ended.broadcast = none → ended.asked = false
  listens : ended.asked = true → ended.listens = true
  hears : ∀ heard ∈ ended.broadcast, Hears others heard ∧ (ended.asked = true ↔ heard.result = .ok ())

/-- An end without a broadcast has nothing to be truthful about. -/
theorem slept_silent (others : List String) (result : Result) : Slept others { result := result } :=
  ⟨fun _ => rfl, nofun, nofun⟩

/-- The service is put to sleep exactly after a broadcast without an error. -/
theorem slept_of_hears {others : List String} {result : Result} {asked : Bool} (h : Hears others heard)
    (hAsked : asked = true ↔ heard.result = .ok ()) :
    Slept others { result := result, listens := true, broadcast := some heard, asked := asked } := by
  refine ⟨nofun, fun _ => rfl, fun other hOther => ?_⟩
  cases hOther
  exact ⟨h, hAsked⟩

/-- How the goroutine of a keep-alive can end, with what its broadcast has left. -/
theorem returns_heardScaleDown {spoiled : String → Option String} {self : Instance} {serviceID : String}
    {ch : Nat} :
    (heardScaleDown spoiled self serviceID ch).Returns anyAnswer (Slept (addresses self.nodeInfo)) := by
  intro selected _
  cases selected with
  | received => exact slept_silent _ _
  | timer =>
      intro found _
      cases found with
      | false => exact slept_silent _ _
      | true =>
          refine Program.returns_bind (Program.returns_true _) fun published _ => ?_
          cases published with
          | error err => exact slept_silent _ _
          | ok port =>
              refine Program.returns_bind (Program.returns_true _) fun listened _ => ?_
              cases listened with
              | error err => exact slept_silent _ _
              | ok _ =>
                  refine Program.returns_bind (returns_exchanges fun _ => returns_exchange) fun heard hHeard => ?_
                  cases hResult : heard.result with
                  | error err => exact slept_of_hears hHeard (by simp [hResult])
                  | ok _ =>
                      refine Program.returns_bind (Program.returns_true _) fun scaledTo _ => ?_
                      cases scaledTo with
                      | error err => exact slept_of_hears hHeard (by simp [hResult])
                      | ok _ => exact fun _ _ => slept_of_hears hHeard (by simp [hResult])

/-- The service sleeps with everybody listening exactly when no error was hidden. -/
theorem sleepsHeard_iff_unhidden {others : List String} {ended : ScaledDown} (h : Slept others ended) :
    SleepsHeard others ended ↔ ∀ heard ∈ ended.broadcast, Unhidden heard := by
  cases hBroadcast : ended.broadcast with
  | none =>
      refine iff_of_true (fun hAsked => ?_) nofun
      rw [h.silent hBroadcast] at hAsked
      cases hAsked
  | some heard =>
      obtain ⟨hHears, hAsked⟩ := h.hears heard hBroadcast
      have hListens : SleepsHeard others ended ↔ Truthful others heard := by
        constructor
        · intro hSleeps hOk
          obtain ⟨_, other, hOther, hExchanges⟩ := hSleeps (hAsked.mpr hOk)
          rw [hBroadcast] at hOther
          cases hOther
          exact hExchanges
        · intro hTruthful hTrue
          exact ⟨h.listens hTrue, heard, hBroadcast, hTruthful (hAsked.mp hTrue)⟩
      rw [hListens, truthful_iff_unhidden hHears]
      simp

end Returns

/-- Whatever happens at the other nodes: success, and the scale to 0 after it, means that
every node has carried out its request exactly when no node that was reached hides a failure. -/
theorem truthful_exactly_unhidden (spoiled : String → Option String)
    (listenOnPort : String → UInt32 → String → Code Result) (removePort : String → UInt32 → Code Result)
    (scaleFunc : String → String → Code Result) (self : Instance) :
    EachEnds spoiled listenOnPort removePort scaleFunc self
      (fun others heard => Truthful others heard ↔ Unhidden heard)
      (fun others ended => SleepsHeard others ended ↔ ∀ heard ∈ ended.broadcast, Unhidden heard) where
  listen _ _ := (returns_exchanges fun _ => returns_exchange).mono fun _ => truthful_iff_unhidden
  remove _ := (returns_exchanges fun _ => returns_exchange).mono fun _ => truthful_iff_unhidden
  scale _ _ _ := returns_exchange.mono fun _ => truthful_iff_unhidden
  sleep _ _ := returns_heardScaleDown.mono fun _ => sleepsHeard_iff_unhidden

end Cluster

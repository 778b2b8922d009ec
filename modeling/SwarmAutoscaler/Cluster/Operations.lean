import Mathlib.Logic.Function.Basic
import SwarmAutoscaler.Arith.ByteOrder
import SwarmAutoscaler.Docker.Service
import SwarmAutoscaler.Process.Machine

/-! The atomic operations of the autoscaler's managers and workers, and their meaning
on the state of the whole cluster. Every node runs one autoscaler process, named by its
IP; the Go maps of a process and its `ports_map` are keyed by that IP. -/
namespace Cluster

open Docker Process

/-- An entry of the peer list, as the configuration file has it. -/
structure SwarmNode where
  hostname : String := ""
  ip : String
  manager : Bool
  deriving DecidableEq, Repr

/-- What a process knows of the cluster: whether it is a manager, its peers, and after how
many seconds a keep-alive ends. -/
structure SwarmNodeInfo where
  autoscalerManager : Bool
  otherNodes : List SwarmNode
  keepAlive : Nat := 5
  deriving DecidableEq, Repr

/-- The nodes that run an autoscaler and what each was configured with. -/
structure Nodes where
  ips : List String
  info : String → SwarmNodeInfo

/-- The ready case of the `select` in `keepAliveAndScaleDown`. -/
inductive SelectCase where
  | timer
  | received
  deriving DecidableEq, Repr

/-- The two HTTP servers: port 4567 takes scale requests and runs on managers only,
port 4568 takes listen and remove requests and runs on every node. -/
inductive Endpoint where
  | scale
  | listen
  | remove
  deriving DecidableEq, Repr

/-- One Docker call, one access to a Go map or BPF map, one channel operation, one
delivery of an HTTP request. `keepAliveOpsHas` is a lookup whose value is dropped. -/
inductive Op where
  | serviceInspect (serviceID : String)
  | serviceUpdate (serviceID : String) (version : Nat) (spec : ServiceSpec)
  | keepAliveOpsGet (ip serviceID : String)
  | keepAliveOpsHas (ip serviceID : String)
  | keepAliveOpsSet (ip serviceID : String) (ch : Nat)
  | keepAliveOpsDelete (ip serviceID : String)
  | makeChan
  | goKeepAlive (ip serviceID : String) (ch : Nat)
  | chanSend (ch : Nat)
  | selectTimer (keepAlive ch : Nat)
  | portToServiceIDLoad (ip : String) (port : UInt32)
  | portToServiceIDStore (ip : String) (port : UInt32) (serviceID : String)
  | portToServiceIDDelete (ip : String) (port : UInt32)
  | portsMapUpdate (ip : String) (port value : UInt32)
  | portsMapDelete (ip : String) (port : UInt32)
  | httpPost (ip : String) (endpoint : Endpoint)
  | perfRead (ip : String)
  | nilDereference
  /-- the server of a handler recovers a panic and closes the connection -/
  | recover

/-- A nil dereference has no answer: the goroutine never gets past it. -/
def Op.Answer : Op → Type
  | .serviceInspect _ => Except String Service
  | .serviceUpdate _ _ _ => Except String Unit
  | .keepAliveOpsGet _ _ => Option Nat
  | .keepAliveOpsHas _ _ => Bool
  | .makeChan => Nat
  | .selectTimer _ _ => SelectCase
  | .portToServiceIDLoad _ _ => Option String
  | .portsMapUpdate _ _ _ => Except String Unit
  | .portsMapDelete _ _ => Except String Unit
  | .httpPost _ _ => Except String Unit
  | .perfRead _ => Except String (List UInt8)
  | .nilDereference => Empty
  | _ => Unit

/-- The operations of the scaling code and of the port listeners, with their answers. -/
abbrev signature : Signature := ⟨Op, Op.Answer⟩

/-- Code of the autoscaler between whose operations the code of other goroutines and nodes
may run. -/
abbrev Code (Result : Type) := Program signature Result

/-- The version under which the operation updates the service. -/
def Op.updateOf (serviceID : String) : Op → Option Nat
  | .serviceUpdate id version _ => if id = serviceID then some version else none
  | _ => none

theorem Op.updateOf_eq_some_iff {serviceID : String} {op : Op} {version : Nat} :
    op.updateOf serviceID = some version ↔ ∃ spec, op = .serviceUpdate serviceID version spec := by
  cases op <;> simp [Op.updateOf]

/-- What a Go function with a single `error` result returns. -/
abbrev Result := Except String Unit

/-- Docker, the keep-alive table and port table of every process, the `ports_map` and
the perf buffer of every node. Channels carry no state of their own: a send and the
matching receive happen together. -/
structure World where
  services : String → Option Service := fun _ => none
  keepAliveOps : String × String → Option Nat := fun _ => none
  portToServiceID : String × UInt32 → Option String := fun _ => none
  portsMap : String × UInt32 → Option UInt32 := fun _ => none
  perf : String → List (List UInt8) := fun _ => []

namespace World

/-- Docker after it has stored a new version of one service. -/
def setService (w : World) (serviceID : String) (service : Service) : World :=
  { w with services := Function.update w.services serviceID (some service) }

/-- The keep-alive tables after a store or a delete under one key. -/
def setKeepAlive (w : World) (key : String × String) (ch : Option Nat) : World :=
  { w with keepAliveOps := Function.update w.keepAliveOps key ch }

/-- The Go maps of the listened ports after a store or a delete. -/
def setPortToServiceID (w : World) (key : String × UInt32) (serviceID : Option String) : World :=
  { w with portToServiceID := Function.update w.portToServiceID key serviceID }

/-- The BPF maps of the listened ports after an update or a delete. -/
def setPortsMap (w : World) (key : String × UInt32) (value : Option UInt32) : World :=
  { w with portsMap := Function.update w.portsMap key value }

/-- The perf buffers after a sample has been put into one of them or read from it. -/
def setPerf (w : World) (ip : String) (samples : List (List UInt8)) : World :=
  { w with perf := Function.update w.perf ip samples }

variable (w : World) (serviceID ip : String) (service : Service) (ch : Option Nat)
  (port : String × UInt32) (value : Option UInt32) (name : Option String)
  (entry : String × String) (samples : List (List UInt8))

@[simp] theorem setService_services :
    (w.setService serviceID service).services = Function.update w.services serviceID (some service) := rfl
@[simp] theorem setService_keepAliveOps :
    (w.setService serviceID service).keepAliveOps = w.keepAliveOps := rfl
@[simp] theorem setService_portToServiceID :
    (w.setService serviceID service).portToServiceID = w.portToServiceID := rfl
@[simp] theorem setService_portsMap : (w.setService serviceID service).portsMap = w.portsMap := rfl
@[simp] theorem setKeepAlive_services : (w.setKeepAlive entry ch).services = w.services := rfl
@[simp] theorem setKeepAlive_keepAliveOps :
    (w.setKeepAlive entry ch).keepAliveOps = Function.update w.keepAliveOps entry ch := rfl
@[simp] theorem setKeepAlive_portToServiceID :
    (w.setKeepAlive entry ch).portToServiceID = w.portToServiceID := rfl
@[simp] theorem setKeepAlive_portsMap : (w.setKeepAlive entry ch).portsMap = w.portsMap := rfl
@[simp] theorem setPortToServiceID_services : (w.setPortToServiceID port name).services = w.services := rfl
@[simp] theorem setPortToServiceID_keepAliveOps :
    (w.setPortToServiceID port name).keepAliveOps = w.keepAliveOps := rfl
@[simp] theorem setPortToServiceID_portToServiceID : (w.setPortToServiceID port name).portToServiceID =
    Function.update w.portToServiceID port name := rfl
@[simp] theorem setPortToServiceID_portsMap : (w.setPortToServiceID port name).portsMap = w.portsMap := rfl
@[simp] theorem setPortsMap_services : (w.setPortsMap port value).services = w.services := rfl
@[simp] theorem setPortsMap_keepAliveOps : (w.setPortsMap port value).keepAliveOps = w.keepAliveOps := rfl
@[simp] theorem setPortsMap_portToServiceID :
    (w.setPortsMap port value).portToServiceID = w.portToServiceID := rfl
@[simp] theorem setPortsMap_portsMap :
    (w.setPortsMap port value).portsMap = Function.update w.portsMap port value := rfl
@[simp] theorem setPerf_services : (w.setPerf ip samples).services = w.services := rfl
@[simp] theorem setPerf_keepAliveOps : (w.setPerf ip samples).keepAliveOps = w.keepAliveOps := rfl
@[simp] theorem setPerf_portToServiceID : (w.setPerf ip samples).portToServiceID = w.portToServiceID := rfl
@[simp] theorem setPerf_portsMap : (w.setPerf ip samples).portsMap = w.portsMap := rfl

end World

/-- The operations that can fail by themselves: the calls of the Docker API, of another
node, and of the kernel. `PortsMap.Delete` fails exactly on an absent key. A panic that is
recovered is always the failure of the call that led to it. -/
def failure (op : Op) : Option op.Answer :=
  match op with
  | .serviceInspect _ => some (.error "Error response from daemon")
  | .serviceUpdate _ _ _ => some (.error "Error response from daemon")
  | .portsMapUpdate _ _ _ => some (.error "update: no space left on device")
  | .httpPost _ _ => some (.error "connection refused")
  | .perfRead _ => some (.error "perf reader error")
  | .recover => some ()
  | _ => none

/-- The call did not fail: Docker, the other node or the kernel did what it was asked. -/
def succeeds (op : Op) : op.Answer → Bool :=
  match op with
  | .serviceInspect _ => Except.isOk
  | .serviceUpdate _ _ _ => Except.isOk
  | .portsMapUpdate _ _ _ => Except.isOk
  | .httpPost _ _ => Except.isOk
  | .perfRead _ => Except.isOk
  | .recover => fun _ => false
  | _ => fun _ => true

/-- The answer reports no failure, for operations that can report one. -/
def Succeeds (op : signature.Op) (answer : signature.Answer op) : Prop := succeeds op answer = true

instance (op : signature.Op) (answer : signature.Answer op) : Decidable (Succeeds op answer) :=
  inferInstanceAs (Decidable (succeeds op answer = true))

theorem ok_of_isOk {Value : Type} {answer : Except String Value} (h : answer.isOk = true) :
    ∃ value, answer = .ok value := by
  cases answer with
  | error err => cases h
  | ok value => exact ⟨value, rfl⟩

/-- Nothing is assumed of the answers: what is proved with it holds for any state of the
rest. -/
abbrev anyAnswer (op : Op) (_ : op.Answer) : Prop := True

/-- A server answers at the IP. Port 4567 is only served by managers. -/
def Nodes.serves (nodes : Nodes) (ip : String) (endpoint : Endpoint) : Bool :=
  nodes.ips.contains ip && (endpoint != .scale || (nodes.info ip).autoscalerManager)

/-- The effect of an operation that does not fail by itself. Docker accepts an update
only for the current version; `make(chan bool)` yields a channel named after the thread
that makes it, since one call makes at most one. -/
def perform (nodes : Nodes) (thread : Nat) (op : Op) (w : World) : Option (op.Answer × World) :=
  match op with
  | .serviceInspect serviceID =>
      match w.services serviceID with
      | none => some (.error "Error: No such service", w)
      | some service => some (.ok service, w)
  | .serviceUpdate serviceID version spec =>
      match w.services serviceID with
      | none => some (.error "Error: No such service", w)
      | some service =>
          if service.version = version then
            some (.ok (), w.setService serviceID { service with version := version + 1, spec := spec })
          else some (.error "update out of sequence", w)
  | .keepAliveOpsGet ip serviceID => some (w.keepAliveOps (ip, serviceID), w)
  | .keepAliveOpsHas ip serviceID => some ((w.keepAliveOps (ip, serviceID)).isSome, w)
  | .keepAliveOpsSet ip serviceID ch => some ((), w.setKeepAlive (ip, serviceID) (some ch))
  | .keepAliveOpsDelete ip serviceID => some ((), w.setKeepAlive (ip, serviceID) none)
  | .makeChan => some (thread, w)
  | .goKeepAlive _ _ _ => some ((), w)
  | .chanSend _ => none
  | .selectTimer _ _ => some (.timer, w)
  | .portToServiceIDLoad ip port => some (w.portToServiceID (ip, port), w)
  | .portToServiceIDStore ip port serviceID =>
      some ((), w.setPortToServiceID (ip, port) (some serviceID))
  | .portToServiceIDDelete ip port => some ((), w.setPortToServiceID (ip, port) none)
  | .portsMapUpdate ip port value => some (.ok (), w.setPortsMap (ip, port) (some value))
  | .portsMapDelete ip port =>
      match w.portsMap (ip, port) with
      | none => some (.error "delete: key does not exist", w)
      | some _ => some (.ok (), w.setPortsMap (ip, port) none)
  | .httpPost ip endpoint =>
      if nodes.serves ip endpoint then some (.ok (), w) else some (.error "connection refused", w)
  | .perfRead ip =>
      match w.perf ip with
      | [] => none
      | sample :: rest => some (.ok sample, w.setPerf ip rest)
  | .nilDereference | .recover => none

/-- An operation that a thread completes alone: it fails and leaves the world as it is,
where it can fail, or has its effect. -/
def exec (nodes : Nodes) (thread : Nat) (op : Op) (fail : Bool) (w : World) :
    Option (op.Answer × World) :=
  if fail then (failure op).map fun answer => (answer, w) else perform nodes thread op w

/-- A send on an unbuffered channel meets the receive case of the `select` on it. -/
def meet (send receive : Op) : Option (send.Answer × receive.Answer) :=
  match send, receive with
  | .chanSend ch, .selectTimer _ ch' => if ch = ch' then some ((), .received) else none
  | _, _ => none

/-- Two operations meet only where one sends on the channel that the other waits for. -/
theorem channel_of_meet {send receive : Op} {answers : send.Answer × receive.Answer}
    (h : meet send receive = some answers) :
    ∃ ch keepAlive, send = .chanSend ch ∧ receive = .selectTimer keepAlive ch := by
  cases send <;> cases receive <;> first | cases h | skip
  next ch keepAlive ch' =>
    simp only [meet] at h
    split at h
    · next hSame => exact ⟨ch, keepAlive, rfl, by rw [hSame]⟩
    · cases h

/-- The bytes of the C `long` that `port_classifier` emits, low byte first. -/
def longBytes (value : Nat) : List UInt8 :=
  (List.range 8).map fun i => UInt8.ofNat (value / 256 ^ i)

/-- `binary.LittleEndian.Uint32` -/
def littleEndianUint32 (bytes : List UInt8) : UInt32 :=
  UInt32.ofNat (bytes.foldr (fun byte rest => byte.toNat + 256 * rest) 0)

/-- The bytes of a sample are those of the port as a little-endian machine word. -/
theorem longBytes_eq (value : Nat) : longBytes value = ByteOrder.littleEndian.put 8 value := by
  simp [longBytes, ByteOrder.put, ByteOrder.lowFirst, List.range_succ, Nat.div_div_eq_div_mul]

/-- The conversion that the event loop makes reads the low bytes of a little-endian
number. -/
theorem littleEndianUint32_eq (bytes : List UInt8) :
    littleEndianUint32 bytes = UInt32.ofNat (ByteOrder.littleEndian.get bytes) := by
  have hFold : bytes.foldr (fun byte rest => byte.toNat + 256 * rest) 0 = ByteOrder.ofLowFirst bytes := by
    induction bytes with
    | nil => rfl
    | cons byte rest ih => rw [List.foldr_cons, ih, ByteOrder.ofLowFirst]
  rw [littleEndianUint32, hFold, ByteOrder.get]

/-- A TCP packet to a port reaches a node. The classifier emits an event when the port
is in the node's `ports_map`. -/
inductive Env where
  | packet (ip : String) (port : UInt32)

/-- A packet arrives at a node: the classifier puts its port into the perf buffer when the
port is in the BPF map. -/
def disturb : Env → World → Option World
  | .packet ip port, w =>
      match w.portsMap (ip, port) with
      | none => some w
      | some _ => some (w.setPerf ip (w.perf ip ++ [longBytes port.toNat]))

/-- A packet changes neither Docker nor the keep-alive tables. -/
theorem disturb_eq {env : Env} {w w' : World} (h : disturb env w = some w') :
    w'.keepAliveOps = w.keepAliveOps ∧ w'.services = w.services := by
  obtain ⟨ip, port⟩ := env
  simp only [disturb] at h
  split at h <;> cases h <;> exact ⟨rfl, rfl⟩

/-- The operation changes nothing when it is answered like this: it failed, or it is a
lookup, a channel operation or a delivery. -/
def Inert (op : Op) : op.Answer → Prop :=
  match op with
  | .serviceUpdate _ _ _ => fun answer => answer ≠ .ok ()
  | .portsMapUpdate _ _ _ => fun answer => answer ≠ .ok ()
  | .portsMapDelete _ _ => fun answer => answer ≠ .ok ()
  | .perfRead _ => fun answer => ∀ sample, answer ≠ .ok sample
  | .keepAliveOpsSet _ _ _ | .keepAliveOpsDelete _ _ => fun _ => False
  | .portToServiceIDStore _ _ _ | .portToServiceIDDelete _ _ => fun _ => False
  | _ => fun _ => True

/-- What an operation can change. -/
inductive Effect (w : World) : (op : Op) → op.Answer → World → Prop where
  | none {op : Op} {answer : op.Answer} (inert : Inert op answer) : Effect w op answer w
  | update {serviceID : String} {version : Nat} {spec : ServiceSpec} {service : Service}
      (stored : w.services serviceID = some service) (current : service.version = version) :
      Effect w (.serviceUpdate serviceID version spec) (.ok ())
        (w.setService serviceID { service with version := version + 1, spec := spec })
  | keepAliveSet (ip serviceID : String) (ch : Nat) :
      Effect w (.keepAliveOpsSet ip serviceID ch) () (w.setKeepAlive (ip, serviceID) (some ch))
  | keepAliveDelete (ip serviceID : String) :
      Effect w (.keepAliveOpsDelete ip serviceID) () (w.setKeepAlive (ip, serviceID) .none)
  | portStore (ip : String) (port : UInt32) (serviceID : String) :
      Effect w (.portToServiceIDStore ip port serviceID) ()
        (w.setPortToServiceID (ip, port) (some serviceID))
  | portDelete (ip : String) (port : UInt32) :
      Effect w (.portToServiceIDDelete ip port) () (w.setPortToServiceID (ip, port) .none)
  | mapUpdate (ip : String) (port value : UInt32) :
      Effect w (.portsMapUpdate ip port value) (.ok ()) (w.setPortsMap (ip, port) (some value))
  | mapDelete (ip : String) (port : UInt32) :
      Effect w (.portsMapDelete ip port) (.ok ()) (w.setPortsMap (ip, port) .none)
  | read {ip : String} (sample : List UInt8) (rest : List (List UInt8)) :
      Effect w (.perfRead ip) (.ok sample) (w.setPerf ip rest)

/-- Everything that an operation can do, said once: the lemmas about the parts of the world
are read off these cases. -/
theorem effect_of_exec {nodes : Nodes} {thread : Nat} {op : Op} {fail : Bool} {w w' : World}
    {answer : op.Answer} (h : exec nodes thread op fail w = some (answer, w')) :
    Effect w op answer w' := by
  cases fail with
  | true =>
      simp only [exec, ↓reduceIte, Option.map_eq_some_iff] at h
      obtain ⟨failed, hFailed, h⟩ := h
      cases h
      refine .none ?_
      cases op <;> cases hFailed <;> first | trivial | nofun
  | false =>
      simp only [exec, Bool.false_eq_true, ↓reduceIte] at h
      cases op with
      | serviceUpdate serviceID version spec =>
          simp only [perform] at h
          split at h
          · cases h
            exact .none nofun
          · next service stored =>
              split at h
              · next current =>
                  cases h
                  exact .update stored current
              · cases h
                exact .none nofun
      | serviceInspect serviceID =>
          simp only [perform] at h
          split at h <;> cases h <;> exact .none trivial
      | httpPost ip endpoint =>
          simp only [perform] at h
          split at h <;> cases h <;> exact .none trivial
      | portsMapDelete ip port =>
          simp only [perform] at h
          split at h
          · cases h
            exact .none nofun
          · cases h
            exact .mapDelete ip port
      | perfRead ip =>
          simp only [perform] at h
          split at h
          · cases h
          · cases h
            exact .read _ _
      | keepAliveOpsSet ip serviceID ch =>
          cases h
          exact .keepAliveSet ip serviceID ch
      | keepAliveOpsDelete ip serviceID =>
          cases h
          exact .keepAliveDelete ip serviceID
      | portToServiceIDStore ip port serviceID =>
          cases h
          exact .portStore ip port serviceID
      | portToServiceIDDelete ip port =>
          cases h
          exact .portDelete ip port
      | portsMapUpdate ip port value =>
          cases h
          exact .mapUpdate ip port value
      | _ => cases h <;> exact .none trivial

section Changes

variable {w w' : World} {op : Op} {answer : op.Answer} {serviceID : String}

/-- A service changes by its own update only. -/
theorem services_of_effect (hEffect : Effect w op answer w') (hOther : op.updateOf serviceID = none) :
    w'.services serviceID = w.services serviceID := by
  cases hEffect with
  | @update id version spec service stored current =>
      have hApart : serviceID ≠ id := by
        intro hSame
        simp [Op.updateOf, hSame] at hOther
      simp [Function.update_of_ne hApart]
  | _ => rfl

/-- An update that succeeds replaces the spec and raises the version. -/
theorem update_of_effect {version : Nat} {spec : ServiceSpec}
    (h : Effect w (.serviceUpdate serviceID version spec) (.ok ()) w') :
    ∃ service, w.services serviceID = some service ∧ service.version = version ∧
      w' = w.setService serviceID { service with version := version + 1, spec := spec } := by
  cases h with
  | none inert => exact absurd rfl inert
  | update stored current => exact ⟨_, stored, current, rfl⟩

end Changes

section Exec

variable {nodes : Nodes} {i : Nat} {fail : Bool} {w w' : World} {serviceID : String}

/-- What an answered lookup of the keep-alive table says about it. -/
theorem found_of_exec {ip : String} {found : Option Nat}
    (h : exec nodes i (.keepAliveOpsGet ip serviceID) fail w = some (found, w')) :
    found = w.keepAliveOps (ip, serviceID) ∧ w' = w := by
  cases fail with
  | true => cases h
  | false =>
      cases h
      exact ⟨rfl, rfl⟩

/-- An inspect changes nothing, and a service that it returns is the stored one. -/
theorem inspect_of_exec {answer : Except String Service}
    (h : exec nodes i (.serviceInspect serviceID) fail w = some (answer, w')) :
    w' = w ∧ ∀ service, answer = .ok service → w.services serviceID = some service := by
  cases fail with
  | true =>
      cases h
      exact ⟨rfl, nofun⟩
  | false =>
      simp only [exec, perform, Bool.false_eq_true, ↓reduceIte] at h
      split at h
      · cases h
        exact ⟨rfl, nofun⟩
      · next service stored =>
          cases h
          refine ⟨rfl, fun other hOther => ?_⟩
          cases hOther
          exact stored

/-- Docker takes an update that does not fail, for a service it has, under the version it has. -/
def Accepts (fail : Bool) (w : World) (serviceID : String) (version : Nat) : Prop :=
  fail = false ∧ (w.services serviceID).map Service.version = some version

instance (fail : Bool) (w : World) (serviceID : String) (version : Nat) :
    Decidable (Accepts fail w serviceID version) :=
  inferInstanceAs (Decidable (_ ∧ _))

/-- An update is accepted under the stored version, or refused with an error that leaves
Docker as it is. -/
theorem update_of_exec {version : Nat} {spec : ServiceSpec} {answer : Except String Unit}
    (h : exec nodes i (.serviceUpdate serviceID version spec) fail w = some (answer, w')) :
    (Accepts fail w serviceID version ∧ answer = .ok () ∧ ∃ service, w.services serviceID = some service ∧
      w' = w.setService serviceID { service with version := version + 1, spec := spec }) ∨
    (¬ Accepts fail w serviceID version ∧ (∃ err, answer = .error err) ∧ w' = w) := by
  cases fail with
  | true =>
      cases h
      exact Or.inr ⟨nofun, ⟨_, rfl⟩, rfl⟩
  | false =>
      simp only [exec, perform, Bool.false_eq_true, ↓reduceIte] at h
      split at h
      · next missing =>
          cases h
          exact Or.inr ⟨by simp [Accepts, missing], ⟨_, rfl⟩, rfl⟩
      · next service stored =>
          split at h
          · next current =>
              cases h
              exact Or.inl ⟨⟨rfl, by simp [stored, current]⟩, rfl, service, stored, rfl⟩
          · next outdated =>
              cases h
              exact Or.inr ⟨by simp [Accepts, stored, outdated], ⟨_, rfl⟩, rfl⟩

end Exec

end Cluster

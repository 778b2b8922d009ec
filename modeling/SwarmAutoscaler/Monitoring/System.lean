import SwarmAutoscaler.Cluster.Server
import SwarmAutoscaler.Kernel.Maps

/-! The user-space side of the connection monitor: one event loop, any number of Monitor
goroutines, the BPF maps they share with the kprobe and the perf buffer between them. -/
namespace Monitoring

open Cluster (SwarmNodeInfo getManagerNode)
open Kernel (Data Maps Message kprobeTcpRecvmsg)
open Process

/-- What a Monitor's `select` has received. -/
inductive Received where
  | done
  | signal (message : Message)
  deriving DecidableEq, Repr

/-- A record of the perf buffer: a sample, a note that samples were lost, or bytes that
do not parse. -/
inductive Record where
  | sample (data : Data)
  | lost
  | malformed
  deriving DecidableEq, Repr

/-- One access to a BPF map or to `namespaceToContext`, one channel operation, one call of
another part of the autoscaler. A context is named by a number. -/
inductive Op where
  | newContext
  | connCountPut (netns value : UInt32)
  | validNetnsPut (netns value : UInt32)
  | scalingPut (netns value : UInt32)
  | fatal
  | contextStore (netns : UInt32) (ctx : Nat)
  | contextLoad (netns : UInt32)
  | contextDelete (netns : UInt32)
  | connCountDelete (netns : UInt32)
  | bufferDelete (netns : UInt32)
  | validNetnsDelete (netns : UInt32)
  | selectSignal (ctx : Nat)
  | contextDone (ctx : Nat)
  | signalSend (ctx : Nat) (message : Message)
  | scaleService (netns : UInt32) (direction : String)
  | sendScaleRequest (netns : UInt32) (direction managerIP : String)
  | sleep
  | perfRead
  deriving DecidableEq, Repr

/-- `log.Fatalf` ends the process, nothing of the program is left. -/
def Op.Answer : Op → Type
  | .newContext => Nat
  | .connCountPut _ _ | .validNetnsPut _ _ | .scalingPut _ _ => Except String Unit
  | .connCountDelete _ | .bufferDelete _ | .validNetnsDelete _ => Except String Unit
  | .fatal => Empty
  | .contextLoad _ => Option Nat
  | .selectSignal _ => Received
  | .contextDone _ => Bool
  | .scaleService _ _ | .sendScaleRequest _ _ _ => Except String Unit
  | .perfRead => Except String Record
  | _ => Unit

/-- The operations of Monitors and event loops, with their answers. -/
abbrev signature : Signature := ⟨Op, Op.Answer⟩

/-- Code of a Monitor or an event loop, between whose operations the code of the others may
run. -/
abbrev Code (Result : Type) := Program signature Result

/-- What Monitors, event loops and the kprobe share: the BPF maps, the perf buffer, the Go
map of the contexts, and the contexts that are done. -/
structure World where
  maps : Maps := {}
  perf : List Record := []
  namespaceToContext : UInt32 → Option Nat := fun _ => none
  cancelled : Nat → Bool := fun _ => false

namespace World

/-- The Go map of the contexts after a store or a delete. -/
def setContext (w : World) (netns : UInt32) (ctx : Option Nat) : World :=
  { w with namespaceToContext := Function.update w.namespaceToContext netns ctx }

variable {w : World} {netns other : UInt32} {ctx : Option Nat}

@[simp] theorem setContext_maps : (w.setContext netns ctx).maps = w.maps := rfl
@[simp] theorem setContext_perf : (w.setContext netns ctx).perf = w.perf := rfl
@[simp] theorem setContext_cancelled : (w.setContext netns ctx).cancelled = w.cancelled := rfl

theorem setContext_self : (w.setContext netns ctx).namespaceToContext netns = ctx := Function.update_self ..

theorem setContext_other (h : other ≠ netns) :
    (w.setContext netns ctx).namespaceToContext other = w.namespaceToContext other := Function.update_of_ne h ..

end World

/-- How the code of a turn ends: the loop goes on with its context, or the function returns. -/
inductive Outcome where
  | next (ctx : Nat)
  | returned
  deriving DecidableEq, Repr

/-- Clear the flag of the namespace. A failure is only logged, so that the caller sees
none. -/
def addNamespaceToScalingMap (netns : UInt32) : Code (Except String Unit) :=
  .perform (Op.scalingPut netns 0) fun _ => .done (.ok ())

/-- Register a namespace: its count, its validity, its flag and then its context. A failure
of one of the first two puts ends the process. -/
def addNamespace (netns : UInt32) (ctx : Nat) : Code (Except String Unit) :=
  .perform (Op.connCountPut netns 0) fun
    | .error _ => .perform Op.fatal fun never => nomatch never
    | .ok _ => .perform (Op.validNetnsPut netns 1) fun
      | .error _ => .perform Op.fatal fun never => nomatch never
      | .ok _ => (addNamespaceToScalingMap netns).bind fun _ =>
          .perform (Op.contextStore netns ctx) fun _ => .done (.ok ())

/-- Remove a namespace again, up to the first delete that fails. The flag is not among what
is removed. -/
def removeNamespace (netns : UInt32) : Code (Except String Unit) :=
  .perform (Op.connCountDelete netns) fun
    | .error err => .done (.error err)
    | .ok _ => .perform (Op.bufferDelete netns) fun
      | .error err => .done (.error err)
      | .ok _ => .perform (Op.validNetnsDelete netns) fun
        | .error err => .done (.error err)
        | .ok _ => .perform (Op.contextDelete netns) fun _ => .done (.ok ())

/-- The direction that a message of the kprobe stands for. -/
def directionOf : Message → String
  | .lower => "under"
  | .upper => "over"

/-- One turn of the loop of `Monitor`. A worker without a manager returns at once. -/
def monitorTurn (swarmNodeInfo : SwarmNodeInfo) (netns : UInt32) (ctx : Nat) : Code Outcome :=
  let rearm : Code Outcome := .perform Op.sleep fun _ =>
    (addNamespaceToScalingMap netns).bind fun _ => .done (.next ctx)
  .perform (Op.selectSignal ctx) fun
    | .done => (removeNamespace netns).bind fun _ => .done .returned
    | .signal threshold =>
        if swarmNodeInfo.autoscalerManager then
          .perform (Op.scaleService netns (directionOf threshold)) fun _ => rearm
        else
          match getManagerNode swarmNodeInfo.otherNodes with
          | .error _ => .done .returned
          | .ok managerNode =>
              .perform (Op.sendScaleRequest netns (directionOf threshold) managerNode.ip) fun _ => rearm

/-- `Monitor`, for a container whose service and namespace have been found. -/
def monitor (netns : UInt32) : Code Outcome :=
  .perform Op.newContext fun ctx => (addNamespace netns ctx).bind fun _ => .done (.next ctx)

/-- One turn of the loop of `listenForEvents`. -/
def listenForEvents : Code Outcome :=
  .perform Op.perfRead fun
    | .error _ => .done .returned
    | .ok .lost => .done .returned
    | .ok .malformed => .done .returned
    | .ok (.sample data) =>
        .perform (Op.contextLoad data.netns) fun
          | none => .done .returned
          | some ctx => .perform (Op.contextDone ctx) fun
            | true => .done .returned
            | false => .perform (Op.signalSend ctx data.message) fun _ => .done .returned

/-- The threads of one node: a Monitor for each container, and the event loop. -/
inductive Call where
  | monitor (netns : UInt32)
  | listener
  deriving DecidableEq, Repr

/-- The namespace of a Monitor. -/
def Call.netns : Call → Option UInt32
  | .monitor netns => some netns
  | .listener => none

/-- The operations that can fail by themselves. -/
def failure (op : Op) : Option op.Answer :=
  match op with
  | .connCountPut _ _ | .validNetnsPut _ _ | .scalingPut _ _ => some (.error "put failed")
  | .connCountDelete _ | .bufferDelete _ | .validNetnsDelete _ => some (.error "delete failed")
  | .scaleService _ _ | .sendScaleRequest _ _ _ => some (.error "scaling failed")
  | .perfRead => some (.error "read failed")
  | _ => none

/-- Deleting an absent key of a BPF map is an error. A new context is named after the
goroutine that makes it, since a Monitor makes one. -/
def perform (thread : Nat) (op : Op) (w : World) : Option (op.Answer × World) :=
  match op with
  | .newContext => some (thread, w)
  | .connCountPut netns value => some (.ok (), { w with maps := w.maps.putConnCount netns (some value) })
  | .validNetnsPut netns value => some (.ok (), { w with maps := w.maps.putValid netns (some value) })
  | .scalingPut netns value => some (.ok (), { w with maps := w.maps.putScaling netns (some value) })
  | .fatal => none
  | .contextStore netns ctx => some ((), w.setContext netns (some ctx))
  | .contextLoad netns => some (w.namespaceToContext netns, w)
  | .contextDelete netns => some ((), w.setContext netns none)
  | .connCountDelete netns =>
      match w.maps.connCountMap netns with
      | none => some (.error "key does not exist", w)
      | some _ => some (.ok (), { w with maps := w.maps.putConnCount netns none })
  | .bufferDelete netns =>
      match w.maps.bufferMap netns with
      | none => some (.error "key does not exist", w)
      | some _ => some (.ok (), { w with maps := w.maps.putBuffer netns none })
  | .validNetnsDelete netns =>
      match w.maps.validNetnsMap netns with
      | none => some (.error "key does not exist", w)
      | some _ => some (.ok (), { w with maps := w.maps.putValid netns none })
  | .selectSignal ctx => if w.cancelled ctx then some (.done, w) else none
  | .contextDone ctx => some (w.cancelled ctx, w)
  | .signalSend _ _ => none
  | .scaleService _ _ => some (.ok (), w)
  | .sendScaleRequest _ _ _ => some (.ok (), w)
  | .sleep => some ((), w)
  | .perfRead =>
      match w.perf with
      | [] => none
      | record :: rest => some (.ok record, { w with perf := rest })

/-- An operation that a thread completes alone: it fails and leaves the world as it is,
where it can fail, or has its effect. -/
def exec (thread : Nat) (op : Op) (fail : Bool) (w : World) : Option (op.Answer × World) :=
  if fail then (failure op).map fun answer => (answer, w) else perform thread op w

/-- The send on a context's channel meets the receive case of the Monitor's `select`. -/
def meet (send receive : Op) : Option (send.Answer × receive.Answer) :=
  match send, receive with
  | .signalSend ctx message, .selectSignal ctx' => if ctx = ctx' then some ((), .signal message) else none
  | _, _ => none

/-- What becomes of an event that the kprobe puts out. -/
inductive Output where
  | stored
  | failed
  | lost
  | malformed
  deriving DecidableEq, Repr

/-- What of an event arrives in the perf buffer. -/
def Output.records (data : Data) : Output → List Record
  | .stored => [.sample data]
  | .failed => []
  | .lost => [.lost]
  | .malformed => [.malformed]

/-- A call of the kprobe, or a context is cancelled because its container has stopped. -/
inductive Env where
  | kprobe (netns : UInt32) (sk : Option UInt8) (output : Output)
  | cancel (ctx : Nat)

/-- The kprobe is called, or a container stops and its context is cancelled. -/
def disturb : Env → World → Option World
  | .kprobe netns sk output, w =>
      let result := kprobeTcpRecvmsg w.maps netns sk
      some { w with
        maps := result.1
        perf := w.perf ++ result.2.toList.flatMap fun data => output.records data }
  | .cancel ctx, w => some { w with cancelled := Function.update w.cancelled ctx true }

/-- The code that a thread of each kind runs first. -/
def body : Call → Code Outcome
  | .monitor netns => monitor netns
  | .listener => listenForEvents

/-- Monitors and event loops run at once and meet where one sends what the other waits for;
each turn that does not end a Monitor is followed by another. -/
def machine (swarmNodeInfo : SwarmNodeInfo) : Machine signature World Call Outcome Env where
  body := body
  again := fun call outcome =>
    match call, outcome with
    | .monitor netns, .next ctx => some (monitorTurn swarmNodeInfo netns ctx)
    | .monitor _, .returned => none
    | .listener, _ => some listenForEvents
  forks := fun _ => none
  exec := exec
  meet := meet
  disturb := disturb

/-- States of the monitoring of one node. -/
abbrev State := Process.State signature World Call Outcome

/-- One choice of the scheduler. -/
abbrev Action := Process.Action Call Env

/-- An operation of the log, with the thread that performed it and its answer. -/
abbrev Event := Process.Event signature Outcome

/-- The event loop runs, nothing is monitored yet. -/
def start (maps : Maps) : State where
  world := { maps := maps }
  threads := [⟨.listener, listenForEvents⟩]

end Monitoring

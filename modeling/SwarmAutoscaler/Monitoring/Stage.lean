import SwarmAutoscaler.Monitoring.System
import SwarmAutoscaler.Process.Track

/-! Where every Monitor and every event loop stands, and what one step of the monitor can
do to the stages and to the shared maps. The invariants below are read off these cases. -/
namespace Monitoring

open Cluster (SwarmNodeInfo getManagerNode)
open Kernel (Data Maps Message kprobeTcpRecvmsg)
open Process

/-- The operation that a thread is about to perform, with what it has learnt before. -/
inductive Stage where
  | fresh
  | counting (ctx : Nat)
  | validating (ctx : Nat)
  | arming (ctx : Nat)
  | storing (ctx : Nat)
  /-- in the `select` of the Monitor's loop -/
  | serving (ctx : Nat)
  | scaling (ctx : Nat) (message : Message)
  | sleeping (ctx : Nat)
  | rearming (ctx : Nat)
  | uncounting
  | unbuffering
  | invalidating
  | forgetting
  | fatal
  | returned
  /-- in the `Read` of the event loop -/
  | reading
  | looking (data : Data)
  | checking (data : Data) (ctx : Nat)
  | sending (data : Data) (ctx : Nat)
  deriving DecidableEq, Repr

/-- The node has a manager to ask: itself, or one among its peers. -/
def reachesManager (swarmNodeInfo : SwarmNodeInfo) : Bool :=
  swarmNodeInfo.autoscalerManager ||
    match getManagerNode swarmNodeInfo.otherNodes with
    | .ok _ => true
    | .error _ => false

/-- What a Monitor does with a signal. -/
def Stage.signalled (swarmNodeInfo : SwarmNodeInfo) (ctx : Nat) (message : Message) : Stage :=
  if reachesManager swarmNodeInfo then .scaling ctx message else .returned

/-- What a thread may do at its stage, by the kind of the thread. -/
def Stage.permits (call : Call) (stage : Stage) (op : Op) : Prop :=
  match call, stage with
  | .monitor _, .fresh => op = .newContext
  | .monitor netns, .counting _ => op = .connCountPut netns 0
  | .monitor netns, .validating _ => op = .validNetnsPut netns 1
  | .monitor netns, .arming _ => op = .scalingPut netns 0
  | .monitor netns, .storing ctx => op = .contextStore netns ctx
  | .monitor _, .serving ctx => op = .selectSignal ctx
  | .monitor netns, .scaling _ message => op = .scaleService netns (directionOf message) ∨
      ∃ managerIP, op = .sendScaleRequest netns (directionOf message) managerIP
  | .monitor _, .sleeping _ => op = .sleep
  | .monitor netns, .rearming _ => op = .scalingPut netns 0
  | .monitor netns, .uncounting => op = .connCountDelete netns
  | .monitor netns, .unbuffering => op = .bufferDelete netns
  | .monitor netns, .invalidating => op = .validNetnsDelete netns
  | .monitor netns, .forgetting => op = .contextDelete netns
  | .monitor _, .fatal => op = .fatal
  | .listener, .reading => op = .perfRead
  | .listener, .looking data => op = .contextLoad data.netns
  | .listener, .checking _ ctx => op = .contextDone ctx
  | .listener, .sending data ctx => op = .signalSend ctx data.message
  | _, _ => False

/-- Where the answer to an operation takes a thread. -/
def Stage.advance (swarmNodeInfo : SwarmNodeInfo) (stage : Stage) (op : Op) : op.Answer → Stage :=
  match stage, op with
  | .fresh, .newContext => fun ctx : Nat => .counting ctx
  | .counting ctx, .connCountPut _ _ => fun
      | .ok _ => .validating ctx
      | .error _ => .fatal
  | .validating ctx, .validNetnsPut _ _ => fun
      | .ok _ => .arming ctx
      | .error _ => .fatal
  | .arming ctx, _ => fun _ => .storing ctx
  | .storing ctx, _ => fun _ => .serving ctx
  | .serving ctx, .selectSignal _ => fun
      | .done => .uncounting
      | .signal message => .signalled swarmNodeInfo ctx message
  | .scaling ctx _, _ => fun _ => .sleeping ctx
  | .sleeping ctx, _ => fun _ => .rearming ctx
  | .rearming ctx, _ => fun _ => .serving ctx
  | .uncounting, .connCountDelete _ => fun
      | .ok _ => .unbuffering
      | .error _ => .returned
  | .unbuffering, .bufferDelete _ => fun
      | .ok _ => .invalidating
      | .error _ => .returned
  | .invalidating, .validNetnsDelete _ => fun
      | .ok _ => .forgetting
      | .error _ => .returned
  | .forgetting, _ => fun _ => .returned
  | .reading, .perfRead => fun
      | .ok (.sample data) => .looking data
      | _ => .reading
  | .looking data, .contextLoad _ => fun found : Option Nat => found.elim .reading (.checking data)
  | .checking data ctx, .contextDone _ => fun cancelled : Bool =>
      if cancelled then .reading else .sending data ctx
  | .sending _ _, _ => fun _ => .reading
  | stage, _ => fun _ => stage

/-- A Monitor ends a turn in its loop or for good, an event loop only where it starts
over. -/
def stageEnds : Call → Stage → Outcome → Prop
  | .monitor _, stage, .next ctx => stage = .serving ctx
  | .monitor _, stage, .returned => stage = .returned
  | .listener, stage, _ => stage = .reading

/-- The stage of every thread, read off the log. -/
def stages (swarmNodeInfo : SwarmNodeInfo) : Tracking signature Call Stage Outcome where
  protocol call := ⟨Stage.permits call, Stage.advance swarmNodeInfo, stageEnds call⟩
  initial
    | .monitor _ => .fresh
    | .listener => .reading

variable {swarmNodeInfo : SwarmNodeInfo} {netns : UInt32} {ctx : Nat}

/-- From this stage on the code keeps to the protocol of its thread, whatever the answers
are. -/
abbrev Keeps (swarmNodeInfo : SwarmNodeInfo) (call : Call) (stage : Stage) (code : Code Outcome) : Prop :=
  code.Follows ((stages swarmNodeInfo).protocol call) (fun _ _ => True) stage

/-- The registration of a Monitor, step by step, up to its loop or to a fatal error. -/
theorem keeps_monitor : Keeps swarmNodeInfo (.monitor netns) .fresh (monitor netns) := by
  refine ⟨rfl, fun ctx _ => ⟨rfl, fun counted _ => ?_⟩⟩
  cases counted with
  | error err => exact ⟨rfl, fun never => nomatch never⟩
  | ok _ =>
      refine ⟨rfl, fun validated _ => ?_⟩
      cases validated with
      | error err => exact ⟨rfl, fun never => nomatch never⟩
      | ok _ => exact ⟨rfl, fun _ _ => ⟨rfl, fun _ _ => rfl⟩⟩

/-- The removal after `Done`; the first delete that fails ends the Monitor. -/
theorem keeps_removeNamespace : Keeps swarmNodeInfo (.monitor netns) .uncounting
    ((removeNamespace netns).bind fun _ => .done .returned) := by
  refine ⟨rfl, fun uncounted _ => ?_⟩
  cases uncounted with
  | error err => rfl
  | ok _ =>
      refine ⟨rfl, fun unbuffered _ => ?_⟩
      cases unbuffered with
      | error err => rfl
      | ok _ =>
          refine ⟨rfl, fun invalidated _ => ?_⟩
          cases invalidated with
          | error err => rfl
          | ok _ => exact ⟨rfl, fun _ _ => rfl⟩

/-- After each request a Monitor pauses and clears its flag, and is back in its loop. -/
theorem keeps_rearm : Keeps swarmNodeInfo (.monitor netns) (.sleeping ctx)
    (.perform Op.sleep fun _ => (addNamespaceToScalingMap netns).bind fun _ => .done (.next ctx)) :=
  ⟨rfl, fun _ _ => ⟨rfl, fun _ _ => rfl⟩⟩

/-- One turn of a Monitor from its `select`: `Done` leads to the removal, a signal to a
request or, without a manager to ask, to the end. -/
theorem keeps_monitorTurn :
    Keeps swarmNodeInfo (.monitor netns) (.serving ctx) (monitorTurn swarmNodeInfo netns ctx) := by
  refine ⟨rfl, fun received _ => ?_⟩
  cases received with
  | done => exact keeps_removeNamespace
  | signal message =>
      dsimp only
      split
      · next hSelf =>
          have hReaches : reachesManager swarmNodeInfo = true := by rw [reachesManager, hSelf, Bool.true_or]
          have hStage : Stage.signalled swarmNodeInfo ctx message = .scaling ctx message := if_pos hReaches
          show Keeps swarmNodeInfo (.monitor netns) (Stage.signalled swarmNodeInfo ctx message) _
          rw [hStage]
          exact ⟨Or.inl rfl, fun _ _ => keeps_rearm⟩
      · next hSelf =>
          show Keeps swarmNodeInfo (.monitor netns) (Stage.signalled swarmNodeInfo ctx message) _
          have hReaches : reachesManager swarmNodeInfo =
              match getManagerNode swarmNodeInfo.otherNodes with
              | .ok _ => true
              | .error _ => false := by
            rw [reachesManager, Bool.eq_false_iff.mpr hSelf, Bool.false_or]
          split
          · next hManager =>
              rw [hManager] at hReaches
              rw [Stage.signalled, hReaches]
              rfl
          · next managerNode hManager =>
              rw [hManager] at hReaches
              rw [Stage.signalled, if_pos hReaches]
              exact ⟨Or.inr ⟨managerNode.ip, rfl⟩, fun _ _ => keeps_rearm⟩

/-- One turn of the event loop, from its read to a send or to the next turn. -/
theorem keeps_listenForEvents : Keeps swarmNodeInfo .listener .reading listenForEvents := by
  refine ⟨rfl, fun answer _ => ?_⟩
  rcases answer with err | (data | _ | _)
  · rfl
  · refine ⟨rfl, fun found _ => ?_⟩
    cases found with
    | none => rfl
    | some ctx =>
        refine ⟨rfl, fun cancelled _ => ?_⟩
        cases cancelled with
        | true => rfl
        | false => exact ⟨rfl, fun _ _ => rfl⟩
  · rfl
  · rfl

variable {s t : State} {action : Action}

/-- Every step keeps the tracking of the stages, the start of a next turn included. -/
theorem stages_step (hLogged : Machine.Logged s) (h : Machine.EachThread (stages swarmNodeInfo).Tracked s)
    (hStep : (machine swarmNodeInfo).step s action = some t) :
    Machine.EachThread (stages swarmNodeInfo).Tracked t := by
  refine (stages swarmNodeInfo).tracked_step (machine swarmNodeInfo) (fun call => ?_) ?_ hLogged h hStep
  · cases call with
    | monitor netns => exact keeps_monitor
    | listener => exact keeps_listenForEvents
  · intro call stage outcome code hEnds hAgain
    cases call with
    | monitor netns =>
        cases outcome with
        | next ctx =>
            cases hAgain
            cases hEnds
            exact keeps_monitorTurn
        | returned => cases hAgain
    | listener =>
        cases hAgain
        cases hEnds
        exact keeps_listenForEvents

/-- What a thread on its own can do at a stage: the stage after it and the world after it. -/
inductive Moves (w : World) (i : Nat) (fail : Bool) : Call → Stage → Stage → World → Prop where
  | create {netns : UInt32} : Moves w i fail (.monitor netns) .fresh (.counting i) w
  | count {netns : UInt32} {ctx : Nat} : Moves w i fail (.monitor netns) (.counting ctx) (.validating ctx)
      { w with maps := w.maps.putConnCount netns (some 0) }
  | countFailed {netns : UInt32} {ctx : Nat} : Moves w i fail (.monitor netns) (.counting ctx) .fatal w
  | validate {netns : UInt32} {ctx : Nat} : Moves w i fail (.monitor netns) (.validating ctx) (.arming ctx)
      { w with maps := w.maps.putValid netns (some 1) }
  | validateFailed {netns : UInt32} {ctx : Nat} : Moves w i fail (.monitor netns) (.validating ctx) .fatal w
  | arm {netns : UInt32} {ctx : Nat} : Moves w i fail (.monitor netns) (.arming ctx) (.storing ctx)
      { w with maps := w.maps.putScaling netns (some 0) }
  | armFailed {netns : UInt32} {ctx : Nat} : Moves w i fail (.monitor netns) (.arming ctx) (.storing ctx) w
  | store {netns : UInt32} {ctx : Nat} :
      Moves w i fail (.monitor netns) (.storing ctx) (.serving ctx) (w.setContext netns (some ctx))
  | done {netns : UInt32} {ctx : Nat} (cancelled : w.cancelled ctx = true) :
      Moves w i fail (.monitor netns) (.serving ctx) .uncounting w
  | request {netns : UInt32} {ctx : Nat} {message : Message} :
    Moves w i fail (.monitor netns) (.scaling ctx message) (.sleeping ctx) w
  | sleep {netns : UInt32} {ctx : Nat} : Moves w i fail (.monitor netns) (.sleeping ctx) (.rearming ctx) w
  | rearm {netns : UInt32} {ctx : Nat} (works : fail = false) :
      Moves w i fail (.monitor netns) (.rearming ctx) (.serving ctx)
        { w with maps := w.maps.putScaling netns (some 0) }
  | rearmFailed {netns : UInt32} {ctx : Nat} (fails : fail = true) :
      Moves w i fail (.monitor netns) (.rearming ctx) (.serving ctx) w
  | uncount {netns : UInt32} (removes : fail = false ∧ (w.maps.connCountMap netns).isSome = true) :
      Moves w i fail (.monitor netns) .uncounting .unbuffering
      { w with maps := w.maps.putConnCount netns none }
  | uncountFailed {netns : UInt32} (fails : ¬ (fail = false ∧ (w.maps.connCountMap netns).isSome = true)) :
      Moves w i fail (.monitor netns) .uncounting .returned w
  | unbuffer {netns : UInt32} (removes : fail = false ∧ (w.maps.bufferMap netns).isSome = true) :
      Moves w i fail (.monitor netns) .unbuffering .invalidating
      { w with maps := w.maps.putBuffer netns none }
  | unbufferFailed {netns : UInt32} (fails : ¬ (fail = false ∧ (w.maps.bufferMap netns).isSome = true)) :
      Moves w i fail (.monitor netns) .unbuffering .returned w
  | invalidate {netns : UInt32} (removes : fail = false ∧ (w.maps.validNetnsMap netns).isSome = true) :
      Moves w i fail (.monitor netns) .invalidating .forgetting
      { w with maps := w.maps.putValid netns none }
  | invalidateFailed {netns : UInt32} (fails : ¬ (fail = false ∧ (w.maps.validNetnsMap netns).isSome = true)) :
      Moves w i fail (.monitor netns) .invalidating .returned w
  | forget {netns : UInt32} : Moves w i fail (.monitor netns) .forgetting .returned (w.setContext netns none)
  | readFailed : Moves w i fail .listener .reading .reading w
  | read {data : Data} {rest : List Record} (perf : w.perf = .sample data :: rest) :
      Moves w i fail .listener .reading (.looking data) { w with perf := rest }
  | skip {record : Record} {rest : List Record} (perf : w.perf = record :: rest)
    (noSample : ∀ data, record ≠ .sample data) :
      Moves w i fail .listener .reading .reading { w with perf := rest }
  | unknown {data : Data} (absent : w.namespaceToContext data.netns = none) :
      Moves w i fail .listener (.looking data) .reading w
  | known {data : Data} {ctx : Nat} (found : w.namespaceToContext data.netns = some ctx) :
      Moves w i fail .listener (.looking data) (.checking data ctx) w
  | late {data : Data} {ctx : Nat} (cancelled : w.cancelled ctx = true) :
      Moves w i fail .listener (.checking data ctx) .reading w
  | inTime {data : Data} {ctx : Nat} (running : w.cancelled ctx = false) :
      Moves w i fail .listener (.checking data ctx) (.sending data ctx) w

section Exec

variable {w world : World} {i : Nat} {stage : Stage} {op : Op} {fail : Bool} {answer : op.Answer}

/-- A put into the connection counts stores 0, or fails and is fatal for the Monitor. -/
theorem moves_counting {answer : Except String Unit}
    (hExec : exec i (.connCountPut netns 0) fail w = some (answer, world)) :
    Moves w i fail (.monitor netns) (.counting ctx)
      (Stage.advance swarmNodeInfo (.counting ctx) (.connCountPut netns 0) answer) world := by
  cases fail <;> cases hExec
  · exact .count
  · exact .countFailed

/-- A put into the valid namespaces stores 1, or fails and is fatal for the Monitor. -/
theorem moves_validating {answer : Except String Unit}
    (hExec : exec i (.validNetnsPut netns 1) fail w = some (answer, world)) :
    Moves w i fail (.monitor netns) (.validating ctx)
      (Stage.advance swarmNodeInfo (.validating ctx) (.validNetnsPut netns 1) answer) world := by
  cases fail <;> cases hExec
  · exact .validate
  · exact .validateFailed

/-- The first put of the scaling flag. Its error is only logged, so the Monitor goes on. -/
theorem moves_arming {answer : Except String Unit}
    (hExec : exec i (.scalingPut netns 0) fail w = some (answer, world)) :
    Moves w i fail (.monitor netns) (.arming ctx) (.storing ctx) world := by
  cases fail <;> cases hExec
  · exact .arm
  · exact .armFailed

/-- The re-arm: its error is only logged, and then the flag stays set. -/
theorem moves_rearming {answer : Except String Unit}
    (hExec : exec i (.scalingPut netns 0) fail w = some (answer, world)) :
    Moves w i fail (.monitor netns) (.rearming ctx) (.serving ctx) world := by
  cases fail <;> cases hExec
  · exact .rearm rfl
  · exact .rearmFailed rfl

/-- On its own a Monitor leaves its `select` only through the cancelled context: a signal
comes from another thread. -/
theorem moves_serving {answer : Received}
    (hExec : exec i (.selectSignal ctx) fail w = some (answer, world)) :
    Moves w i fail (.monitor netns) (.serving ctx)
      (Stage.advance swarmNodeInfo (.serving ctx) (.selectSignal ctx) answer) world := by
  cases fail with
  | true => cases hExec
  | false =>
      by_cases hCancelled : w.cancelled ctx = true
      · simp only [exec, perform, hCancelled] at hExec
        cases hExec
        exact .done hCancelled
      · simp [exec, perform, hCancelled] at hExec

/-- Neither way of asking for a scaling changes the world, whatever it returns. -/
theorem moves_scaling {message : Message}
    (hPermits : (Stage.scaling ctx message).permits (.monitor netns) op)
    (hExec : exec i op fail w = some (answer, world)) :
    Moves w i fail (.monitor netns) (.scaling ctx message) (.sleeping ctx) world := by
  rcases hPermits with hLocal | ⟨managerIP, hRemote⟩
  · subst hLocal
    cases fail <;> cases hExec <;> exact .request
  · subst hRemote
    cases fail <;> cases hExec <;> exact .request

/-- The first delete of `removeNamespace`: an absent key or a failure ends the removal. -/
theorem moves_uncounting {answer : Except String Unit}
    (hExec : exec i (.connCountDelete netns) fail w = some (answer, world)) :
    Moves w i fail (.monitor netns) .uncounting
      (Stage.advance swarmNodeInfo .uncounting (.connCountDelete netns) answer) world := by
  cases fail with
  | true =>
      cases hExec
      exact .uncountFailed (fun h => nomatch h.1)
  | false =>
      cases hEntry : w.maps.connCountMap netns with
      | none =>
          simp only [exec, perform, hEntry] at hExec
          cases hExec
          exact .uncountFailed (by simp [hEntry])
      | some value =>
          simp only [exec, perform, hEntry] at hExec
          cases hExec
          exact .uncount (by simp [hEntry])

/-- The second delete: the buffer has no key before the first call of the kprobe. -/
theorem moves_unbuffering {answer : Except String Unit}
    (hExec : exec i (.bufferDelete netns) fail w = some (answer, world)) :
    Moves w i fail (.monitor netns) .unbuffering
      (Stage.advance swarmNodeInfo .unbuffering (.bufferDelete netns) answer) world := by
  cases fail with
  | true =>
      cases hExec
      exact .unbufferFailed (fun h => nomatch h.1)
  | false =>
      cases hEntry : w.maps.bufferMap netns with
      | none =>
          simp only [exec, perform, hEntry] at hExec
          cases hExec
          exact .unbufferFailed (by simp [hEntry])
      | some value =>
          simp only [exec, perform, hEntry] at hExec
          cases hExec
          exact .unbuffer (by simp [hEntry])

/-- The third delete, after which the kprobe no longer counts for the namespace. -/
theorem moves_invalidating {answer : Except String Unit}
    (hExec : exec i (.validNetnsDelete netns) fail w = some (answer, world)) :
    Moves w i fail (.monitor netns) .invalidating
      (Stage.advance swarmNodeInfo .invalidating (.validNetnsDelete netns) answer) world := by
  cases fail with
  | true =>
      cases hExec
      exact .invalidateFailed (fun h => nomatch h.1)
  | false =>
      cases hEntry : w.maps.validNetnsMap netns with
      | none =>
          simp only [exec, perform, hEntry] at hExec
          cases hExec
          exact .invalidateFailed (by simp [hEntry])
      | some value =>
          simp only [exec, perform, hEntry] at hExec
          cases hExec
          exact .invalidate (by simp [hEntry])

/-- Every operation that a Monitor completes alone is one of the moves, with the effect on
the shared maps that the move names. -/
theorem moves_monitor (hPermits : stage.permits (.monitor netns) op)
    (hExec : exec i op fail w = some (answer, world)) :
    Moves w i fail (.monitor netns) stage (stage.advance swarmNodeInfo op answer) world := by
  cases stage with
  | fresh =>
      cases hPermits
      cases fail <;> cases hExec
      exact .create
  | counting ctx =>
      cases hPermits
      exact moves_counting hExec
  | validating ctx =>
      cases hPermits
      exact moves_validating hExec
  | arming ctx =>
      cases hPermits
      exact moves_arming hExec
  | storing ctx =>
      cases hPermits
      cases fail <;> cases hExec
      exact .store
  | serving ctx =>
      cases hPermits
      exact moves_serving hExec
  | scaling ctx message => exact moves_scaling hPermits hExec
  | sleeping ctx =>
      cases hPermits
      cases fail <;> cases hExec
      exact .sleep
  | rearming ctx =>
      cases hPermits
      exact moves_rearming hExec
  | uncounting =>
      cases hPermits
      exact moves_uncounting hExec
  | unbuffering =>
      cases hPermits
      exact moves_unbuffering hExec
  | invalidating =>
      cases hPermits
      exact moves_invalidating hExec
  | forgetting =>
      cases hPermits
      cases fail <;> cases hExec
      exact .forget
  | fatal =>
      cases hPermits
      cases fail <;> cases hExec
  | _ => exact hPermits.elim

theorem advance_looking {data : Data} (found : Option Nat) :
    Stage.advance swarmNodeInfo (.looking data) (.contextLoad netns) found =
      found.elim .reading (.checking data) := rfl

theorem advance_checking {data : Data} (cancelled : Bool) :
    Stage.advance swarmNodeInfo (.checking data ctx) (.contextDone ctx) cancelled =
      if cancelled then .reading else .sending data ctx := rfl

/-- Every operation that the event loop completes alone is one of its moves; what it reads
from the perf buffer decides about the next one. -/
theorem moves_listener (hPermits : stage.permits .listener op)
    (hExec : exec i op fail w = some (answer, world)) :
    Moves w i fail .listener stage (stage.advance swarmNodeInfo op answer) world := by
  cases stage with
  | reading =>
      cases hPermits
      cases fail with
      | true =>
          cases hExec
          exact .readFailed
      | false =>
          cases hPerf : w.perf with
          | nil => simp [exec, perform, hPerf] at hExec
          | cons record rest =>
              simp only [exec, perform, hPerf] at hExec
              cases hExec
              cases record with
              | sample data => exact .read hPerf
              | lost => exact .skip hPerf (fun _ h => nomatch h)
              | malformed => exact .skip hPerf (fun _ h => nomatch h)
  | looking data =>
      cases hPermits
      cases fail <;> cases hExec
      rw [advance_looking]
      cases hFound : w.namespaceToContext data.netns with
      | none => exact .unknown hFound
      | some ctx => exact .known hFound
  | checking data ctx =>
      cases hPermits
      cases fail <;> cases hExec
      rw [advance_checking]
      cases hCancelled : w.cancelled ctx with
      | true => exact .late hCancelled
      | false => exact .inTime hCancelled
  | sending data ctx =>
      cases hPermits
      cases fail <;> cases hExec
  | _ => exact hPermits.elim

/-- The moves of both kinds of threads. -/
theorem moves_of_exec {call : Call} (hPermits : stage.permits call op)
    (hExec : exec i op fail w = some (answer, world)) :
    Moves w i fail call stage (stage.advance swarmNodeInfo op answer) world := by
  cases call with
  | monitor netns => exact moves_monitor hPermits hExec
  | listener => exact moves_listener hPermits hExec

end Exec

/-- The shared part of a state, the number of threads, and for each thread its call and
its stage. -/
structure View where
  world : World
  size : Nat
  stage : Nat → Option (Call × Stage)

/-- What the invariants below look at of a state. -/
def view (swarmNodeInfo : SwarmNodeInfo) (s : State) : View :=
  ⟨s.world, s.threads.length, (stages swarmNodeInfo).position s⟩

/-- Only started threads stand anywhere. -/
theorem bounded_view (s : State) (i : Nat) (standing : Call × Stage)
    (h : (view swarmNodeInfo s).stage i = some standing) : i < s.threads.length := by
  obtain ⟨thread, hThread, _⟩ := Option.map_eq_some_iff.mp h
  exact (List.getElem?_eq_some_iff.mp hThread).1

/-- What a step can do. A signal passes from an event loop to the Monitor of the context. -/
inductive Advances (swarmNodeInfo : SwarmNodeInfo) (v : View) : Action → View → Prop where
  | invoke {call : Call} (unused : v.stage v.size = none) : Advances swarmNodeInfo v (.invoke call)
      ⟨v.world, v.size + 1, Function.update v.stage v.size (some (call, (stages swarmNodeInfo).initial call))⟩
  | step {i : Nat} {fail : Bool} {call : Call} {before after : Stage} {world : World}
      (stands : v.stage i = some (call, before)) (moves : Moves v.world i fail call before after world) :
      Advances swarmNodeInfo v (.step i fail) ⟨world, v.size, Function.update v.stage i (some (call, after))⟩
  | meet {i j : Nat} {data : Data} {ctx : Nat} {netns : UInt32} (apart : i ≠ j)
      (sends : v.stage i = some (.listener, .sending data ctx))
      (receives : v.stage j = some (.monitor netns, .serving ctx)) :
      Advances swarmNodeInfo v (.meet i j)
        ⟨v.world, v.size, Function.update (Function.update v.stage i (some (.listener, .reading))) j
          (some (.monitor netns, .signalled swarmNodeInfo ctx data.message))⟩
  | disturb {env : Env} {world : World} (happens : disturb env v.world = some world) :
      Advances swarmNodeInfo v (.disturb env) ⟨world, v.size, v.stage⟩

/-- Only an event loop sends signals, and each to the context that it has looked up. -/
theorem permits_signalSend {call : Call} {stage : Stage} {message : Message}
    (h : stage.permits call (.signalSend ctx message)) :
    call = .listener ∧ ∃ data : Data, stage = .sending data ctx ∧ message = data.message := by
  cases call with
  | monitor netns =>
      cases stage with
      | scaling => rcases h with h | ⟨_, h⟩ <;> cases h
      | _ => cases h
  | listener =>
      cases stage with
      | sending data ctx' =>
          cases h
          exact ⟨rfl, data, rfl, rfl⟩
      | _ => cases h

/-- Only a Monitor in its loop takes signals. -/
theorem permits_selectSignal {call : Call} {stage : Stage} (h : stage.permits call (.selectSignal ctx)) :
    ∃ netns, call = .monitor netns ∧ stage = .serving ctx := by
  cases call with
  | listener => cases stage <;> cases h
  | monitor netns =>
      cases stage with
      | serving ctx' =>
          cases h
          exact ⟨netns, rfl, rfl⟩
      | scaling => rcases h with h | ⟨_, h⟩ <;> cases h
      | _ => cases h

/-- Two threads that meet are an event loop and the Monitor whose context it has found. -/
theorem signal_of_meet {sender receiver : Call} {a b : Stage} {send receive : Op}
    {answers : send.Answer × receive.Answer} (hSend : a.permits sender send)
    (hReceive : b.permits receiver receive)
    (met : meet send receive = some answers) :
    ∃ data ctx netns, sender = .listener ∧ a = .sending data ctx ∧ receiver = .monitor netns ∧
      b = .serving ctx ∧ a.advance swarmNodeInfo send answers.1 = .reading ∧
        b.advance swarmNodeInfo receive answers.2 = .signalled swarmNodeInfo ctx data.message := by
  unfold meet at met
  split at met
  · next ctx message ctx' =>
      split at met
      · next hSame =>
          cases hSame
          cases met
          obtain ⟨rfl, data, rfl, rfl⟩ := permits_signalSend hSend
          obtain ⟨netns, rfl, rfl⟩ := permits_selectSignal hReceive
          exact ⟨data, ctx, netns, rfl, rfl, rfl, rfl, rfl, rfl⟩
      · cases met
  · cases met

theorem length_resume (s : State) (i : Nat) (call : Call) (op : Op) (next : op.Answer → Code Outcome)
    (answer : op.Answer) :
    ((machine swarmNodeInfo).resume s i call op next answer).threads.length = s.threads.length := by
  have hForks : (machine swarmNodeInfo).forks op = none := rfl
  simp [Machine.resume, hForks]

/-- The stages of a machine state move as the cases say. -/
theorem advances_of_step (hLogged : Machine.Logged s)
    (hTracked : Machine.EachThread (stages swarmNodeInfo).Tracked s)
    (hStep : (machine swarmNodeInfo).step s action = some t) :
    Advances swarmNodeInfo (view swarmNodeInfo s) action (view swarmNodeInfo t) := by
  have stands {s : State} {i : Nat} {call : Call} {code : Code Outcome} (h : s.threads[i]? = some ⟨call, code⟩) :
      (stages swarmNodeInfo).position s i = some (call, (stages swarmNodeInfo).phase s.log i call) :=
    (stages swarmNodeInfo).position_of_thread h
  have resumed {s : State} {i : Nat} {call : Call} {op : Op} {next : op.Answer → Code Outcome} {answer : op.Answer}
      (atOp : s.threads[i]? = some ⟨call, .perform op next⟩) :
      view swarmNodeInfo ((machine swarmNodeInfo).resume s i call op next answer) =
        ⟨s.world, s.threads.length, Function.update ((stages swarmNodeInfo).position s) i
          (some (call, Stage.advance swarmNodeInfo ((stages swarmNodeInfo).phase s.log i call) op answer))⟩ :=
    congrArg₂ (View.mk s.world) (length_resume ..)
      ((stages swarmNodeInfo).position_resume (machine swarmNodeInfo) rfl atOp)
  cases (machine swarmNodeInfo).stepCase_of_step hStep with
  | invoke call =>
      have hView : view swarmNodeInfo { s with threads := s.threads ++ [(machine swarmNodeInfo).spawn call] } =
          _ :=
        congrArg₂ (View.mk s.world) (List.length_append ..)
          ((stages swarmNodeInfo).position_invoke (machine swarmNodeInfo) hLogged)
      have hUnused : (view swarmNodeInfo s).stage s.threads.length = none := by
        show (stages swarmNodeInfo).position s s.threads.length = none
        rw [Tracking.position, List.getElem?_eq_none (Nat.le_refl _)]
        rfl
      rw [hView]
      exact .invoke hUnused
  | @step i fail call op next answer world atOp answered =>
      have hView : view swarmNodeInfo ((machine swarmNodeInfo).resume { s with world := world } i call op next
          answer) = _ :=
        resumed atOp
      rw [hView]
      exact .step (stands atOp) (moves_of_exec (Tracking.Tracked.permits _ hTracked atOp) answered)
  | @meet i j sender receiver send receive sent received answers atSend atReceive apart met waits =>
      have hPosition := (stages swarmNodeInfo).position_meet (machine swarmNodeInfo) answers.2 rfl rfl
        apart atSend waits
      obtain ⟨data, ctx, netns, rfl, hSending, rfl, hServing, hSent, hReceived⟩ :=
        signal_of_meet (Tracking.Tracked.permits _ hTracked atSend)
          (Tracking.Tracked.permits _ hTracked atReceive) met
      have hSends := stands atSend
      have hReceives := stands atReceive
      rw [hSending] at hSends
      rw [hServing] at hReceives
      have hAfter : Function.update (Function.update ((stages swarmNodeInfo).position s) i
          (some (.listener, ((stages swarmNodeInfo).protocol .listener).advance
            ((stages swarmNodeInfo).phase s.log i .listener) send answers.1))) j
          (some (.monitor netns, ((stages swarmNodeInfo).protocol (.monitor netns)).advance
            ((stages swarmNodeInfo).phase s.log j (.monitor netns)) receive answers.2)) =
          Function.update (Function.update ((stages swarmNodeInfo).position s) i (some (.listener, .reading))) j
            (some (.monitor netns, .signalled swarmNodeInfo ctx data.message)) :=
        congrArg₂ (fun a b => Function.update (Function.update ((stages swarmNodeInfo).position s) i
          (some (.listener, a))) j (some (.monitor netns, b))) hSent hReceived
      have hAdvances : Advances swarmNodeInfo (view swarmNodeInfo s) (.meet i j) _ :=
        .meet apart hSends hReceives
      show Advances swarmNodeInfo (view swarmNodeInfo s) (.meet i j) ⟨s.world, List.length _, _⟩
      rw [hPosition.trans hAfter, length_resume, length_resume]
      exact hAdvances
  | disturb happens => exact .disturb happens

/-- The context a Monitor has made for itself. -/
def Stage.own : Stage → Option Nat
  | .counting ctx | .validating ctx | .arming ctx | .storing ctx | .serving ctx | .scaling ctx _ | .sleeping ctx
  | .rearming ctx => some ctx
  | _ => none

/-- The event that an event loop holds, with the context it has found for it. -/
def Stage.target : Stage → Option (Data × Nat)
  | .checking data ctx | .sending data ctx => some (data, ctx)
  | _ => none

section Moves

variable {w w' : World} {i c : Nat} {fail : Bool} {call : Call} {before after : Stage} {data : Data}

/-- A Monitor keeps the context that it has made, which is the number of its thread. -/
theorem Moves.own (h : Moves w i fail call before after w') (hOwn : after.own = some c) :
    before.own = some c ∨ c = i := by
  cases h <;> first | exact Or.inl hOwn | cases hOwn <;> exact Or.inr rfl

/-- The context to which an event loop sends is the one it has found for the event. -/
theorem Moves.target (h : Moves w i fail call before after w') (hTarget : after.target = some (data, c)) :
    before.target = some (data, c) ∨ w.namespaceToContext data.netns = some c := by
  cases h with
  | known found =>
      cases hTarget
      exact Or.inr found
  | inTime running => exact Or.inl hTarget
  | _ => cases hTarget

/-- The map of the contexts gets entries from Monitors that store their own. -/
theorem Moves.namespaceToContext (h : Moves w i fail call before after w')
    (hFound : w'.namespaceToContext netns = some c) :
    w.namespaceToContext netns = some c ∨ (call = .monitor netns ∧ before = .storing c) := by
  cases h with
  | @store netns' ctx' =>
      by_cases hSame : netns = netns'
      · subst hSame
        rw [World.setContext_self] at hFound
        cases hFound
        exact Or.inr ⟨rfl, rfl⟩
      · rw [World.setContext_other hSame] at hFound
        exact Or.inl hFound
  | @forget netns' =>
      by_cases hSame : netns = netns'
      · subst hSame
        rw [World.setContext_self] at hFound
        cases hFound
      · rw [World.setContext_other hSame] at hFound
        exact Or.inl hFound
  | _ => exact Or.inl hFound

end Moves

theorem signalled_own {message : Message} {c : Nat}
    (h : (Stage.signalled swarmNodeInfo ctx message).own = some c) : c = ctx := by
  unfold Stage.signalled at h
  split at h
  · exact (Option.some.inj h).symm
  · cases h

theorem signalled_target {message : Message} : (Stage.signalled swarmNodeInfo ctx message).target = none := by
  unfold Stage.signalled
  split <;> rfl

/-- Where an entry of an updated stage function comes from. -/
theorem update_eq_some {stage : Nat → Option (Call × Stage)} {i j : Nat} {standing other : Call × Stage}
    (h : Function.update stage i (some standing) j = some other) :
    (j = i ∧ other = standing) ∨ (j ≠ i ∧ stage j = some other) := by
  by_cases hji : j = i
  · subst hji
    rw [Function.update_self] at h
    exact Or.inl ⟨rfl, (Option.some.inj h).symm⟩
  · rw [Function.update_of_ne hji] at h
    exact Or.inr ⟨hji, h⟩

/-- Contexts are named after the Monitor that made them, and lead to it. -/
structure Sound (v : View) : Prop where
  named : ∀ i call stage c, v.stage i = some (call, stage) → stage.own = some c → c = i
  stored : ∀ netns c, v.world.namespaceToContext netns = some c → ∃ stage, v.stage c = some (.monitor netns, stage)
  held : ∀ i call stage data c, v.stage i = some (call, stage) → stage.target = some (data, c) →
    ∃ stage, v.stage c = some (.monitor data.netns, stage)
  bounded : ∀ i standing, v.stage i = some standing → i < v.size

/-- A Monitor's thread stays its thread. -/
theorem Advances.monitor {v v' : View} (h : Advances swarmNodeInfo v action v') {c : Nat}
    (hAt : ∃ stage, v.stage c = some (.monitor netns, stage)) :
    ∃ stage, v'.stage c = some (.monitor netns, stage) := by
  obtain ⟨stage, hAt⟩ := hAt
  cases h with
  | @invoke call unused =>
      have hOther : c ≠ v.size := fun hSame => by rw [hSame, unused] at hAt; cases hAt
      exact ⟨stage, (Function.update_of_ne hOther ..).trans hAt⟩
  | @step i fail call before after world stands moves =>
      by_cases hSame : c = i
      · subst hSame
        rw [stands] at hAt
        cases hAt
        exact ⟨after, Function.update_self ..⟩
      · exact ⟨stage, (Function.update_of_ne hSame ..).trans hAt⟩
  | @meet i j data ctx netns' apart sends receives =>
      by_cases hReceiver : c = j
      · subst hReceiver
        rw [receives] at hAt
        cases hAt
        exact ⟨_, Function.update_self ..⟩
      · have hSender : c ≠ i := fun hSame => by rw [hSame, sends] at hAt; cases hAt
        exact ⟨stage, (Function.update_of_ne hReceiver ..).trans ((Function.update_of_ne hSender ..).trans hAt)⟩
  | disturb happens => exact ⟨stage, hAt⟩

theorem disturb_namespaceToContext {env : Env} {w w' : World} (h : disturb env w = some w') :
    w'.namespaceToContext = w.namespaceToContext := by
  cases env <;> cases h <;> rfl

/-- Every step keeps what the threads know of each other: contexts are named after threads,
and what the map or an event loop says of a context is true of its Monitor. -/
theorem Sound.advances {v v' : View} (hSound : Sound v) (h : Advances swarmNodeInfo v action v') : Sound v' := by
  have monitor {c : Nat} {netns : UInt32} (hAt : ∃ stage, v.stage c = some (.monitor netns, stage)) :=
    h.monitor hAt
  cases h with
  | @invoke call unused =>
      refine ⟨fun j call' stage c hj hOwn => ?_, fun netns c hFound => monitor (hSound.stored netns c hFound),
        fun j call' stage data c hj hTarget => ?_, fun j standing hj => ?_⟩
      · rcases update_eq_some hj with ⟨_, hNew⟩ | ⟨_, hOld⟩
        · cases hNew
          cases call <;> cases hOwn
        · exact hSound.named j call' stage c hOld hOwn
      · rcases update_eq_some hj with ⟨_, hNew⟩ | ⟨_, hOld⟩
        · cases hNew
          cases call <;> cases hTarget
        · exact monitor (hSound.held j call' stage data c hOld hTarget)
      · rcases update_eq_some hj with ⟨rfl, _⟩ | ⟨_, hOld⟩
        · exact Nat.lt_succ_self _
        · exact Nat.lt_succ_of_lt (hSound.bounded j standing hOld)
  | @step i fail call before after world stands moves =>
      refine ⟨fun j call' stage c hj hOwn => ?_, fun netns c hFound => ?_,
        fun j call' stage data c hj hTarget => ?_,
        fun j standing hj => ?_⟩
      · rcases update_eq_some hj with ⟨rfl, hNew⟩ | ⟨_, hOld⟩
        · cases hNew
          rcases moves.own hOwn with hBefore | hSelf
          · exact hSound.named _ _ _ c stands hBefore
          · exact hSelf
        · exact hSound.named j call' stage c hOld hOwn
      · rcases moves.namespaceToContext hFound with hOld | ⟨rfl, rfl⟩
        · exact monitor (hSound.stored netns c hOld)
        · obtain rfl := hSound.named _ _ _ c stands rfl
          exact monitor ⟨_, stands⟩
      · rcases update_eq_some hj with ⟨rfl, hNew⟩ | ⟨_, hOld⟩
        · cases hNew
          rcases moves.target hTarget with hBefore | hFound
          · exact monitor (hSound.held _ _ _ data c stands hBefore)
          · exact monitor (hSound.stored data.netns c hFound)
        · exact monitor (hSound.held j call' stage data c hOld hTarget)
      · rcases update_eq_some hj with ⟨rfl, _⟩ | ⟨_, hOld⟩
        · exact hSound.bounded _ _ stands
        · exact hSound.bounded j standing hOld
  | @meet i j data ctx netns apart sends receives =>
      refine ⟨fun k call' stage c hk hOwn => ?_, fun netns c hFound => monitor (hSound.stored netns c hFound),
        fun k call' stage data c hk hTarget => ?_, fun k standing hk => ?_⟩
      · rcases update_eq_some hk with ⟨rfl, hNew⟩ | ⟨_, hk⟩
        · cases hNew
          rw [signalled_own hOwn]
          exact hSound.named _ _ _ ctx receives rfl
        · rcases update_eq_some hk with ⟨rfl, hNew⟩ | ⟨_, hOld⟩
          · cases hNew
            cases hOwn
          · exact hSound.named k call' stage c hOld hOwn
      · rcases update_eq_some hk with ⟨rfl, hNew⟩ | ⟨_, hk⟩
        · cases hNew
          rw [signalled_target] at hTarget
          cases hTarget
        · rcases update_eq_some hk with ⟨rfl, hNew⟩ | ⟨_, hOld⟩
          · cases hNew
            cases hTarget
          · exact monitor (hSound.held k call' stage data c hOld hTarget)
      · rcases update_eq_some hk with ⟨rfl, _⟩ | ⟨_, hk⟩
        · exact hSound.bounded _ _ receives
        · rcases update_eq_some hk with ⟨rfl, _⟩ | ⟨_, hOld⟩
          · exact hSound.bounded _ _ sends
          · exact hSound.bounded k standing hOld
  | disturb happens =>
      refine ⟨hSound.named, fun netns c hFound => ?_, hSound.held, hSound.bounded⟩
      have hFound' := hFound
      rw [disturb_namespaceToContext happens] at hFound'
      exact hSound.stored netns c hFound'

/-- What holds in every state that a run from a start state reaches. -/
structure Coherent (swarmNodeInfo : SwarmNodeInfo) (s : State) : Prop where
  logged : Machine.Logged s
  tracked : Machine.EachThread (stages swarmNodeInfo).Tracked s
  sound : Sound (view swarmNodeInfo s)

/-- A step of the machine is one of the cases of `Advances` on the view. -/
theorem Coherent.advances (h : Coherent swarmNodeInfo s) (hStep : (machine swarmNodeInfo).step s action = some t) :
    Advances swarmNodeInfo (view swarmNodeInfo s) action (view swarmNodeInfo t) :=
  advances_of_step h.logged h.tracked hStep

/-- Every step keeps the stages right and the view sound. -/
theorem Coherent.step (h : Coherent swarmNodeInfo s) (hStep : (machine swarmNodeInfo).step s action = some t) :
    Coherent swarmNodeInfo t :=
  ⟨Machine.logged_step (machine swarmNodeInfo) h.logged hStep, stages_step h.logged h.tracked hStep,
    h.sound.advances (h.advances hStep)⟩

/-- Every state of a run is coherent when its start is. -/
theorem Coherent.run {actions : List Action} (h : Coherent swarmNodeInfo s)
    (hRun : run (machine swarmNodeInfo).step s actions = some t) : Coherent swarmNodeInfo t := by
  have hMeets : Meets (machine swarmNodeInfo).step (fun _ _ => True) s actions :=
    meets_of_forall (fun _ _ => trivial) _ _
  exact invariant_run (fun _ _ _ hInv _ hStep => hInv.step hStep) h hMeets hRun

theorem stage_start {maps : Maps} {i : Nat} {call : Call} {stage : Stage}
    (h : (view swarmNodeInfo (start maps)).stage i = some (call, stage)) :
    i = 0 ∧ call = .listener ∧ stage = .reading := by
  obtain ⟨thread, hThread, hStage⟩ := Option.map_eq_some_iff.mp h
  obtain ⟨hZero, hListener⟩ := List.getElem?_eq_some_iff.mp hThread
  obtain rfl : i = 0 := Nat.lt_one_iff.mp hZero
  cases hListener
  cases hStage
  exact ⟨rfl, rfl, rfl⟩

theorem coherent_start (maps : Maps) : Coherent swarmNodeInfo (start maps) := by
  refine ⟨Machine.logged_of_nil rfl, fun i thread hThread => ?_, fun i call stage c hAt hOwn => ?_,
    fun _ _ hFound => ?_, fun i call stage data c hAt hTarget => ?_, fun i standing hAt => ?_⟩
  · obtain ⟨hZero, hListener⟩ := List.getElem?_eq_some_iff.mp hThread
    obtain rfl : i = 0 := Nat.lt_one_iff.mp hZero
    cases hListener
    exact keeps_listenForEvents
  · obtain ⟨rfl, rfl, rfl⟩ := stage_start hAt
    cases hOwn
  · cases hFound
  · obtain ⟨rfl, rfl, rfl⟩ := stage_start hAt
    cases hTarget
  · obtain ⟨rfl, _⟩ := stage_start hAt
    exact Nat.one_pos

end Monitoring

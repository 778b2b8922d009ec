import SwarmAutoscaler.Cluster.Growth
import SwarmAutoscaler.Cluster.Rise
import SwarmAutoscaler.Process.Track

/-! Why anything happens to a service. Whatever interleaves and whatever fails, a service is
changed only when a manager was asked about it or a packet has reached its port, and only
its own port stands for it in the tables of the nodes. -/
namespace Cluster

open Docker Process

/-- The first published port of a service. -/
def published (w : World) (id : String) : Option UInt32 :=
  (w.services id).bind fun service => service.endpoint.head?

/-- The thread was started from outside, or it is a goroutine that an "under" request to a
manager has started, or an event loop. -/
def Rooted (nodes : Nodes) (past : List Action) : Call → Prop
  | .request ip id direction => .invoke (.request ip id direction) ∈ past
  | .keepAlive ip id ch => .invoke (.keepAlive ip id ch) ∈ past ∨
      (.invoke (.request ip id "under") ∈ past ∧ (nodes.info ip).autoscalerManager = true)
  | .listener _ => True

/-- What can have caused a change of the service. -/
inductive Cause (nodes : Nodes) (origin : World) (past : List Action) (id : String) : Prop where
  | asked {ip direction : String} (invoked : .invoke (.request ip id direction) ∈ past)
      (manager : (nodes.info ip).autoscalerManager = true)
      (directed : direction = "over" ∨ direction = "under")
  | lapsed {ip : String} {ch : Nat} (rooted : Rooted nodes past (.keepAlive ip id ch))
  | woken {ip : String} {port : UInt32} (reached : .disturb (.packet ip port) ∈ past)
      (own : published origin id = some port)

/-- The count may have got to the largest one, from which "over" leads to 0. -/
def Wraps (origin : World) (past : List Action) (id : String) : Prop :=
  2 ^ 64 - 1 ≤ origin.count id + (past.map (Action.worth id)).sum

/-- What an answer tells, when the world is as the run so far has made it. -/
def Informed (origin : World) (past : List Action) (op : Op) : op.Answer → Prop :=
  match op with
  | .serviceInspect id => fun answer => ∀ service, answer = .ok service → service.id = id ∧
      service.endpoint.head? = published origin id ∧
      (service.spec.replicas? = some (-1) → Wraps origin past id)
  | .portToServiceIDLoad _ port => fun answer => ∀ id, answer = some id → published origin id = some port
  | .perfRead ip => fun answer => ∀ sample, answer = .ok sample →
      ∃ port : UInt32, sample = longBytes port.toNat ∧ .disturb (.packet ip port) ∈ past
  | _ => fun _ => True

/-- What an operation needs a reason for. Only a goroutine with a timer of the service may
set its count to 0, as long as the count is not the largest one. -/
def Justified (nodes : Nodes) (origin : World) (past : List Action) (call : Call) : Op → Prop
  | .serviceUpdate id _ spec => Cause nodes origin past id ∧
      (spec.replicas? = some 0 → Wraps origin past id ∨ ∃ ip ch, call = .keepAlive ip id ch)
  | .portToServiceIDStore _ port id => published origin id = some port
  | .goKeepAlive ip id ch => Rooted nodes past (.keepAlive ip id ch)
  | _ => True

section Code

variable {nodes : Nodes} {origin : World} {past : List Action} {id ip direction : String} {self : Instance}
  {service : Service} {replicas : UInt64} {call : Call}

/-- A sum is 0 only by wrapping around from the largest count. -/
theorem eq_max_of_add_one (h : replicas + 1 = 0) : replicas = -1 := by
  calc replicas = replicas + 1 - 1 := (UInt64.add_sub_cancel replicas 1).symm
    _ = 0 - 1 := by rw [h]

/-- The code has a reason for all that it does. -/
abbrev Reasoned {Value : Type} (nodes : Nodes) (origin : World) (past : List Action) (call : Call)
    (program : Code Value) : Prop :=
  program.Uses (Informed origin past) (Justified nodes origin past call)

/-- The update of `scaleTo` needs a cause, and for 0 it needs a wrap-around or the goroutine
of a keep-alive. -/
theorem reasoned_scaleTo (hCause : Cause nodes origin past id)
    (hZero : replicas = 0 → Wraps origin past id ∨ ∃ ip ch, call = .keepAlive ip id ch) :
    Reasoned nodes origin past call (scaleTo id replicas) := by
  refine uses_scaleTo trivial trivial fun version spec hSpec => ⟨hCause, fun hNone => hZero ?_⟩
  exact Option.some.inj (hSpec.symm.trans hNone)

/-- The constraints are written with a count that is not 0. -/
theorem reasoned_constrain {p : Prop} [Decidable p] {add : Bool} (hCause : Cause nodes origin past id)
    (hNamed : service.id = id) (hSome : p → service.spec.replicas? ≠ some 0) :
    Reasoned nodes origin past call
      (if p then updateServiceConstraints service add else .done (.ok ()) : Code Result) := by
  split
  · next h =>
      refine uses_updateServiceConstraints trivial fun version spec hSpec => ⟨hNamed ▸ hCause, fun hZero => ?_⟩
      exact absurd (hSpec.symm.trans hZero) (hSome h)
  · trivial

/-- An "over" request with a cause has a reason for all that it does; where its sum is 0,
the count that it read was the largest. -/
theorem reasoned_changeOver (hCause : Cause nodes origin past id) (hNamed : service.id = id)
    (hReplicas : service.spec.replicas? = some replicas)
    (hWraps : service.spec.replicas? = some (-1) → Wraps origin past id) :
    Reasoned nodes origin past call (changeOver self id service replicas) := by
  have hScale : Reasoned nodes origin past call (scaleTo id (replicas + 1)) := by
    refine reasoned_scaleTo hCause fun hZero => Or.inl (hWraps ?_)
    rw [hReplicas, eq_max_of_add_one hZero]
  refine Program.uses_bind (reasoned_constrain hCause hNamed fun hOne => ?_) fun result => ?_
  · rw [hReplicas, hOne]
    decide
  · cases result with
    | error err => trivial
    | ok _ =>
        refine ⟨trivial, fun found _ => ?_⟩
        cases found with
        | none => exact hScale
        | some ch => exact ⟨trivial, fun _ _ => ⟨trivial, fun _ _ => hScale⟩⟩

/-- An "under" request never writes 0, and a keep-alive that it starts has the request as
its root. -/
theorem reasoned_changeUnder (hCause : Cause nodes origin past id) (hNamed : service.id = id)
    (hReplicas : service.spec.replicas? = some replicas)
    (hRooted : ∀ ch, Rooted nodes past (.keepAlive self.ip id ch)) :
    Reasoned nodes origin past call (changeUnder self id service replicas) := by
  unfold changeUnder
  split
  · next hMany =>
      refine Program.uses_bind (reasoned_constrain hCause hNamed fun hOne => ?_) fun result => ?_
      · rw [hReplicas, eq_two_of_sub_one hOne]
        decide
      · cases result with
        | error err => trivial
        | ok _ =>
            refine reasoned_scaleTo hCause fun hZero => ?_
            have hOne : replicas = 1 := by simpa [hZero] using (UInt64.sub_add_cancel replicas 1).symm
            exact absurd hMany (by simp [hOne])
  · refine ⟨trivial, fun found _ => ?_⟩
    cases found with
    | true => trivial
    | false => exact ⟨trivial, fun ch _ => ⟨trivial, fun _ _ => ⟨hRooted ch, fun _ _ => trivial⟩⟩⟩

/-- A whole request, from the reasons for its direction; on a worker it does nothing. -/
theorem reasoned_changeServiceReplicas
    (hCause : (nodes.info ip).autoscalerManager = true → direction = "over" ∨ direction = "under" →
      Cause nodes origin past id)
    (hRooted : (nodes.info ip).autoscalerManager = true → direction = "under" →
      ∀ ch, Rooted nodes past (.keepAlive ip id ch)) :
    Reasoned nodes origin past call (changeServiceReplicas ⟨ip, nodes.info ip⟩ id direction) := by
  unfold changeServiceReplicas
  split
  · trivial
  · next hSelf =>
      have hManager : (nodes.info ip).autoscalerManager = true := by simpa using hSelf
      refine ⟨trivial, fun answer hAnswer => ?_⟩
      cases answer with
      | error err => trivial
      | ok service =>
          obtain ⟨hNamed, _, hWraps⟩ := hAnswer service rfl
          dsimp only
          cases hReplicas : service.spec.replicas? with
          | none => trivial
          | some replicas =>
              dsimp only
              split
              · next hOver => exact reasoned_changeOver (hCause hManager (Or.inl hOver)) hNamed hReplicas hWraps
              · split
                · next hUnder =>
                    exact reasoned_changeUnder (hCause hManager (Or.inr hUnder)) hNamed hReplicas
                      (hRooted hManager hUnder)
                · trivial

/-- The port that is entered in the tables is the one that the service publishes. -/
theorem reasoned_listenOnPort {port : UInt32} (hOwn : published origin id = some port) :
    Reasoned nodes origin past call (listenOnPort ip port id) :=
  uses_listenOnPort hOwn trivial

/-- The goroutine of a keep-alive with a root has a reason for its update to 0: it is the
keep-alive itself. -/
theorem reasoned_keepAliveAndScaleDown {ch : Nat} (hRooted : Rooted nodes past (.keepAlive self.ip id ch)) :
    Reasoned nodes origin past (.keepAlive self.ip id ch) (keepAliveAndScaleDown self id ch) := by
  refine ⟨trivial, fun ready _ => ?_⟩
  cases ready with
  | received => trivial
  | timer =>
      refine ⟨trivial, fun found _ => ?_⟩
      cases found with
      | false => trivial
      | true =>
          refine ⟨trivial, fun answer hAnswer => ?_⟩
          cases answer with
          | error err => trivial
          | ok service =>
              obtain ⟨_, hOwn, _⟩ := hAnswer service rfl
              dsimp only
              cases hEndpoint : service.endpoint with
              | nil => trivial
              | cons port rest =>
                  rw [hEndpoint] at hOwn
                  have hListen (other : String) :
                      Reasoned nodes origin past (.keepAlive self.ip id ch) (listenOnPort other port id) :=
                    reasoned_listenOnPort hOwn.symm
                  dsimp only
                  rw [Program.done_bind]
                  dsimp only
                  refine Program.uses_bind (hListen self.ip) fun result => ?_
                  cases result with
                  | error err => trivial
                  | ok _ =>
                      refine Program.uses_bind (uses_broadcast fun other => ?_) fun result => ?_
                      · exact uses_post trivial (fun _ => trivial) fun _ => hListen other
                      cases result with
                      | error err => trivial
                      | ok _ =>
                          have hScale : Reasoned nodes origin past (.keepAlive self.ip id ch) (scaleTo id 0) :=
                            reasoned_scaleTo (.lapsed hRooted) fun _ => Or.inr ⟨_, _, rfl⟩
                          refine Program.uses_bind hScale fun result => ?_
                          cases result with
                          | error err => trivial
                          | ok _ => exact ⟨trivial, fun _ _ => trivial⟩

/-- A turn past its lookup, from the cause for the service that the lookup named. -/
theorem reasoned_wakeUp {port : UInt32} (hCause : Cause nodes origin past id) :
    Reasoned nodes origin past call (wakeUp nodes ip port id) := by
  have hRemove (other : String) : Reasoned nodes origin past call (removePort other port) :=
    uses_removePort trivial trivial trivial
  refine Program.uses_bind (hRemove ip) fun _ => ?_
  refine Program.uses_bind (uses_broadcast fun other => ?_) fun _ => ?_
  · exact uses_post trivial (fun _ => trivial) fun _ => hRemove other
  unfold scaleBackUp
  split
  · exact reasoned_scaleTo hCause fun hZero => absurd hZero (by decide)
  · exact uses_post trivial (fun _ => trivial) fun _ => reasoned_changeServiceReplicas (fun _ _ => hCause)
      fun _ hUnder => absurd (show "over" = "under" from hUnder) (by decide)

/-- An event comes from a packet, and the table names a service with that port. -/
theorem reasoned_listenForEvents : Reasoned nodes origin past call (listenForEvents nodes ip) := by
  refine ⟨trivial, fun answer hAnswer => ?_⟩
  cases answer with
  | error err => trivial
  | ok rawSample =>
      obtain ⟨port, rfl, hReached⟩ := hAnswer rawSample rfl
      dsimp only
      split
      · rw [littleEndianUint32_longBytes]
        refine ⟨trivial, fun found hFound => ?_⟩
        cases found with
        | none => trivial
        | some id => exact reasoned_wakeUp (.woken hReached (hFound id rfl))
      · trivial

/-- The code of every call with a root has reasons for all that it does. -/
theorem reasoned_body {call : Call} (hRooted : Rooted nodes past call) :
    Reasoned nodes origin past call (body nodes call) := by
  cases call with
  | request ip id direction =>
      exact reasoned_changeServiceReplicas (fun hManager hDirected => .asked hRooted hManager hDirected)
        fun hManager hUnder ch => Or.inr ⟨hUnder ▸ hRooted, hManager⟩
  | keepAlive ip id ch => exact reasoned_keepAliveAndScaleDown hRooted
  | listener ip => exact reasoned_listenForEvents

end Code

section Growing

variable {nodes : Nodes} {origin : World} {past later : List Action} {id : String} {call : Call} {op : Op}
  {answer : op.Answer} (hLater : past <+: later)

include hLater

/-- A root stays a root, as the list of past actions only grows. -/
theorem Rooted.mono (h : Rooted nodes past call) : Rooted nodes later call := by
  cases call with
  | request ip id direction => exact hLater.subset h
  | keepAlive ip id ch =>
      exact h.imp (fun hMem => hLater.subset hMem) fun hAsked => ⟨hLater.subset hAsked.1, hAsked.2⟩
  | listener ip => trivial

/-- A cause stays a cause. -/
theorem Cause.mono (h : Cause nodes origin past id) : Cause nodes origin later id := by
  cases h with
  | asked invoked manager directed => exact .asked (hLater.subset invoked) manager directed
  | lapsed rooted => exact .lapsed (rooted.mono hLater)
  | woken reached own => exact .woken (hLater.subset reached) own

/-- What was asked for never becomes less. -/
theorem Wraps.mono (h : Wraps origin past id) : Wraps origin later id := by
  obtain ⟨rest, rfl⟩ := hLater
  rw [Wraps, List.map_append, List.sum_append]
  exact Nat.le_trans h (by omega)

/-- What an answer has told stays true. -/
theorem Informed.mono (h : Informed origin past op answer) : Informed origin later op answer := by
  cases op with
  | serviceInspect id =>
      intro service hAnswer
      obtain ⟨hNamed, hOwn, hWraps⟩ := h service hAnswer
      exact ⟨hNamed, hOwn, fun hMax => (hWraps hMax).mono hLater⟩
  | portToServiceIDLoad ip port => exact h
  | perfRead ip =>
      intro sample hAnswer
      obtain ⟨port, hSample, hReached⟩ := h sample hAnswer
      exact ⟨port, hSample, hLater.subset hReached⟩
  | _ => trivial

end Growing

/-- The thread has a root, and reasons for all that it will do, whatever else happens meanwhile. -/
def Sourced (nodes : Nodes) (origin : World) (past : List Action) (call : Call) (program : Code Result) : Prop :=
  Rooted nodes past call ∧ ∀ later, past <+: later → Reasoned nodes origin later call program

/-- The tables, the buffers and Docker are as the run so far can have made them. -/
structure Honest (nodes : Nodes) (origin : World) (past : List Action) (w : World) : Prop where
  named : ∀ id, ∀ service ∈ w.services id, service.id = id
  ports : ∀ id, published w id = published origin id
  own : ∀ ip port id, w.portToServiceID (ip, port) = some id → published origin id = some port
  events : ∀ ip, ∀ sample ∈ w.perf ip,
    ∃ port : UInt32, sample = longBytes port.toNat ∧ .disturb (.packet ip port) ∈ past
  changed : ∀ id, w.services id = origin.services id ∨ Cause nodes origin past id

section Step

variable {nodes : Nodes} {origin w w' : World} {past later : List Action} {s t : State} {action : Action} {i : Nat}
  {op : Op} {answer : op.Answer} {fail : Bool} {call : Call} {program : Code Result}

/-- What the run so far could make of the world, every longer run could. -/
theorem Honest.mono (h : Honest nodes origin past w) (hLater : past <+: later) : Honest nodes origin later w where
  named := h.named
  ports := h.ports
  own := h.own
  events ip sample hMem := by
    obtain ⟨port, hSample, hReached⟩ := h.events ip sample hMem
    exact ⟨port, hSample, hLater.subset hReached⟩
  changed id := (h.changed id).imp_right fun hCause => hCause.mono hLater

/-- A justified operation leaves the world honest. -/
theorem Honest.exec (h : Honest nodes origin past w) (hJustified : Justified nodes origin past call op)
    (hExec : Cluster.exec nodes i op fail w = some (answer, w')) : Honest nodes origin past w' := by
  have hEffect := effect_of_exec hExec
  have hEvents (ip : String) : ∀ sample ∈ w'.perf ip,
      ∃ port : UInt32, sample = longBytes port.toNat ∧ .disturb (.packet ip port) ∈ past := by
    rcases perf_of_exec hExec with ⟨hPerf, _⟩ | ⟨other, first, rest, _, hQueue, hPerf, _⟩
    · rw [hPerf]
      exact h.events ip
    · rw [hPerf]
      by_cases hSame : ip = other
      · subst hSame
        rw [Function.update_self]
        exact fun sample hMem => h.events ip sample (hQueue ▸ List.mem_cons_of_mem first hMem)
      · rw [Function.update_of_ne hSame]
        exact h.events ip
  have hNamed := named_of_effect hEffect h.named
  cases hEffect with
  | @update id version spec service stored current =>
      have hOther (other : String) (hApart : other ≠ id) :
          (w.setService id { service with version := version + 1, spec := spec }).services other =
            w.services other := by
        rw [World.setService_services, Function.update_of_ne hApart]
      refine ⟨hNamed, fun other => ?_, h.own, hEvents, fun other => ?_⟩
      · by_cases hSame : other = id
        · subst hSame
          rw [← h.ports, published, published, World.setService_services, Function.update_self, stored]
          rfl
        · rw [← h.ports, published, published, hOther other hSame]
      · by_cases hSame : other = id
        · exact Or.inr (hSame ▸ hJustified.1)
        · rw [hOther other hSame]
          exact h.changed other
  | portStore ip port id =>
      refine ⟨hNamed, h.ports, fun other port' id' hStored => ?_, hEvents, h.changed⟩
      by_cases hSame : (other, port') = (ip, port)
      · obtain ⟨rfl, rfl⟩ := Prod.mk.injEq .. ▸ hSame
        rw [World.setPortToServiceID_portToServiceID, Function.update_self] at hStored
        cases hStored
        exact hJustified
      · rw [World.setPortToServiceID_portToServiceID, Function.update_of_ne hSame] at hStored
        exact h.own other port' id' hStored
  | portDelete ip port =>
      refine ⟨hNamed, h.ports, fun other port' id' hStored => ?_, hEvents, h.changed⟩
      by_cases hSame : (other, port') = (ip, port)
      · rw [World.setPortToServiceID_portToServiceID, hSame, Function.update_self] at hStored
        cases hStored
      · rw [World.setPortToServiceID_portToServiceID, Function.update_of_ne hSame] at hStored
        exact h.own other port' id' hStored
  | _ => exact ⟨hNamed, h.ports, h.own, hEvents, h.changed⟩

/-- The answers that a thread gets tell what has happened. -/
theorem informed_of_exec (h : Honest nodes origin past w)
    (hGrown : ∀ id, w.count id ≤ origin.count id + (past.map (Action.worth id)).sum)
    (hExec : Cluster.exec nodes i op fail w = some (answer, w')) : Informed origin past op answer := by
  cases op with
  | serviceInspect id =>
      intro service hAnswer
      have hStored := (inspect_of_exec hExec).2 service hAnswer
      refine ⟨h.named id service hStored, ?_, fun hMax => ?_⟩
      · rw [← h.ports id, published, hStored]
        rfl
      · have hCount : w.count id = 2 ^ 64 - 1 := by
          rw [World.count, World.replicas, hStored, Option.bind_some, hMax]
          rfl
        rw [Wraps, ← hCount]
        exact hGrown id
  | portToServiceIDLoad ip port =>
      intro id hAnswer
      cases fail with
      | true => cases hExec
      | false =>
          cases hExec
          exact h.own ip port id hAnswer
  | perfRead ip =>
      intro sample hAnswer
      cases fail with
      | true =>
          cases hExec
          cases hAnswer
      | false =>
          simp only [Cluster.exec, perform, Bool.false_eq_true, ↓reduceIte] at hExec
          split at hExec
          · cases hExec
          · next first rest hQueue =>
              cases hExec
              cases hAnswer
              exact h.events ip sample (hQueue ▸ List.mem_cons_self ..)
  | _ => trivial

/-- A started thread with a root has reasons for the code of its call, whatever happens
before it runs. -/
theorem sourced_body (hRooted : Rooted nodes past call) : Sourced nodes origin past call (body nodes call) :=
  ⟨hRooted, fun _ hLater => reasoned_body (hRooted.mono hLater)⟩

/-- One step keeps the reasons of every thread: the answer to an operation tells the thread
what `Honest` and `Grown` say of the world, and a keep-alive that is started inherits its
root from the request. -/
theorem sourced_step (h : Machine.AllThreads (Sourced nodes origin past) s) (hLogged : Machine.Logged s)
    (hHonest : Honest nodes origin past s.world)
    (hGrown : ∀ id, s.world.count id ≤ origin.count id + (past.map (Action.worth id)).sum)
    (hStep : (machine nodes).step s action = some t) :
    Machine.AllThreads (Sourced nodes origin (past ++ [action])) t := by
  have hLater : past <+: past ++ [action] := List.prefix_append ..
  have hStill : Machine.AllThreads (Sourced nodes origin (past ++ [action])) s := fun i thread hThread =>
    ⟨(h i thread hThread).1.mono hLater, fun last hLast => (h i thread hThread).2 last (hLater.trans hLast)⟩
  have hExec : (machine nodes).AnswersWith (Informed origin (past ++ [action])) s action := by
    refine (machine nodes).answersWith_of_exec fun i fail call op next answer world _ _ hExec => ?_
    exact (informed_of_exec hHonest hGrown hExec).mono hLater
  have hAdmits : Machine.Admits (Rooted nodes (past ++ [action])) s action := by
    cases action with
    | invoke call =>
        have hMem : Action.invoke call ∈ past ++ [.invoke call] := by simp
        cases call with
        | request => exact hMem
        | keepAlive => exact Or.inl hMem
        | listener => trivial
    | step | meet | disturb => trivial
  have hBody (call : Call) (hRooted : Rooted nodes (past ++ [action]) call) :
      Sourced nodes origin (past ++ [action]) call (body nodes call) := sourced_body hRooted
  refine (machine nodes).allThreads_step hBody ?_ ?_ hLogged hExec ?_ hAdmits hStill hStep
  · intro call op next child hSourced hFork
    cases op with
    | goKeepAlive ip id ch =>
        cases hFork
        exact sourced_body (hSourced.2 _ List.prefix_rfl).1
    | _ => cases hFork
  · intro call op next answer hAnswer hSourced
    refine ⟨hSourced.1, fun last hLast => ?_⟩
    have hNext := (hSourced.2 last hLast).2 answer (hAnswer.mono hLast)
    revert hNext
    generalize next answer = program
    intro hNext
    cases program with
    | perform other rest => exact hNext
    | done result =>
        cases call with
        | listener ip => exact reasoned_listenForEvents
        | request | keepAlive => trivial
  · intro send receive found hMeet
    obtain ⟨ch, keepAlive, rfl, rfl⟩ := channel_of_meet hMeet
    exact ⟨trivial, trivial⟩

/-- One step keeps the world as the run can have made it: an operation changes only what its
thread has a reason to change, and a packet adds an event that the run itself contains. -/
theorem honest_step (h : Honest nodes origin past s.world)
    (hSourced : Machine.AllThreads (Sourced nodes origin past) s)
    (hStep : (machine nodes).step s action = some t) : Honest nodes origin (past ++ [action]) t.world := by
  have hLater : past <+: past ++ [action] := List.prefix_append ..
  cases (machine nodes).stepCase_of_step hStep with
  | invoke => exact h.mono hLater
  | @step i fail call op next answer world atOp answered =>
      exact (h.exec ((hSourced i _ atOp).2 past List.prefix_rfl).1 answered).mono hLater
  | meet => exact h.mono hLater
  | @disturb env world happens =>
      obtain ⟨ip, port⟩ := env
      have hStill := h.mono hLater
      simp only [machine, disturb] at happens
      split at happens
      · cases happens
        exact hStill
      · cases happens
        refine ⟨hStill.named, hStill.ports, hStill.own, fun other sample hMem => ?_, hStill.changed⟩
        by_cases hSame : other = ip
        · subst hSame
          dsimp only [World.setPerf] at hMem
          rw [Function.update_self] at hMem
          rcases List.mem_append.mp hMem with hOld | hNew
          · exact hStill.events other sample hOld
          · exact ⟨port, List.mem_singleton.mp hNew, by simp⟩
        · have hOld : sample ∈
              Function.update s.world.perf ip (s.world.perf ip ++ [longBytes port.toNat]) other := hMem
          rw [Function.update_of_ne hSame] at hOld
          exact hStill.events other sample hOld

end Step

section Timers

/-- The timer of the `select` on the channel fires. -/
def fires (ch : Nat) (op : Op) : op.Answer → Bool :=
  match op with
  | .selectTimer _ ch' => fun answer : SelectCase => ch' == ch && answer == .timer
  | _ => fun _ => false

/-- A keep-alive goroutine updates services only after its timer has fired. -/
def timer (ch : Nat) : Program.Protocol signature Bool Result where
  permits fired op := (∃ id version spec, op = Op.serviceUpdate id version spec) → fired = true
  advance fired op answer := fired || fires ch op answer
  ends _ _ := True

/-- For a keep-alive the phase says whether its timer has fired; nothing is tracked for the
other calls. -/
def timers : Tracking signature Call Bool Result where
  protocol
    | .keepAlive _ _ ch => timer ch
    | _ => Program.Protocol.free
  initial _ := false

variable {nodes : Nodes} {s t : State} {action : Action} {i ch : Nat} {ip id : String}

/-- Nothing is asked of what comes after the timer. -/
theorem follows_timer_fired (program : Code Result) : program.Follows (timer ch) anyAnswer true :=
  Program.follows_of_uses (fun _ _ _ => rfl) (fun op answer _ => Bool.true_or (fires ch op answer))
    (fun _ => trivial) (Program.uses_of_forall (fun _ => trivial) program)

/-- Before its timer has fired, a keep-alive makes no update: the wait is its first
operation. -/
theorem follows_timer {self : Instance} :
    (keepAliveAndScaleDown self id ch).Follows (timer ch) anyAnswer false := by
  refine ⟨fun hUpdate => ?_, fun ready _ => ?_⟩
  · obtain ⟨_, _, _, hUpdate⟩ := hUpdate
    cases hUpdate
  · cases ready with
    | received => trivial
    | timer =>
        have hFired : (ch == ch && SelectCase.timer == .timer) = true := by simp
        have hRest := @follows_timer_fired ch (scaleDown self id)
        rw [← hFired] at hRest
        exact hRest

/-- Every step keeps the tracking of the timers. -/
theorem timers_step (hLogged : Machine.Logged s) (h : Machine.EachThread timers.Tracked s)
    (hStep : (machine nodes).step s action = some t) : Machine.EachThread timers.Tracked t := by
  refine timers.tracked_step (machine nodes) (fun call => ?_) ?_ hLogged h hStep
  · cases call with
    | keepAlive ip id ch => exact follows_timer
    | request | listener => exact Program.follows_free _
  · intro call fired result program hEnds hAgain
    cases call with
    | listener ip => exact Program.follows_free _
    | request | keepAlive => cases hAgain

/-- The timer of thread `i` has fired. -/
def Fired (s : State) (i ch : Nat) : Prop :=
  ∃ keepAlive result, ⟨i, Op.selectTimer keepAlive ch, SelectCase.timer, result⟩ ∈ s.log

/-- The phase says that the timer has fired only where the log has the event. -/
theorem fired_of_phase (h : timers.phase s.log i (.keepAlive ip id ch) = true) : Fired s i ch := by
  obtain hNever | ⟨⟨thread, op, answer, result⟩, hMem, hThread, hFires⟩ := phaseOf_once.mp h
  · cases hNever
  · cases op with
    | selectTimer keepAlive other =>
        obtain ⟨hChannel, hTimer⟩ := Bool.and_eq_true_iff.mp hFires
        cases hThread
        cases eq_of_beq hChannel
        cases eq_of_beq hTimer
        exact ⟨keepAlive, result, hMem⟩
    | _ => cases hFires

end Timers

/-- Services are stored under their IDs, the tables name services with the port as their
first one, and no event waits. -/
structure Coherent (w : World) : Prop where
  named : ∀ id, ∀ service ∈ w.services id, service.id = id
  own : ∀ ip port id, w.portToServiceID (ip, port) = some id → published w id = some port
  empty : ∀ ip, w.perf ip = []

/-- What every run keeps to: there are reasons for all that the threads will do, and the
world is as the run so far can have made it. -/
structure Explained (nodes : Nodes) (origin : World) (past : List Action) (s : State) : Prop where
  logged : Machine.Logged s
  timed : Machine.EachThread timers.Tracked s
  sourced : Machine.AllThreads (Sourced nodes origin past) s
  honest : Honest nodes origin past s.world
  grown : ∀ id, Grown nodes id (origin.count id + (past.map (Action.worth id)).sum) s

section Runs

variable {nodes : Nodes} {w : World} {actions : List Action} {s t : State} {action : Action} {id : String}

/-- One step of the whole invariant, from the step lemmas of its five parts. -/
theorem explained_step (h : Explained nodes w actions s) (hStep : (machine nodes).step s action = some t) :
    Explained nodes w (actions ++ [action]) t where
  logged := (machine nodes).logged_step h.logged hStep
  timed := timers_step h.logged h.timed hStep
  sourced := sourced_step h.sourced h.logged h.honest (fun id => (h.grown id).count_le) hStep
  honest := honest_step h.honest h.sourced hStep
  grown id := by
    rw [List.map_append, List.sum_append, List.map_singleton, List.sum_singleton, ← Nat.add_assoc]
    exact grown_step (h.grown id) hStep

/-- A coherent start explains itself. -/
theorem explained_start (hCoherent : Coherent w) : Explained nodes w [] (start nodes w) where
  logged := Machine.logged_of_nil rfl
  timed i thread hThread := by
    obtain ⟨ip, _, rfl⟩ := List.mem_map.mp (List.mem_of_getElem? hThread)
    exact Program.follows_free _
  sourced i thread hThread := by
    obtain ⟨ip, _, rfl⟩ := List.mem_map.mp (List.mem_of_getElem? hThread)
    have hRooted : Rooted nodes [] (.listener ip) := trivial
    exact sourced_body hRooted
  honest :=
    { named := hCoherent.named
      ports := fun _ => rfl
      own := hCoherent.own
      events := fun ip sample hMem => by
        have hNone : sample ∈ w.perf ip := hMem
        rw [hCoherent.empty ip] at hNone
        cases hNone
      changed := fun _ => Or.inl rfl }
  grown id := grown_start hCoherent.named hCoherent.empty nodes id

/-- Every reached state is explained by the actions that led to it. -/
theorem explained_run (hCoherent : Coherent w) (hRun : run (machine nodes).step (start nodes w) actions = some s) :
    Explained nodes w actions s :=
  history_run (fun _ _ _ _ => explained_step) (explained_start hCoherent) hRun

/-- A service that is not as it was has been changed for a reason of its own: a request for
it to a manager, a timer that such a request has started, or a packet to its port. -/
theorem cause_of_changed (hCoherent : Coherent w)
    (hRun : run (machine nodes).step (start nodes w) actions = some s)
    (hChanged : s.world.services id ≠ w.services id) :
    Cause nodes w actions id :=
  ((explained_run hCoherent hRun).honest.changed id).resolve_left hChanged

/-- The tables of the nodes never name a service for a port that is not its own. -/
theorem published_of_portToServiceID {ip : String} {port : UInt32} (hCoherent : Coherent w)
    (hRun : run (machine nodes).step (start nodes w) actions = some s)
    (hStored : s.world.portToServiceID (ip, port) = some id) : published s.world id = some port :=
  have hHonest := (explained_run hCoherent hRun).honest
  (hHonest.ports id).trans (hHonest.own ip port id hStored)

/-- Thread `i` is the goroutine of a timer of the service that has fired, and sets the count
to 0 next. -/
structure Expired (s : State) (i : Nat) (ip id : String) (ch : Nat) : Prop where
  fired : Fired s i ch
  updates : ∃ version spec next, spec.replicas? = some 0 ∧
    s.threads[i]? = some ⟨.keepAlive ip id ch, .perform (Op.serviceUpdate id version spec) next⟩

/-- Only a goroutine whose timer has fired takes the count to 0. -/
theorem expired_of_step (h : Explained nodes w actions s)
    (hSmall : ¬ Wraps w actions id) (hBefore : s.world.replicas id ≠ some 0)
    (hStep : (machine nodes).step s action = some t) (hAfter : t.world.replicas id = some 0) :
    ∃ i fail ip ch, action = .step i fail ∧ Rooted nodes actions (.keepAlive ip id ch) ∧ Expired s i ip id ch := by
  cases (machine nodes).stepCase_of_step hStep with
  | invoke => exact absurd hAfter hBefore
  | meet => exact absurd hAfter hBefore
  | disturb happens =>
      rw [World.replicas, (disturb_eq happens).2] at hAfter
      exact absurd hAfter hBefore
  | @step i fail call op next answer world atOp answered =>
      cases hOp : op.updateOf id with
      | none =>
          have hSame := services_of_effect (effect_of_exec answered) hOp
          rw [Machine.resume_world, World.replicas, hSame] at hAfter
          exact absurd hAfter hBefore
      | some version =>
          obtain ⟨spec, rfl⟩ := Op.updateOf_eq_some_iff.mp hOp
          obtain ⟨hRooted, hReasoned⟩ := h.sourced i _ atOp
          obtain ⟨_, _, service, _, hWorld⟩ | ⟨_, _, hWorld⟩ := update_of_exec answered
          · have hZero : spec.replicas? = some 0 := by
              rwa [Machine.resume_world, hWorld, replicas_setService] at hAfter
            obtain ⟨ip, ch, rfl⟩ := ((hReasoned actions List.prefix_rfl).1.2 hZero).resolve_left hSmall
            have hFired := Tracking.Tracked.permits timers h.timed atOp ⟨id, version, spec, rfl⟩
            exact ⟨i, fail, ip, ch, rfl, hRooted, fired_of_phase hFired, version, spec, next, hZero, atOp⟩
          · rw [Machine.resume_world, hWorld] at hAfter
            exact absurd hAfter hBefore

/-- A service that is put to sleep is put to sleep by a timer, which was started from outside
or by an "under" request for it to a manager: the timer has fired, its goroutine sets the
count to 0, and there it stays. -/
theorem rooted_of_asleep (hCoherent : Coherent w) (hAwake : w.replicas id ≠ some 0)
    (hSmall : w.count id + (actions.map (Action.worth id)).sum < 2 ^ 64 - 1)
    (hRun : run (machine nodes).step (start nodes w) actions = some s) (hAsleep : s.world.replicas id = some 0) :
    ∃ first i fail second before after ip ch, actions = first ++ .step i fail :: second ∧
      run (machine nodes).step (start nodes w) first = some before ∧ before.world.replicas id ≠ some 0 ∧
      Rooted nodes first (.keepAlive ip id ch) ∧ Expired before i ip id ch ∧
      (machine nodes).step before (.step i fail) = some after ∧
      Throughout (machine nodes).step (fun s => s.world.replicas id = some 0) after second := by
  have hEntry := @last_entry _ _ _ (fun s : State => s.world.replicas id = some 0) _ _ _ hRun hAsleep
  obtain ⟨first, action, second, before, after, rfl, hFirst, hBefore, hStep, hStays⟩ :=
    hEntry.resolve_left fun hAlways => hAwake hAlways.at_start
  have hFew : ¬ Wraps w first id := fun hWraps => by
    have hLater := hWraps.mono (List.prefix_append first (action :: second))
    rw [Wraps] at hLater
    omega
  obtain ⟨i, fail, ip, ch, rfl, hRooted, hExpired⟩ :=
    expired_of_step (explained_run hCoherent hFirst) hFew hBefore hStep hStays.at_start
  exact ⟨first, i, fail, second, before, after, ip, ch, rfl, hFirst, hBefore, hRooted, hExpired, hStep, hStays⟩

end Runs

/-- The start with one running service and empty tables is coherent. -/
theorem coherent_awake (replicas : UInt64) : Coherent (awake (web replicas)) where
  named id service h := by
    by_cases hSame : id = "web"
    · subst hSame
      cases h
      rfl
    · have hNone : Function.update (fun _ => none) "web" (some (web replicas)) id = some service := h
      rw [Function.update_of_ne hSame] at hNone
      cases hNone
  own _ _ _ h := by cases h
  empty _ := rfl

/-- The service is asked about and goes to sleep. -/
def earlyNight : List Action := .invoke (.request "manager" "web" "under") :: bedtime

/-- A service that sleeps now and did not sleep at the start has been changed. -/
theorem services_ne_of_asleep {w origin : World} {id : String} (hAsleep : w.replicas id = some 0)
    (hAwake : origin.replicas id ≠ some 0) : w.services id ≠ origin.services id := by
  intro hSame
  rw [World.replicas, hSame] at hAsleep
  exact hAwake hAsleep

/-- The night changes the service, and there is a cause. -/
theorem cause_of_changed_earlyNight :
    ∃ s, run (machine pair).step (start pair (awake (web 1))) earlyNight = some s ∧
      s.world.services "web" ≠ (awake (web 1)).services "web" ∧ Cause pair (awake (web 1)) earlyNight "web" := by
  have hRun : run (machine pair).step (start pair (awake (web 1))) earlyNight = some _ := rfl
  have hAwake : (awake (web 1)).replicas "web" ≠ some 0 := by decide
  exact ⟨_, hRun, services_ne_of_asleep rfl hAwake,
    cause_of_changed (coherent_awake 1) hRun (services_ne_of_asleep rfl hAwake)⟩

/-- While the service sleeps, the worker's table has its port. -/
theorem published_of_portToServiceID_earlyNight :
    ∃ s, run (machine pair).step (start pair (awake (web 1))) earlyNight = some s ∧
      s.world.portToServiceID ("worker", 80) = some "web" ∧ published s.world "web" = some 80 := by
  have hRun : run (machine pair).step (start pair (awake (web 1))) earlyNight = some _ := rfl
  exact ⟨_, hRun, rfl, @published_of_portToServiceID pair _ _ _ "web" "worker" 80 (coherent_awake 1) hRun rfl⟩

/-- It sleeps because it was asked about and its timer fired. -/
theorem rooted_of_asleep_earlyNight :
    ∃ s, run (machine pair).step (start pair (awake (web 1))) earlyNight = some s ∧
      s.world.replicas "web" = some 0 ∧
      ∃ first i fail second before after ip ch, earlyNight = first ++ .step i fail :: second ∧
        run (machine pair).step (start pair (awake (web 1))) first = some before ∧
        before.world.replicas "web" ≠ some 0 ∧ Rooted pair first (.keepAlive ip "web" ch) ∧
        Expired before i ip "web" ch ∧ (machine pair).step before (.step i fail) = some after ∧
        Throughout (machine pair).step (fun s => s.world.replicas "web" = some 0) after second := by
  have hRun : run (machine pair).step (start pair (awake (web 1))) earlyNight = some _ := rfl
  exact ⟨_, hRun, rfl, rooted_of_asleep (coherent_awake 1) (by decide) (by decide) hRun rfl⟩

end Cluster

import SwarmAutoscaler.Cluster.Footprint
import SwarmAutoscaler.Cluster.Request

/-! Where every thread of a manager stands with respect to its keep-alive table, and what
it means that the table is used in order: one thread at a time is responsible for the
entry of a service. -/
namespace Cluster

open Docker Process

/-- Where a thread stands with respect to the keep-alive table of the manager. -/
inductive Stage where
  | request (direction : String) (point : Point)
  /-- a keep-alive goroutine in its `select` -/
  | elapsing (ch : Nat)
  /-- its timer has fired, the update to 0 is still before it -/
  | closing (ch : Nat)
  /-- it has set the replicas to 0 and is about to delete the entry -/
  | deleting
  | finished
  | listening

/-- A request that is going to write a count it has computed before, other than 1. -/
def Stage.contends : Stage → Bool
  | .request direction (.committed newReplicas) | .request direction (.writing _ newReplicas) =>
      direction == "over" || decide (1 < newReplicas)
  | _ => false

/-- The channel of a keep-alive that has been entered and may still scale to 0. -/
def Stage.awaited : Stage → Option Nat
  | .request _ (.started ch) | .elapsing ch | .closing ch => some ch
  | _ => none

/-- The thread is the one to delete the entry, or its goroutine will be. -/
def Stage.holds : Stage → Bool
  | .request _ (.cancelling _) | .deleting => true
  | stage => stage.awaited.isSome

/-- A keep-alive that is awaited holds the entry of the table. -/
theorem Stage.holds_of_awaited {stage : Stage} {ch : Nat} (h : stage.awaited = some ch) :
    stage.holds = true := by
  cases stage with
  | request direction point => cases point with
      | started ch => rfl
      | _ => cases h
  | elapsing | closing => rfl
  | deleting | finished | listening => cases h

/-- Operations on the keep-alive table and on channels. -/
def Op.entering : Op → Bool
  | .keepAliveOpsSet _ _ _ | .keepAliveOpsDelete _ _ | .goKeepAlive _ _ _ => true
  | .chanSend _ | .selectTimer _ _ => true
  | _ => false

/-- What a thread may do at its stage, by the kind of the call. -/
def stagePermits (nodes : Nodes) (call : Call) (stage : Stage) (op : Op) : Prop :=
  match call, stage with
  | .request ip serviceID direction, .request d point => d = direction ∧ Point.permits ip serviceID point op
  | .keepAlive _ _ ch, .elapsing ch' => ch' = ch ∧ ∃ keepAlive, op = .selectTimer keepAlive ch
  | .keepAlive _ _ ch, .closing ch' => ch' = ch ∧ op.entering = false
  | .keepAlive ip serviceID _, .deleting => op = .keepAliveOpsDelete ip serviceID
  | .listener ip, .listening => (nodes.info ip).autoscalerManager = true → op.entering = false
  | _, _ => False

/-- Where the answer to an operation takes a thread. -/
def Stage.advance (stage : Stage) (op : Op) : op.Answer → Stage :=
  match stage, op with
  | .request direction point, op => fun answer => .request direction (point.advance direction op answer)
  | .elapsing ch, .selectTimer _ _ => fun
      | .timer => .closing ch
      | .received => .finished
  | .closing _, .serviceUpdate _ _ _ => fun
      | .ok _ => .deleting
      | .error _ => .finished
  | .deleting, _ => fun _ => .finished
  | stage, _ => fun _ => stage

/-- A request ends where its protocol says, an event loop only where it starts over. -/
def stageEnds : Call → Stage → Result → Prop
  | .request _ _ _, .request _ point, result => point.ends result
  | .keepAlive _ _ _, _, _ | .listener _, .listening, _ => True
  | _, _, _ => False

/-- The stage of every thread, read off the log. -/
def stages (nodes : Nodes) : Tracking signature Call Stage Result where
  protocol call := ⟨stagePermits nodes call, Stage.advance, stageEnds call⟩
  initial
    | .request _ _ direction => .request direction .fresh
    | .keepAlive _ _ ch => .elapsing ch
    | .listener _ => .listening

variable {nodes : Nodes} {ip serviceID direction : String}

/-- A request keeps to its stages, which are the points of its protocol. -/
theorem follows_stages_request : (changeServiceReplicas ⟨ip, nodes.info ip⟩ serviceID direction).Follows
    ((stages nodes).protocol (.request ip serviceID direction)) anyAnswer (.request direction .fresh) :=
  Program.Follows.embed (Stage.request direction) (fun _ _ h => ⟨rfl, h⟩) (fun _ _ _ _ => rfl)
    (fun _ _ h => h) follows_request

/-- Operations that leave the stage of a closing goroutine and of a listener as it is. -/
def Aside (op : Op) : Prop := op.entering = false ∧ ∀ id, op.updateOf id = none

/-- A part of the timer's end that touches neither the service nor the keep-alive table. -/
theorem follows_aside {Value : Type} {ch : Nat} {program : Code Value} {rest : Value → Code Result}
    (hUses : program.Uses anyAnswer Aside)
    (hRest : ∀ value, (rest value).Follows
      ((stages nodes).protocol (.keepAlive ip serviceID ch)) anyAnswer (.closing ch)) :
    (program.bind rest).Follows ((stages nodes).protocol (.keepAlive ip serviceID ch)) anyAnswer
      (.closing ch) := by
  apply Program.follows_bind
  have hPermits (op : Op) (hOp : Aside op) : stagePermits nodes (.keepAlive ip serviceID ch) (.closing ch) op :=
    ⟨rfl, hOp.1⟩
  refine Program.follows_of_uses hPermits (fun op answer hOp => ?_) hRest hUses
  cases op with
  | serviceUpdate id version spec => exact absurd (hOp.2 id) (by simp [Op.updateOf])
  | _ => rfl

/-- To listen on a port touches neither the service nor the keep-alive table. -/
theorem uses_listenOnPort_aside {port : UInt32} : (listenOnPort ip port serviceID).Uses anyAnswer Aside :=
  uses_listenOnPort ⟨rfl, fun _ => rfl⟩ ⟨rfl, fun _ => rfl⟩

/-- The end of a timer stays at its stage up to its update to 0. -/
theorem follows_scaleDown {ch : Nat} {self : Instance} : (scaleDown self serviceID).Follows
    ((stages nodes).protocol (.keepAlive self.ip serviceID ch)) anyAnswer (.closing ch) := by
  refine ⟨⟨rfl, rfl⟩, fun found _ => ?_⟩
  cases found with
  | false => trivial
  | true =>
      apply follows_aside (uses_getPublishedPort ⟨rfl, fun _ => rfl⟩)
      intro result
      cases result with
      | error err => trivial
      | ok port =>
          apply follows_aside uses_listenOnPort_aside
          intro result
          cases result with
          | error err => trivial
          | ok _ =>
              apply follows_aside (uses_broadcast fun ip =>
                uses_post ⟨rfl, fun _ => rfl⟩ (fun _ => ⟨rfl, fun _ => rfl⟩)
                  fun _ => uses_listenOnPort_aside)
              intro result
              cases result with
              | error err => trivial
              | ok _ =>
                  refine ⟨⟨rfl, rfl⟩, fun answer _ => ?_⟩
                  cases answer with
                  | error err => trivial
                  | ok service =>
                      dsimp only
                      split
                      · exact ⟨⟨rfl, rfl⟩, fun never => nomatch never⟩
                      · refine ⟨⟨rfl, rfl⟩, fun answer _ => ?_⟩
                        cases answer with
                        | error err => trivial
                        | ok _ => exact ⟨rfl, fun _ _ => trivial⟩

/-- The goroutine of a keep-alive keeps to its stages. -/
theorem follows_stages_keepAlive {ch : Nat} : (keepAliveAndScaleDown ⟨ip, nodes.info ip⟩ serviceID ch).Follows
    ((stages nodes).protocol (.keepAlive ip serviceID ch)) anyAnswer (.elapsing ch) := by
  refine ⟨⟨rfl, _, rfl⟩, fun ready _ => ?_⟩
  cases ready with
  | received => trivial
  | timer => exact @follows_scaleDown nodes serviceID ch ⟨ip, nodes.info ip⟩

/-- On a manager no event loop enters a keep-alive in the table: only "under" requests
do. -/
theorem uses_listenForEvents : (listenForEvents nodes ip).Uses anyAnswer
    fun op : Op => (nodes.info ip).autoscalerManager = true → op.entering = false := by
  refine ⟨fun _ => rfl, fun answer _ => ?_⟩
  cases answer with
  | error err => trivial
  | ok rawSample =>
      dsimp only
      split
      · refine ⟨fun _ => rfl, fun found _ => ?_⟩
        cases found with
        | none => trivial
        | some id =>
            have removes (ip' : String) : (removePort ip' (littleEndianUint32 (rawSample.take 4))).Uses anyAnswer
                fun op : Op => (nodes.info ip).autoscalerManager = true → op.entering = false :=
              uses_removePort (fun _ => rfl) (fun _ => rfl) (fun _ => rfl)
            apply Program.uses_bind (removes ip)
            intro _
            apply Program.uses_bind (uses_broadcast fun ip' => uses_post (fun _ => rfl) (fun _ _ => rfl)
              fun _ => removes ip')
            intro _
            unfold scaleBackUp
            split
            · exact uses_scaleTo (fun _ => rfl) (fun _ => rfl) fun _ _ _ _ => rfl
            · next hWorker => exact Program.uses_of_forall (fun _ hManager => absurd hManager hWorker) _
      · trivial

/-- An event loop keeps to its stages, as it has only one. -/
theorem follows_stages_listener : (listenForEvents nodes ip).Follows
    ((stages nodes).protocol (.listener ip)) anyAnswer .listening :=
  Program.follows_of_uses (fun _ hOp => hOp) (fun op _ _ => by cases op <;> rfl) (fun _ => trivial)
    uses_listenForEvents

variable {s t : State} {action : Action}

/-- Every step keeps the tracking of the stages. -/
theorem stages_step (hLogged : Machine.Logged s) (h : Machine.EachThread (stages nodes).Tracked s)
    (hStep : (machine nodes).step s action = some t) : Machine.EachThread (stages nodes).Tracked t := by
  refine (stages nodes).tracked_step (machine nodes) (fun call => ?_) ?_ hLogged h hStep
  · cases call with
    | request ip serviceID direction => exact follows_stages_request
    | keepAlive ip serviceID ch => exact follows_stages_keepAlive
    | listener ip => exact follows_stages_listener
  · intro call stage result program hEnds hAgain
    cases call with
    | listener ip =>
        cases hAgain
        cases stage with
        | listening => exact follows_stages_listener
        | _ => exact hEnds.elim
    | request | keepAlive => cases hAgain

section Holder

/-- One holder of the entry at most, and while a keep-alive is awaited, a small count,
no demand and no contender. `running` gives the stage of every running thread. -/
structure Orderly (running : Nat → Option Stage) (entered atMostOne : Prop) (undemanded : Nat → Prop) :
    Prop where
  sole : ∀ i j a b, running i = some a → running j = some b → a.holds = true → b.holds = true → i = j
  entered : ∀ i a, running i = some a → a.holds = true → entered
  awaited : ∀ i a ch, running i = some a → a.awaited = some ch →
    atMostOne ∧ undemanded ch ∧ ∀ j b, running j = some b → b.contends = false

namespace Orderly

variable {running running' : Nat → Option Stage} {entered entered' atMostOne atMostOne' : Prop}
  {undemanded undemanded' : Nat → Prop} {i : Nat} {a a' : Stage}

/-- A thread moves on and does not become a holder. -/
theorem move (h : Orderly running entered atMostOne undemanded) (hAt : running i = some a)
    (hOrigin : ∀ j b, running' j = some b → (j = i ∧ b = a') ∨ (j ≠ i ∧ running j = some b))
    (hHolds : a'.holds = true → a.holds = true)
    (hAwaited : ∀ ch, a'.awaited = some ch → a.awaited = some ch)
    (hEntered : ∀ j b, running j = some b → b.holds = true → (j = i → a'.holds = true) → entered → entered')
    (hQuiet : ∀ j b ch, running j = some b → b.awaited = some ch → (j = i → a'.awaited = some ch) →
      a'.contends = false ∧ atMostOne' ∧ undemanded' ch) :
    Orderly running' entered' atMostOne' undemanded' where
  sole j k b c hj hk hb hc := by
    rcases hOrigin j b hj with ⟨rfl, rfl⟩ | ⟨_, hOldJ⟩ <;> rcases hOrigin k c hk with ⟨rfl, rfl⟩ | ⟨_, hOldK⟩
    · rfl
    · exact h.sole _ _ _ _ hAt hOldK (hHolds hb) hc
    · exact h.sole _ _ _ _ hOldJ hAt hb (hHolds hc)
    · exact h.sole _ _ _ _ hOldJ hOldK hb hc
  entered j b hj hb := by
    rcases hOrigin j b hj with ⟨rfl, rfl⟩ | ⟨hOther, hOld⟩
    · exact hEntered j a hAt (hHolds hb) (fun _ => hb) (h.entered j a hAt (hHolds hb))
    · exact hEntered j b hOld hb (fun hSame => absurd hSame hOther) (h.entered j b hOld hb)
  awaited j b ch hj hb := by
    have hBefore : ∃ c, running j = some c ∧ c.awaited = some ch ∧ (j = i → a'.awaited = some ch) := by
      rcases hOrigin j b hj with ⟨rfl, rfl⟩ | ⟨hOther, hOld⟩
      · exact ⟨a, hAt, hAwaited ch hb, fun _ => hb⟩
      · exact ⟨b, hOld, hb, fun hSame => absurd hSame hOther⟩
    obtain ⟨c, hc, hAwaits, hSelf⟩ := hBefore
    obtain ⟨hContends, hSmall, hUndemanded⟩ := hQuiet j c ch hc hAwaits hSelf
    refine ⟨hSmall, hUndemanded, fun k d hk => ?_⟩
    rcases hOrigin k d hk with ⟨rfl, rfl⟩ | ⟨_, hOld⟩
    · exact hContends
    · exact (h.awaited j c ch hc hAwaits).2.2 k d hOld

/-- A thread becomes the holder when there is none. -/
theorem enter (h : Orderly running entered atMostOne undemanded) (hNone : ¬ entered)
    (hOrigin : ∀ j b, running' j = some b → (j = i ∧ b = a') ∨ (j ≠ i ∧ running j = some b))
    (hEntered : entered') (hContends : a'.contends = false)
    (hOthers : ∀ j b, running j = some b → b.contends = false)
    (hAwaited : ∀ ch, a'.awaited = some ch → atMostOne' ∧ undemanded' ch) :
    Orderly running' entered' atMostOne' undemanded' := by
  have only (j : Nat) (b : Stage) (hj : running' j = some b) (hb : b.holds = true) : j = i ∧ b = a' := by
    rcases hOrigin j b hj with hSelf | ⟨_, hOld⟩
    · exact hSelf
    · exact absurd (h.entered j b hOld hb) hNone
  constructor
  · intro j k b c hj hk hb hc
    rw [(only j b hj hb).1, (only k c hk hc).1]
  · intro _ _ _ _
    exact hEntered
  · intro j b ch hj hb
    obtain ⟨rfl, rfl⟩ := only j b hj (Stage.holds_of_awaited hb)
    obtain ⟨hSmall, hUndemanded⟩ := hAwaited ch hb
    refine ⟨hSmall, hUndemanded, fun k c hk => ?_⟩
    rcases hOrigin k c hk with ⟨_, rfl⟩ | ⟨_, hOld⟩
    · exact hContends
    · exact hOthers k c hOld

/-- The holder hands over to another thread; threads that neither hold nor contend may
come and go. -/
theorem pass {y : Nat} {b : Stage} (h : Orderly running entered atMostOne undemanded)
    (hAt : running i = some a) (hHolds : a.holds = true)
    (hOrigin : ∀ k c, running' k = some c → (c.holds = false ∧ c.contends = false) ∨ (k = y ∧ c = b) ∨
      (k ≠ i ∧ running k = some c))
    (hContends : b.contends = false) (hAwaited : ∀ ch, b.awaited = some ch → a.awaited = some ch)
    (hUndemanded : ∀ ch, b.awaited = some ch → undemanded ch → undemanded' ch) :
    Orderly running' entered atMostOne undemanded' := by
  have only (k : Nat) (c : Stage) (hk : running' k = some c) (hc : c.holds = true) : k = y ∧ c = b := by
    rcases hOrigin k c hk with ⟨hNot, _⟩ | hSelf | ⟨hOther, hOld⟩
    · exact absurd hc (by simp [hNot])
    · exact hSelf
    · exact absurd (h.sole _ _ _ _ hOld hAt hc hHolds) hOther
  constructor
  · intro j k c d hj hk hc hd
    rw [(only j c hj hc).1, (only k d hk hd).1]
  · intro _ _ _ _
    exact h.entered i a hAt hHolds
  · intro k c ch hk hc
    obtain ⟨rfl, rfl⟩ := only k c hk (Stage.holds_of_awaited hc)
    obtain ⟨hSmall, hClean, hOthers⟩ := h.awaited i a ch hAt (hAwaited ch hc)
    refine ⟨hSmall, hUndemanded ch hc hClean, fun l d hl => ?_⟩
    rcases hOrigin l d hl with ⟨_, hNot⟩ | ⟨_, rfl⟩ | ⟨_, hOld⟩
    · exact hNot
    · exact hContends
    · exact hOthers l d hOld

/-- Threads that neither hold nor contend come and go. -/
theorem keep (h : Orderly running entered atMostOne undemanded)
    (hOrigin : ∀ k c, running' k = some c → (c.holds = false ∧ c.contends = false) ∨ running k = some c)
    (hUndemanded : ∀ ch, undemanded ch → undemanded' ch) :
    Orderly running' entered atMostOne undemanded' := by
  have old (k : Nat) (c : Stage) (hk : running' k = some c) (hc : c.holds = true) : running k = some c := by
    rcases hOrigin k c hk with ⟨hNot, _⟩ | hOld
    · exact absurd hc (by simp [hNot])
    · exact hOld
  constructor
  · intro j k c d hj hk hc hd
    exact h.sole _ _ _ _ (old j c hj hc) (old k d hk hd) hc hd
  · intro k c hk hc
    exact h.entered k c (old k c hk hc) hc
  · intro k c ch hk hc
    obtain ⟨hSmall, hClean, hOthers⟩ := h.awaited k c ch (old k c hk (Stage.holds_of_awaited hc)) hc
    refine ⟨hSmall, hUndemanded ch hClean, fun l d hl => ?_⟩
    rcases hOrigin l d hl with ⟨_, hNot⟩ | hOld
    · exact hNot
    · exact hOthers l d hOld

end Orderly

end Holder

end Cluster

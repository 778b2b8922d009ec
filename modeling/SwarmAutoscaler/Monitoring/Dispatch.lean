import SwarmAutoscaler.Monitoring.Stage
import SwarmAutoscaler.Process.Run

/-! One event loop serves all namespaces. It looks whether a context is done and then waits
until the Monitor takes the signal, so a Monitor that stops listening in between leaves it
waiting for good. -/
namespace Monitoring

open Cluster (SwarmNodeInfo)
open Kernel (Data Maps)
open Process

/-- The context to whose Monitor an event loop is sending. -/
def sendsTo : Call × Stage → Option Nat
  | (.listener, .sending _ ctx) => some ctx
  | _ => none

/-- The event loop, which is thread 0, waits for the Monitor of a context. -/
def Waits (v : View) (ctx : Nat) : Prop := (v.stage 0).bind sendsTo = some ctx

/-- The Monitor of a context has returned. -/
def Returned (v : View) (ctx : Nat) : Prop := (v.stage ctx).map Prod.snd = some .returned

/-- The event loop does not wait for a Monitor that has returned. -/
def Unwedged (v : View) : Prop := ∀ ctx, Waits v ctx → ¬ Returned v ctx

/-- A Monitor takes `Done` only while the event loop does not wait for it; the event loop
finds a context not done only while its Monitor has not returned. -/
def InTime (v : View) : Stage → Prop
  | .serving ctx => ¬ Waits v ctx
  | .checking _ ctx => v.world.cancelled ctx = false → ¬ Returned v ctx
  | _ => True

/-- The condition on a step: that of the stage of the thread that takes it. -/
def TakenInTime (v : View) : Action → Prop
  | .step i _ => ∀ standing ∈ v.stage i, InTime v standing.2
  | _ => True

/-- There is one event loop, so only Monitors are started. -/
abbrev OneListener (s : State) (action : Action) : Prop := Machine.Admits (fun call => call ≠ .listener) s action

/-- The claim for every node, any limits and every run with one event loop. -/
def NeverWedged : Prop :=
  ∀ (swarmNodeInfo : SwarmNodeInfo) (maps : Maps) (actions : List Action),
    Meets (machine swarmNodeInfo).step OneListener (start maps) actions →
    Throughout (machine swarmNodeInfo).step (fun s => Unwedged (view swarmNodeInfo s)) (start maps) actions

instance (v : View) (ctx : Nat) : Decidable (Waits v ctx) := inferInstanceAs (Decidable (_ = _))

instance (v : View) (ctx : Nat) : Decidable (Returned v ctx) := inferInstanceAs (Decidable (_ = _))

instance (v : View) : DecidablePred (InTime v)
  | .serving ctx => inferInstanceAs (Decidable (¬ Waits v ctx))
  | .checking _ ctx => inferInstanceAs (Decidable (v.world.cancelled ctx = false → ¬ Returned v ctx))
  | .fresh | .counting _ | .validating _ | .arming _ | .storing _ | .scaling _ _ | .sleeping _ | .rearming _
  | .uncounting | .unbuffering | .invalidating | .forgetting | .fatal | .returned | .reading | .looking _
  | .sending _ _ => isTrue trivial

instance (v : View) : DecidablePred (TakenInTime v)
  | .step i _ => inferInstanceAs (Decidable (∀ standing ∈ v.stage i, _))
  | .invoke _ | .meet _ _ | .disturb _ => isTrue trivial

/-- A node that is a manager itself. -/
def manager : SwarmNodeInfo where
  autoscalerManager := true
  otherNodes := []

/-- Limits that every sample crosses. -/
def limits : Maps where
  constantsMap := fun key => if key < 3 then some 1 else none

/-- A Monitor of namespace 5 registers, and one call of the kprobe produces an event. -/
def signalling : List Action :=
  .invoke (.monitor 5) :: List.replicate 5 (.step 1 false) ++ [.disturb (.kprobe 5 (some 1) .stored)]

/-- The event loop finds the context not done, then the container stops. -/
def stopping : List Action :=
  signalling ++ List.replicate 3 (.step 0 false) ++ .disturb (.cancel 1) :: List.replicate 5 (.step 1 false)

theorem not_neverWedged : ¬ NeverWedged := by
  intro h
  have hUnwedged := h manager limits stopping (by decide)
  have hFinish := hUnwedged.at_finish (show run (machine manager).step (start limits) stopping = some _ from rfl)
  exact hFinish 1 (by decide) (by decide)

/-- The Monitor removes its namespace again. -/
def Stage.leaving : Stage → Bool
  | .uncounting | .unbuffering | .invalidating | .forgetting => true
  | _ => false

section Moves

variable {w w' : World} {i ctx : Nat} {fail : Bool} {call : Call} {before after : Stage} {data : Data}

theorem Moves.cancelled (h : Moves w i fail call before after w') : w'.cancelled = w.cancelled := by
  cases h <;> rfl

theorem Moves.leaving (h : Moves w i fail call before after w') (hLeaving : after.leaving = true) :
    before.leaving = true ∨ ∃ ctx, before = .serving ctx ∧ w.cancelled ctx = true := by
  cases h with
  | done cancelled => exact Or.inr ⟨_, rfl, cancelled⟩
  | _ => first | exact Or.inl rfl | cases hLeaving

theorem Moves.returned (h : Moves w i fail call before after w') (hReturned : after = .returned) :
    before.leaving = true := by
  cases h <;> first | rfl | cases hReturned

theorem Moves.sending (h : Moves w i fail call before after w') (hSending : after = .sending data ctx) :
    before = .checking data ctx ∧ w.cancelled ctx = false := by
  cases h with
  | inTime running =>
      cases hSending
      exact ⟨rfl, running⟩
  | _ => cases hSending

end Moves

/-- While the event loop waits for a Monitor, that Monitor has neither returned nor started
to remove its namespace. -/
structure Attended (v : View) : Prop where
  alone : ∀ i stage, v.stage i = some (.listener, stage) → i = 0
  stopped : ∀ i call stage, v.stage i = some (call, stage) → stage.leaving = true → v.world.cancelled i = true
  attended : ∀ data ctx call stage, v.stage 0 = some (.listener, .sending data ctx) →
    v.stage ctx = some (call, stage) → stage.leaving = false ∧ stage ≠ .returned

variable {swarmNodeInfo : SwarmNodeInfo} {v v' : View} {action : Action}

theorem signalled_stays {ctx : Nat} {message : Kernel.Message} :
    (Stage.signalled swarmNodeInfo ctx message).leaving = false := by
  unfold Stage.signalled
  split <;> rfl

theorem disturb_cancelled {env : Env} {w w' : World} {ctx : Nat} (h : disturb env w = some w')
    (hCancelled : w.cancelled ctx = true) : w'.cancelled ctx = true := by
  cases env with
  | kprobe netns sk output =>
      cases h
      exact hCancelled
  | cancel other =>
      cases h
      show Function.update w.cancelled other true ctx = true
      by_cases hSame : ctx = other
      · rw [hSame, Function.update_self]
      · rw [Function.update_of_ne hSame]
        exact hCancelled

/-- A Monitor that has just been started neither removes its namespace nor has returned. -/
theorem Attended.invoke {call : Call} (hInv : Attended v) (hMonitor : call ≠ .listener) :
    Attended ⟨v.world, v.size + 1,
      Function.update v.stage v.size (some (call, (stages swarmNodeInfo).initial call))⟩ := by
  have fresh {j : Nat} {call' : Call} {stage : Stage}
      (hj : Function.update v.stage v.size (some (call, (stages swarmNodeInfo).initial call)) j =
        some (call', stage)) :
      (call' ≠ .listener ∧ stage.leaving = false ∧ stage ≠ .returned) ∨ v.stage j = some (call', stage) := by
    rcases update_eq_some hj with ⟨_, hNew⟩ | ⟨_, hOld⟩
    · cases hNew
      cases call with
      | monitor netns => exact Or.inl ⟨hMonitor, rfl, fun hReturned => nomatch hReturned⟩
      | listener => exact absurd rfl hMonitor
    · exact Or.inr hOld
  refine ⟨fun j stage hj => ?_, fun j call' stage hj hLeaving => ?_,
    fun data ctx call' stage hSending hAt => ?_⟩
  · exact (fresh hj).elim (fun hNew => absurd rfl hNew.1) (hInv.alone j stage)
  · rcases fresh hj with ⟨_, hStays, _⟩ | hOld
    · rw [hLeaving] at hStays
      cases hStays
    · exact hInv.stopped j call' stage hOld hLeaving
  · have hBefore := (fresh hSending).resolve_left fun hNew => hNew.1 rfl
    exact (fresh hAt).elim And.right (hInv.attended data ctx call' stage hBefore)

section Step

variable {i j ctx : Nat} {fail : Bool} {call : Call} {before after stage : Stage} {world : World} {data : Data}

/-- A Monitor whose context is not done has not left its loop, since only `Done` leads out
of it. -/
theorem Attended.running (hInv : Attended v) (hAt : v.stage ctx = some (call, stage))
    (hRunning : v.world.cancelled ctx = false) (hGuard : ¬ Returned v ctx) :
    stage.leaving = false ∧ stage ≠ .returned := by
  refine ⟨?_, fun hReturned => ?_⟩
  · by_contra hLeaving
    have hCancelled := hInv.stopped ctx call stage hAt (Bool.not_eq_false _ ▸ hLeaving)
    rw [hRunning] at hCancelled
    cases hCancelled
  · apply hGuard
    rw [Returned, hAt, hReturned]
    rfl

/-- The Monitor for which the event loop waits takes a step of its own: it would have to
take `Done`, which the condition excludes. -/
theorem Attended.awaited (hSound : Sound v) (hInv : Attended v)
    (hSending : v.stage 0 = some (.listener, .sending data i)) (stands : v.stage i = some (call, before))
    (moves : Moves v.world i fail call before after world) (hGuard : InTime v before) :
    after.leaving = false ∧ after ≠ .returned := by
  obtain ⟨hStays, hRuns⟩ := hInv.attended data i call before hSending stands
  refine ⟨?_, fun hReturned => ?_⟩
  · by_contra hLeaving
    rcases moves.leaving (Bool.not_eq_false _ ▸ hLeaving) with hBefore | ⟨c, rfl, _⟩
    · rw [hStays] at hBefore
      cases hBefore
    · obtain rfl := hSound.named _ _ _ c stands rfl
      apply hGuard
      rw [Waits, hSending]
      rfl
  · have hBefore := moves.returned hReturned
    rw [hStays] at hBefore
    cases hBefore

theorem Attended.step (hSound : Sound v) (hInv : Attended v) (stands : v.stage i = some (call, before))
    (moves : Moves v.world i fail call before after world) (hGuard : InTime v before) :
    Attended ⟨world, v.size, Function.update v.stage i (some (call, after))⟩ := by
  refine ⟨fun j stage hj => ?_, fun j call' stage hj hLeaving => ?_,
    fun data ctx call' stage hSending hAt => ?_⟩
  · rcases update_eq_some hj with ⟨rfl, hNew⟩ | ⟨_, hOld⟩
    · cases hNew
      exact hInv.alone _ before stands
    · exact hInv.alone j stage hOld
  · show world.cancelled j = true
    rw [moves.cancelled]
    rcases update_eq_some hj with ⟨rfl, hNew⟩ | ⟨_, hOld⟩
    · cases hNew
      rcases moves.leaving hLeaving with hBefore | ⟨ctx, rfl, hCancelled⟩
      · exact hInv.stopped _ call before stands hBefore
      · rwa [hSound.named _ _ _ ctx stands rfl] at hCancelled
    · exact hInv.stopped j call' stage hOld hLeaving
  · rcases update_eq_some hSending with ⟨rfl, hNew⟩ | ⟨hListener, hOldSending⟩
    · -- the event loop itself has moved, and has just found the context not done
      cases hNew
      obtain ⟨rfl, hRunning⟩ := moves.sending rfl
      obtain ⟨other, hMonitor⟩ := hSound.held _ _ _ data ctx stands rfl
      have hApart : ctx ≠ 0 := fun hSame => by rw [hSame, stands] at hMonitor; cases hMonitor
      have hOld : v.stage ctx = some (call', stage) := (Function.update_of_ne hApart ..).symm.trans hAt
      exact hInv.running hOld hRunning (hGuard hRunning)
    · rcases update_eq_some hAt with ⟨rfl, hNew⟩ | ⟨_, hOld⟩
      · cases hNew
        exact hInv.awaited hSound hOldSending stands moves hGuard
      · exact hInv.attended data ctx call' stage hOldSending hOld

/-- A signal that arrives: the event loop waits for nobody any more, and the Monitor that
has taken it stays in its loop or returns without having waited on. -/
theorem Attended.meet {netns : UInt32} (hInv : Attended v) (apart : i ≠ j)
    (sends : v.stage i = some (.listener, .sending data ctx)) :
    Attended ⟨v.world, v.size, Function.update (Function.update v.stage i (some (.listener, .reading))) j
      (some (.monitor netns, .signalled swarmNodeInfo ctx data.message))⟩ := by
  obtain rfl := hInv.alone i _ sends
  refine ⟨fun k stage hk => ?_, fun k call' stage hk hLeaving => ?_,
    fun data ctx call' stage hSending hAt => ?_⟩
  · rcases update_eq_some hk with ⟨_, hNew⟩ | ⟨_, hk⟩
    · cases hNew
    · rcases update_eq_some hk with ⟨rfl, _⟩ | ⟨_, hOld⟩
      · rfl
      · exact hInv.alone k stage hOld
  · rcases update_eq_some hk with ⟨_, hNew⟩ | ⟨_, hk⟩
    · cases hNew
      rw [signalled_stays] at hLeaving
      cases hLeaving
    · rcases update_eq_some hk with ⟨_, hNew⟩ | ⟨_, hOld⟩
      · cases hNew
        cases hLeaving
      · exact hInv.stopped k call' stage hOld hLeaving
  · rcases update_eq_some hSending with ⟨hSame, _⟩ | ⟨_, hSending⟩
    · exact absurd hSame apart
    · rw [Function.update_self] at hSending
      cases hSending

end Step

/-- Every step that satisfies the condition keeps the Monitor for which the event loop
waits in its loop. -/
theorem Attended.advances (hSound : Sound v) (hInv : Attended v)
    (hAdmits : ∀ call, action = .invoke call → call ≠ .listener)
    (hInTime : TakenInTime v action) (h : Advances swarmNodeInfo v action v') : Attended v' := by
  cases h with
  | @invoke call unused => exact hInv.invoke (hAdmits call rfl)
  | step stands moves => exact hInv.step hSound stands moves (hInTime _ stands)
  | meet apart sends receives => exact hInv.meet apart sends
  | disturb happens =>
      exact ⟨hInv.alone, fun j call' stage hj hLeaving =>
        disturb_cancelled happens (hInv.stopped j call' stage hj hLeaving),
        hInv.attended⟩

/-- The event loop never waits for a Monitor that has returned, in every run in which Monitors
take `Done` only while the event loop does not wait for them, and contexts of Monitors that have
returned are found done. -/
theorem unwedged_of_takenInTime (swarmNodeInfo : SwarmNodeInfo) (maps : Maps) (actions : List Action)
    (hMeets : Meets (machine swarmNodeInfo).step
      (fun s action => OneListener s action ∧ TakenInTime (view swarmNodeInfo s) action) (start maps) actions) :
    Throughout (machine swarmNodeInfo).step (fun s => Unwedged (view swarmNodeInfo s)) (start maps) actions := by
  have keep (s : State) (action : Action) (t : State)
      (hInv : Coherent swarmNodeInfo s ∧ Attended (view swarmNodeInfo s))
      (hGuard : OneListener s action ∧ TakenInTime (view swarmNodeInfo s) action)
      (hStep : (machine swarmNodeInfo).step s action = some t) :
      Coherent swarmNodeInfo t ∧ Attended (view swarmNodeInfo t) := by
    have hAdmits (call : Call) (hInvoke : action = .invoke call) : call ≠ .listener := by
      subst hInvoke
      exact hGuard.1
    exact ⟨hInv.1.step hStep, hInv.2.advances hInv.1.sound hAdmits hGuard.2 (hInv.1.advances hStep)⟩
  have conclude (s : State) (hInv : Coherent swarmNodeInfo s ∧ Attended (view swarmNodeInfo s)) :
      Unwedged (view swarmNodeInfo s) := by
    intro ctx hWaits hReturned
    obtain ⟨standing, hAt, hSends⟩ := Option.bind_eq_some_iff.mp hWaits
    obtain ⟨⟨call, stage⟩, hReturnedAt, hStage⟩ := Option.map_eq_some_iff.mp hReturned
    unfold sendsTo at hSends
    split at hSends
    · cases hSends
      exact (hInv.2.attended _ ctx call stage hAt hReturnedAt).2 hStage
    · cases hSends
  have hStart : Attended (view swarmNodeInfo (start maps)) := by
    refine ⟨fun i stage hAt => (stage_start hAt).1, fun i call stage hAt hLeaving => ?_,
      fun data ctx call stage hSending _ => ?_⟩
    · obtain ⟨rfl, rfl, rfl⟩ := stage_start hAt
      cases hLeaving
    · exact nomatch (stage_start hSending).2.2
  exact throughout_of_invariant keep conclude ⟨coherent_start maps, hStart⟩ hMeets

/-- The Monitor takes a signal and scales, then its container stops. -/
def handling : List Action :=
  signalling ++ List.replicate 3 (.step 0 false) ++ .meet 0 1 :: List.replicate 3 (.step 1 false) ++
    .disturb (.cancel 1) :: List.replicate 5 (.step 1 false)

theorem unwedged_handling : Meets (machine manager).step
    (fun s action => OneListener s action ∧ TakenInTime (view manager s) action) (start limits) handling ∧
      Throughout (machine manager).step (fun s => Unwedged (view manager s)) (start limits) handling :=
  ⟨by decide, unwedged_of_takenInTime manager limits handling (by decide)⟩

end Monitoring

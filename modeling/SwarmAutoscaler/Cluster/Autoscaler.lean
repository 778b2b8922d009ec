import Mathlib.Data.List.Induction
import SwarmAutoscaler.Process.Simulation

/-! What the autoscaler does for one service, told without nodes, channels and Docker: the
service has replicas, may be about to fall asleep, and may be woken by a packet. -/
namespace Cluster

open Process

/-- `drowsy` says that a timer runs, `watched` that packets to the port wake the service. -/
structure Autoscaler where
  replicas : Nat
  drowsy : Bool := false
  watched : Bool := false
  deriving DecidableEq, Repr

/-- A packet knocks at the manager or at a worker; noise is a request that is refused. -/
inductive Stimulus where
  | over
  | under
  | elapse
  | knock (manager : Bool)
  | noise
  deriving DecidableEq, Repr

namespace Autoscaler

/-- The manager wakes a service to 1 replica, a worker asks for one more. -/
def step (a : Autoscaler) : Stimulus → Option Autoscaler
  | .over => some { a with replicas := a.replicas + 1, drowsy := false }
  | .under =>
      if 1 < a.replicas then some { a with replicas := a.replicas - 1 }
      else some { a with drowsy := true }
  | .elapse => if a.drowsy then some ⟨0, false, true⟩ else none
  | .knock true => if a.watched then some ⟨1, a.drowsy, false⟩ else none
  | .knock false => if a.watched then some ⟨a.replicas + 1, false, false⟩ else none
  | .noise => some a

/-- Only a service with at most 1 replica falls asleep, and one that sleeps can be woken. -/
structure Sane (a : Autoscaler) : Prop where
  few : a.drowsy = true → a.replicas ≤ 1
  wakeable : a.replicas = 0 → a.watched = true

theorem Sane.step {a b : Autoscaler} {stimulus : Stimulus} (h : a.Sane) (hStep : a.step stimulus = some b) :
    b.Sane := by
  cases stimulus with
  | «over» =>
      cases hStep
      exact ⟨nofun, nofun⟩
  | under =>
      simp only [Autoscaler.step] at hStep
      split at hStep
      · next hMany =>
          cases hStep
          refine ⟨fun hDrowsy => ?_, fun hZero => ?_⟩
          · have hFew := h.few hDrowsy
            omega
          · dsimp only at hZero
            omega
      · next hFew =>
          cases hStep
          exact ⟨fun _ => Nat.le_of_not_lt hFew, h.wakeable⟩
  | elapse =>
      simp only [Autoscaler.step] at hStep
      split at hStep <;> cases hStep
      exact ⟨nofun, fun _ => rfl⟩
  | knock manager =>
      cases manager <;> simp only [Autoscaler.step] at hStep <;> split at hStep <;> cases hStep
      · exact ⟨nofun, nofun⟩
      · exact ⟨fun _ => Nat.le_refl 1, nofun⟩
  | noise =>
      cases hStep
      exact h

/-- A packet at any node gives a service that sleeps its first replica. -/
theorem Sane.wakes {a : Autoscaler} (h : a.Sane) (hZero : a.replicas = 0) (manager : Bool) :
    ∃ b, a.step (.knock manager) = some b ∧ b.replicas = 1 := by
  have hWatched := h.wakeable hZero
  cases manager with
  | true => exact ⟨_, if_pos hWatched, rfl⟩
  | false => exact ⟨_, if_pos hWatched, by rw [hZero]⟩

/-- An "under" request, and since then no timer and nothing that asked for more. -/
def Idle (stimuli : List Stimulus) : Prop :=
  ∃ before since, stimuli = before ++ .under :: since ∧ .over ∉ since ∧ .elapse ∉ since ∧ .knock false ∉ since

theorem Idle.append {stimuli : List Stimulus} {stimulus : Stimulus} (h : Idle stimuli)
    (hOver : stimulus ≠ .over) (hElapse : stimulus ≠ .elapse) (hKnock : stimulus ≠ .knock false) :
    Idle (stimuli ++ [stimulus]) := by
  obtain ⟨before, since, rfl, hNoOver, hNoElapse, hNoKnock⟩ := h
  refine ⟨before, since ++ [stimulus], by simp, ?_, ?_, ?_⟩
  · simp [hNoOver, Ne.symm hOver]
  · simp [hNoElapse, Ne.symm hElapse]
  · simp [hNoKnock, Ne.symm hKnock]

/-- A timer that runs was started by an "under" request and has not been cancelled. -/
theorem idle_of_drowsy {a b : Autoscaler} {stimuli : List Stimulus} (hAwake : a.drowsy = false)
    (hRun : run Autoscaler.step a stimuli = some b) (hDrowsy : b.drowsy = true) : Idle stimuli := by
  induction stimuli using List.reverseRecOn generalizing b with
  | nil =>
      cases hRun
      rw [hAwake] at hDrowsy
      cases hDrowsy
  | append_singleton stimuli stimulus ih =>
      obtain ⟨mid, hFirst, hLast⟩ := run_append_singleton.mp hRun
      cases stimulus with
      | «over» =>
          cases hLast
          cases hDrowsy
      | under => exact ⟨stimuli, [], rfl, List.not_mem_nil, List.not_mem_nil, List.not_mem_nil⟩
      | elapse =>
          simp only [Autoscaler.step] at hLast
          split at hLast <;> cases hLast
          cases hDrowsy
      | knock manager =>
          cases manager <;> simp only [Autoscaler.step] at hLast <;> split at hLast <;> cases hLast
          · cases hDrowsy
          · exact (ih hFirst hDrowsy).append nofun nofun nofun
      | noise =>
          cases hLast
          exact (ih hFirst hDrowsy).append nofun nofun nofun

/-- Only a timer takes the last replica. -/
theorem elapse_of_asleep {a b : Autoscaler} {stimulus : Stimulus} (hStep : a.step stimulus = some b)
    (hSome : 0 < a.replicas) (hZero : b.replicas = 0) : stimulus = .elapse ∧ a.drowsy = true := by
  cases stimulus with
  | «over» =>
      cases hStep
      cases hZero
  | under =>
      simp only [Autoscaler.step] at hStep
      split at hStep <;> cases hStep <;> dsimp only at hZero <;> omega
  | elapse =>
      simp only [Autoscaler.step] at hStep
      split at hStep
      · next hDrowsy => exact ⟨rfl, hDrowsy⟩
      · cases hStep
  | knock manager =>
      cases manager <;> simp only [Autoscaler.step] at hStep <;> split at hStep <;> cases hStep <;> cases hZero
  | noise =>
      cases hStep
      omega

end Autoscaler

end Cluster

import SwarmAutoscaler.Cluster.Rise

/-! Requests, timers and packets about one service, one after the other. Each runs from its
start to its end before the next begins, in a thread of its own, numbered in order. -/
namespace Cluster

open Docker Process

/-- What one round of the series is: a request to a manager, the end of a keep-alive, or a
packet at a node. -/
inductive Task where
  | request (ip direction : String)
  | timer (keepAlive : KeepAlive)
  | packet (ip : String) (port : UInt32)
  deriving DecidableEq, Repr

/-- A task, and which of its calls fail. -/
structure Round where
  task : Task
  fails : Nat → Bool := fun _ => false

/-- The site after some rounds; `past` tells what they were and how each has ended. -/
structure Series where
  site : Site
  past : List (Task × Result) := []

variable (nodes : Nodes) (serviceID : String)

/-- The site as the code of the task finds it, if the task can start: a timer fires for a
goroutine that waits, a packet counts at a node that listens. -/
def Task.start : Task → Site → Option Site
  | .request _ _, site => some site
  | .timer keepAlive, site =>
      if keepAlive ∈ site.waiting ∧ keepAlive.serviceID = serviceID then
        some { site with waiting := site.waiting.erase keepAlive }
      else none
  | .packet ip port, site =>
      if Listening site.world port ip ∧ site.world.portToServiceID (ip, port) =
        some serviceID then some site else none

/-- The code that a round runs, in the process in which it runs. -/
def Task.code : Task → Code Result
  | .request ip direction => changeServiceReplicas ⟨ip, nodes.info ip⟩ serviceID direction
  | .timer keepAlive => scaleDown ⟨keepAlive.ip, nodes.info keepAlive.ip⟩ serviceID
  | .packet ip port => wakeUp nodes ip port serviceID

/-- How the round ends, if it can start and does not block or panic. -/
def Series.outcome (s : Series) (round : Round) : Option (Outcome Site Result) :=
  (round.task.start serviceID s.site).bind fun site =>
    (round.task.code nodes serviceID).eval (solo nodes s.past.length) round.fails 0 site

/-- One round on the site that the rounds before it have left; there is none when the code
of the round does not return. -/
def Series.step (s : Series) (round : Round) : Option Series :=
  (s.outcome nodes serviceID round).map fun outcome => ⟨outcome.state, s.past ++ [(round.task, outcome.result)]⟩

/-- No call of the round fails, and it returns no error. -/
def Successful (s : Series) (round : Round) : Prop :=
  (∀ call, round.fails call = false) ∧
    ∀ outcome ∈ s.outcome nodes serviceID round, outcome.result = .ok ()

variable {nodes serviceID} {s t : Series} {round : Round}

theorem successful_of_outcome {outcome : Outcome Site Result} (hNever : ∀ call, round.fails call = false)
    (hOutcome : s.outcome nodes serviceID round = some outcome) (hOk : outcome.result = .ok ()) :
    Successful nodes serviceID s round := by
  refine ⟨hNever, fun other hOther => ?_⟩
  cases hOutcome.symm.trans hOther
  exact hOk

/-- The code of the task has run on the site that it found. -/
theorem ran_of_step (h : s.step nodes serviceID round = some t) : ∃ site outcome,
    round.task.start serviceID s.site = some site ∧
      (round.task.code nodes serviceID).eval (solo nodes s.past.length) round.fails 0 site = some outcome ∧
      s.outcome nodes serviceID round = some outcome ∧
      t = ⟨outcome.state, s.past ++ [(round.task, outcome.result)]⟩ := by
  obtain ⟨outcome, hOutcome, rfl⟩ := Option.map_eq_some_iff.mp h
  obtain ⟨site, hStart, hEval⟩ := Option.bind_eq_some_iff.mp hOutcome
  exact ⟨site, outcome, hStart, hEval, hOutcome, rfl⟩

/-- Starting a task leaves everything as it is, a goroutine apart. -/
theorem world_of_start {task : Task} {site found : Site} (h : task.start serviceID site = some found) :
    found.world = site.world := by
  cases task with
  | request ip direction =>
      cases h
      rfl
  | timer keepAlive =>
      simp only [Task.start] at h
      split at h <;> cases h
      rfl
  | packet ip port =>
      simp only [Task.start] at h
      split at h <;> cases h
      rfl

end Cluster

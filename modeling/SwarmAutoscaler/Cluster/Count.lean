import SwarmAutoscaler.Cluster.Deployment
import SwarmAutoscaler.Cluster.Request

/-! Concurrent scale requests for one service. A request computes its new count from its
first inspect and writes it under the version of a second one, so Docker's version check
does not notice an update between the two; the counts add up exactly when there is none
that matters. -/
namespace Cluster

open Docker Process

/-- A call of `changeServiceReplicas` for one direction. -/
def directed (direction : String) : Call → Bool
  | .request _ _ d => d == direction
  | _ => false

/-- The call has returned nil. -/
def returnedNil (direction : String) (thread : Thread signature Call Result) : Bool :=
  directed direction thread.call && thread.program.result.any Except.isOk

/-- How many calls for a direction have returned nil so far. -/
def returned (s : State) (direction : String) : Nat := s.threads.countP (returnedNil direction)

/-- The given calls are about to start, and nothing else runs. -/
def calling (nodes : Nodes) (service : Service) (calls : List Call) : State where
  world := awake service
  threads := calls.map (machine nodes).spawn

/-- Calls of `ChangeServiceReplicas` for the service, up or down. -/
def Asks (serviceID : String) (call : Call) : Prop :=
  ∃ ip, call = .request ip serviceID "over" ∨ call = .request ip serviceID "under"

/-- Every call that returned nil has changed the count by one. -/
def Balanced (serviceID : String) (n : UInt64) (s : State) : Prop :=
  ∃ count ∈ s.world.replicas serviceID,
    count.toNat + returned s "under" = n.toNat + returned s "over"

instance (serviceID : String) (n : UInt64) (s : State) : Decidable (Balanced serviceID n s) :=
  inferInstanceAs (Decidable (∃ count ∈ s.world.replicas serviceID, _))

/-- The count that the answer to an inspect shows. -/
def inspectedReplicas (op : Op) : op.Answer → Option UInt64 :=
  match op with
  | .serviceInspect _ => fun
      | .error _ => none
      | .ok service => service.spec.replicas?
  | _ => fun _ => none

/-- The replica count that the call saw at its first inspect. -/
def firstInspected (log : List Event) (i : Nat) : Option UInt64 :=
  (log.find? fun event => event.thread == i).bind fun event => inspectedReplicas event.op event.answer

/-- An update that Docker accepts finds the count that its call saw at its first inspect. -/
def UpToDate (serviceID : String) (s : State) : Action → Prop
  | .step i fail => ∀ thread ∈ s.threads[i]?, ∀ version ∈ thread.program.head.bind (Op.updateOf serviceID),
      Accepts fail s.world serviceID version → firstInspected s.log i = s.world.replicas serviceID
  | _ => True

instance (serviceID : String) (s : State) : DecidablePred (UpToDate serviceID s)
  | .step i fail => inferInstanceAs (Decidable (∀ thread ∈ s.threads[i]?,
      ∀ version ∈ thread.program.head.bind (Op.updateOf serviceID),
        Accepts fail s.world serviceID version → firstInspected s.log i = s.world.replicas serviceID))
  | .invoke _ | .meet _ _ | .disturb _ => isTrue trivial

theorem upToDate_step_iff {serviceID : String} {s : State} {i : Nat} {fail : Bool} {call : Call}
    {op : Op} {next : op.Answer → Code Result} (atOp : s.threads[i]? = some ⟨call, .perform op next⟩) :
    UpToDate serviceID s (.step i fail) ↔ ∀ version spec, op = .serviceUpdate serviceID version spec →
      Accepts fail s.world serviceID version → firstInspected s.log i = s.world.replicas serviceID := by
  simp [UpToDate, atOp, Op.updateOf_eq_some_iff]

/-- When all calls have ended, none that returned nil is lost. -/
def NoLostRequest : Prop :=
  ∀ (nodes : Nodes) (service : Service) (n : UInt64) (calls : List Call) (actions : List Action) (s : State),
    service.spec.replicas? = some n → (∀ call ∈ calls, Asks service.id call) →
    calls.countP (directed "under") + 2 ≤ n.toNat →
    n.toNat + calls.countP (directed "over") < 2 ^ 64 →
    Meets (machine nodes).step (Machine.Admits fun _ => False) (calling nodes service calls) actions →
    run (machine nodes).step (calling nodes service calls) actions = some s →
    (∀ thread ∈ s.threads, thread.program.result.isSome) → Balanced service.id n s

/-- Two calls inspect before either updates. -/
def lost : List Action :=
  [.step 0 false, .step 1 false] ++ List.replicate 3 (.step 0 false) ++ List.replicate 3 (.step 1 false)

theorem not_noLostRequest : ¬ NoLostRequest := by
  intro h
  let calls : List Call := [.request "manager" "web" "over", .request "manager" "web" "over"]
  have hRun : run (machine pair).step (calling pair (web 5) calls) lost =
      some ((run (machine pair).step (calling pair (web 5) calls) lost).get (by decide)) := by simp
  have hCalls : ∀ call ∈ calls, Asks "web" call := by
    intro call hCall
    simp only [calls, List.mem_cons, List.not_mem_nil, or_false, or_self] at hCall
    exact ⟨"manager", Or.inl hCall⟩
  have hBalanced := h pair (web 5) 5 calls lost _ rfl hCalls (by decide) (by decide) (by decide) hRun
    (by decide)
  exact absurd hBalanced (by decide)

section Invariant

/-- Requests keep to their automaton; nothing is said of other threads. -/
def requests : Tracking signature Call Point Result where
  protocol
    | .request ip serviceID direction => requestProtocol ip serviceID direction
    | _ => .free
  initial _ := .fresh

variable {nodes : Nodes} {serviceID : String} {n : UInt64} {s t : State} {action : Action}

theorem requests_step (hLogged : Machine.Logged s) (h : Machine.EachThread requests.Tracked s)
    (hStep : (machine nodes).step s action = some t) : Machine.EachThread requests.Tracked t := by
  refine requests.tracked_step (machine nodes) (fun call => ?_) ?_ hLogged h hStep
  · cases call with
    | request ip serviceID direction => exact follows_request
    | keepAlive | listener => exact Program.follows_free _
  · intro call phase result program _ hAgain
    cases call with
    | listener ip => exact Program.follows_free _
    | request | keepAlive => cases hAgain

/-- What the call read at its first inspect is off by no more than the calls that have
returned by now. -/
def Read (n : UInt64) (s : State) (i : Nat) (replicas : UInt64) : Prop :=
  firstInspected s.log i = some replicas ∧ n.toNat ≤ replicas.toNat + returned s "under" ∧
    replicas.toNat ≤ n.toNat + returned s "over"

/-- The count that a call writes, from the count that it has read first. -/
def target (direction : String) (replicas : UInt64) : UInt64 :=
  if direction = "over" then replicas + 1 else replicas - 1

/-- What is known of a call at each point. The other points are not reached. -/
def Standing (n : UInt64) (s : State) (i : Nat) (direction : String) : Point → Prop
  | .fresh => ∀ event ∈ s.log, event.thread ≠ i
  | .looking _ replicas => direction = "over" ∧ Read n s i replicas
  | .committed newReplicas | .writing _ newReplicas =>
      ∃ replicas, Read n s i replicas ∧ newReplicas = target direction replicas
  | .succeeded | .failed => True
  | _ => False

theorem firstInspected_append {log : List Event} {i : Nat} {event : Event} {replicas : UInt64}
    (h : firstInspected log i = some replicas) : firstInspected (log ++ [event]) i = some replicas := by
  obtain ⟨first, hFirst, hReplicas⟩ := Option.bind_eq_some_iff.mp h
  simp [firstInspected, List.find?_append, hFirst, hReplicas]

theorem firstInspected_fresh {log : List Event} {i : Nat} {event : Event}
    (h : ∀ event ∈ log, event.thread ≠ i) (hEvent : event.thread = i) :
    firstInspected (log ++ [event]) i = inspectedReplicas event.op event.answer := by
  have hNone : log.find? (fun event => event.thread == i) = none :=
    List.find?_eq_none.mpr fun event hMem => by simpa using h event hMem
  simp [firstInspected, List.find?_append, hNone, hEvent]

/-- What holds in every state of a run of calls that start together: every call stands at a
point of its protocol with a count that earlier returns explain, no keep-alive is entered,
and the stored count differs from the first by no more than the calls that have returned. -/
structure CountInv (serviceID : String) (n : UInt64) (calls : List Call) (s : State) : Prop where
  logged : Machine.Logged s
  tracked : Machine.EachThread requests.Tracked s
  calls : s.threads.map Thread.call = calls
  standing : ∀ i thread, s.threads[i]? = some thread → ∃ ip direction,
    thread.call = .request ip serviceID direction ∧ (direction = "over" ∨ direction = "under") ∧
      Standing n s i direction (requests.phase s.log i thread.call)
  noEntry : ∀ key, s.world.keepAliveOps key = none
  stored : ∃ service count, s.world.services serviceID = some service ∧
    service.spec.replicas? = some count ∧ n.toNat ≤ count.toNat + returned s "under" ∧
      count.toNat ≤ n.toNat + returned s "over"

theorem CountInv.start {service : Service} {calls : List Call}
    (hReplicas : service.spec.replicas? = some n) (hCalls : ∀ call ∈ calls, Asks service.id call) :
    CountInv service.id n calls (calling nodes service calls) where
  logged := Machine.logged_of_nil rfl
  tracked i thread hThread := by
    obtain ⟨call, _, rfl⟩ := List.mem_map.mp (List.mem_of_getElem? hThread)
    cases call with
    | request ip serviceID direction => exact follows_request
    | keepAlive | listener => exact Program.follows_free _
  calls := by simp [calling, Machine.spawn, Function.comp_def]
  standing i thread hThread := by
    obtain ⟨call, hCall, rfl⟩ := List.mem_map.mp (List.mem_of_getElem? hThread)
    obtain ⟨ip, rfl | rfl⟩ := hCalls call hCall
    · exact ⟨ip, "over", rfl, Or.inl rfl, fun _ hEvent => absurd hEvent List.not_mem_nil⟩
    · exact ⟨ip, "under", rfl, Or.inr rfl, fun _ hEvent => absurd hEvent List.not_mem_nil⟩
  noEntry _ := rfl
  stored := ⟨service, n, by simp [calling, awake], hReplicas, by omega, by omega⟩

section Budget

variable {calls : List Call} {i : Nat}

theorem countP_returnedNil_le (direction : String) (threads : List (Thread signature Call Result)) :
    threads.countP (returnedNil direction) ≤ (threads.map Thread.call).countP (directed direction) := by
  rw [List.countP_map]
  refine List.countP_mono_left fun thread _ h => ?_
  simp only [returnedNil, Bool.and_eq_true] at h
  exact h.1

/-- A call that has not ended is not among those that have returned. -/
theorem returned_lt (direction : String) (hCalls : s.threads.map Thread.call = calls) {call : Call} {op : Op}
    {next : op.Answer → Code Result} (atOp : s.threads[i]? = some ⟨call, .perform op next⟩)
    (hDirected : directed direction call = true) :
    returned s direction < calls.countP (directed direction) := by
  obtain ⟨hi, hThread⟩ := List.getElem?_eq_some_iff.mp atOp
  let ended := s.threads.set i ⟨call, .done (.ok ())⟩
  have hSame : ended.map Thread.call = calls := by
    rw [← hCalls]
    apply List.ext_getElem?
    intro j
    by_cases hji : i = j
    · subst hji
      simp [ended, hi, hThread]
    · simp [ended, List.getElem?_set_ne hji]
  have hLe := countP_returnedNil_le direction ended
  rw [hSame, List.countP_set hi] at hLe
  have hBefore : returnedNil direction s.threads[i] = false := by
    rw [hThread]
    simp [returnedNil, Program.result]
  have hAfter : returnedNil direction ⟨call, .done (.ok ())⟩ = true := by
    simp [returnedNil, hDirected, Program.result, Except.isOk, Except.toBool]
  simp only [hBefore, hAfter, Bool.false_eq_true, ↓reduceIte, Nat.sub_zero] at hLe
  exact hLe

end Budget

section Step

variable {calls : List Call} {i : Nat} {ip direction : String} {op : Op} {next : op.Answer → Code Result}
  {answer : op.Answer} {world : World}

theorem returned_resume (atOp : s.threads[i]? = some ⟨.request ip serviceID direction, .perform op next⟩)
    (hFork : (machine nodes).forks op = none) (d : String) :
    returned ((machine nodes).resume { s with world := world } i
      (.request ip serviceID direction) op next answer) d =
      returned s d + if returnedNil d ⟨.request ip serviceID direction, next answer⟩ then 1 else 0 := by
  obtain ⟨hi, hThread⟩ := List.getElem?_eq_some_iff.mp atOp
  have hBefore : returnedNil d s.threads[i] = false := by
    rw [hThread]
    simp [returnedNil, Program.result]
  simp only [returned, Machine.resume, hFork, Option.toList_none, List.map_nil, List.append_nil,
    List.countP_set hi, hBefore, settle_request, Bool.false_eq_true, ↓reduceIte, Nat.sub_zero]

theorem Standing.mono {point : Point} {j : Nat} {event : Event} (h : Standing n s j direction point)
    (hUnder : returned s "under" ≤ returned t "under") (hOver : returned s "over" ≤ returned t "over")
    (hLog : t.log = s.log ++ [event]) (hEvent : event.thread ≠ j) : Standing n t j direction point := by
  have read {replicas : UInt64} (hRead : Read n s j replicas) : Read n t j replicas := by
    obtain ⟨hFirst, hLow, hHigh⟩ := hRead
    exact ⟨by rw [hLog]; exact firstInspected_append hFirst, by omega, by omega⟩
  cases point with
  | fresh =>
      intro other hOther
      rw [hLog] at hOther
      rcases List.mem_append.mp hOther with hOld | hNew
      · exact h other hOld
      · rwa [List.mem_singleton.mp hNew]
  | looking => exact ⟨h.1, read h.2⟩
  | committed | writing =>
      obtain ⟨replicas, hRead, hNew⟩ := h
      exact ⟨replicas, read hRead, hNew⟩
  | succeeded | failed => trivial
  | _ => exact h.elim

theorem CountInv.point (hInv : CountInv serviceID n calls s)
    (atOp : s.threads[i]? = some ⟨.request ip serviceID direction, .perform op next⟩) :
    (direction = "over" ∨ direction = "under") ∧
      Standing n s i direction (requests.phase s.log i (.request ip serviceID direction)) ∧
      Point.permits ip serviceID (requests.phase s.log i (.request ip serviceID direction)) op := by
  obtain ⟨_, _, hCall, hDirection, hStanding⟩ := hInv.standing i _ atOp
  cases hCall
  exact ⟨hDirection, hStanding, (hInv.tracked i _ atOp).1⟩

/-- Docker's count is never 1 or less when a call reads it, nor so high that one more
call could wrap it. -/
theorem CountInv.range (hInv : CountInv serviceID n calls s)
    (hLow : calls.countP (directed "under") + 2 ≤ n.toNat)
    (hHigh : n.toNat + calls.countP (directed "over") < 2 ^ 64)
    (atOp : s.threads[i]? = some ⟨.request ip serviceID direction, .perform op next⟩) {replicas : UInt64}
    (hAbove : n.toNat ≤ replicas.toNat + returned s "under")
    (hBelow : replicas.toNat ≤ n.toNat + returned s "over") :
    2 ≤ replicas.toNat ∧ (direction = "over" → replicas.toNat + 1 < 2 ^ 64) ∧
      (direction = "under" → 3 ≤ replicas.toNat) := by
  have hUnder : returned s "under" ≤ calls.countP (directed "under") := by
    rw [← hInv.calls]
    exact countP_returnedNil_le "under" s.threads
  refine ⟨by omega, fun hOver => ?_, fun hDown => ?_⟩
  · have hLt := returned_lt "over" hInv.calls atOp (by simp [directed, hOver])
    omega
  · have hLt := returned_lt "under" hInv.calls atOp (by simp [directed, hDown])
    omega

theorem inspected_of_range {service : Service} {replicas : UInt64}
    (hDirection : direction = "over" ∨ direction = "under")
    (hReplicas : service.spec.replicas? = some replicas) (hUnder : direction = "under" → 3 ≤ replicas.toNat) :
    Point.inspected direction service = if direction = "over" then .looking service replicas
      else .committed (replicas - 1) := by
  simp only [Point.inspected, hReplicas]
  rcases hDirection with rfl | rfl
  · rfl
  · have hThree := hUnder rfl
    have hAbove : replicas > 1 := by
      rw [gt_iff_lt, UInt64.lt_iff_toNat_lt]
      exact Nat.lt_of_lt_of_le (by decide) hThree
    have hNotOne : replicas - 1 ≠ 1 := by
      intro hOne
      rw [eq_two_of_sub_one hOne] at hThree
      exact absurd hThree (by decide)
    simp [hAbove, hNotOne]

theorem CountInv.standing_next (hInv : CountInv serviceID n calls s)
    (hLow : calls.countP (directed "under") + 2 ≤ n.toNat)
    (hHigh : n.toNat + calls.countP (directed "over") < 2 ^ 64) {fail : Bool} {result : Option Result}
    (atOp : s.threads[i]? = some ⟨.request ip serviceID direction, .perform op next⟩)
    (answered : exec nodes i op fail s.world = some (answer, world))
    (hUnder : returned s "under" ≤ returned t "under") (hOver : returned s "over" ≤ returned t "over")
    (hLog : t.log = s.log ++ [⟨i, op, answer, result⟩]) :
    Standing n t i direction (Point.advance direction
      (requests.phase s.log i (.request ip serviceID direction)) op answer) := by
  obtain ⟨hDirection, hStanding, hPermits⟩ := hInv.point atOp
  have read {replicas : UInt64} (hRead : Read n s i replicas) : Read n t i replicas := by
    obtain ⟨hFirst, hAbove, hBelow⟩ := hRead
    exact ⟨by rw [hLog]; exact firstInspected_append hFirst, by omega, by omega⟩
  revert hStanding hPermits
  generalize requests.phase s.log i (.request ip serviceID direction) = point
  intro hStanding hPermits
  cases point with
  | fresh =>
      obtain rfl : op = .serviceInspect serviceID := hPermits
      cases answer with
      | error err => trivial
      | ok service =>
          obtain ⟨stored, count, hService, hCount, hAbove, hBelow⟩ := hInv.stored
          obtain rfl : stored = service :=
            Option.some.inj (hService.symm.trans ((inspect_of_exec answered).2 service rfl))
          obtain ⟨_, _, hThree⟩ := hInv.range hLow hHigh atOp hAbove hBelow
          have hRead : Read n t i count := by
            refine ⟨?_, by omega, by omega⟩
            rw [hLog, firstInspected_fresh hStanding rfl]
            exact hCount
          simp only [Point.advance, inspected_of_range hDirection hCount hThree]
          rcases hDirection with rfl | rfl
          · exact ⟨rfl, hRead⟩
          · exact ⟨count, hRead, rfl⟩
  | looking service replicas =>
      obtain ⟨rfl, hRead⟩ := hStanding
      rcases hPermits with rfl | rfl | ⟨rfl, _⟩
      · obtain ⟨hFound, _⟩ := found_of_exec answered
        rw [hInv.noEntry] at hFound
        subst hFound
        exact ⟨replicas, read hRead, rfl⟩
      · cases fail <;> cases answered
      · exact absurd (hInv.range hLow hHigh atOp hRead.2.1 hRead.2.2).1 (by decide)
  | committed newReplicas =>
      obtain rfl : op = .serviceInspect serviceID := hPermits
      obtain ⟨replicas, hRead, hNew⟩ := hStanding
      cases answer with
      | error err => trivial
      | ok current => exact ⟨replicas, read hRead, hNew⟩
  | writing current newReplicas =>
      rcases hPermits with rfl | ⟨spec, rfl, _⟩
      · cases fail <;> cases answered
      · cases answer <;> trivial
  | succeeded | failed => exact hPermits.elim
  | _ => exact hStanding.elim

/-- A call either leaves Docker as it is and goes on, or it makes its one update. -/
theorem CountInv.write_or_quiet (hInv : CountInv serviceID n calls s)
    (hLow : calls.countP (directed "under") + 2 ≤ n.toNat)
    (hHigh : n.toNat + calls.countP (directed "over") < 2 ^ 64) {fail : Bool}
    (atOp : s.threads[i]? = some ⟨.request ip serviceID direction, .perform op next⟩)
    (answered : exec nodes i op fail s.world = some (answer, world)) :
    (∃ version spec replicas service, op = .serviceUpdate serviceID version spec ∧
      Accepts fail s.world serviceID version ∧ Read n s i replicas ∧
        spec.replicas? = some (target direction replicas) ∧ s.world.services serviceID = some service ∧
          world = s.world.setService serviceID { service with version := version + 1, spec := spec } ∧
            (Point.advance direction (requests.phase s.log i (.request ip serviceID direction)) op
              answer).isSucceeded = true) ∨
    ((∀ version spec, op = .serviceUpdate serviceID version spec → ¬ Accepts fail s.world serviceID version) ∧
      world = s.world ∧ (Point.advance direction (requests.phase s.log i (.request ip serviceID direction)) op
        answer).isSucceeded = false) := by
  obtain ⟨hDirection, hStanding, hPermits⟩ := hInv.point atOp
  revert hStanding hPermits
  generalize requests.phase s.log i (.request ip serviceID direction) = point
  intro hStanding hPermits
  cases point with
  | fresh =>
      obtain rfl : op = .serviceInspect serviceID := hPermits
      refine Or.inr ⟨?_, (inspect_of_exec answered).1, ?_⟩
      · intro _ _ hOp
        cases hOp
      · cases answer with
        | error err => rfl
        | ok service =>
            simp only [Point.advance, Point.inspected]
            repeat' split
            all_goals rfl
  | looking service replicas =>
      obtain ⟨rfl, hRead⟩ := hStanding
      rcases hPermits with rfl | rfl | ⟨rfl, _⟩
      · refine Or.inr ⟨?_, (found_of_exec answered).2, ?_⟩
        · intro _ _ hOp
          cases hOp
        · cases answer <;> rfl
      · cases fail <;> cases answered
      · exact absurd (hInv.range hLow hHigh atOp hRead.2.1 hRead.2.2).1 (by decide)
  | committed newReplicas =>
      obtain rfl : op = .serviceInspect serviceID := hPermits
      refine Or.inr ⟨?_, (inspect_of_exec answered).1, ?_⟩
      · intro _ _ hOp
        cases hOp
      · cases answer <;> rfl
  | writing current newReplicas =>
      obtain ⟨replicas, hRead, rfl⟩ := hStanding
      rcases hPermits with rfl | ⟨spec, rfl, hSpec⟩
      · cases fail <;> cases answered
      · rcases update_of_exec answered with ⟨hAccepts, rfl, service, hService, hWorld⟩ |
          ⟨hRefused, ⟨err, rfl⟩, hWorld⟩
        · exact Or.inl ⟨_, spec, replicas, service, rfl, hAccepts, hRead, hSpec, hService, hWorld, rfl⟩
        · refine Or.inr ⟨?_, hWorld, rfl⟩
          intro version spec hOp
          cases hOp
          exact hRefused
  | succeeded | failed => exact hPermits.elim
  | _ => exact hStanding.elim

theorem calls_resume {call : Call} (atOp : s.threads[i]? = some ⟨call, .perform op next⟩)
    (hFork : (machine nodes).forks op = none) :
    ((machine nodes).resume { s with world := world } i call op next answer).threads.map Thread.call =
      s.threads.map Thread.call := by
  obtain ⟨hi, hThread⟩ := List.getElem?_eq_some_iff.mp atOp
  apply List.ext_getElem?
  intro j
  by_cases hji : i = j
  · subst hji
    simp [Machine.resume, hFork, hi, hThread]
  · simp [Machine.resume, hFork, List.getElem?_set_ne hji]

theorem toNat_target {replicas : UInt64} (hDirection : direction = "over" ∨ direction = "under")
    (hOver : direction = "over" → replicas.toNat + 1 < 2 ^ 64)
    (hUnder : direction = "under" → 3 ≤ replicas.toNat) :
    (target direction replicas).toNat + (if direction = "under" then 1 else 0) =
      replicas.toNat + if direction = "over" then 1 else 0 := by
  rcases hDirection with rfl | rfl
  · have hSmall := hOver rfl
    simp [target, UInt64.toNat_add]
    omega
  · have hThree := hUnder rfl
    have hLe : (1 : UInt64) ≤ replicas := by
      rw [UInt64.le_iff_toNat_le]
      exact Nat.le_trans (by decide) hThree
    simp [target, UInt64.toNat_sub_of_le _ _ hLe]
    omega

theorem CountInv.forks_eq_none (hInv : CountInv serviceID n calls s)
    (atOp : s.threads[i]? = some ⟨.request ip serviceID direction, .perform op next⟩) :
    (machine nodes).forks op = none := by
  obtain ⟨_, hStanding, hPermits⟩ := hInv.point atOp
  cases op with
  | goKeepAlive =>
      cases hPoint : requests.phase s.log i (.request ip serviceID direction) <;>
        rw [hPoint] at hStanding hPermits <;> first | exact hStanding.elim | simp [Point.permits] at hPermits
  | _ => rfl

theorem CountInv.standing_step (hInv : CountInv serviceID n calls s)
    (hFork : (machine nodes).forks op = none)
    (ht : t = (machine nodes).resume { s with world := world } i (.request ip serviceID direction) op next answer)
    (atOp : s.threads[i]? = some ⟨.request ip serviceID direction, .perform op next⟩)
    (hUnder : returned s "under" ≤ returned t "under") (hOver : returned s "over" ≤ returned t "over")
    (hNext : Standing n t i direction (Point.advance direction
      (requests.phase s.log i (.request ip serviceID direction)) op answer)) :
    ∀ j thread, t.threads[j]? = some thread → ∃ ip direction,
      thread.call = .request ip serviceID direction ∧ (direction = "over" ∨ direction = "under") ∧
        Standing n t j direction (requests.phase t.log j thread.call) := by
  intro j thread hThread
  have hLog : t.log = s.log ++ [⟨i, op, answer, (next answer).result⟩] := by rw [ht]; rfl
  rw [ht] at hThread
  rcases (machine nodes).resume_threads hThread with ⟨rfl, rfl⟩ | ⟨hOther, hOld⟩ | ⟨_, child, hChild, _⟩
  · refine ⟨ip, direction, rfl, (hInv.point atOp).1, ?_⟩
    rw [hLog, Tracking.phase_append_self]
    exact hNext
  · obtain ⟨ip', direction', hCall, hDirection, hStanding⟩ := hInv.standing j thread hOld
    refine ⟨ip', direction', hCall, hDirection, ?_⟩
    rw [hLog, Tracking.phase_append_other _ (Ne.symm hOther)]
    exact hStanding.mono hUnder hOver hLog (Ne.symm hOther)
  · cases hFork.symm.trans hChild

theorem CountInv.returned_eq (hInv : CountInv serviceID n calls s)
    (atOp : s.threads[i]? = some ⟨.request ip serviceID direction, .perform op next⟩)
    (ht : t = (machine nodes).resume { s with world := world } i
      (.request ip serviceID direction) op next answer) (d : String) :
    returned t d = returned s d + if returnedNil d ⟨.request ip serviceID direction, next answer⟩ then 1 else 0 := by
  rw [ht]
  exact returned_resume atOp (hInv.forks_eq_none atOp) d

/-- After its step the call stands where the protocol says, with what it has read still in
range of the calls that have returned. -/
theorem CountInv.stands (hInv : CountInv serviceID n calls s)
    (hLow : calls.countP (directed "under") + 2 ≤ n.toNat)
    (hHigh : n.toNat + calls.countP (directed "over") < 2 ^ 64) {fail : Bool}
    (atOp : s.threads[i]? = some ⟨.request ip serviceID direction, .perform op next⟩)
    (answered : exec nodes i op fail s.world = some (answer, world))
    (ht : t = (machine nodes).resume { s with world := world } i
      (.request ip serviceID direction) op next answer) :
    returned s "under" ≤ returned t "under" ∧ returned s "over" ≤ returned t "over" ∧
      Standing n t i direction (Point.advance direction
        (requests.phase s.log i (.request ip serviceID direction)) op answer) := by
  have hUnder : returned s "under" ≤ returned t "under" := by
    rw [hInv.returned_eq atOp ht]
    omega
  have hOver : returned s "over" ≤ returned t "over" := by
    rw [hInv.returned_eq atOp ht]
    omega
  have hLog : t.log = s.log ++ [⟨i, op, answer, (next answer).result⟩] := by rw [ht]; rfl
  exact ⟨hUnder, hOver, hInv.standing_next hLow hHigh atOp answered hUnder hOver hLog⟩

/-- A call has returned nil exactly when it has made its update. -/
theorem CountInv.returned_call (hInv : CountInv serviceID n calls s)
    (hLow : calls.countP (directed "under") + 2 ≤ n.toNat)
    (hHigh : n.toNat + calls.countP (directed "over") < 2 ^ 64) {fail : Bool}
    (atOp : s.threads[i]? = some ⟨.request ip serviceID direction, .perform op next⟩)
    (answered : exec nodes i op fail s.world = some (answer, world))
    (ht : t = (machine nodes).resume { s with world := world } i
      (.request ip serviceID direction) op next answer) (d : String) :
    returned t d = returned s d + if direction = d ∧ (Point.advance direction
      (requests.phase s.log i (.request ip serviceID direction)) op answer).isSucceeded = true then 1 else 0 := by
  have hResult : (next answer).result.any Except.isOk = (Point.advance direction
      (requests.phase s.log i (.request ip serviceID direction)) op answer).isSucceeded := by
    refine result_of_follows ((hInv.tracked i _ atOp).2 answer trivial) fun hKept => ?_
    have hNext := (hInv.stands hLow hHigh atOp answered ht).2.2
    rw [hKept] at hNext
    exact hNext
  rw [hInv.returned_eq atOp ht]
  simp [returnedNil, hResult, directed]

/-- The invariant after a step of a call, from what the step leaves in Docker and in the
table of keep-alives. -/
theorem CountInv.resumed (hInv : CountInv serviceID n calls s)
    (hLow : calls.countP (directed "under") + 2 ≤ n.toNat)
    (hHigh : n.toNat + calls.countP (directed "over") < 2 ^ 64) {fail : Bool}
    (atOp : s.threads[i]? = some ⟨.request ip serviceID direction, .perform op next⟩)
    (answered : exec nodes i op fail s.world = some (answer, world))
    (ht : t = (machine nodes).resume { s with world := world } i
      (.request ip serviceID direction) op next answer)
    (hNoEntry : ∀ key, t.world.keepAliveOps key = none)
    (hStored : ∃ service count, t.world.services serviceID = some service ∧
      service.spec.replicas? = some count ∧ n.toNat ≤ count.toNat + returned t "under" ∧
        count.toNat ≤ n.toNat + returned t "over") : CountInv serviceID n calls t := by
  have hStep : (machine nodes).step s (.step i fail) = some t := by
    rw [ht]
    exact (machine nodes).step_of_exec atOp answered
  obtain ⟨hUnder, hOver, hNext⟩ := hInv.stands hLow hHigh atOp answered ht
  have hFork : (machine nodes).forks op = none := hInv.forks_eq_none atOp
  exact {
    logged := (machine nodes).logged_step hInv.logged hStep
    tracked := requests_step hInv.logged hInv.tracked hStep
    calls := by rw [ht, calls_resume atOp hFork, hInv.calls]
    standing := hInv.standing_step hFork ht atOp hUnder hOver hNext
    noEntry := hNoEntry
    stored := hStored }

/-- An update that writes `target` keeps the counts adding up exactly when the call had
read the count that Docker still has. -/
theorem balanced_write_iff {replicas count : UInt64} (hBefore : s.world.replicas serviceID = some count)
    (hNew : t.world.replicas serviceID = some (target direction replicas))
    (hTarget : (target direction replicas).toNat + (if direction = "under" then 1 else 0) =
      replicas.toNat + if direction = "over" then 1 else 0)
    (hAfter : ∀ d, returned t d = returned s d + if direction = d then 1 else 0)
    (hBalanced : Balanced serviceID n s) : Balanced serviceID n t ↔ replicas = count := by
  have hUnder := hAfter "under"
  have hOver := hAfter "over"
  obtain ⟨_, hOld, hBalance⟩ := hBalanced
  obtain rfl := Option.some.inj (hBefore.symm.trans hOld)
  constructor
  · rintro ⟨_, hCurrent, hSum⟩
    obtain rfl := Option.some.inj (hNew.symm.trans hCurrent)
    exact UInt64.toNat_inj.mp (by omega)
  · rintro rfl
    exact ⟨_, hNew, by omega⟩

/-- One step of a call: the invariant holds again, and the counts still add up exactly
when the step meets the guard. -/
theorem CountInv.step_call (hInv : CountInv serviceID n calls s)
    (hLow : calls.countP (directed "under") + 2 ≤ n.toNat)
    (hHigh : n.toNat + calls.countP (directed "over") < 2 ^ 64) {fail : Bool}
    (atOp : s.threads[i]? = some ⟨.request ip serviceID direction, .perform op next⟩)
    (answered : exec nodes i op fail s.world = some (answer, world))
    (ht : t = (machine nodes).resume { s with world := world } i
      (.request ip serviceID direction) op next answer) :
    CountInv serviceID n calls t ∧
      (Balanced serviceID n s → (Balanced serviceID n t ↔ UpToDate serviceID s (.step i fail))) := by
  have hReturned := hInv.returned_call hLow hHigh atOp answered ht
  have resumed := hInv.resumed hLow hHigh atOp answered ht
  have hWorld : t.world = world := by rw [ht]; rfl
  obtain ⟨stored, count, hStored, hCount, hAbove, hBelow⟩ := hInv.stored
  have hReplicas : s.world.replicas serviceID = some count := by simp [World.replicas, hStored, hCount]
  rcases hInv.write_or_quiet hLow hHigh atOp answered with
    ⟨version, spec, replicas, service, rfl, hAccepts, hRead, hSpec, hService, rfl, hSucceeded⟩ |
    ⟨hRefused, rfl, hRunning⟩
  · obtain ⟨hDirection, _⟩ := hInv.point atOp
    obtain ⟨hFirst, hReadAbove, hReadBelow⟩ := hRead
    obtain ⟨_, hSmall, hThree⟩ := hInv.range hLow hHigh atOp hReadAbove hReadBelow
    have hTarget := toNat_target hDirection hSmall hThree
    have hAfter (d : String) : returned t d = returned s d + if direction = d then 1 else 0 := by
      simp [hReturned, hSucceeded]
    have hNew : t.world.replicas serviceID = some (target direction replicas) := by
      rw [hWorld, replicas_setService]
      exact hSpec
    have hUnderNext := hAfter "under"
    have hOverNext := hAfter "over"
    refine ⟨resumed ?_ ⟨{ service with version := version + 1, spec := spec }, target direction replicas,
      ?_, hSpec, by omega, by omega⟩, fun hBalanced => ?_⟩
    · rw [hWorld]
      exact hInv.noEntry
    · rw [hWorld]
      simp
    · rw [balanced_write_iff hReplicas hNew hTarget hAfter hBalanced, upToDate_step_iff atOp]
      constructor
      · intro hSame _ _ _ _
        rw [hFirst, hReplicas, hSame]
      · intro hGuard
        have hSame := hGuard version spec rfl hAccepts
        rw [hFirst, hReplicas] at hSame
        exact Option.some.inj hSame
  · have hAfter (d : String) : returned t d = returned s d := by simp [hReturned, hRunning]
    refine ⟨resumed ?_ ⟨stored, count, ?_, hCount, ?_, ?_⟩, fun hBalanced => ?_⟩
    · rw [hWorld]
      exact hInv.noEntry
    · rw [hWorld]
      exact hStored
    · rwa [hAfter]
    · rwa [hAfter]
    · refine iff_of_true ?_ ?_
      · obtain ⟨current, hCurrent, hSum⟩ := hBalanced
        exact ⟨current, by rw [hWorld]; exact hCurrent, by rw [hAfter, hAfter]; exact hSum⟩
      · rw [upToDate_step_iff atOp]
        exact fun version spec hOp hAccepts => absurd hAccepts (hRefused version spec hOp)

end Step

variable {calls : List Call}

theorem CountInv.step (hLow : calls.countP (directed "under") + 2 ≤ n.toNat)
    (hHigh : n.toNat + calls.countP (directed "over") < 2 ^ 64) (hInv : CountInv serviceID n calls s)
    (hNone : Machine.Admits (fun _ => False) s action) (hStep : (machine nodes).step s action = some t) :
    CountInv serviceID n calls t ∧
      (Balanced serviceID n s → (Balanced serviceID n t ↔ UpToDate serviceID s action)) := by
  have hTracked := requests_step hInv.logged hInv.tracked hStep
  cases (machine nodes).stepCase_of_step hStep with
  | invoke call => exact hNone.elim
  | @step i fail call op next answer world atOp answered =>
      obtain ⟨ip, direction, rfl, _⟩ := hInv.standing i _ atOp
      exact hInv.step_call hLow hHigh atOp answered rfl
  | @meet i j sender receiver send receive sent received answers atSend atReceive apart met waits =>
      obtain ⟨ch, keepAlive, rfl, rfl⟩ := channel_of_meet met
      obtain ⟨ip, direction, rfl, _⟩ := hInv.standing j _ atReceive
      obtain ⟨_, _, hPermits⟩ := hInv.point atReceive
      cases hPoint : requests.phase s.log j (.request ip serviceID direction) <;>
        simp [hPoint, Point.permits] at hPermits
  | disturb happens =>
      obtain ⟨hEntries, hServices⟩ := disturb_eq happens
      refine ⟨⟨hInv.logged, hTracked, hInv.calls, hInv.standing, ?_, ?_⟩, fun hBalanced => ?_⟩
      · rw [hEntries]
        exact hInv.noEntry
      · rw [hServices]
        exact hInv.stored
      · refine iff_of_true ?_ trivial
        obtain ⟨count, hCount, hSum⟩ := hBalanced
        exact ⟨count, by rwa [World.replicas, hServices], hSum⟩

theorem Balanced.start {service : Service} (hReplicas : service.spec.replicas? = some n)
    (hCalls : ∀ call ∈ calls, Asks service.id call) :
    Balanced service.id n (calling nodes service calls) := by
  have hNone (direction : String) : returned (calling nodes service calls) direction = 0 := by
    rw [returned, List.countP_eq_zero]
    intro thread hThread
    obtain ⟨call, hCall, rfl⟩ := List.mem_map.mp hThread
    have fresh (ip d : String) : (body nodes (.request ip service.id d)).result.any Except.isOk = false :=
      result_of_follows (follows_request : Program.Follows (requestProtocol _ _ d) _ _ _) nofun
    obtain ⟨ip, rfl | rfl⟩ := hCalls call hCall <;>
      simp [returnedNil, Machine.spawn, machine, fresh]
  exact ⟨n, by simp [World.replicas, calling, awake, hReplicas], by rw [hNone, hNone]⟩

/-- For any calls for a service with enough replicas, in any order of their steps: the
count is right in every state exactly when no update that Docker accepts goes by an
outdated count. -/
theorem balanced_throughout_iff {service : Service} {actions : List Action}
    (hReplicas : service.spec.replicas? = some n) (hCalls : ∀ call ∈ calls, Asks service.id call)
    (hLow : calls.countP (directed "under") + 2 ≤ n.toNat)
    (hHigh : n.toNat + calls.countP (directed "over") < 2 ^ 64)
    (hNone : Meets (machine nodes).step (Machine.Admits fun _ => False) (calling nodes service calls) actions)
    (hRun : run (machine nodes).step (calling nodes service calls) actions = some s) :
    Throughout (machine nodes).step (Balanced service.id n) (calling nodes service calls) actions ↔
      Meets (machine nodes).step (UpToDate service.id) (calling nodes service calls) actions :=
  throughout_iff_meets
    (fun _ _ _ hInv hAdmits _ hStep => (CountInv.step hLow hHigh hInv hAdmits hStep).1)
    (fun _ _ _ hInv hAdmits hBalanced hStep =>
      (CountInv.step hLow hHigh hInv hAdmits hStep).2 hBalanced)
    (CountInv.start hReplicas hCalls) (Balanced.start hReplicas hCalls) hNone hRun

/-- Two calls one after the other. -/
def kept : List Action := List.replicate 4 (.step 0 false) ++ List.replicate 3 (.step 1 false)

theorem balanced_kept :
    Throughout (machine pair).step (Balanced "web" 5)
      (calling pair (web 5) [.request "manager" "web" "over", .request "manager" "web" "under"]) kept := by
  have hRun : run (machine pair).step (calling pair (web 5)
      [.request "manager" "web" "over", .request "manager" "web" "under"]) kept =
      some ((run (machine pair).step (calling pair (web 5)
        [.request "manager" "web" "over", .request "manager" "web" "under"]) kept).get (by decide)) := by simp
  refine (balanced_throughout_iff (show (web 5).spec.replicas? = some 5 from rfl) ?_ (by decide) (by decide)
    (by decide) hRun).mpr (by decide)
  intro call hCall
  simp only [List.mem_cons, List.not_mem_nil, or_false] at hCall
  exact ⟨"manager", hCall⟩

end Invariant

end Cluster

import SwarmAutoscaler.Cluster.WriteBack

/-! The handler-node constraint and the replica count of a service are changed by two updates
of a request, each from a copy of its own. Other updates can come between the two. -/
namespace Cluster

open Docker Process

/-- The service is tied to its handler node. -/
def Pinned (hostName : String) (spec : ServiceSpec) : Prop :=
  ∃ placement ∈ spec.taskTemplate.placement, handlerConstraint hostName ∈ placement.constraints

/-- The service carries the constraint if and only if it has at most 1 replica. -/
def PinFits (hostName : String) (spec : ServiceSpec) : Prop :=
  ∀ replicas ∈ spec.replicas?, (Pinned hostName spec ↔ replicas ≤ 1)

/-- With no operation in progress the constraint fits the count. -/
def PinFollowsCount (hostName serviceID : String) (s : State) : Prop :=
  (∀ thread ∈ s.threads, idle thread = true) →
    ∀ service ∈ s.world.services serviceID, PinFits hostName service.spec

/-- Calls do not fail by themselves; Docker turns down outdated updates. -/
def Unfailing (_ : State) : Action → Prop
  | .step _ fail => fail = false
  | _ => True

/-- The constraint follows the count in every run. -/
def PinAlwaysFollows : Prop :=
  ∀ (nodes : Nodes) (w : World) (serviceID hostName : String) (service : Service) (actions : List Action),
    Named w → w.services serviceID = some service →
    service.spec.labels.lookup "autoscaler.handlerNode" = some hostName →
    service.spec.replicas?.isSome = true → PinFits hostName service.spec →
    Meets (machine nodes).step (fun s action => Machine.Admits (ForService nodes serviceID) s action ∧
      Unfailing s action)
      (start nodes w) actions →
    Throughout (machine nodes).step (PinFollowsCount hostName serviceID) (start nodes w) actions

/-- An "over" request comes between the constraint and the count of an "under" request. -/
def crossed : List Action :=
  [.invoke (.request "manager" "web" "under"), .invoke (.request "manager" "web" "over"),
    .step 2 false, .step 3 false, .step 3 false] ++ List.replicate 3 (.step 2 false) ++
      List.replicate 2 (.step 3 false)

instance (hostName : String) (spec : ServiceSpec) : Decidable (Pinned hostName spec) :=
  inferInstanceAs (Decidable (∃ placement ∈ spec.taskTemplate.placement, _))

instance (hostName : String) (spec : ServiceSpec) : Decidable (PinFits hostName spec) :=
  inferInstanceAs (Decidable (∀ replicas ∈ spec.replicas?, _))

instance (hostName serviceID : String) (s : State) : Decidable (PinFollowsCount hostName serviceID s) :=
  inferInstanceAs (Decidable (_ → ∀ service ∈ s.world.services serviceID, PinFits hostName service.spec))

instance (s : State) : DecidablePred (Unfailing s)
  | .step _ fail => inferInstanceAs (Decidable (fail = false))
  | .invoke _ | .meet _ _ | .disturb _ => isTrue trivial

/-- In the end the service has 3 replicas and is still tied to one node. -/
theorem not_pinAlwaysFollows : ¬ PinAlwaysFollows := by
  intro h
  have hFollows := h pair (awake (tied 2 [])) "web" "host1" (tied 2 []) crossed (named_awake _) rfl rfl rfl
    (by decide) (by decide)
  have hFinish := hFollows.at_finish (show run (machine pair).step (start pair (awake (tied 2 []))) crossed =
    some _ from rfl)
  exact absurd hFinish (by decide)

/-- The update a thread is about to make, with what it holds. -/
structure Writing where
  holding : Holding
  serviceID : String
  version : Nat
  spec : ServiceSpec

/-- The update that a thread is about to make, with the copy it makes it from. -/
def writing (s : State) (i : Nat) : Option Writing :=
  match s.threads[i]? with
  | some ⟨call, .perform (.serviceUpdate serviceID version spec) _⟩ =>
      some ⟨holdings.phase s.log i call, serviceID, version, spec⟩
  | _ => none

/-- A count for the handler node alone. -/
def alone? (spec : ServiceSpec) : Bool := spec.replicas?.all (· ≤ 1)

/-- An accepted update that moves the count across 1 and 2 comes from a request that has
changed the constraint, with no other update in between; and the count of a request that
has changed the constraint is not turned down. -/
def CrossesTogether (serviceID : String) (s : State) : Action → Prop
  | .step i _ => ∀ update ∈ writing s i, update.serviceID = serviceID → ∀ stored ∈ s.world.services serviceID,
      (stored.version = update.version → alone? update.spec ≠ alone? stored.spec →
        ∃ before ∈ update.holding.before?, stored.version = before.version + 1) ∧
      (update.holding.before?.isSome = true → stored.version = update.version)
  | _ => True

/-- The thread has changed the constraint of the service from a copy with this count, and
still has to write the count that belongs to it. -/
def Holding.Owes (holding : Holding) (serviceID : String) (replicas : UInt64) : Prop :=
  holding.serviceID? = some serviceID ∧ ∃ before ∈ holding.before?, before.spec.replicas? = some replicas

/-- Some thread has changed the constraints for a count that it has not written yet. -/
def Owed (serviceID : String) (replicas : UInt64) (s : State) : Prop :=
  ∃ i thread, s.threads[i]? = some thread ∧ (holdings.phase s.log i thread.call).Owes serviceID replicas

/-- The constraint fits the count, or a thread owes the count that makes it fit. -/
def Settled (hostName serviceID : String) (s : State) (spec : ServiceSpec) (replicas : UInt64) : Prop :=
  (Pinned hostName spec ↔ replicas ≤ 1) ∨
    (Pinned hostName spec ∧ ¬ replicas ≤ 1 ∧ Owed serviceID 2 s) ∨
    (¬ Pinned hostName spec ∧ replicas ≤ 1 ∧ Owed serviceID 1 s)

/-- The invariant of the runs below: the copies are those of Docker, the label stays, and
the stored pin is that of the stored count unless a thread still owes the count it was
changed for. -/
structure PinInv (hostName serviceID : String) (s : State) : Prop where
  copies : CopiesInv s
  kept : ∃ stored replicas, s.world.services serviceID = some stored ∧
    stored.spec.labels.lookup "autoscaler.handlerNode" = some hostName ∧ stored.spec.replicas? = some replicas ∧
      Settled hostName serviceID s stored.spec replicas

section Step

variable {nodes : Nodes} {hostName serviceID : String} {s t : State} {action : Action} {replicas : UInt64}
  {holding : Holding} {i : Nat} {call : Call} {op : Op} {next : op.Answer → Code Result} {answer : op.Answer}

/-- The debt of another thread stays, and that of the thread itself if its answer leaves it. -/
theorem owed_resume (atOp : s.threads[i]? = some ⟨call, .perform op next⟩) (h : Owed serviceID replicas s)
    (hKeep : (holdings.phase s.log i call).Owes serviceID replicas →
      ((holdings.phase s.log i call).advance op answer).Owes serviceID replicas) :
    Owed serviceID replicas ((machine nodes).resume s i call op next answer) := by
  obtain ⟨j, thread, hThread, hOwes⟩ := h
  by_cases hji : j = i
  · subst hji
    cases atOp.symm.trans hThread
    have hSelf : ((machine nodes).resume s j call op next answer).threads[j]? =
        some ⟨call, (machine nodes).settle call (next answer)⟩ :=
      (machine nodes).resume_self (List.getElem?_eq_some_iff.mp atOp).1
    refine ⟨j, _, hSelf, ?_⟩
    rw [Machine.resume_log, holdings.phase_append_self]
    exact hKeep hOwes
  · refine ⟨j, thread, (machine nodes).resume_other hThread hji, ?_⟩
    rwa [Machine.resume_log, holdings.phase_append_other (Ne.symm hji)]

theorem Holding.Owes.ne_none (h : holding.Owes serviceID replicas) : holding.before? ≠ none := by
  obtain ⟨_, before, hBefore, _⟩ := h
  rw [hBefore]
  exact nofun

/-- Only an update, a failed inspect or a panic ends a debt. -/
theorem Holding.Owes.advance (h : holding.Owes serviceID replicas) (hPermits : holding.permits op)
    (hInspect : op = .serviceInspect serviceID → succeeds op answer = true)
    (hUpdate : ∀ id version spec, op ≠ .serviceUpdate id version spec) (hRecover : op ≠ .recover) :
    (holding.advance op answer).Owes serviceID replicas := by
  have stays (hSame : holding.advance op answer = holding) :
      (holding.advance op answer).Owes serviceID replicas := by
    rw [hSame]
    exact h
  cases op with
  | serviceUpdate id version spec => exact absurd rfl (hUpdate id version spec)
  | serviceInspect id =>
      obtain ⟨hAt, before, hBefore, hReplicas⟩ := h
      obtain rfl : holding = .changed id before := hPermits before hBefore
      cases hAt
      obtain ⟨copy, rfl⟩ := ok_of_isOk (hInspect rfl)
      exact ⟨rfl, before, rfl, hReplicas⟩
  | httpPost ip endpoint =>
      cases endpoint with
      | scale => exact absurd hPermits h.ne_none
      | listen | remove => exact stays (Holding.advance_of_besides rfl)
  | perfRead ip => exact absurd hPermits h.ne_none
  | selectTimer keepAlive ch => exact absurd hPermits h.ne_none
  | nilDereference => exact answer.elim
  | recover => exact absurd rfl hRecover
  | _ => exact stays (Holding.advance_of_besides rfl)

/-- The update of a thread with a debt is one of the service it owes the count of. -/
theorem Holding.Owes.updates {id : String} {version : Nat} {spec : ServiceSpec}
    (h : holding.Owes serviceID replicas)
    (hPermits : holding.permits (.serviceUpdate id version spec)) : id = serviceID := by
  obtain ⟨hAt, before, hBefore, _⟩ := h
  cases holding with
  | scaling before? at? copy =>
      obtain ⟨rfl, _⟩ := hPermits
      exact Option.some.inj hAt
  | changing => cases hBefore
  | nothing | entered | changed => exact hPermits.elim

theorem succeeds_of_inspect {w w' : World} {stored : Service} {answer : Except String Service}
    (hStored : w.services serviceID = some stored)
    (hExec : exec nodes i (.serviceInspect serviceID) false w = some (answer, w')) :
    succeeds (.serviceInspect serviceID) answer = true := by
  simp only [exec, perform, hStored, Bool.false_eq_true, ↓reduceIte] at hExec
  cases hExec
  rfl

theorem owed_invoke (h : Owed serviceID replicas s) :
    Owed serviceID replicas { s with threads := s.threads ++ [(machine nodes).spawn call] } := by
  obtain ⟨j, thread, hThread, hOwes⟩ := h
  exact ⟨j, thread, (machine nodes).invoke_threads.mpr (Or.inl hThread), hOwes⟩

/-- A thread that owes a count is in the middle of an operation. -/
theorem not_idle_of_owed (hTracked : Machine.EachThread holdings.Tracked s) (h : Owed serviceID replicas s) :
    ∃ thread ∈ s.threads, idle thread = false := by
  obtain ⟨i, ⟨call, program⟩, hThread, hOwes⟩ := h
  have hBusy := hOwes.ne_none
  have hFollows : program.Follows holdingProtocol anyAnswer (holdings.phase s.log i call) := hTracked i _ hThread
  refine ⟨_, List.mem_of_getElem? hThread, ?_⟩
  cases program with
  | done result => exact absurd hFollows hBusy
  | perform op next =>
      have hPermits : (holdings.phase s.log i call).permits op := hFollows.1
      cases call with
      | request | keepAlive | listener =>
          cases op with
          | perfRead | selectTimer => exact absurd hPermits hBusy
          | _ => rfl

/-- A count that is owed excuses the pin as long as it is owed. -/
theorem Settled.mono {spec : ServiceSpec} {count : UInt64} (h : Settled hostName serviceID s spec count)
    (hOwed : ∀ owed, Owed serviceID owed s → Owed serviceID owed t) : Settled hostName serviceID t spec count := by
  rcases h with hFits | ⟨hPinned, hMany, hDebt⟩ | ⟨hPinned, hFew, hDebt⟩
  · exact Or.inl hFits
  · exact Or.inr (Or.inl ⟨hPinned, hMany, hOwed 2 hDebt⟩)
  · exact Or.inr (Or.inr ⟨hPinned, hFew, hOwed 1 hDebt⟩)

/-- Steps that leave the service as it is and pay no debt. -/
theorem PinInv.kept_of_same (h : PinInv hostName serviceID s)
    (hSame : t.world.services serviceID = s.world.services serviceID)
    (hOwed : ∀ owed, Owed serviceID owed s → Owed serviceID owed t) :
    ∃ stored replicas, t.world.services serviceID = some stored ∧
      stored.spec.labels.lookup "autoscaler.handlerNode" = some hostName ∧ stored.spec.replicas? = some replicas ∧
        Settled hostName serviceID t stored.spec replicas := by
  obtain ⟨stored, count, hStored, hLabel, hCount, hSettled⟩ := h.kept
  exact ⟨stored, count, hSame.trans hStored, hLabel, hCount, hSettled.mono hOwed⟩

section Constrained

variable {copy : Service}

/-- The update of the constraints pins the service exactly when it comes from a copy with
two replicas. -/
theorem pinned_constrained (hLabel : copy.spec.labels.lookup "autoscaler.handlerNode" = some hostName)
    (hVersion : (constrained copy).version = copy.version + 1) :
    Pinned hostName (constrained copy).spec ↔ copy.spec.replicas? = some 2 := by
  cases hPlacement : copy.spec.taskTemplate.placement with
  | none =>
      simp only [constrained, hLabel, hPlacement] at hVersion
      exact absurd hVersion (Nat.ne_of_lt (Nat.lt_succ_self _))
  | some placement =>
      simp only [constrained, hLabel, hPlacement, Pinned, ServiceSpec.setPlacement, Option.mem_def,
        Option.some.injEq,
        exists_eq_left']
      split
      · next hTwo => simp [hTwo]
      · next hTwo => simp [hTwo]

end Constrained

/-- A count that pays a debt crosses between 1 and 2. -/
theorem crosses_of_pays {before : Service} {count written : UInt64}
    (hCount : before.spec.replicas? = some replicas)
    (hPays : before.spec.replicas? = some 1 ∧ written = 2 ∨ before.spec.replicas? = some 2 ∧ written = 1)
    (hSame : (count ≤ 1 ↔ written ≤ 1)) : (replicas = 1 → ¬ count ≤ 1) ∧ (replicas = 2 → count ≤ 1) := by
  rcases hPays with ⟨hOne, rfl⟩ | ⟨hTwo, rfl⟩
  · cases hCount.symm.trans hOne
    exact ⟨fun _ hFew => absurd (hSame.mp hFew) (by decide), fun h => absurd h (by decide)⟩
  · cases hCount.symm.trans hTwo
    exact ⟨fun h => absurd h (by decide), fun _ => hSame.mpr (by decide)⟩

/-- An accepted change of the constraint leaves the thread with a debt. -/
theorem settled_changed {stored : Service} {count : UInt64}
    (hLabel : stored.spec.labels.lookup "autoscaler.handlerNode" = some hostName)
    (hCount : stored.spec.replicas? = some count) (hBoundary : count = 1 ∨ count = 2)
    (hVersion : (constrained stored).version = stored.version + 1)
    (hOwes : ∃ thread, t.threads[i]? = some thread ∧
      holdings.phase t.log i thread.call = .changed serviceID stored) :
    Settled hostName serviceID t (constrained stored).spec count := by
  obtain ⟨thread, hThread, hHolding⟩ := hOwes
  have owed : Owed serviceID count t := ⟨i, thread, hThread, by rw [hHolding]; exact ⟨rfl, stored, rfl, hCount⟩⟩
  have hPinned := pinned_constrained hLabel hVersion
  rw [hCount] at hPinned
  rcases hBoundary with rfl | rfl
  · exact Or.inr (Or.inr ⟨fun h => absurd (hPinned.mp h) (by decide), by decide, owed⟩)
  · exact Or.inr (Or.inl ⟨hPinned.mpr rfl, by decide, owed⟩)

/-- An accepted count that crosses between 1 and 2 pays the debt of its own thread. -/
theorem pinned_of_crossing {before stored : Service} {written : UInt64}
    (hFaithful : Faithful s.world (.scaling (some before) serviceID stored))
    (hStored : s.world.services serviceID = some stored) (hVersion : stored.version = before.version + 1)
    (hLabel : stored.spec.labels.lookup "autoscaler.handlerNode" = some hostName)
    (hPays : before.spec.replicas? = some 1 ∧ written = 2 ∨ before.spec.replicas? = some 2 ∧ written = 1) :
    Pinned hostName stored.spec ↔ written ≤ 1 := by
  have hChanged : (constrained before).version = before.version + 1 := hFaithful.changed before rfl
  have hHeld := (hFaithful.held (serviceID, constrained before)
    (List.mem_cons_of_mem _ (List.mem_singleton_self _))).1
  obtain rfl := hHeld.eq_of_version hStored (hVersion.trans hChanged.symm)
  rw [pinned_constrained (labels_constrained ▸ hLabel) hChanged]
  rcases hPays with ⟨hOne, rfl⟩ | ⟨hTwo, rfl⟩
  · rw [hOne]
    decide
  · rw [hTwo]
    decide

/-- An update of the service, by a thread whose count is not turned down. -/
theorem PinInv.kept_update {version : Nat} {spec : ServiceSpec} {world : World}
    {next : (Op.serviceUpdate serviceID version spec).Answer → Code Result} {answer : Except String Unit}
    (h : PinInv hostName serviceID s)
    (atOp : s.threads[i]? = some ⟨call, .perform (.serviceUpdate serviceID version spec) next⟩)
    (answered : exec nodes i (.serviceUpdate serviceID version spec) false s.world = some (answer, world))
    (hCrosses : CrossesTogether serviceID s (.step i false)) :
    ∃ stored replicas, world.services serviceID = some stored ∧
      stored.spec.labels.lookup "autoscaler.handlerNode" = some hostName ∧ stored.spec.replicas? = some replicas ∧
        Settled hostName serviceID
          ((machine nodes).resume { s with world := world } i call
            (.serviceUpdate serviceID version spec) next answer)
          stored.spec replicas := by
  obtain ⟨stored, count, hStored, hLabel, hCount, hSettled⟩ := h.kept
  have hWrites : (holdings.phase s.log i call).Writes serviceID version spec :=
    Tracking.Tracked.permits holdings h.copies.tracked atOp
  have hFaithful : Faithful s.world (holdings.phase s.log i call) := h.copies.faithful i _ atOp
  have hWriting : writing s i = some ⟨holdings.phase s.log i call, serviceID, version, spec⟩ := by
    simp [writing, atOp]
  obtain ⟨hCross, hThrough⟩ := hCrosses _ hWriting rfl stored hStored
  dsimp only at hCross hThrough
  have hSelf : ((machine nodes).resume { s with world := world } i call
    (.serviceUpdate serviceID version spec) next
      answer).threads[i]? = some ⟨call, (machine nodes).settle call (next answer)⟩ :=
    (machine nodes).resume_self (List.getElem?_eq_some_iff.mp atOp).1
  rcases update_of_exec answered with ⟨⟨_, hVersion⟩, rfl, other, hOther, rfl⟩ | ⟨hRejected, _, rfl⟩
  · cases hStored.symm.trans hOther
    have hCurrent : stored.version = version := by
      rw [hStored] at hVersion
      exact Option.some.inj hVersion
    rcases hFaithful.writes hWrites hStored hCurrent with ⟨id, hHolding, rfl⟩ | ⟨before?, hHolding⟩
    · rw [hHolding] at hWrites
      obtain ⟨_, _, rfl, hHost, hPlacement, hBoundary⟩ := hWrites
      have hChanged : (constrained stored).version = stored.version + 1 := by
        rw [constrained_eq hHost hPlacement]
      have hOne : count = 1 ∨ count = 2 := by simpa [hCount] using hBoundary
      refine ⟨_, count, Function.update_self .., ?_, ?_,
        settled_changed hLabel hCount hOne hChanged ⟨_, hSelf, ?_⟩⟩
      · rwa [labels_constrained]
      · rwa [replicas?_constrained]
      · refine holdings.phase_append_self.trans ?_
        exact congrArg (fun holding : Holding => holding.advance (.serviceUpdate ..) (.ok ())) hHolding
    · rw [hHolding] at hWrites
      obtain ⟨_, _, _, written, rfl, hPays⟩ := hWrites
      refine ⟨_, written, Function.update_self .., hLabel, ServiceSpec.replicas?_setReplicas .., ?_⟩
      have pays (owed : UInt64) (hSame : count ≤ 1 ↔ written ≤ 1)
          (hOwes : (holdings.phase s.log i call).Owes serviceID owed) :
            (owed = 1 → ¬ count ≤ 1) ∧ (owed = 2 → count ≤ 1) := by
        rw [hHolding] at hOwes
        obtain ⟨_, before, hBefore, hOwed⟩ := hOwes
        exact crosses_of_pays hOwed (hPays before hBefore) hSame
      by_cases hSame : (count ≤ 1 ↔ written ≤ 1)
      · rcases hSettled with hFits | ⟨hPinned, hMany, hDebt⟩ | ⟨hPinned, hFew, hDebt⟩
        · exact Or.inl (hFits.trans hSame)
        · refine Or.inr (Or.inl ⟨hPinned, fun h => hMany (hSame.mpr h), owed_resume atOp hDebt fun hOwes => ?_⟩)
          exact absurd ((pays 2 hSame hOwes).2 rfl) hMany
        · refine Or.inr (Or.inr ⟨hPinned, hSame.mp hFew, owed_resume atOp hDebt fun hOwes => ?_⟩)
          exact absurd hFew ((pays 1 hSame hOwes).1 rfl)
      · have hCrossing : alone? (stored.spec.setReplicas written) ≠ alone? stored.spec := by
          simp only [alone?, ServiceSpec.replicas?_setReplicas, hCount, Option.all_some, ne_eq, decide_eq_decide]
          exact fun hAlone => hSame hAlone.symm
        obtain ⟨before, hBefore, hAfter⟩ := hCross hCurrent hCrossing
        rw [hHolding] at hBefore hFaithful
        obtain rfl : before? = some before := hBefore
        have hPinned : Pinned hostName stored.spec ↔ written ≤ 1 :=
          pinned_of_crossing hFaithful hStored hAfter hLabel (hPays before rfl)
        exact Or.inl hPinned
  · have hNone : (holdings.phase s.log i call).before? = none := by
      cases hBefore : (holdings.phase s.log i call).before? with
      | none => rfl
      | some before =>
          have hCurrent := hThrough (by rw [hBefore]; rfl)
          exact absurd ⟨rfl, by rw [hStored, Option.map_some, hCurrent]⟩ hRejected
    refine ⟨stored, count, hStored, hLabel, hCount, hSettled.mono fun owed hOwed => ?_⟩
    exact owed_resume atOp hOwed fun hOwes => absurd hNone hOwes.ne_none

/-- One step keeps the invariant: the constraints and the count that belong together cross
the boundary without another update of the service in between. -/
theorem PinInv.step (h : PinInv hostName serviceID s) (hUnfailing : Unfailing s action)
    (hCrosses : CrossesTogether serviceID s action) (hStep : (machine nodes).step s action = some t) :
    PinInv hostName serviceID t := by
  have hAmid : (machineAmid disturb nodes).step s action = some t := hStep
  refine ⟨h.copies.step (fun _ _ _ hEnv => later_of_services (disturb_eq hEnv).2) hAmid, ?_⟩
  cases (machine nodes).stepCase_of_step hStep with
  | invoke call => exact h.kept_of_same rfl fun _ => owed_invoke
  | disturb happens => exact h.kept_of_same (congrFun (disturb_eq happens).2 serviceID) fun _ hOwed => hOwed
  | @meet i j sender receiver send receive sent received answers atSend atReceive apart met waits =>
      obtain ⟨ch, keepAlive, rfl, rfl⟩ := channel_of_meet met
      have hResting : (holdings.phase s.log j receiver).before? = none :=
        Tracking.Tracked.permits holdings h.copies.tracked atReceive
      refine h.kept_of_same rfl fun owed hOwed => ?_
      have hSent : Owed serviceID owed ((machine nodes).resume s i sender (.chanSend ch) sent answers.1) :=
        owed_resume atSend hOwed fun hOwes => by rwa [Holding.advance_of_besides rfl]
      refine owed_resume waits hSent fun hOwes => ?_
      rw [Machine.resume_log, holdings.phase_append_other apart] at hOwes
      exact absurd hResting hOwes.ne_none
  | @step i fail call op next answer world atOp answered =>
      obtain rfl : fail = false := hUnfailing
      have hPermits : (holdings.phase s.log i call).permits op :=
        Tracking.Tracked.permits holdings h.copies.tracked atOp
      cases hOp : op.updateOf serviceID with
      | some version =>
          obtain ⟨spec, rfl⟩ := Op.updateOf_eq_some_iff.mp hOp
          exact h.kept_update atOp answered hCrosses
      | none =>
          have hExec : exec nodes i op false s.world = some (answer, world) := answered
          have hEffect : Effect s.world op answer world := effect_of_exec hExec
          have hSame : world.services serviceID = s.world.services serviceID := services_of_effect hEffect hOp
          refine h.kept_of_same hSame fun owed hOwed => ?_
          have hKept : Owed serviceID owed { s with world := world } := hOwed
          refine owed_resume atOp hKept fun hOwes => ?_
          by_cases hUpdate : ∃ id version spec, op = .serviceUpdate id version spec
          · obtain ⟨id, version, spec, rfl⟩ := hUpdate
            exact absurd (hOwes.updates hPermits) (by simpa [Op.updateOf] using hOp)
          · refine hOwes.advance hPermits (fun hInspect => ?_)
              (fun id version spec hSame => hUpdate ⟨id, version, spec, hSame⟩) fun hRecover => ?_
            · subst hInspect
              obtain ⟨stored, _, hStored, _⟩ := h.kept
              exact succeeds_of_inspect hStored hExec
            · subst hRecover
              cases answered

end Step

/-- Where nobody owes a count the pin is that of the stored count. -/
theorem pinFollowsCount_of_pinInv {hostName serviceID : String} {s : State} (h : PinInv hostName serviceID s) :
    PinFollowsCount hostName serviceID s := by
  intro hIdle service hService replicas hReplicas
  obtain ⟨stored, count, hStored, _, hCount, hSettled⟩ := h.kept
  cases hService.symm.trans hStored
  cases hReplicas.symm.trans hCount
  have nobody (owed : UInt64) (hOwed : Owed serviceID owed s) : False := by
    obtain ⟨thread, hThread, hBusy⟩ := not_idle_of_owed h.copies.tracked hOwed
    rw [hIdle thread hThread] at hBusy
    cases hBusy
  rcases hSettled with hFits | ⟨_, _, hOwed⟩ | ⟨_, _, hOwed⟩
  · exact hFits
  · exact (nobody 2 hOwed).elim
  · exact (nobody 1 hOwed).elim

/-- The constraint follows the count in every run in which constraint and count cross the
boundary together. -/
theorem pinFollowsCount_of_crossesTogether (nodes : Nodes) (w : World) (serviceID hostName : String)
    (service : Service)
    (actions : List Action) (hNamed : Named w) (hStored : w.services serviceID = some service)
    (hLabel : service.spec.labels.lookup "autoscaler.handlerNode" = some hostName)
    (hReplicas : service.spec.replicas?.isSome = true) (hFits : PinFits hostName service.spec)
    (hMeets : Meets (machine nodes).step (fun s action => Unfailing s action ∧ CrossesTogether serviceID s action)
      (start nodes w) actions) :
    Throughout (machine nodes).step (PinFollowsCount hostName serviceID) (start nodes w) actions := by
  obtain ⟨count, hCount⟩ := Option.isSome_iff_exists.mp hReplicas
  have hStart : PinInv hostName serviceID (start nodes w) :=
    ⟨copiesInv_start hNamed, service, count, hStored, hLabel, hCount, Or.inl (hFits count hCount)⟩
  exact throughout_of_invariant (fun _ _ _ h hGuard => h.step hGuard.1 hGuard.2)
    (fun _ => pinFollowsCount_of_pinInv) hStart hMeets

instance (serviceID : String) (s : State) : DecidablePred (CrossesTogether serviceID s)
  | .step i _ => inferInstanceAs (Decidable (∀ update ∈ writing s i, _ →
    ∀ stored ∈ s.world.services serviceID, _ ∧ _))
  | .invoke _ | .meet _ _ | .disturb _ => isTrue trivial

/-- An "under" request from 2 replicas, then an "over" request back. -/
theorem pinFollowsCount_oneByOne : Throughout (machine pair).step (PinFollowsCount "host1" "web")
    (start pair (awake (tied 2 []))) (.invoke (.request "manager" "web" "under") :: List.replicate 4
      (.step 2 false) ++
      .invoke (.request "manager" "web" "over") :: List.replicate 5 (.step 3 false)) :=
  pinFollowsCount_of_crossesTogether pair (awake (tied 2 [])) "web" "host1" (tied 2 []) _
    (named_awake _) rfl rfl rfl
    (by decide) (by decide)

end Cluster

import SwarmAutoscaler.Monitoring.Dispatch

/-! What the maps say about a namespace, and which Monitors there are for it. A Monitor
enters its namespace into four maps one after the other and takes it out of four maps one
after the other; the removal stops at the first delete that fails, and `scaling_map` is
never cleaned. -/
namespace Monitoring

open Cluster (SwarmNodeInfo)
open Kernel (Data Maps SameAt)
open Process

/-- The Monitor has finished `addNamespace` and does not remove the namespace yet. -/
def Stage.serves : Stage → Bool
  | .serving _ | .scaling _ _ | .sleeping _ | .rearming _ => true
  | _ => false

/-- The Monitor has put its namespace into some map and has not returned. -/
def Stage.registers : Stage → Bool
  | .validating _ | .arming _ | .storing _ | .serving _ | .scaling _ _ | .sleeping _ | .rearming _ | .uncounting
  | .unbuffering | .invalidating | .forgetting | .fatal => true
  | _ => false

/-- The thread is a Monitor of the namespace and in its loop. -/
def Serves (v : View) (i : Nat) (netns : UInt32) : Prop :=
  ∃ standing ∈ v.stage i, standing.1 = .monitor netns ∧ standing.2.serves = true

/-- The thread is a Monitor of the namespace between its first put and the end of its
removal. -/
def Registers (v : View) (i : Nat) (netns : UInt32) : Prop :=
  ∃ standing ∈ v.stage i, standing.1 = .monitor netns ∧ standing.2.registers = true

/-- The kprobe counts for the namespace. -/
def Present (w : World) (netns : UInt32) : Prop :=
  (w.maps.validNetnsMap netns).isSome = true ∧ (w.maps.connCountMap netns).isSome = true

/-- Nothing of the namespace is left in any map. -/
def Absent (w : World) (netns : UInt32) : Prop :=
  w.maps.connCountMap netns = none ∧ w.maps.bufferMap netns = none ∧ w.maps.scalingMap netns = none ∧
    w.maps.validNetnsMap netns = none ∧ w.namespaceToContext netns = none

/-- A namespace is registered while a Monitor serves it, and is in no map when its Monitors
have returned. -/
structure Mirrors (v : View) (netns : UInt32) : Prop where
  served : ∀ i, Serves v i netns → Present v.world netns ∧ v.world.namespaceToContext netns = some i
  released : ∀ i, v.stage i = some (.monitor netns, .returned) →
    Absent v.world netns ∨ ∃ j, Registers v j netns

/-- The claim for every node, any maps and every run with one event loop. -/
def AlwaysMirrors : Prop :=
  ∀ (swarmNodeInfo : SwarmNodeInfo) (maps : Maps) (actions : List Action),
    Meets (machine swarmNodeInfo).step OneListener (start maps) actions →
    Throughout (machine swarmNodeInfo).step (fun s => ∀ netns, Mirrors (view swarmNodeInfo s) netns)
      (start maps) actions

/-- No Monitor serves the namespace. -/
def Unserved (v : View) (netns : UInt32) : Prop := ∀ i < v.size, ¬ Serves v i netns

/-- Without Monitor `i` the namespace is registered by another one, or it is in no map of
the world `w`. -/
def Released (v : View) (w : World) (i : Nat) (netns : UInt32) : Prop :=
  Absent w netns ∨ ∃ j < v.size, j ≠ i ∧ Registers v j netns

/-- When a Monitor's next step leaves the maps right: it stores its context while its own
entries are there and nobody else serves the namespace, it deletes an entry that no other
Monitor relies on, and it returns when nothing of the namespace is left. -/
def Clears (v : View) (i : Nat) (fail : Bool) (netns : UInt32) : Stage → Prop
  | .storing _ => Present v.world netns ∧ Unserved v netns
  | .uncounting =>
      if fail = false ∧ (v.world.maps.connCountMap netns).isSome = true then Unserved v netns
      else Released v v.world i netns
  | .unbuffering => (fail = false ∧ (v.world.maps.bufferMap netns).isSome = true) ∨ Released v v.world i netns
  | .invalidating =>
      if fail = false ∧ (v.world.maps.validNetnsMap netns).isSome = true then Unserved v netns
      else Released v v.world i netns
  | .forgetting => Unserved v netns ∧ Released v (v.world.setContext netns none) i netns
  | _ => True

/-- Every step of a Monitor of the node clears; a Monitor without a manager to send to
returns on a signal. -/
def Tidy (swarmNodeInfo : SwarmNodeInfo) (v : View) : Action → Prop
  | .step i fail => ∀ standing ∈ v.stage i, ∀ netns ∈ standing.1.netns, Clears v i fail netns standing.2
  | .meet _ i => ∀ standing ∈ v.stage i, ∀ netns ∈ standing.1.netns,
      reachesManager swarmNodeInfo = true ∨ Released v v.world i netns
  | _ => True

section Congr

variable {v v' : View} {netns : UInt32}

theorem Mirrors.congr (h : Mirrors v netns) (hMaps : SameAt v.world.maps v'.world.maps netns)
    (hContext : v'.world.namespaceToContext netns = v.world.namespaceToContext netns)
    (hServes : ∀ i, Serves v' i netns ↔ Serves v i netns)
    (hRegisters : ∀ i, Registers v' i netns ↔ Registers v i netns)
    (hReturned : ∀ i, v'.stage i = some (.monitor netns, .returned) ↔
      v.stage i = some (.monitor netns, .returned)) :
    Mirrors v' netns := by
  refine ⟨fun i hi => ?_, fun i hi => ?_⟩
  · obtain ⟨hThere, hFound⟩ := h.served i ((hServes i).mp hi)
    rw [Present, hMaps.validNetnsMap, hMaps.connCountMap, hContext]
    exact ⟨hThere, hFound⟩
  · rw [Absent, hMaps.connCountMap, hMaps.bufferMap, hMaps.scalingMap, hMaps.validNetnsMap, hContext]
    exact (h.released i ((hReturned i).mp hi)).imp id fun ⟨j, hj⟩ => ⟨j, (hRegisters j).mpr hj⟩

end Congr

section Turn

variable {v : View} {w' : World} {i j : Nat} {call : Call} {netns other : UInt32} {before after : Stage}

/-- Thread `i` comes to a stage, with a world. -/
def View.moved (v : View) (w' : World) (i : Nat) (call : Call) (after : Stage) : View :=
  ⟨w', v.size, Function.update v.stage i (some (call, after))⟩

theorem serves_moved_self : Serves (v.moved w' i (.monitor netns) after) i netns ↔ after.serves = true := by
  simp [Serves, View.moved]

theorem registers_moved_self :
    Registers (v.moved w' i (.monitor netns) after) i netns ↔ after.registers = true := by
  simp [Registers, View.moved]

theorem serves_moved_other (h : j ≠ i) : Serves (v.moved w' i call after) j netns ↔ Serves v j netns := by
  simp [Serves, View.moved, Function.update_of_ne h]

theorem registers_moved_other (h : j ≠ i) :
    Registers (v.moved w' i call after) j netns ↔ Registers v j netns := by
  simp [Registers, View.moved, Function.update_of_ne h]

theorem returned_moved_other (h : j ≠ i) :
    (v.moved w' i call after).stage j = some (.monitor netns, .returned) ↔
      v.stage j = some (.monitor netns, .returned) := by
  simp [View.moved, Function.update_of_ne h]

theorem serves_iff (stands : v.stage i = some (.monitor netns, before)) :
    Serves v i netns ↔ before.serves = true := by
  simp [Serves, stands]

theorem registers_iff (stands : v.stage i = some (.monitor netns, before)) :
    Registers v i netns ↔ before.registers = true := by
  simp [Registers, stands]

theorem not_serves_elsewhere (stands : v.stage i = some (call, before)) (h : call.netns ≠ some netns) :
    ¬ Serves v i netns := by
  rintro ⟨standing, hAt, hCall, _⟩
  obtain rfl := Option.some.inj (hAt.symm.trans stands)
  exact h (congrArg Call.netns hCall)

theorem not_registers_elsewhere (stands : v.stage i = some (call, before)) (h : call.netns ≠ some netns) :
    ¬ Registers v i netns := by
  rintro ⟨standing, hAt, hCall, _⟩
  obtain rfl := Option.some.inj (hAt.symm.trans stands)
  exact h (congrArg Call.netns hCall)

/-- A step of a thread leaves the other namespaces as they were. -/
theorem mirrors_moved_elsewhere (hMirrors : Mirrors v netns) (stands : v.stage i = some (call, before))
    (h : call.netns ≠ some netns)
    (hMaps : SameAt v.world.maps w'.maps netns)
    (hContext : w'.namespaceToContext netns = v.world.namespaceToContext netns) :
    Mirrors (v.moved w' i call after) netns := by
  have hAfter : (v.moved w' i call after).stage i = some (call, after) := Function.update_self ..
  have hNone {stage : Stage} : ¬ (call, stage) = (.monitor netns, .returned) := fun hSame =>
    h (congrArg Call.netns (congrArg Prod.fst hSame))
  refine hMirrors.congr hMaps hContext (fun j => ?_) (fun j => ?_) fun j => ?_
  · by_cases hji : j = i
    · subst hji
      exact iff_of_false (not_serves_elsewhere hAfter h) (not_serves_elsewhere stands h)
    · exact serves_moved_other hji
  · by_cases hji : j = i
    · subst hji
      exact iff_of_false (not_registers_elsewhere hAfter h) (not_registers_elsewhere stands h)
    · exact registers_moved_other hji
  · by_cases hji : j = i
    · subst hji
      rw [hAfter, stands]
      exact iff_of_false (fun hSame => hNone (Option.some.inj hSame)) fun hSame => hNone (Option.some.inj hSame)
    · exact returned_moved_other hji

/-- A Monitor that stays registered and removes nothing. -/
theorem mirrors_moved_calm (hMirrors : Mirrors v netns) (stands : v.stage i = some (.monitor netns, before))
    (hServes : after.serves = true → before.serves = true) (hRegisters : after.registers = true)
    (hPresent : Present v.world netns → Present w' netns)
    (hContext : w'.namespaceToContext netns = v.world.namespaceToContext netns) :
    Mirrors (v.moved w' i (.monitor netns) after) netns := by
  refine ⟨fun j hj => ?_, fun j _ => Or.inr ⟨i, registers_moved_self.mpr hRegisters⟩⟩
  have hBefore : Serves v j netns := by
    by_cases hji : j = i
    · subst hji
      exact (serves_iff stands).mpr (hServes (serves_moved_self.mp hj))
    · exact (serves_moved_other hji).mp hj
  obtain ⟨hThere, hFound⟩ := hMirrors.served j hBefore
  exact ⟨hPresent hThere, hContext.trans hFound⟩

/-- A Monitor that has registered nothing yet and changes nothing. -/
theorem mirrors_moved_early (hMirrors : Mirrors v netns) (stands : v.stage i = some (.monitor netns, before))
    (hServes : after.serves = false) (hRegisters : before.registers = false) (hReturned : after ≠ .returned) :
    Mirrors (v.moved v.world i (.monitor netns) after) netns := by
  refine ⟨fun j hj => ?_, fun j hj => ?_⟩
  · by_cases hji : j = i
    · subst hji
      rw [serves_moved_self, hServes] at hj
      cases hj
    · exact hMirrors.served j ((serves_moved_other hji).mp hj)
  · by_cases hji : j = i
    · subst hji
      have hSame := (Function.update_self ..).symm.trans hj
      cases hSame
      exact absurd rfl hReturned
    · refine (hMirrors.released j ((returned_moved_other hji).mp hj)).imp id fun ⟨k, hk⟩ => ⟨k, ?_⟩
      have hOther : k ≠ i := by
        rintro rfl
        rw [registers_iff stands, hRegisters] at hk
        cases hk
      exact (registers_moved_other hOther).mpr hk

/-- Every thread has a number below the size. -/
def Bounded (v : View) : Prop := ∀ i standing, v.stage i = some standing → i < v.size

theorem unserved_iff (hBounded : Bounded v) : Unserved v netns ↔ ∀ i, ¬ Serves v i netns :=
  ⟨fun h i hi => h i (hBounded i _ hi.choose_spec.1) hi, fun h i _ => h i⟩

theorem released_iff (hBounded : Bounded v) :
    Released v w' i netns ↔ Absent w' netns ∨ ∃ j, j ≠ i ∧ Registers v j netns :=
  or_congr Iff.rfl ⟨fun ⟨j, _, hOther, hj⟩ => ⟨j, hOther, hj⟩,
    fun ⟨j, hOther, hj⟩ => ⟨j, hBounded j _ hj.choose_spec.1, hOther, hj⟩⟩

/-- The Monitor stores its context. -/
theorem mirrors_moved_store (hSound : Sound v) {ctx : Nat}
    (stands : v.stage i = some (.monitor netns, .storing ctx)) :
    Mirrors (v.moved (v.world.setContext netns (some ctx)) i (.monitor netns) (.serving ctx)) netns ↔
      Present v.world netns ∧ Unserved v netns := by
  obtain rfl := hSound.named i _ _ ctx stands rfl
  rw [unserved_iff hSound.bounded]
  constructor
  · intro h
    refine ⟨(h.served ctx (serves_moved_self.mpr rfl)).1, fun j hj => ?_⟩
    have hOther : j ≠ ctx := by
      rintro rfl
      exact nomatch (serves_iff stands).mp hj
    have hFound := (h.served j ((serves_moved_other hOther).mpr hj)).2
    rw [View.moved, World.setContext_self] at hFound
    exact hOther (Option.some.inj hFound).symm
  · rintro ⟨hPresent, hUnserved⟩
    refine ⟨fun j hj => ?_, fun j _ => Or.inr ⟨ctx, registers_moved_self.mpr rfl⟩⟩
    by_cases hji : j = ctx
    · subst hji
      exact ⟨hPresent, World.setContext_self⟩
    · exact absurd ((serves_moved_other hji).mp hj) (hUnserved j)

/-- The Monitor deletes an entry that a serving Monitor needs. -/
theorem mirrors_moved_delete (hSound : Sound v) (stands : v.stage i = some (.monitor netns, before))
    (hBefore : before.serves = false)
    (hServes : after.serves = false) (hRegisters : after.registers = true) (hGone : ¬ Present w' netns) :
    Mirrors (v.moved w' i (.monitor netns) after) netns ↔ Unserved v netns := by
  rw [unserved_iff hSound.bounded]
  constructor
  · intro h j hj
    have hOther : j ≠ i := by
      rintro rfl
      rw [serves_iff stands, hBefore] at hj
      cases hj
    exact hGone (h.served j ((serves_moved_other hOther).mpr hj)).1
  · intro hUnserved
    refine ⟨fun j hj => ?_, fun j _ => Or.inr ⟨i, registers_moved_self.mpr hRegisters⟩⟩
    by_cases hji : j = i
    · subst hji
      rw [serves_moved_self, hServes] at hj
      cases hj
    · exact absurd ((serves_moved_other hji).mp hj) (hUnserved j)

/-- The Monitor returns. -/
theorem mirrors_moved_return (hBounded : Bounded v) :
    Mirrors (v.moved w' i (.monitor netns) .returned) netns ↔
      (∀ j, j ≠ i → Serves v j netns → Present w' netns ∧ w'.namespaceToContext netns = some j) ∧
        Released v w' i netns := by
  have hSelf : ¬ Registers (v.moved w' i (.monitor netns) .returned) i netns := fun hi =>
    nomatch registers_moved_self.mp hi
  rw [released_iff hBounded]
  constructor
  · intro h
    refine ⟨fun j hOther hj => h.served j ((serves_moved_other hOther).mpr hj), ?_⟩
    refine (h.released i (Function.update_self ..)).imp id fun ⟨j, hj⟩ => ?_
    have hOther : j ≠ i := fun hSame => hSelf (hSame ▸ hj)
    exact ⟨j, hOther, (registers_moved_other hOther).mp hj⟩
  · rintro ⟨hOthers, hReleased⟩
    refine ⟨fun j hj => ?_, fun j _ => ?_⟩
    · by_cases hji : j = i
      · subst hji
        exact nomatch serves_moved_self.mp hj
      · exact hOthers j hji ((serves_moved_other hji).mp hj)
    · exact hReleased.imp id fun ⟨k, hOther, hk⟩ => ⟨k, (registers_moved_other hOther).mpr hk⟩

theorem mirrors_moved_return_same (hBounded : Bounded v) (hMirrors : Mirrors v netns) :
    Mirrors (v.moved v.world i (.monitor netns) .returned) netns ↔ Released v v.world i netns := by
  rw [mirrors_moved_return hBounded]
  exact ⟨And.right, fun h => ⟨fun j _ hj => hMirrors.served j hj, h⟩⟩

theorem mirrors_moved_forget (hSound : Sound v) (stands : v.stage i = some (.monitor netns, .forgetting)) :
    Mirrors (v.moved (v.world.setContext netns none) i (.monitor netns) .returned) netns ↔
      Unserved v netns ∧ Released v (v.world.setContext netns none) i netns := by
  rw [mirrors_moved_return hSound.bounded, unserved_iff hSound.bounded]
  refine and_congr_left fun _ => ⟨fun h j hj => ?_, fun h j _ hj => absurd hj (h j)⟩
  have hOther : j ≠ i := by
    rintro rfl
    exact nomatch (serves_iff stands).mp hj
  have hFound := (h j hOther hj).2
  rw [World.setContext_self] at hFound
  cases hFound

/-- A step of a Monitor keeps its namespace right exactly when it clears. -/
theorem mirrors_moved_iff {fail : Bool} (hSound : Sound v) (hMirrors : Mirrors v netns)
    (stands : v.stage i = some (.monitor netns, before))
    (moves : Moves v.world i fail (.monitor netns) before after w') :
    Mirrors (v.moved w' i (.monitor netns) after) netns ↔ Clears v i fail netns before := by
  cases moves with
  | create =>
      exact iff_of_true (mirrors_moved_early hMirrors stands rfl rfl fun h => nomatch h) trivial
  | countFailed | validateFailed | armFailed | request | sleep | rearmFailed | done =>
      exact iff_of_true (mirrors_moved_calm hMirrors stands (fun h => by first | rfl | cases h) rfl id rfl) trivial
  | count =>
      refine iff_of_true (mirrors_moved_calm hMirrors stands (fun h => nomatch h) rfl (fun h => ⟨h.1, ?_⟩) rfl)
        trivial
      simp
  | validate =>
      refine iff_of_true (mirrors_moved_calm hMirrors stands (fun h => nomatch h) rfl (fun h => ⟨?_, h.2⟩) rfl)
        trivial
      simp
  | arm | rearm =>
      exact iff_of_true (mirrors_moved_calm hMirrors stands (fun h => by first | rfl | cases h) rfl id rfl) trivial
  | store => exact mirrors_moved_store hSound stands
  | uncount removes =>
      rw [Clears, if_pos removes]
      refine mirrors_moved_delete hSound stands rfl rfl rfl fun hPresent => ?_
      simp [Present] at hPresent
  | uncountFailed fails =>
      rw [Clears, if_neg fails]
      exact mirrors_moved_return_same hSound.bounded hMirrors
  | unbuffer removes =>
      refine iff_of_true (mirrors_moved_calm hMirrors stands (fun h => nomatch h) rfl (fun h => ?_) rfl)
        (Or.inl removes)
      exact h
  | unbufferFailed fails =>
      rw [Clears, or_iff_right fails]
      exact mirrors_moved_return_same hSound.bounded hMirrors
  | invalidate removes =>
      rw [Clears, if_pos removes]
      refine mirrors_moved_delete hSound stands rfl rfl rfl fun hPresent => ?_
      simp [Present] at hPresent
  | invalidateFailed fails =>
      rw [Clears, if_neg fails]
      exact mirrors_moved_return_same hSound.bounded hMirrors
  | forget => exact mirrors_moved_forget hSound stands

end Turn

section Exact

variable {swarmNodeInfo : SwarmNodeInfo} {v v' : View} {action : Action} {netns other : UInt32}

theorem Moves.elsewhere {w w' : World} {i : Nat} {fail : Bool} {call : Call} {before after : Stage}
    (h : Moves w i fail call before after w') (hOther : call.netns ≠ some netns) :
    SameAt w.maps w'.maps netns ∧ w'.namespaceToContext netns = w.namespaceToContext netns := by
  have apart {own : UInt32} (hOwn : (Call.monitor own).netns ≠ some netns) : netns ≠ own := fun hSame =>
    hOwn (congrArg some hSame.symm)
  cases h with
  | count | uncount => exact ⟨Kernel.sameAt_putConnCount (apart hOther) _, rfl⟩
  | validate | invalidate => exact ⟨Kernel.sameAt_putValid (apart hOther) _, rfl⟩
  | arm | rearm => exact ⟨Kernel.sameAt_putScaling (apart hOther) _, rfl⟩
  | unbuffer => exact ⟨Kernel.sameAt_putBuffer (apart hOther) _, rfl⟩
  | store | forget => exact ⟨Kernel.SameAt.refl _ _, World.setContext_other (apart hOther)⟩
  | _ => exact ⟨Kernel.SameAt.refl _ _, rfl⟩

/-- A call of the kprobe leaves registrations as they are. -/
theorem mirrors_kprobe {w : World} {sk : Option UInt8} {output : Output} (hMirrors : Mirrors v other)
    (happens : disturb (.kprobe netns sk output) v.world = some w) : Mirrors ⟨w, v.size, v.stage⟩ other := by
  cases happens
  by_cases hOther : other = netns
  · subst hOther
    cases hValid : v.world.maps.validNetnsMap other with
    | none =>
        have hSame : SameAt v.world.maps (Kernel.kprobeTcpRecvmsg v.world.maps other sk).1 other := by
          rw [Kernel.kprobe_invalid hValid]
          exact Kernel.SameAt.refl _ _
        exact hMirrors.congr hSame rfl (fun _ => Iff.rfl) (fun _ => Iff.rfl) fun _ => Iff.rfl
    | some value =>
        refine ⟨fun i hi => ?_, fun i hi => (hMirrors.released i hi).imp (fun hAbsent => ?_) id⟩
        · obtain ⟨⟨hThere, hCount⟩, hFound⟩ := hMirrors.served i hi
          refine ⟨⟨?_, Kernel.kprobe_connCountMap_isSome hCount⟩, hFound⟩
          show ((Kernel.kprobeTcpRecvmsg v.world.maps other sk).1.validNetnsMap other).isSome = true
          rw [Kernel.kprobe_validNetnsMap]
          exact hThere
        · exact absurd (hValid.symm.trans hAbsent.2.2.2.1) (by simp)
  · exact hMirrors.congr (Kernel.kprobe_sameAt hOther) rfl (fun _ => Iff.rfl) (fun _ => Iff.rfl) fun _ => Iff.rfl

/-- A started thread has registered nothing. -/
theorem mirrors_invoke {call : Call} (unused : v.stage v.size = none) (hMirrors : Mirrors v netns) :
    Mirrors ⟨v.world, v.size + 1,
      Function.update v.stage v.size (some (call, (stages swarmNodeInfo).initial call))⟩ netns := by
  have hInitial : ((stages swarmNodeInfo).initial call).serves = false ∧
      ((stages swarmNodeInfo).initial call).registers = false ∧
        (stages swarmNodeInfo).initial call ≠ .returned := by
    cases call <;> exact ⟨rfl, rfl, fun h => nomatch h⟩
  refine hMirrors.congr (Kernel.SameAt.refl _ _) rfl (fun i => ?_) (fun i => ?_) fun i => ?_
  · by_cases hi : i = v.size
    · subst hi
      simp [Serves, unused, hInitial]
    · simp [Serves, Function.update_of_ne hi]
  · by_cases hi : i = v.size
    · subst hi
      simp [Registers, unused, hInitial]
    · simp [Registers, Function.update_of_ne hi]
  · by_cases hi : i = v.size
    · subst hi
      simp [unused, hInitial]
    · simp [Function.update_of_ne hi]

/-- A disturbance registers nothing and removes nothing. -/
theorem mirrors_disturb {env : Env} {world : World} (hMirrors : Mirrors v netns)
    (happens : disturb env v.world = some world) : Mirrors ⟨world, v.size, v.stage⟩ netns := by
  cases env with
  | kprobe other sk output => exact mirrors_kprobe hMirrors happens
  | cancel ctx =>
      cases happens
      exact hMirrors.congr (Kernel.SameAt.refl _ _) rfl (fun _ => Iff.rfl) (fun _ => Iff.rfl) fun _ => Iff.rfl

/-- A thread that moves on alone keeps every other network namespace right, so that the
condition on its own decides. -/
theorem mirrors_step_iff {i : Nat} {fail : Bool} {call : Call} {before after : Stage} {world : World}
    (hSound : Sound v) (hMirrors : ∀ netns, Mirrors v netns) (stands : v.stage i = some (call, before))
    (moves : Moves v.world i fail call before after world) :
    (∀ netns, Mirrors (v.moved world i call after) netns) ↔ Tidy swarmNodeInfo v (.step i fail) := by
  have elsewhere (netns : UInt32) (hOther : call.netns ≠ some netns) :
      Mirrors (v.moved world i call after) netns :=
    mirrors_moved_elsewhere (hMirrors netns) stands hOther (moves.elsewhere hOther).1
      (moves.elsewhere hOther).2
  have monitor_of {netns : UInt32} (hOwn : call.netns = some netns) : call = .monitor netns := by
    cases call with
    | monitor own => exact congrArg Call.monitor (Option.some.inj hOwn)
    | listener => cases hOwn
  have hTidy : Tidy swarmNodeInfo v (.step i fail) ↔ ∀ netns ∈ call.netns, Clears v i fail netns before := by
    simp [Tidy, stands]
  rw [hTidy]
  constructor
  · intro hAfter netns hOwn
    obtain rfl := monitor_of hOwn
    exact (mirrors_moved_iff hSound (hMirrors netns) stands moves).mp (hAfter netns)
  · intro hClears netns
    by_cases hOwn : call.netns = some netns
    · obtain rfl := monitor_of hOwn
      exact (mirrors_moved_iff hSound (hMirrors netns) stands moves).mpr (hClears netns rfl)
    · exact elsewhere netns hOwn

section Meet

variable {i j : Nat} {data : Data} {ctx : Nat} {own : UInt32}

/-- The event loop that has sent its signal changes nobody's registration. -/
theorem mirrors_sent (hMirrors : Mirrors v netns) (sends : v.stage i = some (.listener, .sending data ctx)) :
    Mirrors (v.moved v.world i .listener .reading) netns :=
  mirrors_moved_elsewhere hMirrors sends (fun hNone => nomatch hNone) (Kernel.SameAt.refl _ _) rfl

theorem bounded_sent (hSound : Sound v) (sends : v.stage i = some (.listener, .sending data ctx)) :
    Bounded (v.moved v.world i .listener .reading) := fun k _ hk =>
  (update_eq_some hk).elim (fun hSelf => hSelf.1 ▸ hSound.bounded i _ sends) fun hOld =>
    hSound.bounded k _ hOld.2

theorem released_sent (hSound : Sound v) (sends : v.stage i = some (.listener, .sending data ctx)) :
    Released (v.moved v.world i .listener .reading) v.world j own ↔ Released v v.world j own := by
  have hListener : ¬ Registers v i own := not_registers_elsewhere sends fun hNone => nomatch hNone
  rw [released_iff (bounded_sent hSound sends), released_iff hSound.bounded]
  refine or_congr Iff.rfl (exists_congr fun k => and_congr_right fun _ => ?_)
  by_cases hki : k = i
  · subst hki
    exact iff_of_false (not_registers_elsewhere (Function.update_self ..) fun hNone => nomatch hNone) hListener
  · exact registers_moved_other hki

/-- A signal that arrives: the event loop moves on first, then the Monitor, which returns
when it has no manager to ask. -/
theorem mirrors_meet_iff (hSound : Sound v) (hMirrors : ∀ netns, Mirrors v netns) (apart : i ≠ j)
    (sends : v.stage i = some (.listener, .sending data ctx))
    (receives : v.stage j = some (.monitor own, .serving ctx)) :
    (∀ netns, Mirrors ((v.moved v.world i .listener .reading).moved v.world j (.monitor own)
      (Stage.signalled swarmNodeInfo ctx data.message)) netns) ↔ Tidy swarmNodeInfo v (.meet i j) := by
  have hReceives : (v.moved v.world i .listener .reading).stage j = some (.monitor own, .serving ctx) :=
    (Function.update_of_ne (Ne.symm apart) ..).trans receives
  have elsewhere {stage : Stage} (netns : UInt32) (hOther : netns ≠ own) :
      Mirrors ((v.moved v.world i .listener .reading).moved v.world j (.monitor own) stage) netns :=
    mirrors_moved_elsewhere (mirrors_sent (hMirrors netns) sends) hReceives
      (fun hSame => hOther (Option.some.inj hSame).symm) (Kernel.SameAt.refl _ _) rfl
  have hTidy : Tidy swarmNodeInfo v (.meet i j) ↔
      (reachesManager swarmNodeInfo = true ∨ Released v v.world j own) := by
    simp [Tidy, receives, Call.netns]
  rw [hTidy]
  cases hReaches : reachesManager swarmNodeInfo with
  | true =>
      refine iff_of_true (fun netns => ?_) (Or.inl rfl)
      rw [Stage.signalled, if_pos hReaches]
      by_cases hOwn : netns = own
      · subst hOwn
        exact mirrors_moved_calm (mirrors_sent (hMirrors netns) sends) hReceives (fun _ => rfl) rfl id rfl
      · exact elsewhere netns hOwn
  | false =>
      have hStage : Stage.signalled swarmNodeInfo ctx data.message = .returned := by
        rw [Stage.signalled, hReaches]
        rfl
      have hReturns : Mirrors ((v.moved v.world i .listener .reading).moved v.world j
        (.monitor own) .returned) own ↔
          Released (v.moved v.world i .listener .reading) v.world j own :=
        mirrors_moved_return_same (bounded_sent hSound sends) (mirrors_sent (hMirrors own) sends)
      rw [hStage, or_iff_right Bool.false_ne_true, ← released_sent hSound sends, ← hReturns]
      refine ⟨fun h => h own, fun h netns => ?_⟩
      by_cases hOwn : netns = own
      · subst hOwn
        exact h
      · exact elsewhere netns hOwn

end Meet

/-- Exactly the tidy steps keep the maps right. -/
theorem mirrors_advances_iff (hSound : Sound v) (hMirrors : ∀ netns, Mirrors v netns)
    (h : Advances swarmNodeInfo v action v') :
    (∀ netns, Mirrors v' netns) ↔ Tidy swarmNodeInfo v action := by
  cases h with
  | invoke unused => exact iff_of_true (fun netns => mirrors_invoke unused (hMirrors netns)) trivial
  | step stands moves => exact mirrors_step_iff hSound hMirrors stands moves
  | meet apart sends receives => exact mirrors_meet_iff hSound hMirrors apart sends receives
  | disturb happens => exact iff_of_true (fun netns => mirrors_disturb (hMirrors netns) happens) trivial

end Exact

instance (v : View) (i : Nat) (netns : UInt32) : Decidable (Serves v i netns) :=
  inferInstanceAs (Decidable (∃ standing ∈ v.stage i, _))

instance (v : View) (i : Nat) (netns : UInt32) : Decidable (Registers v i netns) :=
  inferInstanceAs (Decidable (∃ standing ∈ v.stage i, _))

instance (w : World) (netns : UInt32) : Decidable (Present w netns) := inferInstanceAs (Decidable (_ ∧ _))

instance (w : World) (netns : UInt32) : Decidable (Absent w netns) := inferInstanceAs (Decidable (_ ∧ _))

instance (v : View) (netns : UInt32) : Decidable (Unserved v netns) :=
  inferInstanceAs (Decidable (∀ i < v.size, ¬ Serves v i netns))

instance (v : View) (w : World) (i : Nat) (netns : UInt32) : Decidable (Released v w i netns) :=
  inferInstanceAs (Decidable (_ ∨ ∃ j < v.size, _))

instance (v : View) (i : Nat) (fail : Bool) (netns : UInt32) : DecidablePred (Clears v i fail netns)
  | .storing _ | .forgetting => inferInstanceAs (Decidable (_ ∧ _))
  | .uncounting =>
      inferInstanceAs (Decidable (if fail = false ∧
        (v.world.maps.connCountMap netns).isSome = true then Unserved v netns
        else Released v v.world i netns))
  | .invalidating =>
      inferInstanceAs (Decidable (if fail = false ∧
        (v.world.maps.validNetnsMap netns).isSome = true then Unserved v netns
        else Released v v.world i netns))
  | .unbuffering => inferInstanceAs (Decidable (_ ∨ _))
  | .fresh | .counting _ | .validating _ | .arming _ | .serving _ | .scaling _ _ | .sleeping _ | .rearming _ |
    .fatal
  | .returned | .reading | .looking _ | .checking _ _ | .sending _ _ => isTrue trivial

instance (swarmNodeInfo : SwarmNodeInfo) (v : View) : DecidablePred (Tidy swarmNodeInfo v)
  | .step i _ => inferInstanceAs (Decidable (∀ standing ∈ v.stage i, ∀ netns ∈ standing.1.netns, _))
  | .meet _ i => inferInstanceAs (Decidable (∀ standing ∈ v.stage i, ∀ netns ∈ standing.1.netns, _))
  | .invoke _ | .disturb _ => isTrue trivial

/-- A container of namespace 5 comes and goes without a packet. -/
def silent : List Action :=
  .invoke (.monitor 5) :: List.replicate 5 (.step 1 false) ++
    .disturb (.cancel 1) :: List.replicate 3 (.step 1 false)

/-- The state that this run ends in. -/
def afterSilence : State := (run (machine manager).step (start limits) silent).get (by decide)

/-- `BufferMap.Delete` fails, the removal stops there. -/
theorem not_alwaysMirrors : ¬ AlwaysMirrors := by
  intro h
  have hRun : run (machine manager).step (start limits) silent = some afterSilence := by simp [afterSilence]
  have hFinish := (h manager limits silent (by decide)).at_finish hRun 5
  rcases hFinish.released 1 rfl with hAbsent | ⟨j, hj⟩
  · exact absurd hAbsent (by decide)
  · have hNone : ∀ k < 2, ¬ Registers (view manager afterSilence) k 5 := by decide
    exact hNone j (bounded_view afterSilence j _ hj.choose_spec.1) hj

/-- The maps mirror the Monitors throughout a run exactly if every step of the run is tidy. -/
theorem mirrors_throughout_iff (swarmNodeInfo : SwarmNodeInfo) (maps : Maps) (actions : List Action)
    (finish : State)
    (hRun : run (machine swarmNodeInfo).step (start maps) actions = some finish) :
    Throughout (machine swarmNodeInfo).step (fun s => ∀ netns, Mirrors (view swarmNodeInfo s) netns)
        (start maps) actions ↔
      Meets (machine swarmNodeInfo).step (fun s => Tidy swarmNodeInfo (view swarmNodeInfo s))
        (start maps) actions := by
  have exactStep (s : State) (action : Action) (t : State) (hInv : Coherent swarmNodeInfo s)
      (hMirrors : ∀ netns, Mirrors (view swarmNodeInfo s) netns)
      (hStep : (machine swarmNodeInfo).step s action = some t) :
      (∀ netns, Mirrors (view swarmNodeInfo t) netns) ↔ Tidy swarmNodeInfo (view swarmNodeInfo s) action :=
    mirrors_advances_iff hInv.sound hMirrors (hInv.advances hStep)
  have hStart (netns : UInt32) : Mirrors (view swarmNodeInfo (start maps)) netns := by
    refine ⟨fun i hi => ?_, fun i hi => ?_⟩
    · obtain ⟨standing, hAt, hCall, _⟩ := hi
      exact nomatch hCall.symm.trans (stage_start hAt).2.1
    · exact nomatch (stage_start hi).2.1
  exact throughout_iff_guarded (fun _ _ _ => Coherent.step) exactStep (coherent_start maps) hStart hRun

/-- A Monitor removes its namespace while the next one for it registers it, and returns
before that one has finished. -/
def succession : List Action :=
  .invoke (.monitor 5) :: List.replicate 5 (.step 1 false) ++ .disturb (.cancel 1) ::
    List.replicate 2 (.step 1 false) ++ .invoke (.monitor 5) :: List.replicate 2 (.step 2 false) ++
      .step 1 false :: List.replicate 3 (.step 2 false)

/-- While a Monitor runs, the maps have its namespace, and one that has returned leaves it to
its successor. -/
theorem mirrors_signalling :
    Throughout (machine manager).step (fun s => ∀ netns, Mirrors (view manager s) netns) (start limits) signalling ∧
      Throughout (machine manager).step (fun s => ∀ netns, Mirrors (view manager s) netns) (start limits)
        succession ∧
      ∃ s, run (machine manager).step (start limits) succession = some s ∧
        (view manager s).stage 1 = some (.monitor 5, .returned) ∧
        (view manager s).stage 2 = some (.monitor 5, .serving 2) := by
  have hSignalling : run (machine manager).step (start limits) signalling =
      some ((run (machine manager).step (start limits) signalling).get (by decide)) := by simp
  have hSuccession : run (machine manager).step (start limits) succession =
      some ((run (machine manager).step (start limits) succession).get (by decide)) := by simp
  exact ⟨(mirrors_throughout_iff manager limits signalling _ hSignalling).mpr (by decide +kernel),
    (mirrors_throughout_iff manager limits succession _ hSuccession).mpr (by decide +kernel),
    _, hSuccession, by decide +kernel, by decide +kernel⟩

end Monitoring

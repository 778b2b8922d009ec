import SwarmAutoscaler.Monitoring.Outstanding

/-! The flag of a namespace stops the kprobe until a Monitor clears it, and a Monitor clears
it after an event. An event that gets lost on its way leaves the flag set, and the container
is not scaled again. -/
namespace Monitoring

open Cluster (SwarmNodeInfo)
open Kernel (Data Maps kprobeTcpRecvmsg)
open Process

/-- A Monitor of the namespace has been started and its container has not stopped. -/
def Watched (v : View) (netns : UInt32) : Prop :=
  ∃ i < v.size, ∃ standing ∈ v.stage i, standing.1 = .monitor netns ∧ v.world.cancelled i = false

/-- While the flag of a watched namespace is set, an event is under way. -/
def NotFrozen (v : View) (netns : UInt32) : Prop :=
  v.world.maps.scalingMap netns = some 1 → Watched v netns → outstanding v netns ≠ 0

/-- The claim for every node, any maps and every run with one event loop. -/
def NeverFrozen : Prop :=
  ∀ (swarmNodeInfo : SwarmNodeInfo) (maps : Maps) (actions : List Action),
    Meets (machine swarmNodeInfo).step OneListener (start maps) actions →
    Throughout (machine swarmNodeInfo).step (fun s => ∀ netns, NotFrozen (view swarmNodeInfo s) netns)
      (start maps) actions

/-- One event of the namespace may be dropped. -/
def Spare (v : View) (netns : UInt32) : Prop :=
  v.world.maps.scalingMap netns = some 1 → Watched v netns → 2 ≤ outstanding v netns

/-- The event loop drops an event whose context it does not find or finds done, and a
re-arm that fails leaves the flag set: this happens only where an event can be spared. -/
def Heeds (v : View) (fail : Bool) : Call × Stage → Prop
  | (.monitor netns, .rearming _) => fail = true → Spare v netns
  | (.listener, .looking data) => v.world.namespaceToContext data.netns = none → Spare v data.netns
  | (.listener, .checking data ctx) => v.world.cancelled ctx = true → Spare v data.netns
  | _ => True

/-- No step leaves a flag set without an event: a Monitor is not started where the flag of
an earlier one is still set, the kprobe's event reaches the perf buffer, the event loop does
not drop it, the Monitor has a manager to send to and clears the flag. -/
def Heedful (swarmNodeInfo : SwarmNodeInfo) (v : View) : Action → Prop
  | .invoke call => ∀ netns ∈ call.netns, v.world.cancelled v.size = false →
      v.world.maps.scalingMap netns = some 1 → outstanding v netns ≠ 0
  | .step i fail => ∀ standing ∈ v.stage i, Heeds v fail standing
  | .meet _ i => ∀ standing ∈ v.stage i, ∀ netns ∈ standing.1.netns,
      reachesManager swarmNodeInfo = true ∨ Spare v netns
  | .disturb (.kprobe netns sk output) => (kprobeTcpRecvmsg v.world.maps netns sk).2 = none ∨ output = .stored ∨
      ¬ Watched v netns ∨ outstanding v netns ≠ 0
  | .disturb (.cancel _) => True

section Exact

variable {swarmNodeInfo : SwarmNodeInfo} {v v' : View} {action : Action} {netns : UInt32}

theorem watched_moved {world : World} {i : Nat} {call : Call} {before after : Stage}
    (stands : v.stage i = some (call, before)) (hCancelled : world.cancelled = v.world.cancelled) :
    Watched ⟨world, v.size, Function.update v.stage i (some (call, after))⟩ netns ↔ Watched v netns := by
  refine exists_congr fun j => and_congr_right fun _ => ?_
  by_cases hji : j = i
  · subst hji
    simp [stands, hCancelled]
  · simp [Function.update_of_ne hji, hCancelled]

/-- A step that loses no event and sets no flag. -/
theorem NotFrozen.calm (h : NotFrozen v netns)
    (hFlag : v'.world.maps.scalingMap netns = some 1 → v.world.maps.scalingMap netns = some 1)
    (hWatched : Watched v' netns → Watched v netns) (hEvents : outstanding v netns ≤ outstanding v' netns) :
    NotFrozen v' netns := by
  intro hSet hWatch hNone
  exact h (hFlag hSet) (hWatched hWatch) (Nat.le_zero.mp (hNone ▸ hEvents))

/-- A step that loses an event. -/
theorem notFrozen_drop (hFlag : v'.world.maps.scalingMap netns = v.world.maps.scalingMap netns)
    (hWatched : Watched v' netns ↔ Watched v netns) (hEvents : outstanding v' netns + 1 = outstanding v netns) :
    NotFrozen v' netns ↔ Spare v netns := by
  rw [NotFrozen, Spare, hFlag, hWatched]
  refine forall_congr' fun _ => forall_congr' fun _ => ?_
  omega

/-- A put of 0 sets no flag. -/
theorem flag_of_cleared {flags : UInt32 → Option UInt32} {own : UInt32}
    (hSet : Function.update flags own (some 0) netns = some 1) : flags netns = some 1 := by
  by_cases hSame : netns = own
  · rw [hSame, Function.update_self] at hSet
    cases hSet
  · rwa [Function.update_of_ne hSame] at hSet

section Step

variable {i ctx : Nat} {fail : Bool} {call : Call} {before after : Stage} {world : World} {data : Data}

/-- The thread keeps every event that it or the perf buffer has. -/
theorem notFrozen_kept (hSound : Sound v) (h : ∀ netns, NotFrozen v netns)
    (stands : v.stage i = some (call, before)) (moves : Moves v.world i fail call before after world)
    (hEvents : ∀ netns, v.world.perf.countP (Record.concerns netns) + (handles netns (call, before)).toNat ≤
      world.perf.countP (Record.concerns netns) + (handles netns (call, after)).toNat)
    (hFlag : ∀ netns, world.maps.scalingMap netns = some 1 → v.world.maps.scalingMap netns = some 1)
    (netns : UInt32) : NotFrozen ⟨world, v.size, Function.update v.stage i (some (call, after))⟩ netns := by
  have hLe := hEvents netns
  have hSum := @outstanding_moved v world i call before after netns (hSound.bounded i _ stands) stands
  exact (h netns).calm (hFlag netns) (watched_moved stands moves.cancelled).mp (by omega)

/-- The thread drops the event of one namespace: there, and only there, an event has to be
spared. -/
theorem notFrozen_dropped (hSound : Sound v) (h : ∀ netns, NotFrozen v netns)
    (stands : v.stage i = some (call, before)) (moves : Moves v.world i fail call before after world)
    (own : UInt32) (hFlag : world.maps.scalingMap = v.world.maps.scalingMap) (hPerf : world.perf = v.world.perf)
    (hBefore : ∀ netns, handles netns (call, before) = (own == netns))
    (hAfter : ∀ netns, handles netns (call, after) = false) :
    (∀ netns, NotFrozen ⟨world, v.size, Function.update v.stage i (some (call, after))⟩ netns) ↔
      Spare v own := by
  have hSum (netns : UInt32) :=
    @outstanding_moved v world i call before after netns (hSound.bounded i _ stands) stands
  simp only [hPerf, hBefore, hAfter, Bool.toNat_false] at hSum
  have hOwn := hSum own
  rw [beq_self_eq_true, Bool.toNat_true] at hOwn
  have hDrop := @notFrozen_drop v ⟨world, v.size, Function.update v.stage i (some (call, after))⟩ own
    (congrFun hFlag own) (watched_moved stands moves.cancelled) (by omega)
  refine ⟨fun hAll => hDrop.mp (hAll own), fun hSpare netns => ?_⟩
  by_cases hSame : netns = own
  · subst hSame
    exact hDrop.mpr hSpare
  · have hOther := hSum netns
    have hApart : (own == netns) = false := beq_false_of_ne (Ne.symm hSame)
    rw [hApart, Bool.toNat_false] at hOther
    exact (h netns).calm (fun hSet => (congrFun hFlag netns).symm.trans hSet)
      (watched_moved stands moves.cancelled).mp (by omega)

/-- The re-arm takes the Monitor's event away and clears the flag it was for. -/
theorem notFrozen_rearm {own : UInt32} (hSound : Sound v) (h : ∀ netns, NotFrozen v netns)
    (stands : v.stage i = some (.monitor own, .rearming ctx))
    (hMaps : world.maps = v.world.maps.putScaling own (some 0)) (hPerf : world.perf = v.world.perf)
    (hCancelled : world.cancelled = v.world.cancelled) (netns : UInt32) :
    NotFrozen ⟨world, v.size, Function.update v.stage i (some (.monitor own, .serving ctx))⟩ netns := by
  by_cases hSame : netns = own
  · subst hSame
    intro hSet
    rw [hMaps] at hSet
    cases (Function.update_self ..).symm.trans hSet
  · have hOther := @outstanding_moved v world i (.monitor own) (.rearming ctx) (.serving ctx) netns
      (hSound.bounded i _ stands) stands
    have hApart : handles netns (.monitor own, .rearming ctx) = false := beq_false_of_ne (Ne.symm hSame)
    rw [hApart, Bool.toNat_false, hPerf] at hOther
    refine (h netns).calm (fun hSet => ?_) (watched_moved stands hCancelled).mp (by omega)
    rw [hMaps] at hSet
    exact flag_of_cleared hSet

/-- An event that is read passes from the perf buffer to the event loop. -/
theorem events_read {rest : List Record} (netns : UInt32) :
    (Record.sample data :: rest).countP (Record.concerns netns) + (handles netns (.listener, .reading)).toNat ≤
      rest.countP (Record.concerns netns) + (handles netns (.listener, .looking data)).toNat := by
  rw [List.countP_cons]
  by_cases hOwn : data.netns = netns
  · simp [Record.concerns, handles, hOwn]
  · have hNot : (data.netns == netns) = false := beq_false_of_ne hOwn
    simp [Record.concerns, handles, hNot]

/-- A record without a sample was never an event. -/
theorem events_skip {record : Record} {rest : List Record} (noSample : ∀ data, record ≠ .sample data)
    (netns : UInt32) : (record :: rest).countP (Record.concerns netns) = rest.countP (Record.concerns netns) := by
  have hRecord : Record.concerns netns record = false := by
    cases record with
    | sample data => exact absurd rfl (noSample data)
    | lost | malformed => rfl
  rw [List.countP_cons, hRecord]
  rfl

/-- A thread that moves on alone leaves no flag without an event exactly where it heeds the
event it drops. -/
theorem notFrozen_step (hSound : Sound v) (h : ∀ netns, NotFrozen v netns)
    (stands : v.stage i = some (call, before)) (moves : Moves v.world i fail call before after world) :
    (∀ netns, NotFrozen ⟨world, v.size, Function.update v.stage i (some (call, after))⟩ netns) ↔
      Heeds v fail (call, before) := by
  have kept := notFrozen_kept hSound h stands moves
  have dropped := notFrozen_dropped hSound h stands moves
  cases moves with
  | create | countFailed | validateFailed | armFailed | store | done | request | sleep | uncountFailed |
    unbufferFailed
  | invalidateFailed | forget | readFailed | count | validate | uncount | unbuffer | invalidate =>
      exact iff_of_true (kept (fun _ => Nat.le_refl _) fun _ hSet => hSet) trivial
  | arm => exact iff_of_true (kept (fun _ => Nat.le_refl _) fun _ => flag_of_cleared) trivial
  | rearm works =>
      exact iff_of_true (notFrozen_rearm hSound h stands rfl rfl rfl) fun hFail =>
        absurd (works.symm.trans hFail) Bool.false_ne_true
  | @rearmFailed own ctx fails =>
      rw [dropped own rfl rfl (fun _ => rfl) fun _ => rfl]
      exact ⟨fun hSpare _ => hSpare, fun hSpare => hSpare fails⟩
  | read perf =>
      refine iff_of_true (kept (fun netns => ?_) fun _ hSet => hSet) trivial
      rw [perf]
      exact events_read netns
  | skip perf noSample =>
      refine iff_of_true (kept (fun netns => ?_) fun _ hSet => hSet) trivial
      rw [perf, events_skip noSample]
  | @unknown data absent =>
      rw [dropped data.netns rfl rfl (fun _ => rfl) fun _ => rfl]
      exact ⟨fun hSpare _ => hSpare, fun hSpare => hSpare absent⟩
  | known found =>
      refine iff_of_true (kept (fun _ => Nat.le_refl _) fun _ hSet => hSet) fun hAbsent => ?_
      cases found.symm.trans hAbsent
  | @late data ctx cancelled =>
      rw [dropped data.netns rfl rfl (fun _ => rfl) fun _ => rfl]
      exact ⟨fun hSpare _ => hSpare, fun hSpare => hSpare cancelled⟩
  | inTime running =>
      refine iff_of_true (kept (fun _ => Nat.le_refl _) fun _ hSet => hSet) fun hCancelled => ?_
      cases running.symm.trans hCancelled

end Step

theorem notFrozen_invoke {call : Call} (h : ∀ netns, NotFrozen v netns) :
    (∀ netns, NotFrozen ⟨v.world, v.size + 1,
        Function.update v.stage v.size (some (call, (stages swarmNodeInfo).initial call))⟩ netns) ↔
      Heedful swarmNodeInfo v (.invoke call) := by
  have hEvents (netns : UInt32) : outstanding ⟨v.world, v.size + 1,
      Function.update v.stage v.size (some (call, (stages swarmNodeInfo).initial call))⟩ netns =
        outstanding v netns :=
    outstanding_started (by cases call <;> rfl)
  have hWatched (netns : UInt32) : Watched ⟨v.world, v.size + 1,
      Function.update v.stage v.size (some (call, (stages swarmNodeInfo).initial call))⟩ netns ↔
        Watched v netns ∨ (call = .monitor netns ∧ v.world.cancelled v.size = false) := by
    constructor
    · rintro ⟨i, hi, standing, hAt, hCall, hRuns⟩
      rcases update_eq_some hAt with ⟨rfl, rfl⟩ | ⟨hOther, hOld⟩
      · exact Or.inr ⟨hCall, hRuns⟩
      · have hLt : i < v.size := Nat.lt_of_le_of_ne (Nat.le_of_lt_succ hi) hOther
        exact Or.inl ⟨i, hLt, standing, hOld, hCall, hRuns⟩
    · rintro (⟨i, hi, standing, hAt, hCall, hRuns⟩ | ⟨hCall, hRuns⟩)
      · have hOther : i ≠ v.size := Nat.ne_of_lt hi
        exact ⟨i, Nat.lt_succ_of_lt hi, standing, (Function.update_of_ne hOther ..).trans hAt, hCall, hRuns⟩
      · exact ⟨v.size, Nat.lt_succ_self _, _, Function.update_self .., hCall, hRuns⟩
  constructor
  · intro hAll netns hOwn hRuns hSet
    have hCall : call = .monitor netns := by
      cases call with
      | monitor own => exact congrArg Call.monitor (Option.some.inj hOwn)
      | listener => cases hOwn
    rw [← hEvents]
    exact hAll netns hSet ((hWatched netns).mpr (Or.inr ⟨hCall, hRuns⟩))
  · intro hGuard netns hSet hWatch
    rw [hEvents]
    rcases (hWatched netns).mp hWatch with hOld | ⟨rfl, hRuns⟩
    · exact h netns hSet hOld
    · exact hGuard netns rfl hRuns hSet

theorem notFrozen_kprobe {w : World} {sk : Option UInt8} {output : Output} (h : ∀ netns, NotFrozen v netns)
    (happens : disturb (.kprobe netns sk output) v.world = some w) :
    (∀ other, NotFrozen ⟨w, v.size, v.stage⟩ other) ↔
      Heedful swarmNodeInfo v (.disturb (.kprobe netns sk output)) := by
  cases happens
  have hCases := Kernel.kprobe_cases v.world.maps netns sk
  have hSame (other : UInt32) (hOther : other ≠ netns) := @Kernel.kprobe_sameAt v.world.maps netns other sk hOther
  rw [Heedful]
  generalize kprobeTcpRecvmsg v.world.maps netns sk = result at hCases hSame ⊢
  obtain ⟨maps', event⟩ := result
  have hOutstanding (other : UInt32) : outstanding ⟨{ v.world with
      maps := maps', perf := v.world.perf ++ event.toList.flatMap fun data => output.records data }, v.size,
        v.stage⟩
      other = outstanding v other +
        (event.toList.flatMap fun data => output.records data).countP (Record.concerns other) := by
    simp only [outstanding, List.countP_append]
    omega
  have calm (other : UInt32) (hFlag : maps'.scalingMap other = some 1 → v.world.maps.scalingMap other = some 1) :
      NotFrozen ⟨{ v.world with
        maps := maps', perf := v.world.perf ++ event.toList.flatMap fun data => output.records data }, v.size,
          v.stage⟩
        other :=
    (h other).calm hFlag id (hOutstanding other ▸ Nat.le_add_right ..)
  have elsewhere (other : UInt32) (hOther : other ≠ netns) :=
    calm other fun hSet => (hSame other hOther).scalingMap.symm.trans hSet
  have everywhere (hFlag : maps'.scalingMap = v.world.maps.scalingMap) (other : UInt32) :=
    calm other fun hSet => (congrFun hFlag other).symm.trans hSet
  cases hCases with
  | unseen => exact iff_of_true (everywhere rfl) (Or.inl rfl)
  | counted count armed => exact iff_of_true (everywhere rfl) (Or.inl rfl)
  | sampled count buffer disarmed grows => exact iff_of_true (everywhere rfl) (Or.inl rfl)
  | signalled count limit message disarmed hLimit full =>
      have hWatched : Watched ⟨{ v.world with
          maps := ((v.world.maps.putConnCount netns (some count)).putScaling netns (some 1)).putBuffer netns
            (some 0)
          perf := v.world.perf ++ ((some ⟨netns, message⟩ : Option Data).toList.flatMap fun data =>
            output.records data) },
          v.size, v.stage⟩ netns ↔ Watched v netns := Iff.rfl
      have hOwn := hOutstanding netns
      constructor
      · intro hAll
        refine Or.inr (Decidable.or_iff_not_imp_left.mpr fun hLost => ?_)
        by_cases hWatch : Watched v netns
        · refine Or.inr fun hNone => hAll netns (by simp) hWatch ?_
          rw [hOwn, hNone]
          cases output with
          | stored => exact absurd rfl hLost
          | failed | lost | malformed => rfl
        · exact Or.inl hWatch
      · intro hGuard other
        by_cases hOther : other = netns
        · subst hOther
          intro _ hWatch
          rw [hOwn]
          rcases hGuard with hSilent | rfl | hUnwatched | hSome
          · cases hSilent
          · simp [Output.records, Record.concerns]
          · exact absurd hWatch hUnwatched
          · omega
        · exact elsewhere other hOther

theorem notFrozen_meet {i j ctx : Nat} {data : Data} {own : UInt32} (hSound : Sound v)
    (h : ∀ netns, NotFrozen v netns)
    (apart : i ≠ j) (sends : v.stage i = some (.listener, .sending data ctx))
    (receives : v.stage j = some (.monitor own, .serving ctx)) :
    (∀ netns, NotFrozen ⟨v.world, v.size, Function.update
      (Function.update v.stage i (some (.listener, .reading))) j
        (some (.monitor own, .signalled swarmNodeInfo ctx data.message))⟩ netns) ↔
      Heedful swarmNodeInfo v (.meet i j) := by
  have hGuard : Heedful swarmNodeInfo v (.meet i j) ↔ reachesManager swarmNodeInfo = true ∨ Spare v own := by
    simp [Heedful, receives, Call.netns]
  obtain ⟨rfl, rfl⟩ := hSound.met sends receives
  have hWatched (netns : UInt32) {after : Stage} : Watched ⟨v.world, v.size,
      Function.update (Function.update v.stage i (some (.listener, .reading))) ctx
        (some (.monitor data.netns, after))⟩
      netns ↔ Watched v netns :=
    (@watched_moved ⟨v.world, v.size, Function.update v.stage i (some (.listener, .reading))⟩ netns v.world ctx
      _ _ after
      (waits_meet apart receives) rfl).trans (watched_moved sends rfl)
  have hCount (netns : UInt32) (after : Stage) :=
    @outstanding_meet v i netns ctx data hSound apart sends receives after
  rw [hGuard]
  cases hReaches : reachesManager swarmNodeInfo with
  | true =>
      refine iff_of_true (fun netns => ?_) (Or.inl rfl)
      have hStage : Stage.signalled swarmNodeInfo ctx data.message = .scaling ctx data.message := by
        rw [Stage.signalled, if_pos hReaches]
      have hSum := hCount netns (.scaling ctx data.message)
      have hScaling : handles netns (.monitor data.netns, .scaling ctx data.message) = (data.netns == netns) := rfl
      rw [hScaling] at hSum
      rw [hStage]
      exact (h netns).calm id (hWatched netns).mp (by omega)
  | false =>
      have hStage : Stage.signalled swarmNodeInfo ctx data.message = .returned := by
        rw [Stage.signalled, hReaches]
        rfl
      have hSum (netns : UInt32) := hCount netns .returned
      have hReturned (netns : UInt32) : handles netns (.monitor data.netns, .returned) = false := rfl
      simp only [hReturned, Bool.toNat_false, Nat.add_zero] at hSum
      rw [hStage, or_iff_right Bool.false_ne_true]
      have hOwn := hSum data.netns
      rw [beq_self_eq_true, Bool.toNat_true] at hOwn
      have hDrop : NotFrozen ⟨v.world, v.size,
        Function.update (Function.update v.stage i (some (.listener, .reading))) ctx
          (some (.monitor data.netns, .returned))⟩ data.netns ↔ Spare v data.netns :=
        notFrozen_drop rfl (hWatched data.netns) hOwn
      refine ⟨fun hAll => hDrop.mp (hAll data.netns), fun hSpare netns => ?_⟩
      by_cases hSame : netns = data.netns
      · subst hSame
        exact hDrop.mpr hSpare
      · have hApart : (data.netns == netns) = false := beq_false_of_ne (Ne.symm hSame)
        have hOther := hSum netns
        rw [hApart, Bool.toNat_false, Nat.add_zero] at hOther
        exact (h netns).calm id (hWatched netns).mp (Nat.le_of_eq hOther.symm)

/-- Exactly the heedful steps keep the namespaces from freezing. -/
theorem notFrozen_advances_iff (hSound : Sound v) (h : ∀ netns, NotFrozen v netns)
    (hStep : Advances swarmNodeInfo v action v') :
    (∀ netns, NotFrozen v' netns) ↔ Heedful swarmNodeInfo v action := by
  cases hStep with
  | invoke unused => exact notFrozen_invoke h
  | @step i fail call before after world stands moves =>
      have hGuard : Heedful swarmNodeInfo v (.step i fail) ↔ Heeds v fail (call, before) := by
        simp [Heedful, stands]
      rw [hGuard]
      exact notFrozen_step hSound h stands moves
  | meet apart sends receives => exact notFrozen_meet hSound h apart sends receives
  | @disturb env world happens =>
      cases env with
      | kprobe netns sk output => exact notFrozen_kprobe h happens
      | cancel ctx =>
          cases happens
          refine iff_of_true (fun netns => (h netns).calm id (fun hWatch => ?_) (Nat.le_refl _)) trivial
          obtain ⟨i, hi, standing, hAt, hCall, hRuns⟩ := hWatch
          refine ⟨i, hi, standing, hAt, hCall, ?_⟩
          have hRuns : Function.update v.world.cancelled ctx true i = false := hRuns
          by_cases hSame : i = ctx
          · rw [hSame, Function.update_self] at hRuns
            cases hRuns
          · rwa [Function.update_of_ne hSame] at hRuns

end Exact

instance (v : View) (netns : UInt32) : Decidable (Watched v netns) :=
  inferInstanceAs (Decidable (∃ i < v.size, ∃ standing ∈ v.stage i, _))

instance (v : View) (netns : UInt32) : Decidable (Spare v netns) := inferInstanceAs (Decidable (_ → _ → _))

instance (v : View) (fail : Bool) : DecidablePred (Heeds v fail)
  | (.monitor netns, .rearming _) => inferInstanceAs (Decidable (fail = true → Spare v netns))
  | (.listener, .looking data) =>
      inferInstanceAs (Decidable (v.world.namespaceToContext data.netns = none → Spare v data.netns))
  | (.listener, .checking data ctx) => inferInstanceAs
    (Decidable (v.world.cancelled ctx = true → Spare v data.netns))
  | (.monitor _, .fresh) | (.monitor _, .counting _) | (.monitor _, .validating _) | (.monitor _, .arming _)
  | (.monitor _, .storing _) | (.monitor _, .serving _) | (.monitor _, .scaling _ _) | (.monitor _, .sleeping _)
  | (.monitor _, .uncounting) | (.monitor _, .unbuffering) | (.monitor _, .invalidating) |
    (.monitor _, .forgetting)
  | (.monitor _, .fatal) | (.monitor _, .returned) | (.monitor _, .reading) | (.monitor _, .looking _)
  | (.monitor _, .checking _ _) | (.monitor _, .sending _ _) => isTrue trivial
  | (.listener, .fresh) | (.listener, .counting _) | (.listener, .validating _) | (.listener, .arming _)
  | (.listener, .storing _) | (.listener, .serving _) | (.listener, .scaling _ _) | (.listener, .sleeping _)
  | (.listener, .rearming _) | (.listener, .uncounting) | (.listener, .unbuffering) | (.listener, .invalidating)
  | (.listener, .forgetting) | (.listener, .fatal) | (.listener, .returned) | (.listener, .reading)
  | (.listener, .sending _ _) => isTrue trivial

instance (swarmNodeInfo : SwarmNodeInfo) (v : View) : DecidablePred (Heedful swarmNodeInfo v)
  | .invoke call => inferInstanceAs (Decidable (∀ netns ∈ call.netns, _ → _ → _))
  | .step i _ => inferInstanceAs (Decidable (∀ standing ∈ v.stage i, _))
  | .meet _ i => inferInstanceAs (Decidable (∀ standing ∈ v.stage i, ∀ netns ∈ standing.1.netns, _))
  | .disturb (.kprobe _ _ _) => inferInstanceAs (Decidable (_ ∨ _ ∨ _ ∨ _))
  | .disturb (.cancel _) => isTrue trivial

/-- A packet arrives between the two last steps of `addNamespace`. -/
def early : List Action :=
  .invoke (.monitor 5) :: List.replicate 4 (.step 1 false) ++ .disturb (.kprobe 5 (some 1) .stored) ::
    List.replicate 2 (.step 0 false)

/-- The event loop finds no context and drops the event. -/
theorem not_neverFrozen : ¬ NeverFrozen := by
  intro h
  have hNotFrozen := h manager limits early (by decide)
  have hFinish := hNotFrozen.at_finish (show run (machine manager).step (start limits) early = some _ from rfl)
  exact hFinish 5 (by decide) (by decide) (by decide)

/-- No namespace freezes in a run exactly if every step of the run is heedful. -/
theorem notFrozen_throughout_iff (swarmNodeInfo : SwarmNodeInfo) (maps : Maps) (actions : List Action)
    (finish : State)
    (hRun : run (machine swarmNodeInfo).step (start maps) actions = some finish) :
    Throughout (machine swarmNodeInfo).step (fun s => ∀ netns, NotFrozen (view swarmNodeInfo s) netns)
        (start maps) actions ↔
      Meets (machine swarmNodeInfo).step (fun s => Heedful swarmNodeInfo (view swarmNodeInfo s))
        (start maps) actions := by
  have exactStep (s : State) (action : Action) (t : State) (hInv : Coherent swarmNodeInfo s)
      (hNotFrozen : ∀ netns, NotFrozen (view swarmNodeInfo s) netns)
      (hStep : (machine swarmNodeInfo).step s action = some t) :
      (∀ netns, NotFrozen (view swarmNodeInfo t) netns) ↔ Heedful swarmNodeInfo (view swarmNodeInfo s) action :=
    notFrozen_advances_iff hInv.sound hNotFrozen (hInv.advances hStep)
  have hStart (netns : UInt32) : NotFrozen (view swarmNodeInfo (start maps)) netns := by
    rintro _ ⟨i, _, standing, hAt, hCall, _⟩
    exact nomatch hCall.symm.trans (stage_start hAt).2.1
  exact throughout_iff_guarded (fun _ _ _ => Coherent.step) exactStep (coherent_start maps) hStart hRun

/-- Two events are handled one after the other. -/
theorem notFrozen_rounds : Throughout (machine manager).step (fun s => ∀ netns, NotFrozen (view manager s) netns)
    (start limits) (.invoke (.monitor 5) :: List.replicate 5 (.step 1 false) ++ (round ++ round)) := by
  have hRun : run (machine manager).step (start limits)
      (.invoke (.monitor 5) :: List.replicate 5 (.step 1 false) ++ (round ++ round)) =
        some ((run (machine manager).step (start limits)
          (.invoke (.monitor 5) :: List.replicate 5 (.step 1 false) ++ (round ++ round))).get (by decide)) := by
            simp
  exact (notFrozen_throughout_iff manager limits _ _ hRun).mpr (by decide +kernel)

end Monitoring

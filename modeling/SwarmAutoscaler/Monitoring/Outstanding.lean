import Mathlib.Data.List.Count
import SwarmAutoscaler.Monitoring.Dispatch

/-! Events on their way from the kprobe to a Monitor. The kprobe puts out an event when it
sets the flag of the namespace and not again before a Monitor has cleared the flag, so one
event at most is under way, in the perf buffer, in the event loop or with a Monitor. -/
namespace Monitoring

open Cluster (SwarmNodeInfo)
open Kernel (Data Maps Kprobe kprobeTcpRecvmsg)
open Process

/-- The record is an event of the namespace. -/
def Record.concerns (netns : UInt32) : Record → Bool
  | .sample data => data.netns == netns
  | .lost | .malformed => false

/-- An event loop holds an event of the namespace, or a Monitor of the namespace is
handling one and has not yet cleared the flag again. -/
def handles (netns : UInt32) : Call × Stage → Bool
  | (.listener, .looking data) | (.listener, .checking data _) | (.listener, .sending data _) =>
    data.netns == netns
  | (.monitor own, .scaling _ _) | (.monitor own, .sleeping _) | (.monitor own, .rearming _) => own == netns
  | _ => false

/-- The number of events of the namespace under way. -/
def outstanding (v : View) (netns : UInt32) : Nat :=
  v.world.perf.countP (Record.concerns netns) +
    (List.range v.size).countP fun i => (v.stage i).any (handles netns)

/-- The Monitor has not cleared the flag of its namespace for the first time yet. -/
def Stage.registering : Stage → Bool
  | .fresh | .counting _ | .validating _ | .arming _ => true
  | _ => false

/-- No Monitor of the namespace is in `addNamespace` with the flag not cleared yet. -/
def Settled (v : View) (netns : UInt32) : Prop :=
  ∀ i < v.size, ∀ standing ∈ v.stage i, standing.1 = .monitor netns → standing.2.registering = false

/-- One event at most is under way, and none unless the flag is set. -/
def AtMostOneEvent (v : View) (netns : UInt32) : Prop :=
  outstanding v netns ≤ 1 ∧ (v.world.maps.scalingMap netns ≠ some 1 → outstanding v netns = 0)

/-- Thread `i`, a Monitor of the namespace, is about to ask for scaling. -/
def AtRequest (v : View) (i : Nat) (netns : UInt32) : Prop :=
  ∃ ctx message, v.stage i = some (.monitor netns, .scaling ctx message)

/-- Thread `i`, a Monitor of the namespace, is about to clear the flag again. -/
def AtRearm (v : View) (i : Nat) (netns : UInt32) : Prop :=
  ∃ ctx, v.stage i = some (.monitor netns, .rearming ctx)

/-- A call of the kprobe in the namespace on a socket it can read. -/
def samples (netns : UInt32) : Action → Bool
  | .disturb (.kprobe other (some _) _) => other == netns
  | _ => false

/-- The number of samples that the kprobe collects before an event. -/
def bufferLength (s : State) : Nat := ((s.world.maps.constantsMap 2).getD 0).toNat

/-- Between two requests of one Monitor it clears the flag, and after that as many samples
are taken as the buffer is long. -/
def Separated (swarmNodeInfo : SwarmNodeInfo) (s : State) (netns : UInt32) (i : Nat) (actions : List Action) :
    Prop :=
  ∀ (first between rest : List Action) (fail : Bool) (earlier later : State),
    actions = first ++ .step i fail :: between ++ rest →
    run (machine swarmNodeInfo).step s first = some earlier → AtRequest (view swarmNodeInfo earlier) i netns →
    run (machine swarmNodeInfo).step s (first ++ .step i fail :: between) = some later →
    AtRequest (view swarmNodeInfo later) i netns →
    ∃ (before after : List Action) (failed : Bool) (rearming : State),
      between = before ++ .step i failed :: after ∧
        run (machine swarmNodeInfo).step s (first ++ .step i fail :: before) = some rearming ∧
        AtRearm (view swarmNodeInfo rearming) i netns ∧ bufferLength s ≤ after.countP (samples netns)

section Counting

/-- Counting with one entry changed. -/
theorem countP_update {α : Type} (p : α → Bool) (f : Nat → α) {i size : Nat} (h : i < size) (x : α) :
    (List.range size).countP (fun j => p (Function.update f i x j)) + (p (f i)).toNat =
      (List.range size).countP (fun j => p (f j)) + (p x).toNat := by
  induction size with
  | zero => exact absurd h (Nat.not_lt_zero i)
  | succ size ih =>
      simp only [List.range_succ, List.countP_append, List.countP_singleton]
      by_cases hLast : i = size
      · subst hLast
        have hOthers : (List.range i).countP (fun j => p (Function.update f i x j)) =
            (List.range i).countP (fun j => p (f j)) := by
          refine List.countP_congr fun j hj => ?_
          rw [Function.update_of_ne (Nat.ne_of_lt (List.mem_range.mp hj))]
        rw [hOthers, Function.update_self]
        cases p (f i) <;> cases p x <;> rfl
      · have hOld := ih (Nat.lt_of_le_of_ne (Nat.le_of_lt_succ h) hLast)
        rw [Function.update_of_ne (Ne.symm hLast)]
        omega

variable {v : View} {world : World} {i : Nat} {call : Call} {before after : Stage} {netns : UInt32}

/-- How the number changes when one thread comes to another stage. -/
theorem outstanding_moved (hBounded : i < v.size) (stands : v.stage i = some (call, before)) :
    outstanding ⟨world, v.size, Function.update v.stage i (some (call, after))⟩ netns +
        v.world.perf.countP (Record.concerns netns) + (handles netns (call, before)).toNat =
      outstanding v netns + world.perf.countP (Record.concerns netns) + (handles netns (call, after)).toNat := by
  have hCount := countP_update (Option.any (handles netns)) v.stage hBounded (some (call, after))
  rw [stands] at hCount
  simp only [Option.any_some] at hCount
  simp only [outstanding]
  omega

theorem outstanding_started (h : handles netns (call, after) = false) :
    outstanding ⟨v.world, v.size + 1, Function.update v.stage v.size (some (call, after))⟩ netns =
      outstanding v netns := by
  have hOthers : (List.range v.size).countP
      (fun j => (Function.update v.stage v.size (some (call, after)) j).any (handles netns)) =
      (List.range v.size).countP fun j => (v.stage j).any (handles netns) := by
    refine List.countP_congr fun j hj => ?_
    rw [Function.update_of_ne (Nat.ne_of_lt (List.mem_range.mp hj))]
  simp only [outstanding, List.range_succ, List.countP_append, List.countP_singleton, hOthers,
    Function.update_self,
    Option.any_some, h]
  rfl

/-- The Monitor that receives is the one of the context, and it watches the namespace of the event. -/
theorem Sound.met {j ctx : Nat} {data : Data} {own : UInt32} (hSound : Sound v)
    (sends : v.stage i = some (.listener, .sending data ctx))
    (receives : v.stage j = some (.monitor own, .serving ctx)) : ctx = j ∧ own = data.netns := by
  obtain ⟨stage, hMonitor⟩ := hSound.held i _ _ data ctx sends rfl
  obtain rfl := hSound.named j _ _ ctx receives rfl
  rw [receives] at hMonitor
  cases hMonitor
  exact ⟨rfl, rfl⟩

theorem waits_meet {ctx : Nat} {data : Data} (apart : i ≠ ctx)
    (receives : v.stage ctx = some (.monitor data.netns, .serving ctx)) :
    Function.update v.stage i (some (.listener, .reading)) ctx = some (.monitor data.netns, .serving ctx) :=
  (Function.update_of_ne (Ne.symm apart) ..).trans receives

/-- An event that is received is no longer under way, unless the Monitor handles it. -/
theorem outstanding_meet {ctx : Nat} {data : Data} (hSound : Sound v) (apart : i ≠ ctx)
    (sends : v.stage i = some (.listener, .sending data ctx))
    (receives : v.stage ctx = some (.monitor data.netns, .serving ctx)) (after : Stage) :
    outstanding ⟨v.world, v.size,
        Function.update (Function.update v.stage i (some (.listener, .reading))) ctx
          (some (.monitor data.netns, after))⟩
        netns + (data.netns == netns).toNat =
      outstanding v netns + (handles netns (.monitor data.netns, after)).toNat := by
  have hSent := @outstanding_moved v v.world i _ _ .reading netns (hSound.bounded i _ sends) sends
  have hReceived := @outstanding_moved ⟨v.world, v.size, Function.update v.stage i (some (.listener, .reading))⟩
    v.world ctx _ _ after netns (hSound.bounded ctx _ receives) (waits_meet apart receives)
  have hReading : handles netns (.listener, .reading) = false := rfl
  have hSending : handles netns (.listener, .sending data ctx) = (data.netns == netns) := rfl
  have hServing : handles netns (.monitor data.netns, .serving ctx) = false := rfl
  rw [hReading, hSending, Bool.toNat_false] at hSent
  rw [hServing, Bool.toNat_false] at hReceived
  dsimp only at hReceived
  omega

end Counting

section Moves

variable {w w' : World} {i : Nat} {fail : Bool} {call : Call} {before after : Stage} {netns : UInt32}

/-- A thread may drop an event, and makes none. -/
theorem Moves.handles (h : Moves w i fail call before after w') :
    w'.perf.countP (Record.concerns netns) + (handles netns (call, after)).toNat ≤
      w.perf.countP (Record.concerns netns) + (handles netns (call, before)).toNat := by
  cases h with
  | @read data rest perf =>
      rw [perf, List.countP_cons]
      by_cases hOwn : data.netns = netns
      · simp [Record.concerns, Monitoring.handles, hOwn]
      · have hNot : (data.netns == netns) = false := beq_false_of_ne hOwn
        simp [Record.concerns, Monitoring.handles, hNot]
  | skip perf noSample =>
      rw [perf, List.countP_cons]
      simp only [Monitoring.handles]
      omega
  | _ => simp [Monitoring.handles]

theorem Moves.scalingMap (h : Moves w i fail call before after w') :
    w'.maps.scalingMap netns = w.maps.scalingMap netns ∨
      (call = .monitor netns ∧ ((∃ ctx, before = .arming ctx) ∨
        ∃ ctx, before = .rearming ctx ∧ after = .serving ctx ∧
        w'.perf = w.perf)) := by
  cases h with
  | @arm own ctx =>
      by_cases hOwn : netns = own
      · exact Or.inr ⟨by rw [hOwn], Or.inl ⟨ctx, rfl⟩⟩
      · exact Or.inl (Function.update_of_ne hOwn ..)
  | @rearm own ctx works =>
      by_cases hOwn : netns = own
      · exact Or.inr ⟨by rw [hOwn], Or.inr ⟨ctx, rfl, rfl, rfl⟩⟩
      · exact Or.inl (Function.update_of_ne hOwn ..)
  | _ => exact Or.inl rfl

theorem Moves.bufferMap (h : Moves w i fail call before after w') :
    w'.maps.bufferMap netns = w.maps.bufferMap netns ∨ w'.maps.bufferMap netns = none := by
  cases h with
  | @unbuffer own removes =>
      by_cases hOwn : netns = own
      · subst hOwn
        exact Or.inr (Function.update_self ..)
      · exact Or.inl (Function.update_of_ne hOwn ..)
  | _ => exact Or.inl rfl

theorem Moves.constantsMap (h : Moves w i fail call before after w') :
    w'.maps.constantsMap = w.maps.constantsMap := by
  cases h <;> rfl

theorem Moves.registering (h : Moves w i fail call before after w') (hBefore : before.registering = false) :
    after.registering = false := by
  cases h <;> first | rfl | cases hBefore

end Moves

theorem signalled_handles {swarmNodeInfo : SwarmNodeInfo} {own netns : UInt32} {ctx : Nat}
    {message : Kernel.Message} :
    (handles netns (.monitor own, .signalled swarmNodeInfo ctx message)).toNat ≤ (own == netns).toNat := by
  unfold Stage.signalled
  split
  · exact Nat.le_refl _
  · exact Nat.zero_le _

theorem signalled_registering {swarmNodeInfo : SwarmNodeInfo} {ctx : Nat} {message : Kernel.Message} :
    (Stage.signalled swarmNodeInfo ctx message).registering = false := by
  unfold Stage.signalled
  split <;> rfl

/-- One event at most; while it is under way the buffer is empty; nobody is about to clear
the flag without having handled an event. -/
structure EventInv (v : View) (netns : UInt32) : Prop where
  single : AtMostOneEvent v netns
  empty : outstanding v netns ≠ 0 → (v.world.maps.bufferMap netns).getD 0 = 0
  settled : ∀ i stage, v.stage i = some (.monitor netns, stage) → stage.registering = false

/-- What a step does to the events, the flag and the buffer of a namespace; `taken` says
that it is a call of the kprobe there. -/
inductive Effect (v v' : View) (netns : UInt32) (taken : Bool) : Prop where
  | calm (fewer : outstanding v' netns ≤ outstanding v netns)
      (flag : v'.world.maps.scalingMap netns = v.world.maps.scalingMap netns ∨
        (outstanding v netns ≠ 0 ∧ outstanding v' netns = 0))
      (buffer : v'.world.maps.bufferMap netns = v.world.maps.bufferMap netns ∨
        v'.world.maps.bufferMap netns = none)
  | sampled (sample : taken = true) (none : outstanding v' netns = 0) (buffer : UInt32)
      (disarmed : v.world.maps.scalingMap netns ≠ some 1)
      (flag : v'.world.maps.scalingMap netns = v.world.maps.scalingMap netns)
      (buffered : v'.world.maps.bufferMap netns = some buffer)
      (grows : buffer = (v.world.maps.bufferMap netns).getD 0 + 1 ∨ buffer = 0)
  | signalled (sample : taken = true) (one : outstanding v' netns ≤ 1)
      (disarmed : v.world.maps.scalingMap netns ≠ some 1) (armed : v'.world.maps.scalingMap netns = some 1)
      (emptied : v'.world.maps.bufferMap netns = some 0) (limit : UInt32)
      (full : v.world.maps.constantsMap 2 = some limit ∧
        (limit = (v.world.maps.bufferMap netns).getD 0 + 1 ∨ limit = 0))

section Step

variable {swarmNodeInfo : SwarmNodeInfo} {v v' : View} {action : Action} {netns other : UInt32}

theorem effect_kprobe {w : World} {sk : Option UInt8} {output : Output}
    (hDisarmed : v.world.maps.scalingMap netns ≠ some 1 → outstanding v netns = 0)
    (happens : disturb (.kprobe other sk output) v.world = some w) :
    Effect v ⟨w, v.size, v.stage⟩ netns (samples netns (.disturb (.kprobe other sk output))) := by
  cases happens
  cases sk with
  | none => exact .calm (by simp [Kernel.kprobe_unread, outstanding]) (Or.inl rfl) (Or.inl rfl)
  | some state =>
      have hCases := Kernel.kprobe_cases v.world.maps other (some state)
      have hSame (hOther : netns ≠ other) := @Kernel.kprobe_sameAt v.world.maps other netns (some state) hOther
      generalize kprobeTcpRecvmsg v.world.maps other (some state) = result at hCases hSame ⊢
      obtain ⟨maps', event⟩ := result
      have hOutstanding : outstanding ⟨{ v.world with
          maps := maps', perf := v.world.perf ++ event.toList.flatMap fun data => output.records data }, v.size,
            v.stage⟩
          netns = outstanding v netns +
            (event.toList.flatMap fun data => output.records data).countP (Record.concerns netns) := by
        simp only [outstanding, List.countP_append]
        omega
      by_cases hOther : netns = other
      · subst hOther
        have hTaken : samples netns (.disturb (.kprobe netns (some state) output)) = true := beq_self_eq_true netns
        cases hCases with
        | unseen => exact .calm (Nat.le_of_eq hOutstanding) (Or.inl rfl) (Or.inl rfl)
        | counted count armed => exact .calm (Nat.le_of_eq hOutstanding) (Or.inl rfl) (Or.inl rfl)
        | sampled count buffer disarmed grows =>
            exact .sampled hTaken (hOutstanding.trans (hDisarmed disarmed)) buffer disarmed rfl
              (Function.update_self ..) grows
        | signalled count limit message disarmed hLimit full =>
            have hRecords : ((some ⟨netns, message⟩ : Option Data).toList.flatMap fun data =>
              output.records data).countP
                (Record.concerns netns) ≤ 1 := by
              cases output <;> simp [Output.records, Record.concerns]
            have hLe := Nat.add_le_add (Nat.le_of_eq (hDisarmed disarmed)) hRecords
            exact .signalled hTaken (Nat.le_trans (Nat.le_of_eq hOutstanding) hLe) disarmed
              (Function.update_self ..) (Function.update_self ..) limit ⟨hLimit, full⟩
      · have hRecords : (event.toList.flatMap fun data => output.records data).countP (Record.concerns netns) =
          0 := by
          cases hCases with
          | signalled count limit message disarmed hLimit full =>
              cases output <;> simp [Output.records, Record.concerns, Ne.symm hOther]
          | _ => rfl
        rw [hRecords, Nat.add_zero] at hOutstanding
        exact .calm (Nat.le_of_eq hOutstanding) (Or.inl (hSame hOther).scalingMap)
          (Or.inl (hSame hOther).bufferMap)

/-- The Monitor that clears the flag was handling the event. -/
theorem outstanding_rearm {world : World} {i ctx : Nat} (hBounded : i < v.size)
    (stands : v.stage i = some (.monitor netns, .rearming ctx)) (hPerf : world.perf = v.world.perf) :
    outstanding ⟨world, v.size, Function.update v.stage i (some (.monitor netns, .serving ctx))⟩ netns + 1 =
      outstanding v netns := by
  have hCount := @outstanding_moved v world i _ _ (.serving ctx) netns hBounded stands
  simp only [handles, hPerf, beq_self_eq_true, Bool.toNat_true, Bool.toNat_false] at hCount
  omega

theorem effect_of_advances (hSound : Sound v) (h : EventInv v netns)
    (hStep : Advances swarmNodeInfo v action v') : Effect v v' netns (samples netns action) := by
  cases hStep with
  | @invoke call unused =>
      have hInitial : handles netns (call, (stages swarmNodeInfo).initial call) = false := by cases call <;> rfl
      exact .calm (Nat.le_of_eq (outstanding_started hInitial)) (Or.inl rfl) (Or.inl rfl)
  | @step i fail call before after world stands moves =>
      have hCount := @outstanding_moved v world i call before after netns (hSound.bounded i _ stands) stands
      have hHandles := @Moves.handles _ _ _ _ _ _ _ netns moves
      refine .calm (by omega) ?_ moves.bufferMap
      rcases @Moves.scalingMap _ _ _ _ _ _ _ netns moves with hSame | ⟨rfl, ⟨ctx, rfl⟩ | ⟨ctx, rfl, rfl, hPerf⟩⟩
      · exact Or.inl hSame
      · exact nomatch h.settled i _ stands
      · have hOne := h.single.1
        have hRearm := outstanding_rearm (hSound.bounded i _ stands) stands hPerf
        exact Or.inr ⟨by omega, by omega⟩
  | @meet i j data ctx own apart sends receives =>
      obtain ⟨rfl, rfl⟩ := hSound.met sends receives
      have hCount := @outstanding_meet v i netns ctx data hSound apart sends receives
        (.signalled swarmNodeInfo ctx data.message)
      have hSignalled := @signalled_handles swarmNodeInfo data.netns netns ctx data.message
      exact .calm (by omega) (Or.inl rfl) (Or.inl rfl)
  | @disturb env world happens =>
      cases env with
      | kprobe other sk output => exact effect_kprobe h.single.2 happens
      | cancel ctx =>
          cases happens
          exact .calm (Nat.le_refl _) (Or.inl rfl) (Or.inl rfl)

theorem settled_advances (h : ∀ i stage, v.stage i = some (.monitor netns, stage) → stage.registering = false)
    (hAdmits : ∀ call, action = .invoke call → call ≠ .monitor netns)
    (hStep : Advances swarmNodeInfo v action v') :
    ∀ i stage, v'.stage i = some (.monitor netns, stage) → stage.registering = false := by
  intro k stage hk
  cases hStep with
  | @invoke call unused =>
      rcases update_eq_some hk with ⟨_, hNew⟩ | ⟨_, hOld⟩
      · cases hNew
        exact absurd rfl (hAdmits _ rfl)
      · exact h k stage hOld
  | @step i fail call before after world stands moves =>
      rcases update_eq_some hk with ⟨rfl, hNew⟩ | ⟨_, hOld⟩
      · cases hNew
        exact moves.registering (h _ _ stands)
      · exact h k stage hOld
  | @meet i j data ctx own apart sends receives =>
      rcases update_eq_some hk with ⟨_, hNew⟩ | ⟨_, hk⟩
      · cases hNew
        exact signalled_registering
      · rcases update_eq_some hk with ⟨_, hNew⟩ | ⟨_, hOld⟩
        · cases hNew
        · exact h k stage hOld
  | disturb happens => exact h k stage hk

theorem EventInv.advances (hSound : Sound v) (h : EventInv v netns)
    (hAdmits : ∀ call, action = .invoke call → call ≠ .monitor netns)
    (hStep : Advances swarmNodeInfo v action v') :
    EventInv v' netns := by
  have hSettled := settled_advances h.settled hAdmits hStep
  cases effect_of_advances hSound h hStep with
  | calm fewer flag buffer =>
      refine ⟨⟨Nat.le_trans fewer h.single.1, fun hDisarmed => ?_⟩, fun hSome => ?_, hSettled⟩
      · rcases flag with hSame | ⟨_, hNone⟩
        · rw [hSame] at hDisarmed
          exact Nat.le_zero.mp (h.single.2 hDisarmed ▸ fewer)
        · exact hNone
      · rcases buffer with hSame | hGone
        · rw [hSame]
          exact h.empty fun hNone => hSome (Nat.le_zero.mp (hNone ▸ fewer))
        · rw [hGone]
          rfl
  | sampled _ none => exact ⟨⟨none ▸ Nat.zero_le 1, fun _ => none⟩, fun hSome => absurd none hSome, hSettled⟩
  | signalled _ one _ armed emptied => exact ⟨⟨one, fun hDisarmed => absurd armed hDisarmed⟩,
    fun _ => by rw [emptied]; rfl, hSettled⟩

theorem advances_constantsMap (hStep : Advances swarmNodeInfo v action v') :
    v'.world.maps.constantsMap = v.world.maps.constantsMap := by
  cases hStep with
  | step stands moves => exact moves.constantsMap
  | invoke | meet => rfl
  | @disturb env world happens =>
      cases env with
      | cancel ctx =>
          cases happens
          rfl
      | kprobe other sk output =>
          cases happens
          exact Kernel.kprobe_constantsMap

/-- The `k` samples since the flag was cleared are as many as the buffer shows, and as many
as it is long if there is an event. -/
structure Sampled (v : View) (netns : UInt32) (k : Nat) : Prop where
  event : outstanding v netns ≠ 0 → ((v.world.maps.constantsMap 2).getD 0).toNat ≤ k
  buffer : v.world.maps.scalingMap netns ≠ some 1 → ((v.world.maps.bufferMap netns).getD 0).toNat ≤ k

theorem toNat_succ_le {buffer : UInt32} {k : Nat} (h : buffer.toNat ≤ k) : (buffer + 1).toNat ≤ k + 1 := by
  have hMod : (buffer + 1).toNat = (buffer.toNat + 1) % 2 ^ 32 := UInt32.toNat_add buffer 1
  have hLe := Nat.mod_le (buffer.toNat + 1) (2 ^ 32)
  omega

theorem Sampled.advances {k : Nat} (hSound : Sound v) (hInv : EventInv v netns) (h : Sampled v netns k)
    (hStep : Advances swarmNodeInfo v action v') : Sampled v' netns (k + (samples netns action).toNat) := by
  have hConstants := advances_constantsMap hStep
  have grown {buffer : UInt32} (hDisarmed : v.world.maps.scalingMap netns ≠ some 1)
      (hGrows : buffer = (v.world.maps.bufferMap netns).getD 0 + 1 ∨ buffer = 0) : buffer.toNat ≤ k + 1 := by
    rcases hGrows with rfl | rfl
    · exact toNat_succ_le (h.buffer hDisarmed)
    · exact Nat.zero_le _
  cases effect_of_advances hSound hInv hStep with
  | calm fewer flag buffer =>
      refine ⟨fun hSome => ?_, fun hDisarmed => ?_⟩
      · rw [hConstants]
        have hBefore := h.event fun hNone => hSome (Nat.le_zero.mp (hNone ▸ fewer))
        omega
      · rcases buffer with hSame | hGone
        · rw [hSame]
          rcases flag with hFlag | ⟨hSome, _⟩
          · rw [hFlag] at hDisarmed
            have hBefore := h.buffer hDisarmed
            omega
          · rw [hInv.empty hSome]
            exact Nat.zero_le _
        · rw [hGone]
          exact Nat.zero_le _
  | sampled sample none buffer disarmed flag buffered grows =>
      refine ⟨fun hSome => absurd none hSome, fun _ => ?_⟩
      rw [buffered, sample]
      exact grown disarmed grows
  | signalled sample one disarmed armed emptied limit full =>
      refine ⟨fun _ => ?_, fun hDisarmed => absurd armed hDisarmed⟩
      rw [hConstants, full.1, sample]
      exact grown disarmed full.2

/-- A thread that waits for nobody changes its stage by its own steps only. -/
theorem stays {i : Nat} {ctx : Nat} {call : Call} {stage : Stage} (hAt : v.stage i = some (call, stage))
    (hIdle : stage = .sleeping ctx ∨ stage = .rearming ctx) (hOther : ∀ fail, action ≠ .step i fail)
    (hStep : Advances swarmNodeInfo v action v') : v'.stage i = some (call, stage) := by
  cases hStep with
  | @invoke call' unused =>
      have hApart : i ≠ v.size := fun hSame => by rw [hSame, unused] at hAt; cases hAt
      exact (Function.update_of_ne hApart ..).trans hAt
  | @step j fail call' before after world stands moves =>
      have hApart : i ≠ j := fun hSame => hOther fail (hSame ▸ rfl)
      exact (Function.update_of_ne hApart ..).trans hAt
  | @meet j k data ctx' own apart sends receives =>
      have hSender : i ≠ j := by
        rintro rfl
        rw [hAt] at sends
        cases sends
        rcases hIdle with h | h <;> cases h
      have hReceiver : i ≠ k := by
        rintro rfl
        rw [hAt] at receives
        cases receives
        rcases hIdle with h | h <;> cases h
      exact (Function.update_of_ne hReceiver ..).trans ((Function.update_of_ne hSender ..).trans hAt)
  | disturb happens => exact hAt

end Step

section Separation

variable {swarmNodeInfo : SwarmNodeInfo} {netns : UInt32} {i : Nat}

/-- After a request, with the actions since then: the Monitor has not cleared the flag yet,
or it has, and the samples since then are accounted for. -/
def Rearmed (swarmNodeInfo : SwarmNodeInfo) (netns : UInt32) (i : Nat) (s : State) (actions : List Action)
    (t : State) :
    Prop :=
  (∃ ctx stage, (view swarmNodeInfo t).stage i = some (.monitor netns, stage) ∧
      (stage = .sleeping ctx ∨ stage = .rearming ctx)) ∨
    ∃ (before after : List Action) (failed : Bool) (rearming : State),
      actions = before ++ .step i failed :: after ∧
        run (machine swarmNodeInfo).step s before = some rearming ∧ AtRearm (view swarmNodeInfo rearming) i netns ∧
          Sampled (view swarmNodeInfo t) netns (after.countP (samples netns))

theorem own_step {v v' : View} {fail : Bool} {call : Call} {before : Stage} (hAt : v.stage i = some (call, before))
    (h : Advances swarmNodeInfo v (.step i fail) v') :
    ∃ after world, Moves v.world i fail call before after world ∧
      v' = ⟨world, v.size, Function.update v.stage i (some (call, after))⟩ := by
  cases h with
  | step stands moves =>
      rw [hAt] at stands
      cases stands
      exact ⟨_, _, moves, rfl⟩

/-- After the flag has been cleared there is no event and the buffer is empty. -/
theorem sampled_rearm {v : View} {world : World} {ctx : Nat} (hBounded : i < v.size) (hInv : EventInv v netns)
    (stands : v.stage i = some (.monitor netns, .rearming ctx)) (hPerf : world.perf = v.world.perf)
    (hBuffer : world.maps.bufferMap = v.world.maps.bufferMap) :
    Sampled ⟨world, v.size, Function.update v.stage i (some (.monitor netns, .serving ctx))⟩ netns 0 := by
  have hRearm := outstanding_rearm hBounded stands hPerf
  have hOne := hInv.single.1
  refine ⟨fun hSome => absurd (by omega) hSome, fun _ => ?_⟩
  rw [hBuffer, hInv.empty (by omega)]
  exact Nat.le_refl 0

theorem Rearmed.step {s t t' : State} {actions : List Action} {action : Action}
    (hCoherent : Coherent swarmNodeInfo t)
    (hInv : EventInv (view swarmNodeInfo t) netns) (hRun : run (machine swarmNodeInfo).step s actions = some t)
    (h : Rearmed swarmNodeInfo netns i s actions t) (hStep : (machine swarmNodeInfo).step t action = some t') :
    Rearmed swarmNodeInfo netns i s (actions ++ [action]) t' := by
  have hAdvances := hCoherent.advances hStep
  rcases h with ⟨ctx, stage, hAt, hIdle⟩ | ⟨before, after, failed, rearming, rfl, hRearming, hAtRearm, hSampled⟩
  · by_cases hOwn : ∃ fail, action = .step i fail
    · obtain ⟨fail, rfl⟩ := hOwn
      obtain ⟨after, world, hMoves, hView⟩ := own_step hAt hAdvances
      have hStage : (view swarmNodeInfo t').stage i = some (.monitor netns, after) := by
        rw [hView]
        exact Function.update_self ..
      have hBounded := hCoherent.sound.bounded i _ hAt
      rcases hIdle with rfl | rfl
      · cases hMoves with
        | sleep => exact Or.inl ⟨ctx, _, hStage, Or.inr rfl⟩
      · refine Or.inr ⟨actions, [], fail, t, rfl, hRun, ⟨ctx, hAt⟩, ?_⟩
        rw [hView]
        cases hMoves with
        | rearm => exact sampled_rearm hBounded hInv hAt rfl rfl
        | rearmFailed => exact sampled_rearm hBounded hInv hAt rfl rfl
    · have hOther (fail : Bool) : action ≠ .step i fail := fun hSame => hOwn ⟨fail, hSame⟩
      exact Or.inl ⟨ctx, stage, stays hAt hIdle hOther hAdvances, hIdle⟩
  · refine Or.inr ⟨before, after ++ [action], failed, rearming, by simp, hRearming, hAtRearm, ?_⟩
    have hNext := hSampled.advances hCoherent.sound hInv hAdvances
    rw [List.countP_append, List.countP_singleton]
    cases hSample : samples netns action <;> simpa [hSample] using hNext

/-- Along a run without further registration of the namespace. -/
theorem Rearmed.run {s t t' : State} {actions more : List Action} (hCoherent : Coherent swarmNodeInfo t)
    (hInv : EventInv (view swarmNodeInfo t) netns)
    (hRun : Process.run (machine swarmNodeInfo).step s actions = some t)
    (h : Rearmed swarmNodeInfo netns i s actions t)
    (hMeets : Meets (machine swarmNodeInfo).step (Machine.Admits fun call => call ≠ .monitor netns) t more)
    (hMore : Process.run (machine swarmNodeInfo).step t more = some t') :
    Rearmed swarmNodeInfo netns i s (actions ++ more) t' := by
  induction more generalizing t actions with
  | nil =>
      cases hMore
      rwa [List.append_nil]
  | cons action rest ih =>
      obtain ⟨next, hStep, hRest⟩ := run_cons.mp hMore
      have hAdmits (call : Call) (hInvoke : action = .invoke call) : call ≠ .monitor netns := by
        subst hInvoke
        exact hMeets.1
      have hNext := hInv.advances hCoherent.sound hAdmits (hCoherent.advances hStep)
      have hRunNext : Process.run (machine swarmNodeInfo).step s (actions ++ [action]) = some next := by
        rw [run_append [action] hRun, Process.run, hStep]
        rfl
      have hTail := ih (hCoherent.step hStep) hNext hRunNext (h.step hCoherent hInv hRun hStep)
        (hMeets.2 next hStep) hRest
      rwa [List.append_assoc] at hTail

end Separation

theorem outstanding_of_request {v : View} {netns : UInt32} {i : Nat} (hBounded : i < v.size)
    (h : AtRequest v i netns) :
    outstanding v netns ≠ 0 := by
  obtain ⟨ctx, message, hAt⟩ := h
  have hPositive : 0 < (List.range v.size).countP fun i => (v.stage i).any (handles netns) := by
    refine List.countP_pos_iff.mpr ⟨i, List.mem_range.mpr hBounded, ?_⟩
    rw [hAt]
    exact beq_self_eq_true netns
  rw [outstanding]
  omega

section Whole

variable {swarmNodeInfo : SwarmNodeInfo} {netns : UInt32} {s t : State} {actions : List Action}

/-- An event of the namespace is outstanding in no state or in one place at a time. -/
abbrev Quiet (swarmNodeInfo : SwarmNodeInfo) (netns : UInt32) (s : State) : Prop :=
  Coherent swarmNodeInfo s ∧ EventInv (view swarmNodeInfo s) netns

theorem Quiet.step {action : Action} (h : Quiet swarmNodeInfo netns s)
    (hAdmits : Machine.Admits (fun call => call ≠ .monitor netns) s action)
    (hStep : (machine swarmNodeInfo).step s action = some t) : Quiet swarmNodeInfo netns t := by
  have hCall (call : Call) (hInvoke : action = .invoke call) : call ≠ .monitor netns := by
    subst hInvoke
    exact hAdmits
  exact ⟨h.1.step hStep, h.2.advances h.1.sound hCall (h.1.advances hStep)⟩

theorem Quiet.run (h : Quiet swarmNodeInfo netns s)
    (hMeets : Meets (machine swarmNodeInfo).step (Machine.Admits fun call => call ≠ .monitor netns) s actions)
    (hRun : Process.run (machine swarmNodeInfo).step s actions = some t) : Quiet swarmNodeInfo netns t :=
  invariant_run (fun _ _ _ hInv hAdmits hStep => hInv.step hAdmits hStep) h hMeets hRun

theorem run_constantsMap (h : Coherent swarmNodeInfo s)
    (hRun : Process.run (machine swarmNodeInfo).step s actions = some t) :
    t.world.maps.constantsMap = s.world.maps.constantsMap := by
  induction actions generalizing s with
  | nil =>
      cases hRun
      rfl
  | cons action rest ih =>
      obtain ⟨next, hStep, hRest⟩ := run_cons.mp hRun
      exact (ih (h.step hStep) hRest).trans (advances_constantsMap (h.advances hStep))

theorem separated_of_quiet (i : Nat) (h : Quiet swarmNodeInfo netns s)
    (hMeets : Meets (machine swarmNodeInfo).step (Machine.Admits fun call => call ≠ .monitor netns) s actions) :
    Separated swarmNodeInfo s netns i actions := by
  intro first between rest fail earlier later hActions hFirst hEarlier hLater hAtLater
  rw [hActions, List.append_assoc] at hMeets
  have hQuiet := h.run hMeets.first hFirst
  have hMeetsFrom := (hMeets.second hFirst).first
  rw [run_append _ hFirst] at hLater
  obtain ⟨next, hStep, hBetween⟩ := run_cons.mp hLater
  obtain ⟨ctx, message, hAt⟩ := hEarlier
  obtain ⟨after, world, hMoves, hView⟩ := own_step hAt (hQuiet.1.advances hStep)
  have hNext := hQuiet.step hMeetsFrom.1 hStep
  have hSleeping : (view swarmNodeInfo next).stage i = some (.monitor netns, .sleeping ctx) := by
    rw [hView]
    cases hMoves with
    | request => exact Function.update_self ..
  have hRearmed : Rearmed swarmNodeInfo netns i next ([] ++ between) later :=
    Rearmed.run hNext.1 hNext.2 rfl (Or.inl ⟨ctx, _, hSleeping, Or.inl rfl⟩) (hMeetsFrom.2 next hStep) hBetween
  have hCoherent := hNext.1.run hBetween
  have hBounded : i < (view swarmNodeInfo later).size :=
    hCoherent.sound.bounded i _ hAtLater.choose_spec.choose_spec
  rcases hRearmed with ⟨ctx', stage, hStage, hIdle⟩ |
    ⟨before, after, failed, rearming, hSplit, hRearming, hAtRearm, hSampled⟩
  · obtain ⟨_, _, hScaling⟩ := hAtLater
    rw [hScaling] at hStage
    cases hStage
    rcases hIdle with hSleep | hRearm <;> contradiction
  · refine ⟨before, after, failed, rearming, hSplit, ?_, hAtRearm, ?_⟩
    · rw [run_append _ hFirst, Process.run, hStep]
      exact hRearming
    · have hEvent := hSampled.event (outstanding_of_request hBounded hAtLater)
      have hConstants := (run_constantsMap hQuiet.1 hLater).trans (run_constantsMap h.1 hFirst)
      rw [view, hConstants] at hEvent
      exact hEvent

end Whole

/-- One event at most is outstanding for a namespace, in every run from a reachable state in
which none is and in which no Monitor of the namespace is still registering, if no further
one is started; two requests of one Monitor are separated by a re-arm and a buffer of samples. -/
theorem atMostOneEvent (swarmNodeInfo : SwarmNodeInfo) (maps : Maps) (netns : UInt32) (past actions : List Action)
    (s : State) (hPast : run (machine swarmNodeInfo).step (start maps) past = some s)
    (hNone : outstanding (view swarmNodeInfo s) netns = 0) (hSettled : Settled (view swarmNodeInfo s) netns)
    (hMeets : Meets (machine swarmNodeInfo).step (Machine.Admits fun call => call ≠ .monitor netns) s actions) :
    Throughout (machine swarmNodeInfo).step (fun t => AtMostOneEvent (view swarmNodeInfo t) netns) s actions ∧
      ∀ i, Separated swarmNodeInfo s netns i actions := by
  have hCoherent : Coherent swarmNodeInfo s := (coherent_start maps).run hPast
  have hInv : EventInv (view swarmNodeInfo s) netns :=
    ⟨⟨by omega, fun _ => hNone⟩, fun hSome => absurd hNone hSome,
      fun i stage hi => hSettled i (hCoherent.sound.bounded i _ hi) _ hi rfl⟩
  have hQuiet : Quiet swarmNodeInfo netns s := ⟨hCoherent, hInv⟩
  have hThroughout := throughout_of_invariant (fun _ _ _ hInv hAdmits hStep => Quiet.step hInv hAdmits hStep)
    (fun _ hInv => hInv.2.single) hQuiet hMeets
  exact ⟨hThroughout, fun i => separated_of_quiet i hQuiet hMeets⟩

instance (v : View) (netns : UInt32) : Decidable (Settled v netns) :=
  inferInstanceAs (Decidable (∀ i < v.size, ∀ standing ∈ v.stage i, _))

/-- The state in which `addNamespace` has returned for a Monitor of namespace 5. -/
def registered : State := (run (machine manager).step (start limits)
  (.invoke (.monitor 5) :: List.replicate 5 (.step 1 false))).get (by decide)

/-- An event is made, dispatched and handled, and the flag cleared again. -/
def round : List Action :=
  .disturb (.kprobe 5 (some 1) .stored) :: List.replicate 3 (.step 0 false) ++
    .meet 0 1 :: List.replicate 3 (.step 1 false)

theorem atMostOneEvent_rounds :
    Throughout (machine manager).step (fun t => AtMostOneEvent (view manager t) 5) registered (round ++ round) ∧
      ∀ i, Separated manager registered 5 i (round ++ round) := by
  have hPast : run (machine manager).step (start limits)
    (.invoke (.monitor 5) :: List.replicate 5 (.step 1 false)) =
      some registered := by simp [registered]
  exact atMostOneEvent manager limits 5 _ (round ++ round) registered hPast (by decide) (by decide) (by decide)

end Monitoring

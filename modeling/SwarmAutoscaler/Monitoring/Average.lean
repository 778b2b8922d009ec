import Mathlib.Tactic.FieldSimp
import Mathlib.Tactic.Linarith
import Mathlib.Tactic.Ring
import SwarmAutoscaler.Monitoring.Thresholds

/-! The CPU utilisation that a Monitor computes, against the true average since its last
read. Ticks are exactly one period apart, and the initial read is at the first instant. What
a turn has computed shows in what it asks for under every pair of thresholds. -/
namespace Resources

open Cluster (SwarmNodeInfo)
open Process

/-- What happens at one instant: what the `select` receives, whether the read of the CPU
usage fails, and how everything else is answered. -/
structure Instant where
  received : Ticked := .tick
  fails : Option String := none
  answers : (op : Op) → op.Answer

/-- The answers that the operations of one turn get at this instant. -/
def Instant.answer (instant : Instant) (usageUsec : Int64) : (op : Op) → op.Answer
  | .readCPUUsage _ =>
      match instant.fails with
      | some err => .error err
      | none => .ok usageUsec
  | .selectTick => instant.received
  | op => instant.answers op

/-- What a utilisation calls for. -/
def CPUResource.Demands (cpu : CPUResource) (utilization : Rat) (direction : String) : Prop :=
  (direction = "over" ∧ cpu.upperUtil < utilization) ∨
    (direction = "under" ∧ utilization ≤ cpu.upperUtil ∧ utilization < cpu.lowerUtil)

instance (cpu : CPUResource) (utilization : Rat) (direction : String) :
    Decidable (cpu.Demands utilization direction) :=
  inferInstanceAs (Decidable (_ ∧ _ ∨ _))

/-- The Monitor and the number of instants that have passed; `lastRead` is the last one
with a successful read. -/
structure Ticking where
  progress : Progress := .starting
  instants : Nat := 0
  lastRead : Option Nat := none

/-- A container that is monitored, and its cumulative usage at every instant. -/
structure Setting where
  cpu : CPUResource
  node : SwarmNodeInfo
  containerID : String
  collectionPeriod : Int64
  usage : Nat → Int64

namespace Setting

variable (setting : Setting)

/-- The turn of a Monitor that has got this far, on any node and with any thresholds. -/
def turnOf (node : SwarmNodeInfo) (cpu : CPUResource) (s : Ticking) (instant : Instant) : List Op × Progress :=
  ((Resource.cpu cpu).turn node setting.containerID setting.collectionPeriod s.progress).replay
    (instant.answer (setting.usage s.instants))

/-- The operations that the Monitor performs in one turn, and where it then stands. -/
def turn (s : Ticking) (instant : Instant) : List Op × Progress :=
  setting.turnOf setting.node setting.cpu s instant

/-- The usage is read at this instant, and the read succeeds. -/
def Reads (s : Ticking) (instant : Instant) : Prop :=
  .readCPUUsage setting.containerID ∈ (setting.turn s instant).1 ∧ instant.fails = none

instance (s : Ticking) (instant : Instant) : Decidable (setting.Reads s instant) :=
  inferInstanceAs (Decidable (_ ∧ _))

/-- One turn of the Monitor, with a note of the instant if the usage was read at it. -/
def step (s : Ticking) (instant : Instant) : Option Ticking :=
  if s.progress = .returned then none
  else some
    { progress := (setting.turn s instant).2
      instants := s.instants + 1
      lastRead := if setting.Reads s instant then some s.instants else s.lastRead }

/-- 100 times the usage between two instants, divided by the time between them. -/
def average (i j : Nat) : Rat :=
  100 * ((setting.usage j).toInt - (setting.usage i).toInt) /
    ((j - i) * setting.collectionPeriod.toInt / 10 ^ 3)

/-- At a successful tick, whatever the node and the thresholds are, "over" is asked for
exactly when the average since the last read is above the upper one, and "under" exactly
when it is below the lower one and not above the upper one. -/
def TrueAverage (s : Ticking) (instant : Instant) : Prop :=
  setting.Reads s instant → ∀ previous ∈ s.lastRead, ∀ (node : SwarmNodeInfo) (cpu : CPUResource)
    (direction : String), AskedFor (setting.turnOf node cpu s instant).1 direction ↔
      Asks node setting.containerID instant.answers ∧ cpu.Demands (setting.average previous s.instants) direction

/-- No scaling is requested at this instant. -/
def NoRequest (s : Ticking) (instant : Instant) : Prop :=
  ∀ op ∈ (setting.turn s instant).1, op.direction? = none

/-- Over every window the average stays within the limits. -/
def Steady : Prop :=
  ∀ i j, i < j → setting.cpu.lowerUtil ≤ setting.average i j ∧ setting.average i j ≤ setting.cpu.upperUtil

/-- The usage is cumulative, and the period is positive. -/
structure Cumulative : Prop where
  nonneg : 0 ≤ (setting.usage 0).toInt
  rises : ∀ i j, i ≤ j → (setting.usage i).toInt ≤ (setting.usage j).toInt
  period : 0 < setting.collectionPeriod.toInt

/-- Every read after the first yields the average usage since the read before, compared with
the thresholds; a steady usage within them asks for nothing. -/
structure Averages (instants : List Instant) : Prop where
  computed : Meets setting.step setting.TrueAverage {} instants
  quiet : setting.Steady → Meets setting.step setting.NoRequest {} instants

/-- The last read was one period ago, or nothing has been used since. -/
def ReadsInTime (s : Ticking) (instant : Instant) : Prop :=
  setting.Reads s instant → ∀ previous ∈ s.lastRead,
    previous + 1 = s.instants ∨ setting.usage previous = setting.usage s.instants

instance (s : Ticking) (instant : Instant) : Decidable (setting.ReadsInTime s instant) :=
  inferInstanceAs (Decidable (_ → ∀ previous ∈ s.lastRead, _))

end Setting

/-- The claim for every container whose usage is cumulative and every sequence of
instants. -/
def AlwaysAverages : Prop :=
  ∀ (setting : Setting) (instants : List Instant), setting.Cumulative → setting.Averages instants

/-- A container that uses 60 % of one second each, for ten seconds, with an upper limit of 80 %. -/
def sixtyPercent : Setting where
  cpu := ⟨0, 80⟩
  node := ⟨true, [], 5⟩
  containerID := "web.1"
  collectionPeriod := 1000000000
  usage := fun instant => Int64.ofNat (min instant 10 * 600000)

theorem cumulative_sixtyPercent : sixtyPercent.Cumulative where
  nonneg := by decide
  rises i j hLe := by
    have hUsage (instant : Nat) : (sixtyPercent.usage instant).toInt = (min instant 10 * 600000 : Nat) :=
      Int64.toInt_ofNat_of_lt (by omega)
    rw [hUsage, hUsage]
    omega
  period := by decide

/-- One read fails, and the next one sees the usage of two periods. -/
theorem not_alwaysAverages : ¬ AlwaysAverages := by
  intro h
  have hComputed := (h sixtyPercent [⟨.tick, none, smoothly⟩, ⟨.tick, some "no such file", smoothly⟩,
    ⟨.tick, none, smoothly⟩]
    cumulative_sixtyPercent).computed
  have hAverage := ((hComputed.2 _ rfl).2 _ rfl).1 (by decide +kernel) 0 rfl ⟨true, [], 5⟩ ⟨0, 80⟩ "over"
  have hDemands := (hAverage.mp ⟨.scaleService "web.1" "over", by decide +kernel, rfl⟩).2
  revert hDemands
  decide +kernel

section Turns

variable {setting : Setting} {s t : Ticking} {instant : Instant} {previous instants : Nat}

theorem Instant.answer_error {usageUsec : Int64} {containerID err : String} (h : instant.fails = some err) :
    instant.answer usageUsec (.readCPUUsage containerID) = .error err := by
  obtain ⟨received, fails, answers⟩ := instant
  cases h
  rfl

theorem Instant.answer_ok {usageUsec : Int64} {containerID : String} (h : instant.fails = none) :
    instant.answer usageUsec (.readCPUUsage containerID) = .ok usageUsec := by
  obtain ⟨received, fails, answers⟩ := instant
  cases h
  rfl

/-- Where a Monitor can be: in its loop it carries the usage at its last read. -/
inductive Tracked (setting : Setting) : Ticking → Prop where
  | starting : Tracked setting {}
  | ticking {previous instants : Nat} (hPast : previous < instants) :
      Tracked setting ⟨.ticking (setting.usage previous), instants, some previous⟩
  | returned {instants : Nat} {lastRead : Option Nat} : Tracked setting ⟨.returned, instants, lastRead⟩

/-- What can happen at an instant in the loop. -/
inductive TickCase (setting : Setting) (previous instants : Nat) (instant : Instant) :
    List Op × Progress → Prop where
  | done (hDone : instant.received = .done) : TickCase setting previous instants instant ([.selectTick], .returned)
  | failed {err : String} (hTick : instant.received = .tick) (hFails : instant.fails = some err) :
      TickCase setting previous instants instant
        ([.selectTick, .readCPUUsage setting.containerID], .ticking (setting.usage previous))
  | read {ops : List Op} {progress : Progress} (hTick : instant.received = .tick) (hFails : instant.fails = none)
      (hProgress : progress = .ticking (setting.usage instants) ∨ progress = .returned) :
      TickCase setting previous instants instant
        (.selectTick :: .readCPUUsage setting.containerID :: ops, progress)

theorem reads_ticking : setting.Reads ⟨.ticking (setting.usage previous), instants, some previous⟩ instant ↔
    .readCPUUsage setting.containerID ∈
        (setting.turn ⟨.ticking (setting.usage previous), instants, some previous⟩ instant).1 ∧
      instant.fails = none :=
  Iff.rfl

theorem tickCase (setting : Setting) (previous instants : Nat) (instant : Instant) :
    TickCase setting previous instants instant
      (setting.turn ⟨.ticking (setting.usage previous), instants, some previous⟩ instant) := by
  have hTurn : setting.turn ⟨.ticking (setting.usage previous), instants, some previous⟩ instant =
      (setting.cpu.turn setting.node setting.containerID setting.collectionPeriod cpuUtilization
        (setting.usage previous)).replay
        (instant.answer (setting.usage instants)) := rfl
  have hSelect : instant.answer (setting.usage instants) .selectTick = instant.received := rfl
  rw [hTurn]
  cases hReceived : instant.received with
  | done =>
      rw [CPUResource.replay_done (hSelect.trans hReceived)]
      exact .done hReceived
  | tick =>
      cases hFails : instant.fails with
      | some err =>
          rw [CPUResource.replay_error (hSelect.trans hReceived) (Instant.answer_error hFails)]
          exact .failed hReceived hFails
      | none =>
          rw [CPUResource.replay_ok (hSelect.trans hReceived) (Instant.answer_ok hFails)]
          exact .read hReceived hFails replay_act_snd

/-- The first turn is the initial read. -/
theorem turn_failing {err : String} (hFails : instant.fails = some err) :
    setting.turn {} instant = ([.readCPUUsage setting.containerID], .returned) := by
  have hTurn : setting.turn {} instant =
      (CPUResource.begin setting.containerID).replay (instant.answer (setting.usage 0)) := rfl
  rw [hTurn, CPUResource.begin, Program.replay_perform, Instant.answer_error hFails]
  rfl

theorem turn_starting (hFails : instant.fails = none) :
    setting.turn {} instant = ([.readCPUUsage setting.containerID], .ticking (setting.usage 0)) := by
  have hTurn : setting.turn {} instant =
      (CPUResource.begin setting.containerID).replay (instant.answer (setting.usage 0)) := rfl
  rw [hTurn, CPUResource.begin, Program.replay_perform, Instant.answer_ok hFails]
  rfl

theorem tracked_step (h : Tracked setting s) (hStep : setting.step s instant = some t) : Tracked setting t := by
  cases h with
  | returned => cases hStep
  | starting =>
      rw [Setting.step, if_neg nofun] at hStep
      obtain rfl := Option.some.inj hStep
      cases hFails : instant.fails with
      | some err =>
          rw [turn_failing hFails]
          exact .returned
      | none =>
          have hReads : setting.Reads {} instant := by
            rw [Setting.Reads, turn_starting hFails]
            exact ⟨List.mem_cons_self .., hFails⟩
          rw [turn_starting hFails, if_pos hReads]
          exact .ticking Nat.zero_lt_one
  | @ticking previous instants hPast =>
      rw [Setting.step, if_neg nofun] at hStep
      obtain rfl := Option.some.inj hStep
      have hCase := tickCase setting previous instants instant
      have hReads := @reads_ticking setting instant previous instants
      generalize setting.turn ⟨.ticking (setting.usage previous), instants, some previous⟩ instant = result
        at hCase hReads
      cases hCase with
      | done => exact .returned
      | failed hTick hFails =>
          rw [if_neg fun h => nomatch hFails.symm.trans (hReads.mp h).2]
          exact .ticking (Nat.lt_succ_of_lt hPast)
      | read hTick hFails hProgress =>
          rw [if_pos (hReads.mpr ⟨by simp, hFails⟩)]
          rcases hProgress with rfl | rfl
          · exact .ticking (Nat.lt_succ_self _)
          · exact .returned

end Turns

section Averages

variable {setting : Setting} {s : Ticking} {instant : Instant} {previous now : Nat} {instants : List Instant}

theorem toInt_sub (hCumulative : setting.Cumulative) (hPast : previous ≤ now) :
    (setting.usage now - setting.usage previous).toInt =
      (setting.usage now).toInt - (setting.usage previous).toInt := by
  have hBefore := hCumulative.rises 0 previous (Nat.zero_le _)
  have hRises := hCumulative.rises previous now hPast
  have hBound := Int64.toInt_lt (setting.usage now)
  have hNonneg := hCumulative.nonneg
  rw [Int64.toInt_sub, Int.bmod_eq_of_le] <;> omega

/-- The computed value is the usage divided by one period, whatever the time between the reads. -/
theorem cpuUtilization_eq (hCumulative : setting.Cumulative) (hPast : previous < now) :
    cpuUtilization (setting.usage now - setting.usage previous) setting.collectionPeriod =
      (now - previous) * setting.average previous now := by
  have hPeriod : (setting.collectionPeriod.toInt : Rat) ≠ 0 := by
    exact_mod_cast Int.ne_of_gt hCumulative.period
  have hElapsed : (now : Rat) - previous ≠ 0 := by
    rw [sub_ne_zero]
    exact_mod_cast Nat.ne_of_gt hPast
  rw [cpuUtilization, Setting.average, seconds, toInt_sub hCumulative (Nat.le_of_lt hPast)]
  push_cast
  field_simp

/-- It is the average when one period has passed, or nothing was used. -/
theorem cpuUtilization_eq_average_iff (hCumulative : setting.Cumulative) (hPast : previous < now) :
    cpuUtilization (setting.usage now - setting.usage previous) setting.collectionPeriod =
        setting.average previous now ↔
      previous + 1 = now ∨ setting.usage previous = setting.usage now := by
  have hPeriod : (setting.collectionPeriod.toInt : Rat) ≠ 0 := by
    exact_mod_cast Int.ne_of_gt hCumulative.period
  have hElapsed : (now : Rat) - previous ≠ 0 := by
    rw [sub_ne_zero]
    exact_mod_cast Nat.ne_of_gt hPast
  have hOne : (now : Rat) - previous = 1 ↔ previous + 1 = now := by
    rw [sub_eq_iff_eq_add', eq_comm]
    exact_mod_cast Iff.rfl
  have hTime : ((now : Rat) - previous) * setting.collectionPeriod.toInt / 10 ^ 3 ≠ 0 :=
    div_ne_zero (mul_ne_zero hElapsed hPeriod) (by norm_num)
  have hZero : setting.average previous now = 0 ↔ setting.usage previous = setting.usage now := by
    rw [Setting.average, div_eq_zero_iff, or_iff_left hTime, mul_eq_zero, or_iff_right (by norm_num), sub_eq_zero,
      Int.cast_inj, Int64.toInt_inj, eq_comm]
  rw [cpuUtilization_eq hCumulative hPast, mul_left_eq_self₀, hOne, hZero]

theorem demands_iff {cpu : CPUResource} {utilization : Rat} {direction : String} :
    cpu.Demands utilization direction ↔ direction ≠ "" ∧
      direction = determineScalingDirection utilization cpu.lowerUtil cpu.upperUtil := by
  rw [CPUResource.Demands, determineScalingDirection]
  by_cases hOver : cpu.upperUtil < utilization
  · rw [if_pos hOver]
    constructor
    · rintro (⟨rfl, _⟩ | ⟨_, hBelow, _⟩)
      · exact ⟨by decide, rfl⟩
      · exact absurd hOver (not_lt.mpr hBelow)
    · exact fun h => Or.inl ⟨h.2, hOver⟩
  · rw [if_neg hOver]
    by_cases hUnder : utilization < cpu.lowerUtil
    · rw [if_pos hUnder]
      constructor
      · rintro (⟨_, hAbove⟩ | ⟨rfl, _⟩)
        · exact absurd hAbove hOver
        · exact ⟨by decide, rfl⟩
      · exact fun h => Or.inr ⟨h.2, not_lt.mp hOver, hUnder⟩
    · rw [if_neg hUnder]
      exact iff_of_false (fun h => h.elim (fun h => hOver h.2) fun h => hUnder h.2.2) fun h => h.1 h.2

/-- Thresholds that lie between them tell two utilisations apart. -/
theorem demands_ext {u v : Rat} (h : ∀ (cpu : CPUResource) (direction : String),
    cpu.Demands u direction ↔ cpu.Demands v direction) : u = v := by
  have hOver (a b : Rat) : CPUResource.Demands ⟨0, a⟩ b "over" ↔ a < b := by simp [CPUResource.Demands]
  refine le_antisymm (not_lt.mp fun hLess => ?_) (not_lt.mp fun hLess => ?_)
  · exact lt_irrefl v ((hOver v v).mp ((h ⟨0, v⟩ "over").mp ((hOver v u).mpr hLess)))
  · exact lt_irrefl u ((hOver u u).mp ((h ⟨0, u⟩ "over").mpr ((hOver u v).mpr hLess)))

/-- A turn in the loop that reads asks for what its utilisation calls for. -/
theorem askedFor_read {node : SwarmNodeInfo} {cpu : CPUResource} {direction : String}
    (hTick : instant.received = .tick) (hFails : instant.fails = none) :
    AskedFor (setting.turnOf node cpu ⟨.ticking (setting.usage previous), now, some previous⟩ instant).1
        direction ↔
      Asks node setting.containerID instant.answers ∧
        cpu.Demands (cpuUtilization (setting.usage now - setting.usage previous) setting.collectionPeriod)
          direction := by
  have hTurn : setting.turnOf node cpu ⟨.ticking (setting.usage previous), now, some previous⟩ instant =
      (cpu.turn node setting.containerID setting.collectionPeriod cpuUtilization (setting.usage previous)).replay
        (instant.answer (setting.usage now)) := rfl
  have hSelect : instant.answer (setting.usage now) .selectTick = .tick := hTick
  rw [hTurn, CPUResource.replay_ok hSelect (Instant.answer_ok hFails), askedFor_cons rfl, askedFor_cons rfl,
    demands_iff]
  exact askedFor_act

theorem reads_iff : setting.Reads ⟨.ticking (setting.usage previous), now, some previous⟩ instant ↔
    instant.received = .tick ∧ instant.fails = none := by
  have hCase := tickCase setting previous now instant
  rw [reads_ticking]
  generalize setting.turn ⟨.ticking (setting.usage previous), now, some previous⟩ instant = result at hCase ⊢
  cases hCase with
  | done hDone => simp [hDone]
  | failed hTick hFails => simp [hFails]
  | read hTick hFails => simp [hTick]

/-- Which reads are successful can be seen from where the Monitor is. -/
theorem trueAverage_iff_readsInTime (hCumulative : setting.Cumulative) (h : Tracked setting s)
    (instant : Instant) :
    setting.TrueAverage s instant ↔ setting.ReadsInTime s instant := by
  cases h with
  | starting => exact iff_of_true (fun _ _ hNone => nomatch hNone) (fun _ _ hNone => nomatch hNone)
  | @returned instants lastRead =>
      have hNever : ¬ setting.Reads ⟨.returned, instants, lastRead⟩ instant := fun hReads => nomatch hReads.1
      exact iff_of_true (fun hReads => absurd hReads hNever) (fun hReads => absurd hReads hNever)
  | @ticking previous instants hPast =>
      have hExact := cpuUtilization_eq_average_iff hCumulative hPast
      constructor
      · intro hTrue hReads other hOther
        cases hOther
        obtain ⟨hTick, hFails⟩ := reads_iff.mp hReads
        refine hExact.mp (demands_ext fun cpu direction => ?_)
        -- A manager can always ask.
        have hAsks : Asks ⟨true, [], 0⟩ setting.containerID instant.answers := Or.inl rfl
        have hAsked := (askedFor_read hTick hFails).symm.trans (hTrue hReads _ rfl ⟨true, [], 0⟩ cpu direction)
        rwa [and_iff_right hAsks, and_iff_right hAsks] at hAsked
      · intro hInTime hReads other hOther node cpu direction
        cases hOther
        obtain ⟨hTick, hFails⟩ := reads_iff.mp hReads
        rw [← hExact.mpr (hInTime hReads _ rfl)]
        exact askedFor_read hTick hFails

/-- A steady container whose utilisation is the true average is left alone. -/
theorem noRequest_of_trueAverage (hSteady : setting.Steady) (h : Tracked setting s)
    (hTrue : setting.TrueAverage s instant) : setting.NoRequest s instant := by
  intro op hMem
  cases h with
  | returned => cases hMem
  | starting =>
      cases hFails : instant.fails with
      | some err =>
          rw [turn_failing hFails, List.mem_singleton] at hMem
          rw [hMem]
          rfl
      | none =>
          rw [turn_starting hFails, List.mem_singleton] at hMem
          rw [hMem]
          rfl
  | @ticking previous instants hPast =>
      cases hAsked : op.direction? with
      | none => rfl
      | some direction =>
          have hCase := tickCase setting previous instants instant
          generalize hTurn : setting.turn ⟨.ticking (setting.usage previous), instants, some previous⟩ instant =
            result at hCase hMem
          cases hCase with
          | done =>
              rw [List.mem_singleton.mp hMem] at hAsked
              cases hAsked
          | failed => rcases List.mem_pair.mp hMem with rfl | rfl <;> cases hAsked
          | read hTick hFails =>
              obtain ⟨hLower, hUpper⟩ := hSteady previous instants hPast
              have hMem : op ∈ (setting.turn ⟨.ticking (setting.usage previous), instants, some previous⟩ instant).1 :=
                hTurn ▸ hMem
              have hDemands := ((hTrue (reads_iff.mpr ⟨hTick, hFails⟩) previous rfl setting.node setting.cpu
                direction).mp ⟨op, hMem, hAsked⟩).2
              rcases hDemands with ⟨_, hAbove⟩ | ⟨_, _, hBelow⟩
              · exact absurd hAbove (not_lt.mpr hUpper)
              · exact absurd hBelow (not_lt.mpr hLower)

end Averages

/-- For every series and every pattern of failing reads: the utilisation is the true
average, and a steady container is left alone, exactly when every successful read has the
last one a period before it, or nothing was used since. -/
theorem averages_iff_readsInTime (setting : Setting) (hCumulative : setting.Cumulative) (instants : List Instant) :
    setting.Averages instants ↔ Meets setting.step setting.ReadsInTime {} instants := by
  have hKeep {guard : Ticking → Instant → Prop} (s : Ticking) (instant : Instant) (t : Ticking)
    (h : Tracked setting s)
      (_ : guard s instant) (hStep : setting.step s instant = some t) : Tracked setting t := tracked_step h hStep
  have hComputed : Meets setting.step setting.TrueAverage {} instants ↔
      Meets setting.step setting.ReadsInTime {} instants :=
    ⟨meets_of_invariant hKeep (fun _ instant h => (trueAverage_iff_readsInTime hCumulative h instant).mp)
      .starting,
      meets_of_invariant hKeep (fun _ instant h => (trueAverage_iff_readsInTime hCumulative h instant).mpr)
        .starting⟩
  refine ⟨fun h => hComputed.mp h.computed, fun h => ⟨hComputed.mpr h, fun hSteady => ?_⟩⟩
  exact meets_of_invariant hKeep (fun _ _ h => noRequest_of_trueAverage hSteady h) .starting (hComputed.mpr h)

theorem averages_sixtyPercent : sixtyPercent.Averages
    [⟨.tick, none, smoothly⟩, ⟨.tick, none, smoothly⟩, ⟨.tick, none, smoothly⟩,
      ⟨.tick, some "no such file", smoothly⟩] :=
  (averages_iff_readsInTime sixtyPercent cumulative_sixtyPercent _).mpr (by decide +kernel)

end Resources

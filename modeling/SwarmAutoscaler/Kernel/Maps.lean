import Mathlib.Algebra.Order.Ring.Nat
import Mathlib.Logic.Function.Basic

/-! The BPF maps of the connection monitor and its kprobe. One call of the kprobe is one
step; the user-space side puts and deletes single entries of the same maps. -/
namespace Kernel

/-- The BPF maps that the kprobe and the Go code share, each with the entries it has. -/
structure Maps where
  connCountMap : UInt32 → Option UInt32 := fun _ => none
  constantsMap : UInt32 → Option UInt32 := fun _ => none
  bufferMap : UInt32 → Option UInt32 := fun _ => none
  scalingMap : UInt32 → Option UInt32 := fun _ => none
  validNetnsMap : UInt32 → Option UInt32 := fun _ => none

/-- The texts "Lower" and "Upper" that the kprobe writes. -/
inductive Message where
  | lower
  | upper
  deriving DecidableEq, Repr

/-- The sample that the kprobe puts into the perf buffer. -/
structure Data where
  netns : UInt32
  message : Message
  deriving DecidableEq, Repr

/-- `TCP_ESTABLISHED` -/
def tcpEstablished : UInt8 := 1
/-- `TCP_CLOSE` -/
def tcpClose : UInt8 := 7
/-- `TCP_CLOSE_WAIT` -/
def tcpCloseWait : UInt8 := 8
/-- `TCP_LAST_ACK` -/
def tcpLastAck : UInt8 := 9

namespace Maps

variable (maps : Maps) (netns : UInt32)

/-- `conn_count_map` after an update or a delete under one key. -/
def putConnCount (value : Option UInt32) : Maps :=
  { maps with connCountMap := Function.update maps.connCountMap netns value }

/-- `buffer_map` after an update or a delete under one key. -/
def putBuffer (value : Option UInt32) : Maps :=
  { maps with bufferMap := Function.update maps.bufferMap netns value }

/-- `scaling_map` after an update or a delete under one key. -/
def putScaling (value : Option UInt32) : Maps :=
  { maps with scalingMap := Function.update maps.scalingMap netns value }

/-- `valid_netns_map` after an update or a delete under one key. -/
def putValid (value : Option UInt32) : Maps :=
  { maps with validNetnsMap := Function.update maps.validNetnsMap netns value }

variable (value : Option UInt32)

@[simp] theorem putConnCount_connCountMap :
    (maps.putConnCount netns value).connCountMap = Function.update maps.connCountMap netns value := rfl
@[simp] theorem putConnCount_constantsMap : (maps.putConnCount netns value).constantsMap = maps.constantsMap := rfl
@[simp] theorem putConnCount_bufferMap : (maps.putConnCount netns value).bufferMap = maps.bufferMap := rfl
@[simp] theorem putConnCount_scalingMap : (maps.putConnCount netns value).scalingMap = maps.scalingMap := rfl
@[simp] theorem putConnCount_validNetnsMap :
    (maps.putConnCount netns value).validNetnsMap = maps.validNetnsMap := rfl
@[simp] theorem putBuffer_connCountMap : (maps.putBuffer netns value).connCountMap = maps.connCountMap := rfl
@[simp] theorem putBuffer_constantsMap : (maps.putBuffer netns value).constantsMap = maps.constantsMap := rfl
@[simp] theorem putBuffer_bufferMap :
    (maps.putBuffer netns value).bufferMap = Function.update maps.bufferMap netns value := rfl
@[simp] theorem putBuffer_scalingMap : (maps.putBuffer netns value).scalingMap = maps.scalingMap := rfl
@[simp] theorem putBuffer_validNetnsMap : (maps.putBuffer netns value).validNetnsMap = maps.validNetnsMap := rfl
@[simp] theorem putScaling_connCountMap : (maps.putScaling netns value).connCountMap = maps.connCountMap := rfl
@[simp] theorem putScaling_constantsMap : (maps.putScaling netns value).constantsMap = maps.constantsMap := rfl
@[simp] theorem putScaling_bufferMap : (maps.putScaling netns value).bufferMap = maps.bufferMap := rfl
@[simp] theorem putScaling_scalingMap :
    (maps.putScaling netns value).scalingMap = Function.update maps.scalingMap netns value := rfl
@[simp] theorem putScaling_validNetnsMap :
    (maps.putScaling netns value).validNetnsMap = maps.validNetnsMap := rfl
@[simp] theorem putValid_connCountMap : (maps.putValid netns value).connCountMap = maps.connCountMap := rfl
@[simp] theorem putValid_constantsMap : (maps.putValid netns value).constantsMap = maps.constantsMap := rfl
@[simp] theorem putValid_bufferMap : (maps.putValid netns value).bufferMap = maps.bufferMap := rfl
@[simp] theorem putValid_scalingMap : (maps.putValid netns value).scalingMap = maps.scalingMap := rfl
@[simp] theorem putValid_validNetnsMap :
    (maps.putValid netns value).validNetnsMap = Function.update maps.validNetnsMap netns value := rfl

end Maps

/-- `*count` and `new_value` after a call in the given state. `TCP_LAST_ACK` stands in the
condition by itself, so every state but `TCP_ESTABLISHED` counts down. -/
def tally (state : UInt8) (count : UInt32) : UInt32 × UInt32 :=
  if state = tcpEstablished then (count + 1, count + 1)
  else if state = tcpClose ∨ state = tcpCloseWait ∨ tcpLastAck ≠ 0 then
    if 0 < count then (count - 1, count - 1) else (count, 0)
  else (count, 0)

/-- The counting part. Without an entry the map gets 0 and the call counts on a variable
of its own, which is lost. -/
def countCall (maps : Maps) (netns : UInt32) (state : UInt8) : Maps × UInt32 :=
  match maps.connCountMap netns with
  | none => (maps.putConnCount netns (some 0), (tally state 0).2)
  | some count => (maps.putConnCount netns (some (tally state count).1), (tally state count).2)

/-- The part that collects samples out of range and asks for scaling. -/
def bufferSample (maps : Maps) (netns lowerLimit upperLimit bufferLength newValue : UInt32) :
    Maps × Option Data :=
  let buffer := (maps.bufferMap netns).getD 0
  let next := if newValue ≤ lowerLimit ∨ upperLimit ≤ newValue then buffer + 1 else 0
  if next = bufferLength then
    ((maps.putScaling netns (some 1)).putBuffer netns (some 0),
      some ⟨netns, if newValue ≤ lowerLimit then .lower else .upper⟩)
  else (maps.putBuffer netns (some next), none)

/-- `sk` is the state of the socket, if the pointer to it could be read. The kernel's own
map updates succeed. -/
def kprobeTcpRecvmsg (maps : Maps) (netns : UInt32) (sk : Option UInt8) : Maps × Option Data :=
  match sk, maps.validNetnsMap netns with
  | some state, some _ =>
      match maps.constantsMap 0, maps.constantsMap 1, maps.constantsMap 2 with
      | some lowerLimit, some upperLimit, some bufferLength =>
          let counted := countCall maps netns state
          if counted.1.scalingMap netns = some 1 then (counted.1, none)
          else bufferSample counted.1 netns lowerLimit upperLimit bufferLength counted.2
      | _, _, _ => (maps, none)
  | _, _ => (maps, none)

/-- The three puts of `addNamespace`. -/
def addNamespaceMaps (maps : Maps) (netns : UInt32) : Maps :=
  ((maps.putConnCount netns (some 0)).putValid netns (some 1)).putScaling netns (some 0)

/-- The flag of the namespace is cleared, so that the kprobe puts out events for it
again. -/
def addNamespaceToScalingMap (maps : Maps) (netns : UInt32) : Maps := maps.putScaling netns (some 0)

theorem tally_established {state : UInt8} (h : state = tcpEstablished) (count : UInt32) :
    tally state count = (count + 1, count + 1) := if_pos h

theorem tally_other {state : UInt8} (h : state ≠ tcpEstablished) (count : UInt32) :
    tally state count = (if 0 < count then count - 1 else count, if 0 < count then count - 1 else 0) := by
  have hAlways : state = tcpClose ∨ state = tcpCloseWait ∨ tcpLastAck ≠ 0 := Or.inr (Or.inr (by decide))
  rw [tally, if_neg h, if_pos hAlways]
  split <;> rfl

/-- The sampled value is the stored one. -/
theorem tally_fst_eq_snd (state : UInt8) (count : UInt32) : (tally state count).1 = (tally state count).2 := by
  by_cases h : state = tcpEstablished
  · rw [tally_established h]
  · rw [tally_other h]
    split
    · rfl
    · next hZero =>
        have hLe : count.toNat ≤ 0 := UInt32.le_iff_toNat_le.mp (UInt32.not_lt.mp hZero)
        apply UInt32.toNat_inj.mp
        show count.toNat = 0
        omega

/-- A call moves the count by at most one. -/
theorem toNat_tally {state : UInt8} {count : UInt32} (h : count.toNat + 1 < 2 ^ 32 ∨ state ≠ tcpEstablished) :
    (tally state count).1.toNat =
      if state = tcpEstablished then count.toNat + 1 else count.toNat - 1 := by
  by_cases hState : state = tcpEstablished
  · rw [tally_established hState, if_pos hState]
    have hSmall : count.toNat + 1 < 2 ^ 32 := h.resolve_right fun hOther => hOther hState
    rw [UInt32.toNat_add]
    exact Nat.mod_eq_of_lt hSmall
  · rw [tally_other hState, if_neg hState]
    by_cases hPositive : 0 < count
    · have hNat : 0 < count.toNat := UInt32.lt_iff_toNat_lt.mp hPositive
      have hLe : (1 : UInt32) ≤ count := UInt32.le_iff_toNat_le.mpr hNat
      simp only [hPositive, ↓reduceIte]
      rw [UInt32.toNat_sub_of_le _ _ hLe]
      rfl
    · have hLe : count.toNat ≤ 0 := UInt32.le_iff_toNat_le.mp (UInt32.not_lt.mp hPositive)
      simp only [hPositive, ↓reduceIte]
      omega

section Kprobe

variable {maps : Maps} {netns other : UInt32} {sk : Option UInt8}

/-- A namespace that is not tracked is left alone. -/
theorem kprobe_invalid (h : maps.validNetnsMap netns = none) : kprobeTcpRecvmsg maps netns sk = (maps, none) := by
  unfold kprobeTcpRecvmsg
  rw [h]
  cases sk <;> rfl

/-- Two sets of maps that hold the same about a namespace. -/
structure SameAt (maps maps' : Maps) (netns : UInt32) : Prop where
  connCountMap : maps'.connCountMap netns = maps.connCountMap netns
  bufferMap : maps'.bufferMap netns = maps.bufferMap netns
  scalingMap : maps'.scalingMap netns = maps.scalingMap netns
  validNetnsMap : maps'.validNetnsMap netns = maps.validNetnsMap netns

theorem SameAt.refl (maps : Maps) (netns : UInt32) : SameAt maps maps netns := ⟨rfl, rfl, rfl, rfl⟩

theorem SameAt.trans {maps maps' maps'' : Maps} (h : SameAt maps maps' netns) (h' : SameAt maps' maps'' netns) :
    SameAt maps maps'' netns :=
  ⟨h'.1.trans h.1, h'.2.trans h.2, h'.3.trans h.3, h'.4.trans h.4⟩

theorem sameAt_putConnCount (h : other ≠ netns) (value : Option UInt32) :
    SameAt maps (maps.putConnCount netns value) other := ⟨Function.update_of_ne h .., rfl, rfl, rfl⟩

theorem sameAt_putBuffer (h : other ≠ netns) (value : Option UInt32) :
    SameAt maps (maps.putBuffer netns value) other := ⟨rfl, Function.update_of_ne h .., rfl, rfl⟩

theorem sameAt_putScaling (h : other ≠ netns) (value : Option UInt32) :
    SameAt maps (maps.putScaling netns value) other := ⟨rfl, rfl, Function.update_of_ne h .., rfl⟩

theorem sameAt_putValid (h : other ≠ netns) (value : Option UInt32) :
    SameAt maps (maps.putValid netns value) other := ⟨rfl, rfl, rfl, Function.update_of_ne h ..⟩

/-- What a call of the kprobe can do to the maps of its namespace, and the event it puts
out. The other maps and namespaces are as they were. -/
inductive Kprobe (maps : Maps) (netns : UInt32) : Maps → Option Data → Prop where
  | unseen : Kprobe maps netns maps none
  | counted (count : UInt32) (armed : maps.scalingMap netns = some 1) :
      Kprobe maps netns (maps.putConnCount netns (some count)) none
  | sampled (count buffer : UInt32) (disarmed : maps.scalingMap netns ≠ some 1)
      (grows : buffer = (maps.bufferMap netns).getD 0 + 1 ∨ buffer = 0) :
      Kprobe maps netns ((maps.putConnCount netns (some count)).putBuffer netns (some buffer)) none
  | signalled (count bufferLength : UInt32) (message : Message) (disarmed : maps.scalingMap netns ≠ some 1)
      (limit : maps.constantsMap 2 = some bufferLength)
      (full : bufferLength = (maps.bufferMap netns).getD 0 + 1 ∨ bufferLength = 0) :
      Kprobe maps netns
        (((maps.putConnCount netns (some count)).putScaling netns (some 1)).putBuffer netns (some 0))
        (some ⟨netns, message⟩)

theorem countCall_eq (maps : Maps) (netns : UInt32) (state : UInt8) :
    ∃ count newValue, countCall maps netns state = (maps.putConnCount netns (some count), newValue) := by
  unfold countCall
  split
  · exact ⟨_, _, rfl⟩
  · exact ⟨_, _, rfl⟩

theorem kprobe_cases (maps : Maps) (netns : UInt32) (sk : Option UInt8) :
    Kprobe maps netns (kprobeTcpRecvmsg maps netns sk).1 (kprobeTcpRecvmsg maps netns sk).2 := by
  unfold kprobeTcpRecvmsg
  split
  · next _ _ state _ _ =>
      split
      · next lowerLimit upperLimit bufferLength _ _ hLength =>
          obtain ⟨count, newValue, hCount⟩ := countCall_eq maps netns state
          rw [hCount]
          dsimp only
          split
          · next hArmed => exact .counted count hArmed
          · next hDisarmed =>
              unfold bufferSample
              dsimp only
              generalize hNext : (if newValue ≤ lowerLimit ∨ upperLimit ≤ newValue then
                ((maps.putConnCount netns (some count)).bufferMap netns).getD 0 + 1 else 0) = next
              have hGrows : next = (maps.bufferMap netns).getD 0 + 1 ∨ next = 0 := by
                rw [← hNext]
                split
                · exact Or.inl rfl
                · exact Or.inr rfl
              split
              · next hFull => exact .signalled count bufferLength _ hDisarmed hLength (hFull ▸ hGrows)
              · exact .sampled count next hDisarmed hGrows
      · exact .unseen
  · exact .unseen

/-- A call of the kprobe concerns one namespace. -/
theorem kprobe_sameAt (h : other ≠ netns) : SameAt maps (kprobeTcpRecvmsg maps netns sk).1 other := by
  have hCases := kprobe_cases maps netns sk
  generalize kprobeTcpRecvmsg maps netns sk = result at hCases ⊢
  obtain ⟨maps', event⟩ := result
  cases hCases with
  | unseen => exact SameAt.refl _ other
  | counted count armed => exact sameAt_putConnCount h _
  | sampled count buffer disarmed grows => exact (sameAt_putConnCount h _).trans (sameAt_putBuffer h _)
  | signalled count bufferLength message disarmed limit full =>
      exact ((sameAt_putConnCount h _).trans (sameAt_putScaling h _)).trans (sameAt_putBuffer h _)

theorem kprobe_unread : kprobeTcpRecvmsg maps netns none = (maps, none) := rfl

/-- All three limits have been stored. -/
def Limited (maps : Maps) : Prop :=
  (maps.constantsMap 0).isSome = true ∧ (maps.constantsMap 1).isSome = true ∧ (maps.constantsMap 2).isSome = true

instance (maps : Maps) : Decidable (Limited maps) := inferInstanceAs (Decidable (_ ∧ _ ∧ _))

theorem kprobe_unlimited (h : ¬ Limited maps) : kprobeTcpRecvmsg maps netns sk = (maps, none) := by
  unfold kprobeTcpRecvmsg
  split
  · split
    · next hLower hUpper hLength =>
        have hLimited : Limited maps := ⟨by rw [hLower]; rfl, by rw [hUpper]; rfl, by rw [hLength]; rfl⟩
        exact absurd hLimited h
    · rfl
  · rfl

/-- A call on a tracked namespace counts, and buffers the sample unless an event is out. -/
theorem kprobe_of_limits {state : UInt8} {lowerLimit upperLimit bufferLength : UInt32}
    (hValid : (maps.validNetnsMap netns).isSome = true) (hLower : maps.constantsMap 0 = some lowerLimit)
    (hUpper : maps.constantsMap 1 = some upperLimit) (hLength : maps.constantsMap 2 = some bufferLength) :
    kprobeTcpRecvmsg maps netns (some state) =
      if (countCall maps netns state).1.scalingMap netns = some 1 then ((countCall maps netns state).1, none)
      else bufferSample (countCall maps netns state).1 netns lowerLimit upperLimit bufferLength
        (countCall maps netns state).2 := by
  obtain ⟨value, hValid⟩ := Option.isSome_iff_exists.mp hValid
  simp only [kprobeTcpRecvmsg, hValid, hLower, hUpper, hLength]

theorem bufferSample_connCountMap {lowerLimit upperLimit bufferLength newValue : UInt32} :
    (bufferSample maps netns lowerLimit upperLimit bufferLength newValue).1.connCountMap = maps.connCountMap := by
  unfold bufferSample
  dsimp only
  repeat' split
  all_goals rfl

/-- Whatever else a call does, the count is the one of its counting part. -/
theorem kprobe_connCountMap_eq {state : UInt8} (hValid : (maps.validNetnsMap netns).isSome = true)
    (hLimited : Limited maps) :
    (kprobeTcpRecvmsg maps netns (some state)).1.connCountMap = (countCall maps netns state).1.connCountMap := by
  obtain ⟨hLower, hUpper, hLength⟩ := hLimited
  obtain ⟨lowerLimit, hLower⟩ := Option.isSome_iff_exists.mp hLower
  obtain ⟨upperLimit, hUpper⟩ := Option.isSome_iff_exists.mp hUpper
  obtain ⟨bufferLength, hLength⟩ := Option.isSome_iff_exists.mp hLength
  rw [kprobe_of_limits hValid hLower hUpper hLength]
  split
  · rfl
  · exact bufferSample_connCountMap

theorem kprobe_validNetnsMap : (kprobeTcpRecvmsg maps netns sk).1.validNetnsMap = maps.validNetnsMap := by
  have hCases := kprobe_cases maps netns sk
  generalize kprobeTcpRecvmsg maps netns sk = result at hCases ⊢
  obtain ⟨maps', event⟩ := result
  cases hCases <;> rfl

theorem kprobe_constantsMap : (kprobeTcpRecvmsg maps netns sk).1.constantsMap = maps.constantsMap := by
  have hCases := kprobe_cases maps netns sk
  generalize kprobeTcpRecvmsg maps netns sk = result at hCases ⊢
  obtain ⟨maps', event⟩ := result
  cases hCases <;> rfl

theorem kprobe_connCountMap_isSome (h : (maps.connCountMap netns).isSome = true) :
    ((kprobeTcpRecvmsg maps netns sk).1.connCountMap netns).isSome = true := by
  have hCases := kprobe_cases maps netns sk
  generalize kprobeTcpRecvmsg maps netns sk = result at hCases ⊢
  obtain ⟨maps', event⟩ := result
  cases hCases with
  | unseen => exact h
  | _ => simp

end Kprobe

end Kernel

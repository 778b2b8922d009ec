import Mathlib.Data.Finset.Card
import Mathlib.Data.Finset.Dedup
import SwarmAutoscaler.Kernel.Maps
import SwarmAutoscaler.Process.Run

/-! What the count of the kprobe has to do with connections. It follows the calls of
`tcp_recvmsg`, so it is the number of open connections only while every connection reads
once before it closes, and is not read at its end while another one is open. -/
namespace Kernel

open Process

/-- One call of `tcp_recvmsg` on a connection in a TCP state. -/
structure Receive where
  connection : Nat
  state : UInt8
  deriving DecidableEq, Repr

/-- The maps, and the calls so far with the latest first. -/
structure Receiving where
  maps : Maps
  calls : List Receive := []

/-- A state in which the kprobe is meant to count a connection down. -/
def closing (state : UInt8) : Bool := state == tcpCloseWait || state == tcpLastAck || state == tcpClose

/-- The connection has made a call in `TCP_ESTABLISHED` and none in a closing state. -/
def isOpen (calls : List Receive) (connection : Nat) : Bool :=
  calls.any (fun call => call.connection == connection && call.state == tcpEstablished) &&
    calls.all fun call => call.connection != connection || !closing call.state

/-- The connections that are open after these calls. -/
def openConnections (calls : List Receive) : Finset Nat :=
  (calls.map Receive.connection).toFinset.filter fun connection => isOpen calls connection = true

/-- One call of `tcp_recvmsg` on a connection, seen by the kprobe. -/
def receive (netns : UInt32) (s : Receiving) (call : Receive) : Option Receiving :=
  some ⟨(kprobeTcpRecvmsg s.maps netns (some call.state)).1, call :: s.calls⟩

/-- The count is the number of open connections. -/
def CountsConnections (netns : UInt32) (s : Receiving) : Prop :=
  ∃ count ∈ s.maps.connCountMap netns, count.toNat = (openConnections s.calls).card

/-- A connection reads in `TCP_ESTABLISHED` first and in closing states afterwards; there
are fewer than `2^32` calls. -/
def InOrder (s : Receiving) (call : Receive) : Prop :=
  s.calls.length + 1 < 2 ^ 32 ∧
    ((call.state = tcpEstablished ∧
        ∀ earlier ∈ s.calls, earlier.connection = call.connection → closing earlier.state = false) ∨
      (closing call.state = true ∧
        ∃ earlier ∈ s.calls, earlier.connection = call.connection ∧ earlier.state = tcpEstablished))

/-- A connection reads in `TCP_ESTABLISHED` once, and again after its end only while no
connection is open. -/
def ReadsOnce (s : Receiving) (call : Receive) : Prop :=
  if call.state = tcpEstablished then ∀ earlier ∈ s.calls, earlier.connection ≠ call.connection
  else call.connection ∈ openConnections s.calls ∨ openConnections s.calls = ∅

/-- The limits are set and the namespace has just been registered. -/
def Registered (maps : Maps) (netns : UInt32) : Prop :=
  (maps.constantsMap 0).isSome = true ∧ (maps.constantsMap 1).isSome = true ∧
    (maps.constantsMap 2).isSome = true ∧ (maps.validNetnsMap netns).isSome = true ∧
      maps.connCountMap netns = some 0

instance (netns : UInt32) (s : Receiving) : Decidable (CountsConnections netns s) :=
  inferInstanceAs (Decidable (∃ count ∈ s.maps.connCountMap netns, _))

instance (s : Receiving) : DecidablePred (InOrder s) := fun _ => inferInstanceAs (Decidable (_ ∧ (_ ∨ _)))

instance (s : Receiving) : DecidablePred (ReadsOnce s) := fun call =>
  inferInstanceAs (Decidable (if call.state = tcpEstablished then _ else _))

/-- The stored count is the number of open connections after every call, when each
connection calls in the order of its states. -/
def AlwaysCounts : Prop :=
  ∀ (netns : UInt32) (maps : Maps) (calls : List Receive), Registered maps netns →
    Meets (receive netns) InOrder ⟨maps, []⟩ calls →
    Throughout (receive netns) (CountsConnections netns) ⟨maps, []⟩ calls

/-- Some limits, and namespace 5 registered. -/
def fresh : Maps := addNamespaceMaps { constantsMap := fun key => if key < 3 then some 2 else none } 5

theorem registered_fresh : Registered fresh 5 := ⟨rfl, rfl, rfl, rfl, rfl⟩

/-- One connection reads twice. -/
theorem not_alwaysCounts : ¬ AlwaysCounts := by
  intro h
  have hCounts := h 5 fresh [⟨0, 1⟩, ⟨0, 1⟩] registered_fresh (by decide)
  have hFinish := hCounts.at_finish (show run (receive 5) ⟨fresh, []⟩ [⟨0, 1⟩, ⟨0, 1⟩] = some _ from rfl)
  exact absurd hFinish (by decide)

section OpenConnections

variable {calls : List Receive} {call : Receive} {connection : Nat}

theorem isOpen_iff : isOpen calls connection = true ↔
    (∃ call ∈ calls, call.connection = connection ∧ call.state = tcpEstablished) ∧
      ∀ call ∈ calls, call.connection = connection → closing call.state = false := by
  simp only [isOpen, Bool.and_eq_true, List.any_eq_true, beq_iff_eq, List.all_eq_true, Bool.or_eq_true,
    bne_iff_ne, Bool.not_eq_true', ne_eq]
  refine and_congr_right fun _ => forall_congr' fun call => forall_congr' fun _ => ?_
  exact ⟨fun h hSame => h.resolve_left (not_not_intro hSame), fun h => (Decidable.em _).symm.imp_right h⟩

theorem mem_openConnections : connection ∈ openConnections calls ↔ isOpen calls connection = true := by
  rw [openConnections, Finset.mem_filter, List.mem_toFinset, and_iff_right_iff_imp]
  intro hOpen
  obtain ⟨⟨call, hMem, hSame, _⟩, _⟩ := isOpen_iff.mp hOpen
  exact List.mem_map.mpr ⟨call, hMem, hSame⟩

theorem isOpen_cons_other (h : call.connection ≠ connection) :
    isOpen (call :: calls) connection = isOpen calls connection := by
  have hEq : (call.connection == connection) = false := beq_false_of_ne h
  have hNe : (call.connection != connection) = true := bne_iff_ne.mpr h
  simp only [isOpen, List.any_cons, List.all_cons, hEq, hNe, Bool.false_and, Bool.false_or, Bool.true_or,
    Bool.true_and]

theorem closing_established : closing tcpEstablished = false := by decide

/-- A first read opens the connection, a further one leaves it open. -/
theorem openConnections_established (hState : call.state = tcpEstablished)
    (hNotClosed : ∀ earlier ∈ calls, earlier.connection = call.connection → closing earlier.state = false) :
    openConnections (call :: calls) = insert call.connection (openConnections calls) := by
  ext connection
  rw [Finset.mem_insert, mem_openConnections, mem_openConnections]
  by_cases hSame : call.connection = connection
  · subst hSame
    refine iff_of_true (isOpen_iff.mpr ⟨⟨call, List.mem_cons_self .., rfl, hState⟩, ?_⟩) (Or.inl rfl)
    intro other hMem hConnection
    rcases List.mem_cons.mp hMem with rfl | hOld
    · rw [hState]
      exact closing_established
    · exact hNotClosed other hOld hConnection
  · rw [isOpen_cons_other hSame, or_iff_right (Ne.symm hSame)]

theorem openConnections_closing (hState : closing call.state = true) :
    openConnections (call :: calls) = (openConnections calls).erase call.connection := by
  ext connection
  rw [Finset.mem_erase, mem_openConnections, mem_openConnections]
  by_cases hSame : call.connection = connection
  · subst hSame
    refine iff_of_false (fun hOpen => ?_) fun hBoth => hBoth.1 rfl
    have hNot := (isOpen_iff.mp hOpen).2 call (List.mem_cons_self ..) rfl
    rw [hState] at hNot
    cases hNot
  · rw [isOpen_cons_other hSame, and_iff_right (Ne.symm hSame)]

theorem card_openConnections_le : (openConnections calls).card ≤ calls.length := by
  calc (openConnections calls).card ≤ (calls.map Receive.connection).toFinset.card := Finset.card_filter_le _ _
    _ ≤ (calls.map Receive.connection).length := List.toFinset_card_le _
    _ = calls.length := List.length_map _

end OpenConnections

section Exact

variable {netns count : UInt32} {maps : Maps} {s t : Receiving} {call : Receive}

/-- What every call of the run keeps: the limits, the validity and the count of the
namespace are there, and every call so far was in a state that the kprobe counts. -/
structure ReceiveInv (netns : UInt32) (s : Receiving) : Prop where
  limits : (s.maps.constantsMap 0).isSome = true ∧ (s.maps.constantsMap 1).isSome = true ∧
    (s.maps.constantsMap 2).isSome = true
  valid : (s.maps.validNetnsMap netns).isSome = true
  counted : (s.maps.connCountMap netns).isSome = true
  inOrder : ∀ call ∈ s.calls, call.state = tcpEstablished ∨ closing call.state = true

/-- The kprobe counts the call, whatever else it does. -/
theorem kprobe_connCountMap (hInv : ReceiveInv netns s) (hCount : s.maps.connCountMap netns = some count)
    (state : UInt8) :
    (kprobeTcpRecvmsg s.maps netns (some state)).1.connCountMap netns = some (tally state count).1 ∧
      (kprobeTcpRecvmsg s.maps netns (some state)).1.constantsMap = s.maps.constantsMap ∧
        (kprobeTcpRecvmsg s.maps netns (some state)).1.validNetnsMap = s.maps.validNetnsMap := by
  refine ⟨?_, kprobe_constantsMap, kprobe_validNetnsMap⟩
  rw [kprobe_connCountMap_eq hInv.valid hInv.limits, countCall, hCount]
  simp

theorem ReceiveInv.step (hInv : ReceiveInv netns s) (hInOrder : InOrder s call)
    (hStep : receive netns s call = some t) : ReceiveInv netns t := by
  cases hStep
  obtain ⟨count, hCount⟩ := Option.isSome_iff_exists.mp hInv.counted
  obtain ⟨hNext, hConstants, hValid⟩ := kprobe_connCountMap hInv hCount call.state
  refine ⟨?_, ?_, ?_, fun other hOther => ?_⟩
  · rw [hConstants]
    exact hInv.limits
  · rw [hValid]
    exact hInv.valid
  · rw [hNext]
    rfl
  · rcases List.mem_cons.mp hOther with rfl | hOld
    · exact hInOrder.2.imp And.left And.left
    · exact hInv.inOrder other hOld

/-- In a run in order, a connection has made a call exactly when it is open, as long as it
has not closed. -/
theorem open_iff_called (hInv : ReceiveInv netns s)
    (hNotClosed : ∀ earlier ∈ s.calls, earlier.connection = call.connection → closing earlier.state = false) :
    call.connection ∈ openConnections s.calls ↔ ∃ earlier ∈ s.calls, earlier.connection = call.connection := by
  rw [mem_openConnections, isOpen_iff]
  constructor
  · rintro ⟨⟨earlier, hMem, hSame, _⟩, _⟩
    exact ⟨earlier, hMem, hSame⟩
  · rintro ⟨earlier, hMem, hSame⟩
    refine ⟨⟨earlier, hMem, hSame, ?_⟩, hNotClosed⟩
    exact (hInv.inOrder earlier hMem).resolve_right (by rw [hNotClosed earlier hMem hSame]; decide)

theorem counts_step_iff (hInv : ReceiveInv netns s) (hInOrder : InOrder s call)
    (hCounts : CountsConnections netns s) (hStep : receive netns s call = some t) :
    CountsConnections netns t ↔ ReadsOnce s call := by
  cases hStep
  obtain ⟨count, hCount, hCard⟩ := hCounts
  obtain ⟨hNext, _⟩ := kprobe_connCountMap hInv hCount call.state
  have hLe := @card_openConnections_le s.calls
  have hShort := hInOrder.1
  have hMove := @toNat_tally call.state count (Or.inl (by omega))
  have hExact : CountsConnections netns ⟨(kprobeTcpRecvmsg s.maps netns (some call.state)).1, call :: s.calls⟩ ↔
      (tally call.state count).1.toNat = (openConnections (call :: s.calls)).card := by
    simp [CountsConnections, hNext]
  rw [hExact, hMove, ReadsOnce]
  rcases hInOrder.2 with ⟨hState, hNotClosed⟩ | ⟨hState, _⟩
  · rw [if_pos hState, if_pos hState, openConnections_established hState hNotClosed]
    have hCalled := open_iff_called hInv hNotClosed
    by_cases hOpen : call.connection ∈ openConnections s.calls
    · rw [Finset.insert_eq_of_mem hOpen]
      obtain ⟨earlier, hMem, hSame⟩ := hCalled.mp hOpen
      exact iff_of_false (by omega) fun hNone => hNone earlier hMem hSame
    · rw [Finset.card_insert_of_notMem hOpen]
      exact iff_of_true (by omega) fun earlier hMem hSame => hOpen (hCalled.mpr ⟨earlier, hMem, hSame⟩)
  · have hOther : call.state ≠ tcpEstablished := by
      intro hSame
      rw [hSame, closing_established] at hState
      cases hState
    rw [if_neg hOther, if_neg hOther, openConnections_closing hState]
    by_cases hOpen : call.connection ∈ openConnections s.calls
    · rw [Finset.card_erase_of_mem hOpen]
      exact iff_of_true (by omega) (Or.inl hOpen)
    · rw [Finset.erase_eq_of_notMem hOpen, or_iff_right hOpen, ← Finset.card_eq_zero]
      omega

/-- In every run in order: after every prefix the count is the number of open connections,
exactly when every connection reads once. -/
theorem countsConnections_throughout_iff {calls : List Receive} (hRegistered : Registered maps netns)
    (hInOrder : Meets (receive netns) InOrder ⟨maps, []⟩ calls)
    (hRun : run (receive netns) ⟨maps, []⟩ calls = some s) :
    Throughout (receive netns) (CountsConnections netns) ⟨maps, []⟩ calls ↔
      Meets (receive netns) ReadsOnce ⟨maps, []⟩ calls := by
  obtain ⟨hLower, hUpper, hLength, hValid, hZero⟩ := hRegistered
  have hInv : ReceiveInv netns ⟨maps, []⟩ :=
    ⟨⟨hLower, hUpper, hLength⟩, hValid, by rw [hZero]; rfl, fun _ hMem => absurd hMem List.not_mem_nil⟩
  have hStart : CountsConnections netns ⟨maps, []⟩ := ⟨0, hZero, rfl⟩
  have keep (s : Receiving) (call : Receive) (t : Receiving) (hInv : ReceiveInv netns s)
    (hInOrder : InOrder s call)
      (_ : ReadsOnce s call) (hStep : receive netns s call = some t) : ReceiveInv netns t :=
    hInv.step hInOrder hStep
  exact throughout_iff_meets keep (fun _ _ _ hInv hInOrder hCounts => counts_step_iff hInv hInOrder hCounts)
    hInv hStart hInOrder hRun

/-- Two connections, one after the other. -/
theorem countsConnections_fresh :
    Throughout (receive 5) (CountsConnections 5) ⟨fresh, []⟩ [⟨0, 1⟩, ⟨1, 1⟩, ⟨0, 8⟩, ⟨1, 7⟩] := by
  have hRun : run (receive 5) ⟨fresh, []⟩ [⟨0, 1⟩, ⟨1, 1⟩, ⟨0, 8⟩, ⟨1, 7⟩] = some _ := rfl
  exact (countsConnections_throughout_iff registered_fresh (by decide) hRun).mpr (by decide)

end Exact

end Kernel

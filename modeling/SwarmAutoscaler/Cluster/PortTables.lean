import SwarmAutoscaler.Cluster.Listening

/-! The two port tables of one node. `ListenOnPort` and `RemovePort` change the Go map
first and `ports_map` second, with no lock and nothing that puts the Go map back when the
second change fails. -/
namespace Cluster

open Docker Process

/-- A call from the keep-alive goroutine, the event loop or an HTTP handler. -/
inductive PortCall where
  | listen (port : UInt32) (serviceID : String)
  | remove (port : UInt32)
  deriving DecidableEq, Repr

/-- The port that a call is about. -/
def PortCall.port : PortCall → UInt32
  | .listen port _ => port
  | .remove port => port

/-- The two functions that change the port tables of one node, each in any number of
goroutines. -/
def portMachine (nodes : Nodes) (ip : String) : Machine signature World PortCall Result Empty where
  body := fun
    | .listen port serviceID => listenOnPort ip port serviceID
    | .remove port => removePort ip port
  again := fun _ _ => none
  forks := fun _ => none
  exec := exec nodes
  meet := fun _ _ => none
  disturb := nofun

/-- States of the node whose port tables are changed. -/
abbrev PortState := Process.State signature World PortCall Result

/-- Its actions: nothing but the calls themselves changes the tables, so there is no
environment. -/
abbrev PortAction := Process.Action PortCall Empty

/-- The process has just started: both tables are empty. -/
def noPorts : PortState := ⟨{}, [], []⟩

/-- No call is in progress. -/
def Quiet (s : PortState) : Prop := ∀ thread ∈ s.threads, thread.program.head = none

instance (s : PortState) : Decidable (Quiet s) :=
  inferInstanceAs (Decidable (∀ thread ∈ s.threads, thread.program.head = none))

/-- The two tables of the node have the same ports. -/
def SamePorts (ip : String) (w : World) : Prop :=
  ∀ port, w.has ⟨.portToServiceID, ip, port⟩ = w.has ⟨.portsMap, ip, port⟩

/-- Both tables of the node are as they were. -/
def Unchanged (ip : String) (w w' : World) : Prop :=
  ∀ port, w'.portToServiceID (ip, port) = w.portToServiceID (ip, port) ∧
    w'.portsMap (ip, port) = w.portsMap (ip, port)

/-- A call that no other call overlaps, from its start in a quiet state on, leaves the
tables as they were when it returns an error. -/
def RollsBack (nodes : Nodes) (ip : String) (actions : List PortAction) : Prop :=
  ∀ before call steps s t err, before ++ .invoke call :: steps <+: actions →
    run (portMachine nodes ip).step noPorts before = some s → Quiet s → (∀ other, .invoke other ∉ steps) →
      run (portMachine nodes ip).step s (.invoke call :: steps) = some t →
        t.threads[s.threads.length]? = some ⟨call, .done (.error err)⟩ → Unchanged ip s.world t.world

/-- In every quiet state the tables hold the same ports, and an error leaves them unchanged. -/
structure PortsInStep (nodes : Nodes) (ip : String) (actions : List PortAction) : Prop where
  same : Throughout (portMachine nodes ip).step (fun s => Quiet s → SamePorts ip s.world) noPorts actions
  rollsBack : RollsBack nodes ip actions

/-- The claim for every node and every run of calls. -/
def AlwaysInStep : Prop := ∀ nodes ip actions, PortsInStep nodes ip actions

/-- `ports_map` is full. -/
theorem not_alwaysInStep : ¬ AlwaysInStep := by
  intro h
  have hSame := (h ⟨[], fun _ => ⟨true, [], 5⟩⟩ "worker"
    [.invoke (.listen 80 "web"), .step 0 false, .step 0 true]).same
  have hQuiet := hSame.at_finish rfl
  exact absurd (hQuiet (by decide) 80) (by decide)

/-- The operation belongs to a call that can still end an entry of the Go map without one
in `ports_map`. -/
def Op.mendsStored (ip : String) (port : UInt32) : Op → Bool
  | .portToServiceIDStore ip' port' _ | .portsMapUpdate ip' port' _ => (ip', port') = (ip, port)
  | .portToServiceIDLoad ip' port' | .portToServiceIDDelete ip' port' => (ip', port') = (ip, port)
  | _ => false

/-- The operation belongs to a call that can still end an entry of `ports_map` without one
in the Go map. -/
def Op.mendsMapped (ip : String) (port : UInt32) : Op → Bool
  | .portToServiceIDStore ip' port' _ => (ip', port') = (ip, port)
  | .portToServiceIDDelete ip' port' | .portsMapDelete ip' port' => (ip', port') = (ip, port)
  | _ => false

/-- Thread `j` is about to perform such an operation. -/
def AboutTo (kind : Op → Bool) (s : PortState) (j : Nat) : Prop :=
  (s.threads[j]?.bind fun thread => thread.program.head).any kind = true

/-- A thread other than `i` is about to. -/
def OtherTo (kind : Op → Bool) (s : PortState) (i : Nat) : Prop :=
  ∃ j < s.threads.length, j ≠ i ∧ AboutTo kind s j

/-- What the Go map says about the port, before the operation and after it. -/
def Op.naming (ip : String) (port : UInt32) (name : Option String) : Op → Option String
  | .portToServiceIDStore ip' port' serviceID => if (ip', port') = (ip, port) then some serviceID else name
  | .portToServiceIDDelete ip' port' => if (ip', port') = (ip, port) then none else name
  | _ => name

/-- What the Go map said about the port at the end of the log. -/
def named (ip : String) (port : UInt32) (log : List Event) : Option String :=
  log.foldl (fun name event => event.op.naming ip port name) none

/-- No other call is in progress, or has done anything since thread `i` did its last step. -/
def RunsAlone (s : PortState) (i : Nat) : Prop :=
  (∀ j < s.threads.length, j ≠ i → (s.threads[j]?.bind fun thread => thread.program.head) = none) ∧
    s.log.getLast?.map (fun event => event.thread) = some i

/-- The port and service of a `ListenOnPort` that is about to update `ports_map`. -/
def updating (s : PortState) (i : Nat) : Option (UInt32 × String) :=
  match s.threads[i]? with
  | some ⟨.listen port serviceID, .perform (.portsMapUpdate ..) _⟩ => some (port, serviceID)
  | _ => none

/-- The port of a `RemovePort` that is about to delete it from `ports_map`. -/
def deleting (s : PortState) (i : Nat) : Option UInt32 :=
  match s.threads[i]? with
  | some ⟨.remove port, .perform (.portsMapDelete ..) _⟩ => some port
  | _ => none

/-- An update that fails leaves no entry of the Go map alone, and without another call it
has stored the service that was there. -/
def FailsSafely (ip : String) (s : PortState) (i : Nat) (port : UInt32) (serviceID : String) : Prop :=
  (s.world.has ⟨.portToServiceID, ip, port⟩ = true → s.world.has ⟨.portsMap, ip, port⟩ = true ∨
    OtherTo (Op.mendsStored ip port) s i) ∧
  (RunsAlone s i → named ip port s.log.dropLast = some serviceID)

/-- `ports_map` gets an entry only for a port in the Go map, and loses it only when the port
is not there, unless another call that is still in progress can mend that. -/
def KeepsPace (ip : String) (s : PortState) : PortAction → Prop
  | .step i fail =>
      (∀ entry ∈ updating s i,
        if fail then FailsSafely ip s i entry.1 entry.2
        else s.world.has ⟨.portToServiceID, ip, entry.1⟩ = true ∨ OtherTo (Op.mendsMapped ip entry.1) s i) ∧
      ∀ port ∈ deleting s i, s.world.has ⟨.portToServiceID, ip, port⟩ = true →
        s.world.has ⟨.portsMap, ip, port⟩ = true → OtherTo (Op.mendsStored ip port) s i
  | _ => True

section Decide

variable (ip serviceID : String) (port : UInt32) (s : PortState) (i j : Nat) (kind : Op → Bool)

instance : Decidable (AboutTo kind s j) := inferInstanceAs (Decidable (_ = true))

instance : Decidable (OtherTo kind s i) := inferInstanceAs (Decidable (∃ j < s.threads.length, _ ∧ _))

instance : Decidable (RunsAlone s i) := inferInstanceAs (Decidable ((∀ j < s.threads.length, _ → _) ∧ _))

instance : Decidable (FailsSafely ip s i port serviceID) := inferInstanceAs (Decidable (_ ∧ _))

instance : DecidablePred (KeepsPace ip s)
  | .step i fail => inferInstanceAs (Decidable
    ((∀ entry ∈ updating s i, if fail then _ else _) ∧ ∀ port ∈ deleting s i, _))
  | .invoke _ | .meet _ _ | .disturb _ => isTrue trivial

end Decide

section Moves

variable {nodes : Nodes} {ip serviceID : String} {port port' : UInt32} {fail : Bool} {w w' : World}
  {s t : PortState} {action : PortAction} {i j : Nat} {call : PortCall} {program program' : Code Result}

/-- The second half of `listenOnPort`. -/
def addToMap (ip : String) (port : UInt32) : Code Result :=
  .perform (Op.portsMapUpdate ip port 1) fun
    | .error err => .done (.error ("failed to add port to BPF map: " ++ err))
    | .ok _ => .done (.ok ())

/-- The last part of `removePort`. -/
def deleteFromMap (ip : String) (port : UInt32) : Code Result :=
  .perform (Op.portsMapDelete ip port) fun
    | .error err => .done (.error ("failed to remove port from BPF map: " ++ err))
    | .ok _ => .done (.ok ())

/-- What `removePort` does once it has found the port: the delete from the Go map, then the
one from the BPF map. -/
def forgetPort (ip : String) (port : UInt32) : Code Result :=
  .perform (Op.portToServiceIDDelete ip port) fun _ => deleteFromMap ip port

theorem updating_of_atOp (atOp : s.threads[i]? = some ⟨.listen port serviceID, addToMap ip port⟩) :
    updating s i = some (port, serviceID) := by
  rw [updating, atOp]
  rfl

theorem deleting_of_atOp (atOp : s.threads[i]? = some ⟨.remove port, deleteFromMap ip port⟩) :
    deleting s i = some port := by
  rw [deleting, atOp]
  rfl

/-- What a call may still have to do. -/
inductive Remaining (ip : String) : PortCall → Code Result → Prop where
  | store {port : UInt32} {serviceID : String} :
    Remaining ip (.listen port serviceID) (listenOnPort ip port serviceID)
  | update {port : UInt32} {serviceID : String} : Remaining ip (.listen port serviceID) (addToMap ip port)
  | load {port : UInt32} : Remaining ip (.remove port) (removePort ip port)
  | forget {port : UInt32} : Remaining ip (.remove port) (forgetPort ip port)
  | delete {port : UInt32} : Remaining ip (.remove port) (deleteFromMap ip port)
  | ended {call : PortCall} {result : Result} : Remaining ip call (.done result)

/-- What one step of a call does to the tables, and what it leaves of the call. -/
inductive Moves (ip : String) (w : World) : Bool → PortCall → Code Result → World → Code Result → Prop where
  | store {port : UInt32} {serviceID : String} :
      Moves ip w false (.listen port serviceID) (listenOnPort ip port serviceID)
        (w.setPortToServiceID (ip, port) (some serviceID)) (addToMap ip port)
  | update {port : UInt32} {serviceID : String} :
      Moves ip w false (.listen port serviceID) (addToMap ip port) (w.setPortsMap (ip, port) (some 1))
        (.done (.ok ()))
  | full {port : UInt32} {serviceID : String} {err : String} :
      Moves ip w true (.listen port serviceID) (addToMap ip port) w (.done (.error err))
  | unknown {port : UInt32} {err : String} (hNone : w.portToServiceID (ip, port) = none) :
      Moves ip w false (.remove port) (removePort ip port) w (.done (.error err))
  | known {port : UInt32} (hSome : (w.portToServiceID (ip, port)).isSome = true) :
      Moves ip w false (.remove port) (removePort ip port) w (forgetPort ip port)
  | forget {port : UInt32} : Moves ip w false (.remove port) (forgetPort ip port)
      (w.setPortToServiceID (ip, port) none) (deleteFromMap ip port)
  | delete {port : UInt32} (hSome : (w.portsMap (ip, port)).isSome = true) :
      Moves ip w false (.remove port) (deleteFromMap ip port) (w.setPortsMap (ip, port) none) (.done (.ok ()))
  | missing {port : UInt32} {err : String} (hNone : w.portsMap (ip, port) = none) :
      Moves ip w false (.remove port) (deleteFromMap ip port) w (.done (.error err))

/-- What one operation of a call can do to the tables of its node, and what is left of the
call after it. -/
theorem moves_of_exec {op : Op} {next : op.Answer → Code Result} {answer : op.Answer}
    (hRemaining : Remaining ip call (.perform op next)) (hExec : exec nodes i op fail w = some (answer, w')) :
    Moves ip w fail call (.perform op next) w' (next answer) ∧ Remaining ip call (next answer) := by
  cases hRemaining with
  | store =>
      cases fail with
      | true => cases hExec
      | false =>
          cases hExec
          exact ⟨.store, .update⟩
  | update =>
      cases fail with
      | true =>
          cases hExec
          exact ⟨.full, .ended⟩
      | false =>
          cases hExec
          exact ⟨.update, .ended⟩
  | @load port =>
      cases fail with
      | true => cases hExec
      | false =>
          cases hExec
          cases hName : w.portToServiceID (ip, port) with
          | none => exact ⟨.unknown hName, .ended⟩
          | some name => exact ⟨.known (by rw [hName]; rfl), .forget⟩
  | forget =>
      cases fail with
      | true => cases hExec
      | false =>
          cases hExec
          exact ⟨.forget, .delete⟩
  | @delete port =>
      cases fail with
      | true => cases hExec
      | false =>
          simp only [exec, perform, Bool.false_eq_true, ↓reduceIte] at hExec
          split at hExec
          · next hMissing =>
              cases hExec
              exact ⟨.missing hMissing, .ended⟩
          · next value hValue =>
              cases hExec
              exact ⟨.delete (by rw [hValue]; rfl), .ended⟩

theorem has_setPortToServiceID {name : Option String} :
    (w.setPortToServiceID (ip, port) name).has ⟨.portToServiceID, ip, port'⟩ =
      if port' = port then name.isSome else w.has ⟨.portToServiceID, ip, port'⟩ := by
  simp [World.has, isSome_update]

theorem has_setPortsMap {value : Option UInt32} :
    (w.setPortsMap (ip, port) value).has ⟨.portsMap, ip, port'⟩ =
      if port' = port then value.isSome else w.has ⟨.portsMap, ip, port'⟩ := by
  simp [World.has, isSome_update]

/-- A call only touches its own port, and only ever mends that. -/
theorem Moves.elsewhere (h : Moves ip w fail call program w' program') (hOther : port ≠ call.port) :
    (∀ table, w'.has ⟨table, ip, port⟩ = w.has ⟨table, ip, port⟩) ∧
      program.head.any (Op.mendsStored ip port) = false ∧ program.head.any (Op.mendsMapped ip port) = false := by
  refine ⟨fun table => ?_, ?_, ?_⟩
  · cases h <;> cases table <;>
      first | rfl | exact has_setPortToServiceID.trans (if_neg hOther) |
        exact has_setPortsMap.trans (if_neg hOther)
  all_goals
    cases h <;> simp [listenOnPort, addToMap, removePort, forgetPort, deleteFromMap, Op.mendsStored,
      Op.mendsMapped] <;>
      exact Ne.symm hOther

/-- Every call of the state has one of the known parts left. -/
def AllRemain (ip : String) (s : PortState) : Prop :=
  ∀ (i : Nat) (thread : Thread signature PortCall Result), s.threads[i]? = some thread →
    Remaining ip thread.call thread.program

/-- What a step can do: it starts a call, or one call moves. -/
inductive PortStep (nodes : Nodes) (ip : String) (s : PortState) : PortAction → PortState → Prop where
  | invoke (call : PortCall) :
      PortStep nodes ip s (.invoke call) { s with threads := s.threads ++ [(portMachine nodes ip).spawn call] }
  | move {i : Nat} {fail : Bool} {call : PortCall} {op : Op} {next : op.Answer → Code Result} {answer : op.Answer}
      {world : World} (atOp : s.threads[i]? = some ⟨call, .perform op next⟩)
      (effect : Effect s.world op answer world)
      (moves : Moves ip s.world fail call (.perform op next) world (next answer))
      (remains : Remaining ip call (next answer)) :
      PortStep nodes ip s (.step i fail)
        ⟨world, s.threads.set i ⟨call, next answer⟩, s.log ++ [⟨i, op, answer, (next answer).result⟩]⟩

/-- A step of the machine, read as a move of one call. -/
theorem portStep_of_step (hRemain : AllRemain ip s) (hStep : (portMachine nodes ip).step s action = some t) :
    PortStep nodes ip s action t := by
  cases (portMachine nodes ip).stepCase_of_step hStep with
  | invoke call => exact .invoke call
  | @step i fail call op next answer world atOp answered =>
      obtain ⟨hMoves, hRemains⟩ := moves_of_exec (hRemain i _ atOp) answered
      rw [(portMachine nodes ip).resume_plain (fun _ => rfl) rfl]
      exact .move atOp (effect_of_exec answered) hMoves hRemains
  | meet _ _ _ met => cases met
  | @disturb env => exact env.elim

theorem remaining_body (nodes : Nodes) (call : PortCall) :
    Remaining ip call ((portMachine nodes ip).body call) := by
  cases call with
  | listen port serviceID => exact .store
  | remove port => exact .load

/-- Every call stays at one of the few programs that can remain of it. -/
theorem AllRemain.step (hRemain : AllRemain ip s) (hStep : PortStep nodes ip s action t) : AllRemain ip t := by
  intro j thread hThread
  cases hStep with
  | invoke call =>
      rcases (portMachine nodes ip).invoke_threads.mp hThread with hOld | ⟨_, rfl⟩
      · exact hRemain j thread hOld
      · exact remaining_body nodes call
  | @move i _ call op next answer world atOp _ _ remains =>
      by_cases hSame : i = j
      · subst hSame
        rw [List.getElem?_set_self (List.getElem?_eq_some_iff.mp atOp).1] at hThread
        cases hThread
        exact remains
      · rw [List.getElem?_set_ne hSame] at hThread
        exact hRemain j thread hThread

end Moves

section Pace

variable {nodes : Nodes} {ip : String} {s t : PortState} {action : PortAction} {i j : Nat} {kind : Op → Bool}

/-- An entry in one of the tables only belongs to a call in progress that can mend that. -/
structure Paced (ip : String) (s : PortState) : Prop where
  stored : ∀ port, s.world.has ⟨.portToServiceID, ip, port⟩ = true → s.world.has ⟨.portsMap, ip, port⟩ = false →
    ∃ j, AboutTo (Op.mendsStored ip port) s j
  mapped : ∀ port, s.world.has ⟨.portsMap, ip, port⟩ = true → s.world.has ⟨.portToServiceID, ip, port⟩ = false →
    ∃ j, AboutTo (Op.mendsMapped ip port) s j

theorem not_aboutTo_of_quiet (hQuiet : Quiet s) : ¬ AboutTo kind s j := by
  intro h
  rw [AboutTo] at h
  cases hThread : s.threads[j]? with
  | none => simp [hThread] at h
  | some thread => simp [hThread, hQuiet thread (List.mem_of_getElem? hThread)] at h

/-- With no call between its two operations the tables have the same ports. -/
theorem Paced.samePorts (h : Paced ip s) (hQuiet : Quiet s) : SamePorts ip s.world := by
  intro port
  cases hStored : s.world.has ⟨.portToServiceID, ip, port⟩ with
  | true =>
      cases hMapped : s.world.has ⟨.portsMap, ip, port⟩ with
      | true => rfl
      | false =>
          obtain ⟨j, hAbout⟩ := h.stored port hStored hMapped
          exact absurd hAbout (not_aboutTo_of_quiet hQuiet)
  | false =>
      cases hMapped : s.world.has ⟨.portsMap, ip, port⟩ with
      | false => rfl
      | true =>
          obtain ⟨j, hAbout⟩ := h.mapped port hMapped hStored
          exact absurd hAbout (not_aboutTo_of_quiet hQuiet)

section Keep

variable {call : PortCall} {program rest : Code Result} {world : World} {log : List Event}

theorem aboutTo_set_self (atOp : s.threads[i]? = some ⟨call, program⟩) :
    AboutTo kind ⟨world, s.threads.set i ⟨call, rest⟩, log⟩ i ↔ rest.head.any kind = true := by
  rw [AboutTo, List.getElem?_set_self (List.getElem?_eq_some_iff.mp atOp).1]
  rfl

theorem aboutTo_set_other (hOther : j ≠ i) :
    AboutTo kind ⟨world, s.threads.set i ⟨call, rest⟩, log⟩ j ↔ AboutTo kind s j := by
  rw [AboutTo, List.getElem?_set_ne (Ne.symm hOther)]
  rfl

/-- Somebody is still about to, if the call that has moved was not, or is still. -/
theorem aboutTo_of_moved (atOp : s.threads[i]? = some ⟨call, program⟩)
    (hMoved : program.head.any kind = true → rest.head.any kind = true)
    (h : ∃ j, AboutTo kind s j) : ∃ j, AboutTo kind ⟨world, s.threads.set i ⟨call, rest⟩, log⟩ j := by
  obtain ⟨j, hAbout⟩ := h
  by_cases hSame : j = i
  · subst hSame
    have hBefore : program.head.any kind = true := by
      rw [AboutTo, atOp] at hAbout
      exact hAbout
    exact ⟨j, (aboutTo_set_self atOp).mpr (hMoved hBefore)⟩
  · exact ⟨j, (aboutTo_set_other hSame).mpr hAbout⟩

theorem aboutTo_of_other (h : OtherTo kind s i) :
    ∃ j, AboutTo kind ⟨world, s.threads.set i ⟨call, rest⟩, log⟩ j := by
  obtain ⟨j, _, hOther, hAbout⟩ := h
  exact ⟨j, (aboutTo_set_other hOther).mpr hAbout⟩

/-- What the pace asks of a step, case by case. -/
theorem stored_of_moves {fail : Bool} {port : UInt32} (hPaced : Paced ip s) (hPace : KeepsPace ip s (.step i fail))
    (atOp : s.threads[i]? = some ⟨call, program⟩) (hMoves : Moves ip s.world fail call program world rest)
    (hStored : world.has ⟨.portToServiceID, ip, port⟩ = true) (hMapped : world.has ⟨.portsMap, ip, port⟩ = false) :
    ∃ j, AboutTo (Op.mendsStored ip port) ⟨world, s.threads.set i ⟨call, rest⟩, log⟩ j := by
  by_cases hSame : port = call.port
  · subst hSame
    cases hMoves with
    | store => exact ⟨i, (aboutTo_set_self atOp).mpr (by simp [addToMap, Op.mendsStored, PortCall.port])⟩
    | update => simp [has_setPortsMap, PortCall.port] at hMapped
    | full =>
        rcases (hPace.1 _ (updating_of_atOp atOp)).1 hStored with hBoth | hOther
        · simp [PortCall.port, hBoth] at hMapped
        · exact aboutTo_of_other hOther
    | unknown hNone => simp [World.has, PortCall.port, hNone] at hStored
    | known => exact ⟨i, (aboutTo_set_self atOp).mpr (by simp [forgetPort, Op.mendsStored, PortCall.port])⟩
    | forget => simp [has_setPortToServiceID, PortCall.port] at hStored
    | delete hSome =>
        exact aboutTo_of_other (hPace.2 _ (deleting_of_atOp atOp) hStored hSome)
    | missing hNone =>
        refine aboutTo_of_moved atOp ?_ (hPaced.stored _ hStored hMapped)
        simp [deleteFromMap, Op.mendsStored]
  · obtain ⟨hHas, hMends, _⟩ := hMoves.elsewhere hSame
    rw [hHas] at hStored hMapped
    exact aboutTo_of_moved atOp (by simp [hMends]) (hPaced.stored port hStored hMapped)

/-- A port that one table has and the other does not belongs to a call that is about to make
up for it. -/
theorem mapped_of_moves {fail : Bool} {port : UInt32} (hPaced : Paced ip s) (hPace : KeepsPace ip s (.step i fail))
    (atOp : s.threads[i]? = some ⟨call, program⟩) (hMoves : Moves ip s.world fail call program world rest)
    (hMapped : world.has ⟨.portsMap, ip, port⟩ = true) (hStored : world.has ⟨.portToServiceID, ip, port⟩ = false) :
    ∃ j, AboutTo (Op.mendsMapped ip port) ⟨world, s.threads.set i ⟨call, rest⟩, log⟩ j := by
  by_cases hSame : port = call.port
  · subst hSame
    cases hMoves with
    | store => simp [has_setPortToServiceID, PortCall.port] at hStored
    | update =>
        rcases hPace.1 _ (updating_of_atOp atOp) with hBoth | hOther
        · exact absurd (hBoth.symm.trans hStored) (by decide)
        · exact aboutTo_of_other hOther
    | full =>
        refine aboutTo_of_moved atOp ?_ (hPaced.mapped _ hMapped hStored)
        simp [addToMap, Op.mendsMapped]
    | unknown hNone =>
        refine aboutTo_of_moved atOp ?_ (hPaced.mapped _ hMapped hStored)
        simp [removePort, Op.mendsMapped]
    | known hSome => exact absurd (hSome.symm.trans hStored) (by decide)
    | forget => exact ⟨i, (aboutTo_set_self atOp).mpr (by simp [deleteFromMap, Op.mendsMapped, PortCall.port])⟩
    | delete => simp [has_setPortsMap, PortCall.port] at hMapped
    | missing hNone => simp [World.has, PortCall.port, hNone] at hMapped
  · obtain ⟨hHas, _, hMends⟩ := hMoves.elsewhere hSame
    rw [hHas] at hStored hMapped
    exact aboutTo_of_moved atOp (by simp [hMends]) (hPaced.mapped port hMapped hStored)

end Keep

/-- A step that satisfies the condition keeps the tables apart by no more than the calls in
between will settle. -/
theorem Paced.step (hPaced : Paced ip s) (hPace : KeepsPace ip s action) (hStep : PortStep nodes ip s action t) :
    Paced ip t := by
  cases hStep with
  | invoke call =>
      have hKeep {kind : Op → Bool} (h : ∃ j, AboutTo kind s j) :
          ∃ j, AboutTo kind { s with threads := s.threads ++ [(portMachine nodes ip).spawn call] } j := by
        obtain ⟨j, hAbout⟩ := h
        refine ⟨j, ?_⟩
        cases hThread : s.threads[j]? with
        | none => simp [AboutTo, hThread] at hAbout
        | some thread =>
            have hOld : (s.threads ++ [(portMachine nodes ip).spawn call])[j]? = some thread :=
              (portMachine nodes ip).invoke_threads.mpr (Or.inl hThread)
            rw [AboutTo, hThread] at hAbout
            rw [AboutTo, hOld]
            exact hAbout
      exact ⟨fun port hStored hMapped => hKeep (hPaced.stored port hStored hMapped),
        fun port hMapped hStored => hKeep (hPaced.mapped port hMapped hStored)⟩
  | move atOp _ moves _ =>
      exact ⟨fun port hStored hMapped => stored_of_moves hPaced hPace atOp moves hStored hMapped,
        fun port hMapped hStored => mapped_of_moves hPaced hPace atOp moves hMapped hStored⟩

end Pace

section Alone

variable {nodes : Nodes} {ip : String} {s t : PortState} {action : PortAction} {call : PortCall}
    {program : Code Result}
  {port : UInt32} {w w' : World} {log : List Event}

theorem named_append {event : Event} :
    named ip port (log ++ [event]) = event.op.naming ip port (named ip port log) := by
  rw [named, named, List.foldl_append]
  rfl

theorem naming_of_effect {op : Op} {answer : op.Answer} (h : Effect w op answer w') :
    w'.portToServiceID (ip, port) = op.naming ip port (w.portToServiceID (ip, port)) := by
  have hUpdate (ip' : String) (port' : UInt32) (name : Option String) :
      Function.update w.portToServiceID (ip', port') name (ip, port) =
        if (ip', port') = (ip, port) then name else w.portToServiceID (ip, port) := by
    by_cases hSame : (ip, port) = (ip', port')
    · rw [hSame, Function.update_self, if_pos rfl]
    · rw [Function.update_of_ne hSame, if_neg (Ne.symm hSame)]
  cases h with
  | none inert => cases op <;> first | rfl | exact inert.elim
  | portStore ip' port' serviceID => exact hUpdate ip' port' _
  | portDelete ip' port' => exact hUpdate ip' port' _
  | _ => rfl

/-- The log tells what the Go map says. -/
def NamesPorts (ip : String) (s : PortState) : Prop :=
  ∀ port, named ip port s.log = s.world.portToServiceID (ip, port)

/-- The Go table is what the log says was stored and deleted last. -/
theorem NamesPorts.step (h : NamesPorts ip s) (hStep : PortStep nodes ip s action t) : NamesPorts ip t := by
  intro port
  cases hStep with
  | invoke => exact h port
  | move _ effect _ _ => rw [named_append, h port, naming_of_effect effect]

/-- How far a call has come that started in `s` and is alone. -/
inductive Lone (ip : String) (s : PortState) : PortCall → Code Result → World → List Event → Prop where
  | listen {port : UInt32} {serviceID : String} :
      Lone ip s (.listen port serviceID) (listenOnPort ip port serviceID) s.world s.log
  | stored {port : UInt32} {serviceID : String} {event : Event} (hOwn : event.thread = s.threads.length) :
      Lone ip s (.listen port serviceID) (addToMap ip port)
        (s.world.setPortToServiceID (ip, port) (some serviceID))
        (s.log ++ [event])
  | remove {port : UInt32} : Lone ip s (.remove port) (removePort ip port) s.world s.log
  | known {port : UInt32} {log : List Event} (hKnown : s.world.has ⟨.portToServiceID, ip, port⟩ = true) :
      Lone ip s (.remove port) (forgetPort ip port) s.world log
  | forgotten {port : UInt32} {log : List Event} (hKnown : s.world.has ⟨.portToServiceID, ip, port⟩ = true) :
      Lone ip s (.remove port) (deleteFromMap ip port) (s.world.setPortToServiceID (ip, port) none) log
  | failed {call : PortCall} {err : String} {w : World} {log : List Event} (hUnchanged : Unchanged ip s.world w) :
      Lone ip s call (.done (.error err)) w log
  | succeeded {call : PortCall} {w : World} {log : List Event} : Lone ip s call (.done (.ok ())) w log

/-- The call is the only one in progress. -/
structure Alone (ip : String) (s : PortState) (call : PortCall) (program : Code Result) (t : PortState) :
    Prop where
  threads : t.threads = s.threads ++ [⟨call, program⟩]
  lone : Lone ip s call program t.world t.log

theorem unchanged_store {serviceID : String} (hSame : w.portToServiceID (ip, port) = some serviceID) :
    Unchanged ip w (w.setPortToServiceID (ip, port) (some serviceID)) := by
  intro other
  rw [World.setPortToServiceID_portToServiceID, ← hSame, Function.update_eq_self]
  exact ⟨rfl, rfl⟩

/-- The next step of a call that is alone: if it fails, it has changed nothing. -/
theorem Lone.step {fail : Bool} {rest : Code Result} {event : Event} (hSame : SamePorts ip s.world)
    (hNames : NamesPorts ip s) (hQuiet : Quiet s)
    (hPace : KeepsPace ip ⟨w, s.threads ++ [⟨call, program⟩], log⟩ (.step s.threads.length fail))
    (hOwn : event.thread = s.threads.length) (hMoves : Moves ip w fail call program w' rest)
    (hLone : Lone ip s call program w log) : Lone ip s call rest w' (log ++ [event]) := by
  cases hMoves with
  | store =>
      cases hLone
      exact .stored hOwn
  | update => exact .succeeded
  | @full port serviceID err =>
      cases hLone with
      | @stored _ _ last hLast =>
          have hAlone : RunsAlone ⟨s.world.setPortToServiceID (ip, port) (some serviceID),
              s.threads ++ [⟨.listen port serviceID, addToMap ip port⟩], s.log ++ [last]⟩ s.threads.length := by
            refine ⟨fun j hLess hOther => ?_, by simp [hLast]⟩
            rw [List.length_append, List.length_singleton] at hLess
            have hBefore : j < s.threads.length := by omega
            rw [List.getElem?_append_left hBefore, List.getElem?_eq_getElem hBefore]
            exact hQuiet _ (List.getElem_mem hBefore)
          have hSafe := hPace.1 _ (updating_of_atOp List.getElem?_concat_length)
          have hName := hSafe.2 hAlone
          rw [List.dropLast_concat, hNames port] at hName
          exact .failed (unchanged_store hName)
  | unknown hNone =>
      cases hLone
      exact .failed fun _ => ⟨rfl, rfl⟩
  | known hSome =>
      cases hLone
      exact .known hSome
  | forget =>
      cases hLone with
      | known hKnown => exact .forgotten hKnown
  | delete => exact .succeeded
  | @missing port err hNone =>
      cases hLone with
      | forgotten hKnown =>
          have hMapped : s.world.has ⟨.portsMap, ip, port⟩ = true := (hSame port).symm.trans hKnown
          rw [World.setPortToServiceID_portsMap] at hNone
          simp [World.has, hNone] at hMapped

/-- Only the new call can move. -/
theorem Alone.step (hQuiet : Quiet s) (hSame : SamePorts ip s.world) (hNames : NamesPorts ip s)
    (hAlone : Alone ip s call program t) {t' : PortState} (hPace : KeepsPace ip t action)
    (hOther : ∀ other, action ≠ .invoke other) (hStep : PortStep nodes ip t action t') :
    ∃ program', Alone ip s call program' t' := by
  obtain ⟨world, threads, log⟩ := t
  obtain ⟨hThreads, hLone⟩ := hAlone
  dsimp only at hThreads hLone
  subst hThreads
  cases hStep with
  | invoke other => exact absurd rfl (hOther other)
  | @move i fail call' op next answer world' atOp effect moves remains =>
      have hIndex : i = s.threads.length := by
        by_contra hNot
        rcases Nat.lt_or_gt_of_ne hNot with hLess | hMore
        · rw [List.getElem?_append_left hLess] at atOp
          exact absurd (hQuiet _ (List.mem_of_getElem? atOp)) (by simp)
        · rw [List.getElem?_eq_none (by simp; omega)] at atOp
          cases atOp
      subst hIndex
      rw [List.getElem?_concat_length] at atOp
      cases atOp
      refine ⟨next answer, ?_, hLone.step hSame hNames hQuiet hPace rfl moves⟩
      rw [List.set_append_right _ _ (Nat.le_refl _), Nat.sub_self]
      rfl

end Alone

/-- What every step of the pace keeps. -/
structure PortInv (ip : String) (s : PortState) : Prop where
  remain : AllRemain ip s
  paced : Paced ip s
  names : NamesPorts ip s

theorem portInv_noPorts (ip : String) : PortInv ip noPorts where
  remain := nofun
  paced := ⟨nofun, nofun⟩
  names := fun _ => rfl

/-- One step of the whole invariant. -/
theorem portInv_step {nodes : Nodes} {ip : String} (s : PortState) (action : PortAction) (t : PortState)
    (h : PortInv ip s) (hPace : KeepsPace ip s action) (hStep : (portMachine nodes ip).step s action = some t) :
    PortInv ip t :=
  have hCase := portStep_of_step h.remain hStep
  ⟨h.remain.step hCase, h.paced.step hPace hCase, h.names.step hCase⟩

section Run

variable {nodes : Nodes} {ip : String} {actions : List PortAction}

/-- A failed call that runs alone leaves the tables as they were. -/
theorem rollsBack_of_keepsPace (hMeets : Meets (portMachine nodes ip).step (KeepsPace ip) noPorts actions) :
    RollsBack nodes ip actions := by
  intro before call steps s t err hPrefix hBefore hQuiet hOther hRun hReturns
  obtain ⟨after, rfl⟩ := hPrefix
  have hInv := invariant_run portInv_step (portInv_noPorts ip) hMeets.first.first hBefore
  obtain ⟨started, hStart, hSteps⟩ := run_cons.mp hRun
  have hCase := portStep_of_step hInv.remain hStart
  have hRest := (hMeets.first.second hBefore).2 started hStart
  have hOnly : ∀ action ∈ steps, ∀ other, action ≠ .invoke other := by
    rintro action hMem other rfl
    exact hOther other hMem
  have hGuards := hRest.and (meets_of_mem hOnly started)
  have hAlone : ∃ program, Alone ip s call program started := by
    cases hCase
    refine ⟨_, rfl, ?_⟩
    cases call with
    | listen port serviceID => exact .listen
    | remove port => exact .remove
  have hKeep (t : PortState) (action : PortAction) (t' : PortState)
      (hInv' : AllRemain ip t ∧ ∃ program, Alone ip s call program t)
      (hGuard : KeepsPace ip t action ∧ ∀ other, action ≠ .invoke other)
      (hStep : (portMachine nodes ip).step t action = some t') :
      AllRemain ip t' ∧ ∃ program, Alone ip s call program t' := by
    obtain ⟨hRemain, program, hAlone⟩ := hInv'
    have hMove := portStep_of_step hRemain hStep
    exact ⟨hRemain.step hMove, hAlone.step hQuiet (hInv.paced.samePorts hQuiet) hInv.names hGuard.1 hGuard.2 hMove⟩
  obtain ⟨_, program, hThreads, hLone⟩ := invariant_run hKeep ⟨hInv.remain.step hCase, hAlone⟩ hGuards hSteps
  rw [hThreads, List.getElem?_concat_length] at hReturns
  cases hReturns
  cases hLone with
  | failed hUnchanged => exact hUnchanged

/-- A run that keeps the pace keeps the tables in step. -/
theorem portsInStep_of_keepsPace (hMeets : Meets (portMachine nodes ip).step (KeepsPace ip) noPorts actions) :
    PortsInStep nodes ip actions where
  same := throughout_of_invariant portInv_step (fun _ h hQuiet => h.paced.samePorts hQuiet)
    (portInv_noPorts ip) hMeets
  rollsBack := rollsBack_of_keepsPace hMeets

end Run

/-- Two calls listen on port 80, and a third one removes it between their two steps. Later a
port that is not there is removed. -/
def overlapping : List PortAction :=
  [.invoke (.listen 80 "web"), .step 0 false, .step 0 false, .invoke (.remove 80), .step 1 false, .step 1 false,
    .invoke (.listen 80 "api"), .step 2 false, .step 1 false, .step 2 false, .invoke (.remove 443), .step 3 false]

theorem portsInStep_overlapping : PortsInStep ⟨[], fun _ => ⟨true, [], 5⟩⟩ "worker" overlapping ∧
    ∃ s, run (portMachine ⟨[], fun _ => ⟨true, [], 5⟩⟩ "worker").step noPorts overlapping = some s ∧
      s.threads[3]? = some ⟨.remove 443,
        .done (.error "service ID %!s(<nil>) for port 443 not found in RemovePort")⟩ :=
  ⟨portsInStep_of_keepsPace (by decide), _, rfl, rfl⟩

end Cluster

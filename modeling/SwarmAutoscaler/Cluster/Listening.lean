import SwarmAutoscaler.Cluster.Footprint

/-! The two tables that make a node listen on a port. The log tells which thread made an
entry and whether the entry was removed since. A keep-alive goroutine has made every
entry of every node before it updates the service. -/
namespace Cluster

open Docker Process

/-- The two tables of a node that say on which ports it waits for packets: the Go map, and
the BPF map that the classifier reads. -/
inductive Table where
  | portToServiceID
  | portsMap
  deriving DecidableEq

/-- A key of one of these tables. -/
structure Entry where
  table : Table
  ip : String
  port : UInt32
  deriving DecidableEq

/-- The table of the node has the key. -/
def World.has (w : World) (entry : Entry) : Bool :=
  match entry.table with
  | .portToServiceID => (w.portToServiceID (entry.ip, entry.port)).isSome
  | .portsMap => (w.portsMap (entry.ip, entry.port)).isSome

/-- The node listens on the port: an entry in both tables. -/
def Listening (w : World) (port : UInt32) (ip : String) : Prop :=
  (w.portToServiceID (ip, port)).isSome ∧ (w.portsMap (ip, port)).isSome

instance (w : World) (port : UInt32) (ip : String) : Decidable (Listening w port ip) :=
  inferInstanceAs (Decidable (_ ∧ _))

theorem listening_iff {w : World} {port : UInt32} {ip : String} :
    Listening w port ip ↔ ∀ table, w.has ⟨table, ip, port⟩ = true := by
  constructor
  · rintro ⟨hStored, hMapped⟩ (_ | _)
    · exact hStored
    · exact hMapped
  · exact fun h => ⟨h .portToServiceID, h .portsMap⟩

/-- The entry that an operation makes. -/
def opens (op : Op) : op.Answer → Option Entry :=
  match op with
  | .portToServiceIDStore ip port _ => fun _ => some ⟨.portToServiceID, ip, port⟩
  | .portsMapUpdate ip port _ => fun answer => if answer.isOk then some ⟨.portsMap, ip, port⟩ else none
  | _ => fun _ => none

/-- The entry that an operation removes. -/
def closes (op : Op) : op.Answer → Option Entry :=
  match op with
  | .portToServiceIDDelete ip port => fun _ => some ⟨.portToServiceID, ip, port⟩
  | .portsMapDelete ip port => fun answer => if answer.isOk then some ⟨.portsMap, ip, port⟩ else none
  | _ => fun _ => none

theorem isSome_update {Key Value : Type} [DecidableEq Key] {table : Key → Option Value}
    {key other : Key} {value : Option Value} :
    (Function.update table key value other).isSome =
      if other = key then value.isSome else (table other).isSome := by
  by_cases hKey : other = key
  · simp [hKey]
  · simp [hKey]

/-- Entries change by opening and closing them, and by nothing else. -/
theorem has_of_effect {w w' : World} {op : Op} {answer : op.Answer}
    (h : Effect w op answer w') (entry : Entry) :
    w'.has entry = if opens op answer = some entry then true
      else if closes op answer = some entry then false else w.has entry := by
  obtain ⟨table, ip, port⟩ := entry
  cases h with
  | none inert => cases op <;> cases answer <;> first | rfl | exact inert.elim | exact (inert rfl).elim
  | update | keepAliveSet | keepAliveDelete | read => rfl
  | portStore | portDelete | mapUpdate | mapDelete =>
      cases table <;> (simp [World.has, opens, closes, isSome_update, Except.isOk, Except.toBool]; try grind)

section Log

variable {log : List Event} {i : Nat} {entry : Entry} {event : Event}

/-- The thread has made the entry at some time. -/
def Entered (log : List Event) (i : Nat) (entry : Entry) : Prop :=
  ∃ event ∈ log, event.thread = i ∧ opens event.op event.answer = some entry

/-- An entry made by the thread was removed afterwards, and nobody has made it again. -/
def Undone (log : List Event) (i : Nat) (entry : Entry) : Prop :=
  ∃ before removal after, log = before ++ removal :: after ∧ Entered before i entry ∧
    closes removal.op removal.answer = some entry ∧
      ∀ event ∈ after, opens event.op event.answer ≠ some entry

theorem Entered.append (h : Entered log i entry) : Entered (log ++ [event]) i entry := by
  obtain ⟨opened, hMem, hOpened⟩ := h
  exact ⟨opened, List.mem_append_left _ hMem, hOpened⟩

theorem entered_append_iff : Entered (log ++ [event]) i entry ↔
    Entered log i entry ∨ (event.thread = i ∧ opens event.op event.answer = some entry) := by
  simp [Entered, or_and_right, exists_or]

theorem Undone.append (h : Undone log i entry) (hOther : opens event.op event.answer ≠ some entry) :
    Undone (log ++ [event]) i entry := by
  obtain ⟨before, removal, after, rfl, hEntered, hRemoval, hAfter⟩ := h
  refine ⟨before, removal, after ++ [event], by simp, hEntered, hRemoval, ?_⟩
  intro later hLater
  rcases List.mem_append.mp hLater with hOld | hNew
  · exact hAfter later hOld
  · rwa [List.mem_singleton.mp hNew]

/-- Every entry that was made is still there or has been removed since. -/
def Accounted (w : World) (log : List Event) : Prop :=
  ∀ i entry, Entered log i entry → w.has entry = true ∨ Undone log i entry

theorem accounted_nil (w : World) : Accounted w [] := by
  rintro i entry ⟨event, hMem, _⟩
  cases hMem

theorem Accounted.append {w w' : World} {j : Nat} {op : Op} {answer : op.Answer}
    {result : Option Result} (h : Accounted w log) (hEffect : Effect w op answer w') :
    Accounted w' (log ++ [⟨j, op, answer, result⟩]) := by
  intro i entry hEntered
  have hHas := has_of_effect hEffect entry
  by_cases hOpens : opens op answer = some entry
  · exact Or.inl (by rw [hHas, if_pos hOpens])
  · have hBefore : Entered log i entry :=
      (entered_append_iff.mp hEntered).resolve_right fun hNew => hOpens hNew.2
    rw [if_neg hOpens] at hHas
    by_cases hCloses : closes op answer = some entry
    · exact Or.inr ⟨log, _, [], rfl, hBefore, hCloses, by simp⟩
    · rw [if_neg hCloses] at hHas
      rw [hHas]
      exact (h i entry hBefore).imp id fun hUndone => hUndone.append hOpens

theorem accounted_step {nodes : Nodes} {s t : State} {action : Action}
    (h : Accounted s.world s.log) (hStep : (machine nodes).step s action = some t) :
    Accounted t.world t.log := by
  cases (machine nodes).stepCase_of_step hStep with
  | invoke => exact h
  | step atOp answered => exact h.append (effect_of_exec answered)
  | @meet i j sender receiver send receive sent received answers atSend atReceive apart met =>
      obtain ⟨ch, keepAlive, rfl, rfl⟩ := channel_of_meet met
      have hSend : Effect s.world (.chanSend ch) answers.1 s.world := .none trivial
      have hReceive : Effect s.world (.selectTimer keepAlive ch) answers.2 s.world := .none trivial
      exact (h.append hSend).append hReceive
  | @disturb env world happens =>
      obtain ⟨ip, port⟩ := env
      simp only [machine, disturb] at happens
      split at happens <;> cases happens <;> exact h

end Log

section Opening

variable {nodes : Nodes} {serviceID : String} {port : UInt32}
  {answers : (op : Op) → op.Answer → Prop}

/-- The phase is the list of the entries made so far. The service is updated only when
it has every entry of every node. -/
def opening {Value : Type} (nodes : Nodes) (port : UInt32) (ends : List Entry → Value → Prop) :
    Program.Protocol signature (List Entry) Value where
  permits opened op := ∀ id version spec, op = .serviceUpdate id version spec →
    ∀ ip ∈ nodes.ips, ∀ table, ⟨table, ip, port⟩ ∈ opened
  advance opened op answer := (opens op answer).toList ++ opened
  ends := ends

variable (hInspect : ∀ answer, answers (.serviceInspect serviceID) answer →
    ∃ service, answer = .ok service ∧ service.endpoint.head? = some port)
  (hMap : ∀ ip port value answer, answers (.portsMapUpdate ip port value) answer → answer = .ok ())
  (hPost : ∀ ip endpoint answer, answers (.httpPost ip endpoint) answer → answer = .ok ())

theorem follows_scaleTo {replicas : UInt64} {opened : List Entry} {ends : List Entry → Result → Prop}
    (hAll : ∀ ip ∈ nodes.ips, ∀ table, ⟨table, ip, port⟩ ∈ opened)
    (hEnds : ∀ result, ends opened result) :
    (scaleTo serviceID replicas).Follows (opening nodes port ends) answers opened := by
  refine ⟨nofun, fun answer _ => ?_⟩
  cases answer with
  | error err => exact hEnds _
  | ok service =>
      dsimp only
      split
      · exact ⟨nofun, fun never => nomatch never⟩
      · refine ⟨fun _ _ _ _ => hAll, fun answer _ => ?_⟩
        cases answer <;> exact hEnds _

include hMap in
theorem follows_listenOnPort (nodes : Nodes) {ip : String} {opened : List Entry}
    {ends : List Entry → Result → Prop}
    (hEnds : ∀ opened', opened ⊆ opened' → (∀ table, ⟨table, ip, port⟩ ∈ opened') →
      ends opened' (.ok ())) :
    (listenOnPort ip port serviceID).Follows (opening nodes port ends) answers opened := by
  refine ⟨nofun, fun _ _ => ⟨nofun, fun answer hAnswer => ?_⟩⟩
  obtain rfl := hMap _ _ _ _ hAnswer
  refine hEnds _ (fun entry hEntry => ?_) ?_
  · simp [opening, hEntry]
  · rintro (_ | _) <;> simp [opening, opens, Except.isOk, Except.toBool]

include hMap hPost in
theorem follows_sendListenRequestToAllNodes (nodes : Nodes) {info : SwarmNodeInfo} {opened : List Entry}
    {ends : List Entry → Result → Prop}
    (hEnds : ∀ opened', opened ⊆ opened' →
      (∀ node ∈ info.otherNodes, ∀ table, ⟨table, node.ip, port⟩ ∈ opened') →
        ends opened' (.ok ())) :
    (sendListenRequestToAllNodes listenOnPort info port serviceID).Follows
      (opening nodes port ends) answers opened := by
  unfold sendListenRequestToAllNodes
  generalize info.otherNodes = others at hEnds
  induction others generalizing opened with
  | nil => exact hEnds opened (List.Subset.refl _) nofun
  | cons node rest ih =>
      apply Program.follows_bind
      show (sendListenRequest (listenOnPort node.ip) port serviceID node.ip).Follows _ answers opened
      rw [sendListenRequest_eq]
      refine ⟨nofun, fun answer hAnswer => ?_⟩
      obtain rfl := hPost _ _ _ hAnswer
      apply Program.follows_bind
      refine follows_listenOnPort hMap nodes ?_
      intro opened' hOld hNew
      refine ih fun later hLater hRest => hEnds later (fun key hKey => hLater (hOld hKey)) ?_
      intro other hOther table
      rcases List.mem_cons.mp hOther with rfl | hMem
      · exact hLater (hNew table)
      · exact hRest other hMem table

include hInspect hMap hPost in
/-- A keep-alive goroutine makes every entry of every node before its update. -/
theorem follows_keepAliveAndScaleDown {ip : String} {ch : Nat}
    (hOthers : ∀ other ∈ nodes.ips, other = ip ∨ ∃ node ∈ (nodes.info ip).otherNodes, node.ip = other) :
    (keepAliveAndScaleDown ⟨ip, nodes.info ip⟩ serviceID ch).Follows
      (opening nodes port fun _ _ => True) answers [] := by
  refine ⟨nofun, fun ready _ => ?_⟩
  cases ready with
  | received => trivial
  | timer =>
      refine ⟨nofun, fun exists? _ => ?_⟩
      cases exists? with
      | false => trivial
      | true =>
          apply Program.follows_bind
          refine ⟨nofun, fun answer hAnswer => ?_⟩
          obtain ⟨service, rfl, hPort⟩ := hInspect _ hAnswer
          obtain ⟨rest, hEndpoint⟩ := List.head?_eq_some_iff.mp hPort
          simp only [hEndpoint]
          apply Program.follows_bind
          refine follows_listenOnPort hMap nodes fun opened _ hSelf => ?_
          apply Program.follows_bind
          refine follows_sendListenRequestToAllNodes hMap hPost nodes ?_
          intro opened' hOld hNew
          apply Program.follows_bind
          have hAll (other : String) (hOther : other ∈ nodes.ips) (table : Table) :
              (⟨table, other, port⟩ : Entry) ∈ opened' := by
            rcases hOthers other hOther with rfl | ⟨node, hNode, rfl⟩
            · exact hOld (hSelf table)
            · exact hNew node hNode table
          refine follows_scaleTo hAll fun result => ?_
          cases result with
          | error err => trivial
          | ok _ => exact ⟨nofun, fun _ _ => trivial⟩

end Opening

end Cluster

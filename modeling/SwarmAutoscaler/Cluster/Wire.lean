import Mathlib.Data.List.Forall2
import Mathlib.Data.List.MinMax
import Mathlib.Tactic.SplitIfs
import SwarmAutoscaler.Cluster.Server
import SwarmAutoscaler.Process.Run
import SwarmAutoscaler.Text.Decimal
import SwarmAutoscaler.Text.JsonGrammar

/-! The requests between the nodes as JSON texts, and the two HTTP servers of a node, which
share one mux. A client that reaches a server has its request carried out as it was made. -/
namespace Cluster

open Json (Value)
open Process

section Bodies

/-- The depth at which `encoding/json` gives up. -/
def maxNestingDepth : Nat := 10000

/-- Why a body is refused. -/
inductive BodyFault where
  | json (fault : Json.Fault)
  | type (field : List Char)
  deriving DecidableEq, Repr

/-- Letters without their case, as far as the letters of ASCII go. -/
def foldRune (char : Char) : Char :=
  if 'a'.toNat ≤ char.toNat ∧ char.toNat ≤ 'z'.toNat then Char.ofNat (char.toNat - 32)
  else if char = '\u017F' then 'S'
  else if char = '\u212A' then 'K'
  else char

/-- The name of a member stands for the field. -/
def matchesField (name key : List Char) : Bool :=
  key.map foldRune == name.map foldRune

/-- The value for a field of the struct. -/
def readString : Value → Option String
  | .string text => some (String.ofList text)
  | _ => none

/-- A number fits `uint32` when it is written as a decimal natural number in range;
fractions, signs and exponents are refused. -/
def readUint32 : Value → Option UInt32
  | .number literal =>
      match Decimal.parseUint (2 ^ 64 - 1) literal with
      | .ok n => if n < 2 ^ 32 then some (UInt32.ofNat n) else none
      | .error _ => none
  | _ => none

/-- A field of the struct with its JSON name. -/
structure Field (Data : Type) where
  name : List Char
  store : Data → Value → Option Data

variable {Data : Type}

/-- A member that stands for no field is passed over, and so is null. -/
def storeMember (fields : List (Field Data)) (data : Data) (member : List Char × Value) : Except BodyFault Data :=
  match fields.find? fun field => matchesField field.name member.1 with
  | none => .ok data
  | some field =>
      match member.2 with
      | .null => .ok data
      | value =>
          match field.store data value with
          | some data => .ok data
          | none => .error (.type field.name)

/-- `json.NewDecoder(r.Body).Decode` into a struct: the first value of the body is read to
its end, and then its members are stored up to the first error. -/
def decodeStruct (fields : List (Field Data)) (zero : Data) (body : List Char) : Except BodyFault Data :=
  match Json.decode maxNestingDepth body with
  | .error fault => .error (.json fault)
  | .ok (.null, _) => .ok zero
  | .ok (.object members, _) => members.foldlM (storeMember fields) zero
  | .ok _ => .error (.type [])

/-- The fields of `ScaleRequest` under the names of their tags. -/
def scaleFields : List (Field (String × String)) :=
  [⟨"serviceId".toList, fun data value => (readString value).map fun text => (text, data.2)⟩,
   ⟨"direction".toList, fun data value => (readString value).map fun text => (data.1, text)⟩]

/-- The fields of `ListenRequest` under the names of their tags. -/
def listenFields : List (Field (UInt32 × String)) :=
  [⟨"port".toList, fun data value => (readUint32 value).map fun n => (n, data.2)⟩,
   ⟨"serviceId".toList, fun data value => (readString value).map fun text => (data.1, text)⟩]

/-- The one field of `RemoveRequest`. -/
def removeFields : List (Field UInt32) := [⟨"port".toList, fun _ value => readUint32 value⟩]

/-- What the scale handler gets from a body: fields that the body does not name keep the
empty string. -/
def decodeScaleRequest (body : List Char) : Except BodyFault (String × String) :=
  decodeStruct scaleFields ("", "") body

/-- What the listen handler gets from a body: a port that the body does not name is 0. -/
def decodeListenRequest (body : List Char) : Except BodyFault (UInt32 × String) :=
  decodeStruct listenFields (0, "") body

/-- What the remove handler gets from a body. -/
def decodeRemoveRequest (body : List Char) : Except BodyFault UInt32 :=
  decodeStruct removeFields 0 body

/-- How the encoder writes a string field. -/
def stringValue (text : String) : Value := .string text.toList

/-- How the encoder writes a `uint32` field: its decimal digits. -/
def uint32Value (n : UInt32) : Value := .number (Nat.toDigits 10 n.toNat)

/-- `json.Marshal` sorts the keys of a map. -/
def encodeScaleRequest (serviceId direction : String) : List Char :=
  Json.encode (.object [("direction".toList, stringValue direction), ("serviceId".toList, stringValue serviceId)])

/-- The body that `SendListenRequest` sends. -/
def encodeListenRequest (port : UInt32) (serviceID : String) : List Char :=
  Json.encode (.object [("port".toList, uint32Value port), ("serviceId".toList, stringValue serviceID)])

/-- The body that `SendRemoveRequest` sends. -/
def encodeRemoveRequest (port : UInt32) : List Char := Json.encode (.object [("port".toList, uint32Value port)])

end Bodies

section Servers

/-- The pattern under which a handler is registered, which is also the path of the client. -/
def Endpoint.path : Endpoint → List Char
  | .scale => ['/']
  | .listen => "/listen".toList
  | .remove => "/remove".toList

/-- The port under which a client looks for an endpoint. -/
def Endpoint.port : Endpoint → Nat
  | .scale => 4567
  | .listen | .remove => 4568

/-- `ServeMux`: the pattern itself, or else the longest one that ends in a slash and that
the path begins with. -/
def route (registered : List Endpoint) (path : List Char) : Option Endpoint :=
  match registered.find? fun endpoint => endpoint.path == path with
  | some endpoint => some endpoint
  | none =>
      let prefixes := registered.filter fun endpoint =>
        endpoint.path.getLast? == some '/' && endpoint.path.isPrefixOf path
      prefixes.argmax fun endpoint => endpoint.path.length

/-- A call in one of the two server goroutines. -/
inductive ServerCall where
  | handleFunc (endpoint : Endpoint)
  | listenAndServe (port : Nat)
  deriving DecidableEq, Repr

/-- The goroutine that a manager starts for its scale server. -/
def scaleServer : List ServerCall := [.handleFunc .scale, .listenAndServe 4567]

/-- The goroutine that every node starts for its port server. -/
def portServer : List ServerCall := [.handleFunc .listen, .handleFunc .remove, .listenAndServe 4568]

/-- What is left of the two goroutines, and what they have done so far. -/
structure Servers where
  scale : List ServerCall
  port : List ServerCall := portServer
  registered : List Endpoint := []
  ports : List Nat := []
  deriving DecidableEq, Repr

/-- `main` starts the server for scale requests on managers only. -/
def startServers (info : SwarmNodeInfo) : Servers where
  scale := if info.autoscalerManager then scaleServer else []

/-- A port may be taken already; the server then returns. -/
def Servers.call (s : Servers) (fails : Bool) : ServerCall → Servers
  | .handleFunc endpoint => { s with registered := s.registered ++ [endpoint] }
  | .listenAndServe port => if fails then s else { s with ports := s.ports ++ [port] }

/-- One of the goroutines goes on. -/
structure ServerStep where
  scale : Bool
  fails : Bool := false
  deriving DecidableEq, Repr

/-- One of the two goroutines makes its next call; a server whose port is taken returns and
serves nothing. -/
def Servers.step (s : Servers) (action : ServerStep) : Option Servers :=
  if action.scale then
    match s.scale with
    | [] => none
    | call :: rest => some ({ s with scale := rest }.call action.fails call)
  else
    match s.port with
    | [] => none
    | call :: rest => some ({ s with port := rest }.call action.fails call)

end Servers

section Delivery

/-- The functions that `main` gives to the servers of a node. -/
structure Handlers where
  scaleFunc : String → String → Code Result
  listenOnPort : UInt32 → String → Code Result
  removePort : UInt32 → Code Result

/-- `describe` gives the text of an error. -/
def Handlers.serve (handlers : Handlers) (describe : BodyFault → String) (method : String) (body : List Char) :
    Endpoint → Code Response
  | .scale => createScalerHandler handlers.scaleFunc ⟨method, (decodeScaleRequest body).mapError describe⟩
  | .listen => listenPortHandler handlers.listenOnPort ⟨method, (decodeListenRequest body).mapError describe⟩
  | .remove => removePortHandler handlers.removePort ⟨method, (decodeRemoveRequest body).mapError describe⟩

/-- The answer of a node to a request that one of its servers has got. -/
def Servers.answer (s : Servers) (handlers : Handlers) (describe : BodyFault → String) (method : String)
    (path body : List Char) : Code Response :=
  match route s.registered path with
  | some endpoint => handlers.serve describe method body endpoint
  | none => .done (httpError "404 page not found" 404)

/-- `http.Post` to the node: the delivery, and what the node makes of path and body. The
client gets no response when the node panics over it. -/
def httpPost (s : Servers) (handlers : Handlers) (describe : BodyFault → String) (context ip : String)
    (endpoint : Endpoint) (body : List Char) : Code Result :=
  .perform (Op.httpPost ip endpoint) fun
    | .error err => .done (.error (context ++ err))
    | .ok _ => ((s.answer handlers describe "POST" endpoint.path body).attempt Op.trap).bind fun
        | none => .done (.error (context ++ "EOF"))
        | some _ => .done (.ok ())

/-- What the clients send is carried out as the model of the cluster has it. -/
structure Carries (handlers : Handlers) (describe : BodyFault → String) (s : Servers) : Prop where
  scale : 4567 ∈ s.ports → ∀ serviceId direction managerIP,
    httpPost s handlers describe "error sending scale request to manager node: " managerIP .scale
        (encodeScaleRequest serviceId direction) =
      sendScaleRequest handlers.scaleFunc serviceId direction managerIP
  listen : 4568 ∈ s.ports → ∀ port serviceID ip,
    httpPost s handlers describe "error sending listen request to manager node: " ip .listen
        (encodeListenRequest port serviceID) =
      sendListenRequest handlers.listenOnPort port serviceID ip
  remove : 4568 ∈ s.ports → ∀ port ip,
    httpPost s handlers describe "error sending remove request to manager node: " ip .remove
        (encodeRemoveRequest port) =
      sendRemoveRequest handlers.removePort port ip

end Delivery

section Written

variable {Data : Type} {fields : List (Field Data)} {zero : Data} {members : List (List Char × Value)}
  {rest : List Char}

theorem fits_stringValue (depth : Nat) (text : String) : Json.Fits depth (stringValue text) := .string

theorem fits_uint32Value (depth : Nat) (n : UInt32) : Json.Fits depth (uint32Value n) :=
  .number (Json.numeral_toDigits n.toNat)

theorem readUint32_uint32Value (n : UInt32) : readUint32 (uint32Value n) = some n := by
  have hSmall := n.toNat_lt
  have hRead : Decimal.parseUint (2 ^ 64 - 1) (Nat.toDigits 10 n.toNat) = .ok n.toNat := by
    rw [Decimal.parseUint_toDigits, if_pos (by omega)]
  show (match Decimal.parseUint (2 ^ 64 - 1) (Nat.toDigits 10 n.toNat) with
    | .ok n => if n < 2 ^ 32 then some (UInt32.ofNat n) else none
    | .error _ => none) = some n
  rw [hRead]
  simp [hSmall]

/-- The members of an object are stored one by one, whatever stands around it. -/
theorem decodeStruct_object {before text : List Char} (hBefore : Json.Blank before)
    (hText : Json.Says maxNestingDepth (.value (.object members)) text) :
    decodeStruct fields zero (before ++ text ++ rest) = members.foldlM (storeMember fields) zero := by
  rw [decodeStruct, Json.decode_of_says hBefore hText trivial]

/-- An object that is written is stored member by member. -/
theorem decodeStruct_encode (hFits : ∀ member ∈ members, Json.Fits 9999 member.2) :
    decodeStruct fields zero (Json.encode (.object members)) = members.foldlM (storeMember fields) zero := by
  have hText : Json.Says maxNestingDepth (.value (.object members)) (Json.encode (.object members)) :=
    Json.says_encode (.object hFits)
  simpa using @decodeStruct_object _ fields zero members [] [] _ Json.blank_nil hText

end Written

section Fields

variable {α : Type} {letter char : Char} {name key : List Char}

/-- The characters that stand for a letter of a field's name: the letter in either case, and
the long s and the kelvin sign for "s" and "k". -/
def SameLetter (letter char : Char) : Prop :=
  char.toLower = letter.toLower ∨ letter.toLower = 's' ∧ char = '\u017F' ∨ letter.toLower = 'k' ∧ char = '\u212A'

/-- A letter of ASCII. -/
def isLetter (char : Char) : Bool :=
  ('A'.toNat ≤ char.toNat && char.toNat ≤ 'Z'.toNat) || ('a'.toNat ≤ char.toNat && char.toNat ≤ 'z'.toNat)

/-- The key of a member names the field. -/
def Names (name key : List Char) : Prop := List.Forall₂ SameLetter name key

/-- The value is this string. -/
def IsString (value : Value) (text : String) : Prop := value = .string text.toList

/-- The value is this number, which is written with digits only. -/
def IsUint32 (value : Value) (n : UInt32) : Prop :=
  ∃ digits, value = .number digits ∧ digits ≠ [] ∧ (∀ char ∈ digits, char.isDigit = true) ∧
    Nat.ofDigitChars 10 digits 0 = n.toNat

/-- Every member for the field holds null or a value of the field's type. -/
def Suits (name : List Char) (means : Value → α → Prop) (members : List (List Char × Value)) : Prop :=
  ∀ member ∈ members, Names name member.1 → member.2 = .null ∨ ∃ x, means member.2 x

/-- The field's value is that of its last member which does not hold null, or else its zero
value. -/
def LastGiven (name : List Char) (means : Value → α → Prop) (zero : α) (members : List (List Char × Value))
    (x : α) : Prop :=
  (∃ before key value after, members = before ++ (key, value) :: after ∧ Names name key ∧ means value x ∧
    ∀ member ∈ after, Names name member.1 → member.2 = .null) ∨
  (x = zero ∧ ∀ member ∈ members, Names name member.1 → member.2 = .null)

theorem toNat_toLower (char : Char) :
    char.toLower.toNat = if 65 ≤ char.toNat ∧ char.toNat ≤ 90 then char.toNat + 32 else char.toNat := by
  have hUpper : char.val ≥ 'A'.val ∧ char.val ≤ 'Z'.val ↔ 65 ≤ char.toNat ∧ char.toNat ≤ 90 := Iff.rfl
  by_cases h : char.val ≥ 'A'.val ∧ char.val ≤ 'Z'.val
  · have hLower : char.toLower.val = char.val + ('a'.val - 'A'.val) := by
      show Char.val (dite _ _ _) = _
      rw [dif_pos h]
    have hLe := (hUpper.mp h).2
    have hVal : char.val.toNat = char.toNat := rfl
    have hShift : ('a'.val - 'A'.val).toNat = 32 := by decide
    rw [if_pos (hUpper.mp h)]
    show char.toLower.val.toNat = char.toNat + 32
    rw [hLower, UInt32.toNat_add]
    omega
  · have hSame : char.toLower = char := dif_neg h
    rw [hSame, if_neg fun hRange => h (hUpper.mpr hRange)]

theorem toNat_foldRune (char : Char) : (foldRune char).toNat =
    if 97 ≤ char.toNat ∧ char.toNat ≤ 122 then char.toNat - 32
    else if char.toNat = 0x17F then 83 else if char.toNat = 0x212A then 75 else char.toNat := by
  have hLong : char = '\u017F' ↔ char.toNat = 0x17F := by rw [← Char.toNat_inj]; rfl
  have hKelvin : char = '\u212A' ↔ char.toNat = 0x212A := by rw [← Char.toNat_inj]; rfl
  have hLower : 'a'.toNat ≤ char.toNat ∧ char.toNat ≤ 'z'.toNat ↔ 97 ≤ char.toNat ∧ char.toNat ≤ 122 := Iff.rfl
  simp only [foldRune, hLong, hKelvin, hLower]
  split_ifs with h
  · have hValid : (char.toNat - 32).isValidChar := Or.inl (by omega)
    rw [Char.ofNat, dif_pos hValid]
    exact UInt32.toNat_ofNatLT ..
  · rfl
  · rfl
  · rfl

theorem foldRune_eq_iff (hLetter : isLetter letter = true) :
    foldRune letter = foldRune char ↔ SameLetter letter char := by
  have hRange : (65 ≤ letter.toNat ∧ letter.toNat ≤ 90) ∨ (97 ≤ letter.toNat ∧ letter.toNat ≤ 122) := by
    simpa [isLetter] using hLetter
  have hs : 's'.toNat = 115 := rfl
  have hk : 'k'.toNat = 107 := rfl
  have hLong : '\u017F'.toNat = 383 := rfl
  have hKelvin : '\u212A'.toNat = 8490 := rfl
  simp only [SameLetter, ← Char.toNat_inj, toNat_toLower, toNat_foldRune, hs, hk, hLong, hKelvin]
  split_ifs <;> omega

/-- The test of a key is the one for its letters. -/
theorem matchesField_iff (hLetters : name.all isLetter = true) :
    matchesField name key = true ↔ Names name key := by
  rw [matchesField, beq_iff_eq, Names]
  induction name generalizing key with
  | nil => rw [List.forall₂_nil_left_iff, List.map_nil, List.map_eq_nil_iff]
  | cons letter name ih =>
      rw [List.all_cons, Bool.and_eq_true_iff] at hLetters
      cases key with
      | nil => simp [List.forall₂_nil_right_iff]
      | cons char key =>
          rw [List.map_cons, List.map_cons, List.cons.injEq, List.forall₂_cons, ← foldRune_eq_iff hLetters.1,
            ← ih hLetters.2, eq_comm (a := foldRune char)]

theorem readString_eq_some {value : Value} {text : String} : readString value = some text ↔ IsString value text := by
  cases value with
  | string raw =>
      rw [readString, IsString, Option.some.injEq, Value.string.injEq]
      exact ⟨fun h => h ▸ String.toList_ofList.symm, fun h => h ▸ String.ofList_toList⟩
  | null | bool | number | array | object => simp [readString, IsString]

theorem readUint32_eq_some {value : Value} {n : UInt32} : readUint32 value = some n ↔ IsUint32 value n := by
  have hSmall := n.toNat_lt
  cases value with
  | number literal =>
      have hDigits : IsUint32 (.number literal) n ↔ Decimal.parseUint (2 ^ 64 - 1) literal = .ok n.toNat := by
        rw [Decimal.parseUint_eq_ok]
        constructor
        · rintro ⟨digits, hSame, hSome, hDigits, hValue⟩
          cases hSame
          exact ⟨hSome, hDigits, hValue, by omega⟩
        · rintro ⟨hSome, hDigits, hValue, _⟩
          exact ⟨literal, rfl, hSome, hDigits, hValue⟩
      rw [hDigits, readUint32]
      cases Decimal.parseUint (2 ^ 64 - 1) literal with
      | error err => simp
      | ok m =>
          dsimp only
          rw [Except.ok.injEq]
          split
          · next hFits =>
              rw [Option.some.injEq, ← UInt32.toNat_inj, UInt32.toNat_ofNat_of_lt' hFits]
          · next hLarge => exact iff_of_false (by simp) (by omega)
  | null | bool | string | array | object => simp [readUint32, IsUint32]

end Fields

section Readers

variable {Data α β : Type} {members : List (List Char × Value)} {rest : List Char} {port : UInt32}
  {serviceId direction serviceID : String}

/-- A member that stands for the field holds null or something that is read. -/
def Taken (name : List Char) (read : Value → Option α) (member : List Char × Value) : Prop :=
  matchesField name member.1 = true → member.2 = .null ∨ (read member.2).isSome = true

/-- What a member makes of the value that the field has so far. -/
def given (name : List Char) (read : Value → Option α) (old : α) (member : List Char × Value) : α :=
  if matchesField name member.1 then (read member.2).getD old else old

/-- A loop that accepts each item by itself accepts them all. -/
theorem foldlM_eq_ok {State Item Err : Type} {step : State → Item → Except Err State} {ok : Item → Prop}
    {next : State → Item → State}
    (hStep : ∀ state item result, step state item = .ok result ↔ ok item ∧ next state item = result)
    {items : List Item} {state result : State} :
    items.foldlM step state = .ok result ↔ (∀ item ∈ items, ok item) ∧ items.foldl next state = result := by
  induction items generalizing state with
  | nil => simp [pure, Except.pure]
  | cons item items ih =>
      rw [List.foldlM_cons, List.foldl_cons, List.forall_mem_cons]
      cases hItem : step state item with
      | error err =>
          have hRefused : ¬ ok item := fun hOk => by
            rw [(hStep state item _).mpr ⟨hOk, rfl⟩] at hItem
            cases hItem
          exact iff_of_false (fun h => by cases h) fun h => hRefused h.1.1
      | ok middle =>
          obtain ⟨hOk, hNext⟩ := (hStep state item middle).mp hItem
          rw [hNext]
          exact ih.trans ⟨fun h => ⟨⟨hOk, h.1⟩, h.2⟩, fun h => ⟨h.1.2, h.2⟩⟩

/-- A member that stands for the first field is stored there or refused. -/
theorem storeMember_first {name : List Char} {read : Value → Option α} {put : Data → α → Data}
    {others : List (Field Data)} {data result : Data} {member : List Char × Value}
    (hMatches : matchesField name member.1 = true) (hNull : read .null = none) {get : Data → α}
    (hKeep : put data (get data) = data) :
    storeMember (⟨name, fun data value => (read value).map (put data)⟩ :: others) data member = .ok result ↔
      Taken name read member ∧ put data (given name read (get data) member) = result := by
  obtain ⟨key, value⟩ := member
  have hFind : List.find? (fun field : Field Data => matchesField field.name key)
      (⟨name, fun data value => (read value).map (put data)⟩ :: others) =
        some ⟨name, fun data value => (read value).map (put data)⟩ := List.find?_cons_of_pos hMatches
  have hTaken : Taken name read (key, value) ↔ value = .null ∨ (read value).isSome = true :=
    ⟨fun h => h hMatches, fun h _ => h⟩
  have hGiven : given name read (get data) (key, value) = (read value).getD (get data) := if_pos hMatches
  rw [storeMember, hFind, hTaken, hGiven]
  cases value with
  | null => simp [hNull, hKeep]
  | bool | number | string | array | object =>
      dsimp only
      cases read _ with
      | none => simp
      | some x => simp

/-- A member that does not stand for the first field is left to the others. -/
theorem storeMember_others {field : Field Data} {others : List (Field Data)} {data : Data}
    {member : List Char × Value} (hMatches : ¬ matchesField field.name member.1 = true) :
    storeMember (field :: others) data member = storeMember others data member := by
  have hFind : List.find? (fun field => matchesField field.name member.1) (field :: others) =
      List.find? (fun field => matchesField field.name member.1) others := List.find?_cons_of_neg hMatches
  rw [storeMember, hFind, storeMember]

theorem taken_of_not_matches {name : List Char} {read : Value → Option α} {member : List Char × Value}
    (hMatches : ¬ matchesField name member.1 = true) : Taken name read member := fun h => absurd h hMatches

theorem given_of_not_matches {name : List Char} {read : Value → Option α} {old : α} {member : List Char × Value}
    (hMatches : ¬ matchesField name member.1 = true) : given name read old member = old := if_neg hMatches

theorem storeMember_one {name : List Char} {read : Value → Option α} (hNull : read .null = none)
    (data : α) (member : List Char × Value) (result : α) :
    storeMember [⟨name, fun _ value => read value⟩] data member = .ok result ↔
      Taken name read member ∧ given name read data member = result := by
  by_cases hMatches : matchesField name member.1 = true
  · have hFirst := @storeMember_first _ _ name read (fun _ x => x) [] data result member hMatches hNull id rfl
    simpa using hFirst
  · rw [storeMember_others hMatches, given_of_not_matches hMatches]
    simp [storeMember, taken_of_not_matches hMatches]

/-- Two fields do not disturb each other. -/
theorem storeMember_two {first second : List Char} {read : Value → Option α} {read' : Value → Option β}
    (hApart : first.map foldRune ≠ second.map foldRune) (hNull : read .null = none) (hNull' : read' .null = none)
    (data : α × β) (member : List Char × Value) (result : α × β) :
    storeMember [⟨first, fun data value => (read value).map fun x => (x, data.2)⟩,
        ⟨second, fun data value => (read' value).map fun y => (data.1, y)⟩] data member = .ok result ↔
      (Taken first read member ∧ Taken second read' member) ∧
        (given first read data.1 member, given second read' data.2 member) = result := by
  by_cases hFirst : matchesField first member.1 = true
  · have hSecond : ¬ matchesField second member.1 = true := fun h => by
      rw [matchesField, beq_iff_eq] at hFirst h
      exact hApart (hFirst.symm.trans h)
    have hStored := @storeMember_first _ _ first read (fun data x => (x, data.2))
      [⟨second, fun data value => (read' value).map fun y => (data.1, y)⟩] data result member hFirst hNull
      Prod.fst rfl
    rw [given_of_not_matches hSecond]
    exact hStored.trans (and_congr_left fun _ => (and_iff_left (taken_of_not_matches hSecond)).symm)
  · rw [storeMember_others hFirst, given_of_not_matches hFirst]
    by_cases hSecond : matchesField second member.1 = true
    · have hStored := @storeMember_first _ _ second read' (fun data y => (data.1, y)) [] data result member
        hSecond hNull' Prod.snd rfl
      exact hStored.trans (and_congr_left fun _ => (and_iff_right (taken_of_not_matches hFirst)).symm)
    · rw [storeMember_others hSecond, given_of_not_matches hSecond]
      simp [storeMember, taken_of_not_matches hFirst, taken_of_not_matches hSecond]

theorem foldl_pair {Item : Type} {f : α → Item → α} {g : β → Item → β} {x : α} {y : β} {items : List Item} :
    items.foldl (fun data item => (f data.1 item, g data.2 item)) (x, y) = (items.foldl f x, items.foldl g y) := by
  induction items generalizing x y with
  | nil => rfl
  | cons item items ih => exact ih

/-- The code reads the field as the field has it. -/
structure Reads (name : List Char) (read : Value → Option α) (means : Value → α → Prop) : Prop where
  names : ∀ key, matchesField name key = true ↔ Names name key
  value : ∀ value x, read value = some x ↔ means value x
  null : read .null = none

theorem reads_string {name : List Char} (hLetters : name.all isLetter = true) :
    Reads name readString IsString where
  names _ := matchesField_iff hLetters
  value _ _ := readString_eq_some
  null := rfl

theorem reads_uint32 {name : List Char} (hLetters : name.all isLetter = true) :
    Reads name readUint32 IsUint32 where
  names _ := matchesField_iff hLetters
  value _ _ := readUint32_eq_some
  null := rfl

variable {name : List Char} {read : Value → Option α} {means : Value → α → Prop} {zero x : α}
  {member : List Char × Value}

theorem taken_iff_suits (h : Reads name read means) :
    (∀ member ∈ members, Taken name read member) ↔ Suits name means members := by
  have hSome (value : Value) : (read value).isSome = true ↔ ∃ x, means value x := by
    rw [Option.isSome_iff_exists]
    exact exists_congr fun x => h.value value x
  exact forall₂_congr fun member _ => by rw [Taken, h.names, hSome]

/-- A member for another field and one that holds null do not count. -/
theorem lastGiven_append_skipped (h : Reads name read means) (hSkipped : Names name member.1 → member.2 = .null) :
    LastGiven name means zero (members ++ [member]) x ↔ LastGiven name means zero members x := by
  have hAll : (∀ other ∈ members ++ [member], Names name other.1 → other.2 = .null) ↔
      ∀ other ∈ members, Names name other.1 → other.2 = .null := by
    simp only [List.forall_mem_append, List.forall_mem_singleton, and_iff_left hSkipped]
  refine or_congr ⟨?_, ?_⟩ (and_congr_right fun _ => hAll)
  · rintro ⟨before, key, value, after, hMembers, hNames, hMeans, hAfter⟩
    rcases List.eq_nil_or_concat after with rfl | ⟨between, last, rfl⟩
    · obtain ⟨rfl, rfl⟩ := List.append_singleton_inj.mp hMembers
      have hNull : value = .null := hSkipped hNames
      rw [hNull, ← h.value, h.null] at hMeans
      cases hMeans
    · rw [List.concat_eq_append] at hMembers hAfter
      rw [← List.cons_append, ← List.append_assoc] at hMembers
      obtain ⟨rfl, rfl⟩ := List.append_singleton_inj.mp hMembers
      exact ⟨before, key, value, between, rfl, hNames, hMeans, (List.forall_mem_append.mp hAfter).1⟩
  · rintro ⟨before, key, value, after, rfl, hNames, hMeans, hAfter⟩
    refine ⟨before, key, value, after ++ [member], by simp, hNames, hMeans, ?_⟩
    simpa only [List.forall_mem_append, List.forall_mem_singleton] using ⟨hAfter, hSkipped⟩

/-- The last value counts. -/
theorem lastGiven_append_given {y : α} (h : Reads name read means) (hNames : Names name member.1)
    (hMeans : means member.2 y) : LastGiven name means zero (members ++ [member]) x ↔ y = x := by
  have hSome : member.2 ≠ .null := fun hNull => by
    rw [hNull, ← h.value, h.null] at hMeans
    cases hMeans
  constructor
  · rintro (⟨before, key, value, after, hMembers, _, hMeansX, hAfter⟩ | ⟨_, hNull⟩)
    · rcases List.eq_nil_or_concat after with rfl | ⟨between, last, rfl⟩
      · obtain ⟨rfl, rfl⟩ := List.append_singleton_inj.mp hMembers
        rw [← h.value] at hMeans hMeansX
        exact Option.some.inj (hMeans.symm.trans hMeansX)
      · rw [List.concat_eq_append] at hMembers hAfter
        rw [← List.cons_append, ← List.append_assoc] at hMembers
        obtain ⟨_, rfl⟩ := List.append_singleton_inj.mp hMembers
        exact absurd (hAfter member (by simp) hNames) hSome
    · exact absurd (hNull member (by simp) hNames) hSome
  · rintro rfl
    exact Or.inl ⟨members, member.1, member.2, [], rfl, hNames, hMeans, by simp⟩

/-- The members are gone through from the first to the last. -/
theorem foldl_given_eq_iff (h : Reads name read means) (hSuits : Suits name means members) :
    members.foldl (given name read) zero = x ↔ LastGiven name means zero members x := by
  induction members using List.reverseRecOn generalizing x with
  | nil =>
      refine ⟨fun hZero => Or.inr ⟨hZero.symm, by simp⟩, ?_⟩
      rintro (⟨before, key, value, after, hNil, _⟩ | ⟨hZero, _⟩)
      · simp at hNil
      · exact hZero.symm
  | append_singleton members member ih =>
      obtain ⟨hSuits, hMember⟩ := List.forall_mem_append.mp hSuits
      rw [List.forall_mem_singleton] at hMember
      rw [List.foldl_append, List.foldl_cons, List.foldl_nil]
      by_cases hNames : Names name member.1
      · have hGiven : given name read (members.foldl (given name read) zero) member =
            (read member.2).getD (members.foldl (given name read) zero) := if_pos ((h.names _).mpr hNames)
        rcases hMember hNames with hNull | ⟨y, hMeans⟩
        · rw [hGiven, hNull, h.null, Option.getD_none, lastGiven_append_skipped h fun _ => hNull, ih hSuits]
        · rw [hGiven, (h.value _ _).mpr hMeans, Option.getD_some, lastGiven_append_given h hNames hMeans]
      · rw [given_of_not_matches (mt (h.names _).mp hNames), lastGiven_append_skipped h fun hSame => absurd hSame hNames,
          ih hSuits]

/-- The members of a struct with two fields, whatever their order and number. -/
theorem foldlM_storeMember_two {first second : List Char} {read : Value → Option α} {read' : Value → Option β}
    (hApart : first.map foldRune ≠ second.map foldRune) (hNull : read .null = none) (hNull' : read' .null = none)
    (data result : α × β) :
    members.foldlM (storeMember [⟨first, fun data value => (read value).map fun x => (x, data.2)⟩,
        ⟨second, fun data value => (read' value).map fun y => (data.1, y)⟩]) data = .ok result ↔
      (∀ member ∈ members, Taken first read member ∧ Taken second read' member) ∧
        (members.foldl (given first read) data.1, members.foldl (given second read') data.2) = result := by
  rw [foldlM_eq_ok (storeMember_two hApart hNull hNull'), foldl_pair]

/-- The members are stored: the request is refused exactly when they do not suit, and what
they give is what is read. -/
structure Stored {Data : Type} (result : Except BodyFault Data) (suits : Prop) (gives : Data → Prop) : Prop where
  refused : (∃ fault, result = .error fault) ↔ ¬ suits
  read : ∀ data, result = .ok data ↔ suits ∧ gives data

theorem stored_of_eq {result : Except BodyFault Data} {suits : Prop} {gives : Data → Prop} {last : Data}
    (h : ∀ data, result = .ok data ↔ suits ∧ last = data) (hGives : suits → ∀ data, last = data ↔ gives data) :
    Stored result suits gives where
  refused := by
    cases result with
    | error fault =>
        exact iff_of_true ⟨fault, rfl⟩ fun hSuits => by cases (h last).mpr ⟨hSuits, rfl⟩
    | ok data => exact iff_of_false (by simp) (not_not.mpr ((h data).mp rfl).1)
  read data := (h data).trans (and_congr_right fun hSuits => hGives hSuits data)

theorem stored_two {first second : List Char} {read : Value → Option α} {read' : Value → Option β}
    {means : Value → α → Prop} {means' : Value → β → Prop} (hApart : first.map foldRune ≠ second.map foldRune)
    (hFirst : Reads first read means) (hSecond : Reads second read' means') (data : α × β) :
    Stored (members.foldlM (storeMember [⟨first, fun data value => (read value).map fun x => (x, data.2)⟩,
        ⟨second, fun data value => (read' value).map fun y => (data.1, y)⟩]) data)
      (Suits first means members ∧ Suits second means' members)
      fun result => LastGiven first means data.1 members result.1 ∧
        LastGiven second means' data.2 members result.2 := by
  refine @stored_of_eq _ _ _ _ (members.foldl (given first read) data.1, members.foldl (given second read') data.2)
    (fun result => ?_) fun hSuits result => ?_
  · rw [foldlM_storeMember_two hApart hFirst.null hSecond.null, ← taken_iff_suits hFirst, ← taken_iff_suits hSecond,
      ← forall₂_and]
  · rw [Prod.ext_iff, foldl_given_eq_iff hFirst hSuits.1, foldl_given_eq_iff hSecond hSuits.2]

/-- What a node reads from any JSON object, with any members in any order and notation: a
request is refused exactly when a member for one of its fields holds neither null nor a
value of the field's type, and otherwise the last value of each field counts. -/
theorem decode_object {before text : List Char} (hBefore : Json.Blank before)
    (hText : Json.Says maxNestingDepth (.value (.object members)) text) :
    Stored (decodeScaleRequest (before ++ text ++ rest))
      (Suits "serviceId".toList IsString members ∧ Suits "direction".toList IsString members)
      (fun data => LastGiven "serviceId".toList IsString "" members data.1 ∧
        LastGiven "direction".toList IsString "" members data.2) ∧
    Stored (decodeListenRequest (before ++ text ++ rest))
      (Suits "port".toList IsUint32 members ∧ Suits "serviceId".toList IsString members)
      (fun data => LastGiven "port".toList IsUint32 0 members data.1 ∧
        LastGiven "serviceId".toList IsString "" members data.2) ∧
    Stored (decodeRemoveRequest (before ++ text ++ rest)) (Suits "port".toList IsUint32 members)
      (LastGiven "port".toList IsUint32 0 members) := by
  have hService : Reads "serviceId".toList readString IsString := reads_string rfl
  have hDirection : Reads "direction".toList readString IsString := reads_string rfl
  have hPort : Reads "port".toList readUint32 IsUint32 := reads_uint32 rfl
  refine ⟨?_, ?_, ?_⟩
  · rw [decodeScaleRequest, decodeStruct_object hBefore hText]
    exact stored_two (by decide) hService hDirection ("", "")
  · rw [decodeListenRequest, decodeStruct_object hBefore hText]
    exact stored_two (by decide) hPort hService (0, "")
  · rw [decodeRemoveRequest, decodeStruct_object hBefore hText]
    refine stored_of_eq (fun port => ?_) fun hSuits port => foldl_given_eq_iff hPort hSuits
    rw [← taken_iff_suits hPort]
    exact foldlM_eq_ok (storeMember_one rfl)

/-- Names in capitals, a value that is overwritten, null, and a member for no field. -/
def mixedMembers : List (List Char × Value) :=
  [("PORT".toList, uint32Value 80), ("serviceId".toList, stringValue "web"), ("port".toList, uint32Value 8080),
    ("Port".toList, .null), ("ttl".toList, .bool true)]

/-- The same as a text, with blanks and an escape that the writer would not put there. -/
def mixedText : List Char :=
  '{' :: (" \"PORT\" : 80".toList ++ ',' :: ("\"\\u0073erviceId\":\"web\"".toList ++ ',' ::
    ("\"port\":8080 ".toList ++ ',' :: ("\"Port\":null".toList ++ ',' :: "\"ttl\":true".toList)))) ++ ['}']

theorem quoted_serviceId : Json.Quoted "\\u0073erviceId".toList "serviceId".toList := by
  have hRest : Json.Written (Json.escape "erviceId".toList) ("erviceId".toList.map Char.toNat) :=
    Json.written_escape _
  have hZero : Json.HexDigit '0' 0 := ⟨by decide, by decide⟩
  have hSeven : Json.HexDigit '7' 7 := ⟨by decide, by decide⟩
  have hThree : Json.HexDigit '3' 3 := ⟨by decide, by decide⟩
  have hText : Json.Means ('s'.toNat :: "erviceId".toList.map Char.toNat) ('s' :: "erviceId".toList) :=
    .char (Json.means_map_toNat _)
  exact ⟨_, .unit hZero hZero hSeven hThree hRest, hText⟩

theorem says_mixedText : Json.Says maxNestingDepth (.value (.object mixedMembers)) mixedText := by
  have hSpace : Json.Blank [' '] := fun _ hMem => List.mem_cons.mpr (Or.inl (List.mem_singleton.mp hMem))
  have hNumber (n : UInt32) : Json.Says 9999 (.value (uint32Value n)) (Nat.toDigits 10 n.toNat) :=
    .number (Json.numeral_toDigits n.toNat)
  have hFirst : Json.Says 9999 (.member "PORT".toList (uint32Value 80)) " \"PORT\" : 80".toList :=
    .named hSpace (Json.quoted_escape "PORT".toList) hSpace (.padded hSpace (hNumber 80) Json.blank_nil)
  have hService : Json.Says 9999 (.member "serviceId".toList (stringValue "web"))
      "\"\\u0073erviceId\":\"web\"".toList :=
    .named Json.blank_nil quoted_serviceId Json.blank_nil
      (Json.padded_of_value (.string (Json.quoted_escape "web".toList)))
  have hPort : Json.Says 9999 (.member "port".toList (uint32Value 8080)) "\"port\":8080 ".toList :=
    .named Json.blank_nil (Json.quoted_escape "port".toList) Json.blank_nil
      (.padded Json.blank_nil (hNumber 8080) hSpace)
  have hNull : Json.Says 9999 (.member "Port".toList .null) "\"Port\":null".toList :=
    Json.member_of_value .null
  have hOther : Json.Says 9999 (.member "ttl".toList (.bool true)) "\"ttl\":true".toList :=
    Json.member_of_value .true
  exact .object (.members hFirst (.members hService (.members hPort (.members hNull (.member hOther)))))

theorem decode_object_mixedMembers :
    decodeListenRequest (['\n'] ++ mixedText ++ ['\n']) = .ok (8080, "web") := by
  have hBefore : Json.Blank ['\n'] := fun _ hMem => by simp [List.mem_singleton.mp hMem]
  have hPort (key : List Char) : Names "port".toList key ↔ matchesField "port".toList key = true :=
    (matchesField_iff rfl).symm
  have hService (key : List Char) : Names "serviceId".toList key ↔ matchesField "serviceId".toList key = true :=
    (matchesField_iff rfl).symm
  have hNumber (n : UInt32) : IsUint32 (uint32Value n) n := readUint32_eq_some.mp (readUint32_uint32Value n)
  refine ((decode_object hBefore says_mixedText).2.1.read (8080, "web")).mpr ⟨⟨?_, ?_⟩, Or.inl ?_, Or.inl ?_⟩
  · simp only [Suits, mixedMembers, List.forall_mem_cons, hPort]
    exact ⟨fun _ => .inr ⟨80, hNumber 80⟩, fun h => absurd h Bool.false_ne_true,
      fun _ => .inr ⟨8080, hNumber 8080⟩, fun _ => .inl trivial, fun h => absurd h Bool.false_ne_true, by simp⟩
  · simp only [Suits, mixedMembers, List.forall_mem_cons, hService]
    exact ⟨fun h => absurd h Bool.false_ne_true, fun _ => .inr ⟨"web", rfl⟩,
      fun h => absurd h Bool.false_ne_true, fun h => absurd h Bool.false_ne_true,
      fun h => absurd h Bool.false_ne_true, by simp⟩
  · refine ⟨mixedMembers.take 2, "port".toList, uint32Value 8080, mixedMembers.drop 3, rfl, (hPort _).mpr rfl,
      hNumber 8080, ?_⟩
    simp only [mixedMembers, List.drop, List.forall_mem_cons, hPort]
    exact ⟨fun _ => trivial, fun h => absurd h Bool.false_ne_true, by simp⟩
  · refine ⟨mixedMembers.take 1, "serviceId".toList, stringValue "web", mixedMembers.drop 2, rfl,
      (hService _).mpr rfl, rfl, ?_⟩
    simp only [mixedMembers, List.drop, List.forall_mem_cons, hService]
    exact ⟨fun h => absurd h Bool.false_ne_true, fun h => absurd h Bool.false_ne_true,
      fun h => absurd h Bool.false_ne_true, by simp⟩

theorem decode_encodeScaleRequest :
    decodeScaleRequest (encodeScaleRequest serviceId direction) = .ok (serviceId, direction) := by
  have hFits : ∀ member ∈
      [("direction".toList, stringValue direction), ("serviceId".toList, stringValue serviceId)],
      Json.Fits 9999 member.2 := by
    simp only [List.forall_mem_cons]
    exact ⟨fits_stringValue _ _, fits_stringValue _ _, by simp⟩
  have hMembers := @decodeStruct_encode _ scaleFields ("", "") _ hFits
  rw [decodeScaleRequest, encodeScaleRequest, hMembers]
  refine (foldlM_storeMember_two (by decide) rfl rfl _ _).mpr
    ⟨?_, Prod.ext String.ofList_toList String.ofList_toList⟩
  simp only [List.forall_mem_cons]
  exact ⟨⟨taken_of_not_matches Bool.false_ne_true, fun _ => .inr rfl⟩,
    ⟨fun _ => .inr rfl, taken_of_not_matches Bool.false_ne_true⟩, by simp⟩

theorem decode_encodeListenRequest :
    decodeListenRequest (encodeListenRequest port serviceID) = .ok (port, serviceID) := by
  have hFits : ∀ member ∈ [("port".toList, uint32Value port), ("serviceId".toList, stringValue serviceID)],
      Json.Fits 9999 member.2 := by
    simp only [List.forall_mem_cons]
    exact ⟨fits_uint32Value _ _, fits_stringValue _ _, by simp⟩
  have hMembers := @decodeStruct_encode _ listenFields (0, "") _ hFits
  have hRead := readUint32_uint32Value port
  rw [decodeListenRequest, encodeListenRequest, hMembers]
  refine (foldlM_storeMember_two (by decide) rfl rfl _ _).mpr
    ⟨?_, Prod.ext (congrArg (Option.getD · 0) hRead) String.ofList_toList⟩
  simp only [List.forall_mem_cons]
  exact ⟨⟨fun _ => .inr (Option.isSome_of_eq_some hRead), taken_of_not_matches Bool.false_ne_true⟩,
    ⟨taken_of_not_matches Bool.false_ne_true, fun _ => .inr rfl⟩, by simp⟩

theorem decode_encodeRemoveRequest : decodeRemoveRequest (encodeRemoveRequest port) = .ok port := by
  have hFits : ∀ member ∈ [("port".toList, uint32Value port)], Json.Fits 9999 member.2 := by
    simp only [List.forall_mem_cons]
    exact ⟨fits_uint32Value _ _, by simp⟩
  have hMembers := @decodeStruct_encode _ removeFields 0 _ hFits
  have hRead := readUint32_uint32Value port
  rw [decodeRemoveRequest, encodeRemoveRequest, hMembers]
  refine (foldlM_eq_ok (storeMember_one rfl)).mpr ⟨?_, congrArg (Option.getD · 0) hRead⟩
  simp only [List.forall_mem_cons]
  exact ⟨fun _ => .inr (Option.isSome_of_eq_some hRead), by simp⟩

end Readers

section Routing

/-- Behind the handlers of its port only, a server is opened. -/
def Prepared (registered : List Endpoint) : List ServerCall → Prop
  | [] => True
  | .handleFunc endpoint :: rest => Prepared (registered ++ [endpoint]) rest
  | .listenAndServe port :: rest =>
      (∀ endpoint : Endpoint, endpoint.port = port → endpoint ∈ registered) ∧ Prepared registered rest

/-- Every open port has its handlers, and what is left to do keeps it so. -/
structure Servers.Sound (s : Servers) : Prop where
  scale : Prepared s.registered s.scale
  port : Prepared s.registered s.port
  served : ∀ endpoint : Endpoint, endpoint.port ∈ s.ports → endpoint ∈ s.registered

variable {s t : Servers} {action : ServerStep} {registered : List Endpoint} {endpoint : Endpoint}
  {calls : List ServerCall}

theorem Prepared.mono {later : List Endpoint} (h : Prepared registered calls) (hLater : registered ⊆ later) :
    Prepared later calls := by
  induction calls generalizing registered later with
  | nil => trivial
  | cons call rest ih =>
      cases call with
      | handleFunc endpoint =>
          have hBoth : registered ++ [endpoint] ⊆ later ++ [endpoint] := by
            intro other hMem
            simpa using (List.mem_append.mp hMem).imp (fun hOld => hLater hOld) List.mem_singleton.mp
          exact ih h hBoth
      | listenAndServe port =>
          exact ⟨fun endpoint hPort => hLater (h.1 endpoint hPort), ih h.2 hLater⟩

theorem sound_startServers (info : SwarmNodeInfo) : (startServers info).Sound where
  scale := by
    rw [startServers]
    split
    · refine ⟨fun endpoint hPort => ?_, trivial⟩
      cases endpoint with
      | scale => exact List.mem_singleton_self _
      | listen | remove => cases hPort
    · trivial
  port := by
    refine ⟨fun endpoint hPort => ?_, trivial⟩
    cases endpoint with
    | scale => cases hPort
    | listen | remove => simp
  served endpoint hOpen := by cases hOpen

/-- A call keeps what the rest of its goroutine and the other one rely on. -/
theorem Servers.Sound.call {call : ServerCall} {rest : List ServerCall} (h : s.Sound) (fails : Bool)
    (hCall : Prepared s.registered (call :: rest)) :
    (∀ calls, Prepared s.registered calls → Prepared (s.call fails call).registered calls) ∧
      Prepared (s.call fails call).registered rest ∧
        ∀ endpoint : Endpoint, endpoint.port ∈ (s.call fails call).ports →
          endpoint ∈ (s.call fails call).registered := by
  cases call with
  | handleFunc other =>
      have hMore : s.registered ⊆ s.registered ++ [other] := List.subset_append_left _ _
      exact ⟨fun calls hCalls => hCalls.mono hMore, hCall, fun endpoint hOpen => hMore (h.served endpoint hOpen)⟩
  | listenAndServe port =>
      cases fails with
      | true => exact ⟨fun _ => id, hCall.2, h.served⟩
      | false =>
          refine ⟨fun _ => id, hCall.2, fun endpoint hOpen => ?_⟩
          rcases List.mem_append.mp hOpen with hOld | hNew
          · exact h.served endpoint hOld
          · exact hCall.1 endpoint (List.mem_singleton.mp hNew)

theorem sound_step (h : s.Sound) (hStep : s.step action = some t) : t.Sound := by
  obtain ⟨scale, fails⟩ := action
  rw [Servers.step] at hStep
  cases scale with
  | true =>
      cases hCalls : s.scale with
      | nil => simp [hCalls] at hStep
      | cons call rest =>
          simp only [hCalls, ↓reduceIte, Option.some.injEq] at hStep
          obtain ⟨hKeep, hRest, hServed⟩ := h.call fails (hCalls ▸ h.scale)
          subst hStep
          cases call <;> cases fails <;> exact ⟨hRest, hKeep _ h.port, hServed⟩
  | false =>
      cases hCalls : s.port with
      | nil => simp [hCalls] at hStep
      | cons call rest =>
          simp only [hCalls, Bool.false_eq_true, ↓reduceIte, Option.some.injEq] at hStep
          obtain ⟨hKeep, hRest, hServed⟩ := h.call fails (hCalls ▸ h.port)
          subst hStep
          cases call <;> cases fails <;> exact ⟨hKeep _ h.scale, hRest, hServed⟩

theorem path_injective {other : Endpoint} (h : endpoint.path = other.path) : endpoint = other := by
  cases endpoint <;> cases other <;> first | rfl | exact absurd h (by decide)

/-- A path that is registered goes to its handler. -/
theorem route_of_mem (hMem : endpoint ∈ registered) : route registered endpoint.path = some endpoint := by
  rw [route]
  cases hFind : registered.find? fun other => other.path == endpoint.path with
  | none => exact absurd (List.find?_eq_none.mp hFind endpoint hMem) (by simp)
  | some other =>
      have hPath : other.path = endpoint.path := by simpa using List.find?_some hFind
      rw [path_injective hPath]

theorem carries_of_sound (handlers : Handlers) (describe : BodyFault → String) (h : s.Sound) :
    Carries handlers describe s where
  scale hOpen serviceId direction managerIP := by
    have hRoute := route_of_mem (h.served .scale hOpen)
    rw [httpPost, sendScaleRequest, post, Servers.answer, hRoute]
    simp only [Handlers.serve, decode_encodeScaleRequest]
    rfl
  listen hOpen port serviceID ip := by
    have hRoute := route_of_mem (h.served .listen hOpen)
    rw [httpPost, sendListenRequest, post, Servers.answer, hRoute]
    simp only [Handlers.serve, decode_encodeListenRequest]
    rfl
  remove hOpen port ip := by
    have hRoute := route_of_mem (h.served .remove hOpen)
    rw [httpPost, sendRemoveRequest, post, Servers.answer, hRoute]
    simp only [Handlers.serve, decode_encodeRemoveRequest]
    rfl

/-- However the two servers of a node come up, a client that reaches one of them is
answered by the function it means, called with what it has sent. -/
theorem carries_throughout (info : SwarmNodeInfo) (handlers : Handlers) (describe : BodyFault → String)
    (actions : List ServerStep) :
    Throughout Servers.step (Carries handlers describe) (startServers info) actions :=
  throughout_of_invariant (fun _ _ _ hSound _ hStep => sound_step hSound hStep)
    (fun _ hSound => carries_of_sound handlers describe hSound) (sound_startServers info)
    (meets_of_forall (fun _ _ => trivial) _ _)

/-- Both servers of a manager can come up, the later one first. -/
example : (run Servers.step (startServers ⟨true, [], 5⟩)
    [⟨false, false⟩, ⟨true, false⟩, ⟨false, false⟩, ⟨false, false⟩, ⟨true, false⟩]).map Servers.ports =
      some [4568, 4567] := by
  decide

end Routing

end Cluster

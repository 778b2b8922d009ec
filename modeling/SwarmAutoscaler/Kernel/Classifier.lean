import SwarmAutoscaler.Process.Sequential

/-! The packet classifier of `tc-port-monitor.c`. It takes every IPv4 header to be 20 bytes
long and looks neither at the fragment offset nor at the lengths that the headers name, so
what it reads as the destination port need not be one. -/
namespace Classifier

open Process

/-- A read of one packet byte, a lookup in `ports_map`, an event. -/
inductive Op where
  | loadByte (offset : Nat)
  | lookup (key : UInt32)
  | perfEventOutput (value : Nat)

/-- A byte of the packet, an entry of the map if there is one, or nothing. -/
def Op.Answer : Op → Type
  | .loadByte _ => UInt8
  | .lookup _ => Option UInt32
  | .perfEventOutput _ => Unit

/-- What the classifier does besides computing: it loads bytes, looks ports up and puts out
samples. -/
abbrev signature : Signature := ⟨Op, Op.Answer⟩

/-- Code of the classifier. -/
abbrev Code (Result : Type) := Program signature Result

/-- `ETH_P_IP`, the type of a frame that carries an IPv4 packet. -/
def ethPIp : Nat := 0x0800
/-- `IPPROTO_TCP`, the protocol number of TCP. -/
def ipprotoTcp : UInt8 := 6
/-- `TC_ACT_OK`: the packet passes. -/
def tcActOk : Nat := 0
/-- The length of an Ethernet header. -/
def sizeofEthhdr : Nat := 14
/-- `sizeof(struct iphdr)`, the length of an IPv4 header without options. -/
def sizeofIphdr : Nat := 20
/-- `sizeof(struct tcphdr)`, the length of a TCP header without options. -/
def sizeofTcphdr : Nat := 20

/-- The two bytes of a `u16` exchanged; `__constant_htons` is the same. -/
def bswap16 (value : Nat) : Nat := value % 256 * 256 + value / 256

/-- A `u16` as the host reads it, low byte first. -/
def load16 (offset : Nat) : Code Nat :=
  .perform (Op.loadByte offset) fun (low : UInt8) =>
    .perform (Op.loadByte (offset + 1)) fun (high : UInt8) => .done (low.toNat + 256 * high.toNat)

/-- `length` is `data_end - data`. -/
def portClassifier (length : Nat) : Code Nat :=
  let eth := 0
  if eth + sizeofEthhdr > length then .done tcActOk
  else (load16 (eth + 12)).bind fun hProto =>
    if hProto ≠ bswap16 ethPIp then .done tcActOk
    else
      let ip := sizeofEthhdr
      if ip + sizeofIphdr > length then .done tcActOk
      else .perform (Op.loadByte (ip + 9)) fun (protocol : UInt8) =>
        if protocol ≠ ipprotoTcp then .done tcActOk
        else
          let tcp := ip + sizeofIphdr
          if tcp + sizeofTcphdr > length then .done tcActOk
          else (load16 (tcp + 2)).bind fun dest =>
            let tcpDestPort := UInt32.ofNat (bswap16 dest)
            .perform (Op.lookup tcpDestPort) fun (found : Option UInt32) =>
              match found with
              | none => .done tcActOk
              | some _ => .perform (Op.perfEventOutput tcpDestPort.toNat) fun _ => .done tcActOk

/-- A packet and the ports of the node; the state is what has been put out. A read outside
of the packet has no answer. -/
def solo (data : List UInt8) (portsMap : UInt32 → Option UInt32) : Solo signature (List Nat) where
  fallible _ := false
  exec op _ events :=
    match op with
    | .loadByte offset => data[offset]?.map fun byte => (byte, events)
    | .lookup key => some (portsMap key, events)
    | .perfEventOutput value => some ((), events ++ [value])

/-- The classifier on the bytes of a frame: its result, and the samples it has put out.
There is none when a load is out of bounds. -/
def classify (data : List UInt8) (portsMap : UInt32 → Option UInt32) : Option (Outcome (List Nat) Nat) :=
  (portClassifier data.length).eval (solo data portsMap) (fun _ => false) 0 []

/-- A load lies within the frame. -/
def InBounds (length : Nat) : Op → Prop
  | .loadByte offset => offset < length
  | _ => True

section Packet

variable (data : List UInt8)

/-- The byte at an offset as a number; 0 beyond the end. -/
def byteAt (offset : Nat) : Nat := (data.getD offset 0).toNat

/-- Two bytes in network order. -/
def field16 (offset : Nat) : Nat := 256 * byteAt data offset + byteAt data (offset + 1)

/-- The length of the IPv4 header in bytes, by its IHL field. -/
def headerLength : Nat := 4 * (byteAt data 14 % 16)

/-- An Ethernet II frame with an IPv4 packet of any header length, which is not a later
fragment and holds at least the fixed part of a TCP header. The packet is whole: its total
length does not go beyond the bytes. -/
structure TcpPacket : Prop where
  etherType : field16 data 12 = ethPIp
  version : byteAt data 14 / 16 = 4
  header : sizeofIphdr ≤ headerLength data
  offset : field16 data 20 % 2 ^ 13 = 0
  protocol : byteAt data 23 = 6
  complete : headerLength data + sizeofTcphdr ≤ field16 data 16
  whole : sizeofEthhdr + field16 data 16 ≤ data.length

instance : Decidable (TcpPacket data) :=
  decidable_of_iff (field16 data 12 = ethPIp ∧ byteAt data 14 / 16 = 4 ∧ sizeofIphdr ≤ headerLength data ∧
      field16 data 20 % 2 ^ 13 = 0 ∧ byteAt data 23 = 6 ∧ headerLength data + sizeofTcphdr ≤ field16 data 16 ∧
      sizeofEthhdr + field16 data 16 ≤ data.length)
    ⟨fun ⟨h₁, h₂, h₃, h₄, h₅, h₆, h₇⟩ => ⟨h₁, h₂, h₃, h₄, h₅, h₆, h₇⟩,
      fun ⟨h₁, h₂, h₃, h₄, h₅, h₆, h₇⟩ => ⟨h₁, h₂, h₃, h₄, h₅, h₆, h₇⟩⟩

/-- The destination port of the TCP header, wherever that begins. -/
def destinationPort : UInt32 := UInt32.ofNat (field16 data (sizeofEthhdr + headerLength data + 2))

/-- What stands where the destination port is after an IPv4 header without options. -/
def fixedPort : UInt32 := UInt32.ofNat (field16 data 36)

/-- The checks of the classifier. -/
def Passes : Prop := 54 ≤ data.length ∧ field16 data 12 = ethPIp ∧ byteAt data 23 = 6

instance : Decidable (Passes data) := inferInstanceAs (Decidable (_ ∧ _ ∧ _))

variable (portsMap : UInt32 → Option UInt32)

/-- One event with the port for a TCP packet to a port of the map, and none otherwise. -/
def expected : List Nat :=
  if TcpPacket data ∧ (portsMap (destinationPort data)).isSome then [(destinationPort data).toNat] else []

/-- The classifier lets the frame pass, puts out what the frame asks for, and loads nothing
beyond its end. -/
def Recognises : Prop :=
  classify data portsMap = some ⟨tcActOk, 0, expected data portsMap⟩ ∧
    ∀ op ∈ (portClassifier data.length).performed (solo data portsMap) (fun _ => false) 0 [],
      InBounds data.length op

/-- The claim for all byte strings and all maps. -/
def AlwaysRecognises : Prop := ∀ data portsMap, Recognises data portsMap

/-- In a TCP packet the two bytes at the fixed place are its destination port, or neither
is in the map; in anything else that passes the checks they are not in the map. -/
def Unmistaken : Prop :=
  if TcpPacket data then
    fixedPort data = destinationPort data ∨ (portsMap (fixedPort data) = none ∧
      portsMap (destinationPort data) = none)
  else Passes data → portsMap (fixedPort data) = none

instance : Decidable (Unmistaken data portsMap) :=
  inferInstanceAs (Decidable (if TcpPacket data then _ else _))

end Packet

/-- A SYN to port 80 behind an IPv4 header with four bytes of options. -/
def withOptions : List UInt8 :=
  [2, 0, 0, 0, 0, 1, 2, 0, 0, 0, 0, 2, 8, 0] ++
    [0x46, 0, 0, 44, 0, 1, 0, 0, 64, 6, 0, 0, 10, 0, 0, 1, 10, 0, 0, 2, 1, 1, 1, 0] ++
      [200, 0, 0, 80, 0, 0, 0, 1, 0, 0, 0, 0, 0x50, 2, 0, 16, 0, 0, 0, 0]

/-- A map with one port in it. -/
def onlyPort80 (port : UInt32) : Option UInt32 := if port = 80 then some 1 else none

theorem not_alwaysRecognises : ¬ AlwaysRecognises := by
  intro h
  have hClassified := (h withOptions onlyPort80).1
  have hNone : classify withOptions onlyPort80 = some ⟨tcActOk, 0, []⟩ := rfl
  rw [hNone] at hClassified
  have hExpected : expected withOptions onlyPort80 = [80] := by decide
  rw [hExpected] at hClassified
  cases hClassified

section Evaluation

variable {data : List UInt8} {portsMap : UInt32 → Option UInt32} {offset : Nat} {events : List Nat}

theorem eval_loadByte (h : offset < data.length) (next : UInt8 → Code Nat) :
    (Program.perform (Op.loadByte offset) next : Code Nat).eval (solo data portsMap) (fun _ => false) 0 events =
      (next (data.getD offset 0)).eval (solo data portsMap) (fun _ => false) 0 events := by
  have hByte : (solo data portsMap).exec (Op.loadByte offset) false events =
      some (data.getD offset 0, events) := by
    show (data[offset]?.map fun byte => (byte, events)) = some (data.getD offset 0, events)
    rw [List.getD_eq_getElem?_getD, List.getElem?_eq_getElem h]
    rfl
  refine (Program.eval_perform rfl).trans ?_
  rw [hByte]
  rfl

theorem eval_load16 (h : offset + 1 < data.length) (rest : Nat → Code Nat) :
    ((load16 offset).bind rest).eval (solo data portsMap) (fun _ => false) 0 events =
      (rest (byteAt data offset + 256 * byteAt data (offset + 1))).eval (solo data portsMap) (fun _ => false) 0
        events :=
  (eval_loadByte (by omega) _).trans (eval_loadByte h _)

theorem byteAt_lt (offset : Nat) : byteAt data offset < 256 := (data.getD offset 0).toNat_lt

/-- Exchanging the bytes of what the host reads gives the field in network order. -/
theorem bswap16_load (offset : Nat) :
    bswap16 (byteAt data offset + 256 * byteAt data (offset + 1)) = field16 data offset := by
  have hLow := @byteAt_lt data offset
  have hHigh := @byteAt_lt data (offset + 1)
  rw [bswap16, field16]
  omega

theorem etherType_iff : byteAt data 12 + 256 * byteAt data 13 = bswap16 ethPIp ↔ field16 data 12 = ethPIp := by
  have hLow := @byteAt_lt data 12
  have hHigh := @byteAt_lt data 13
  show _ = 2048 % 256 * 256 + 2048 / 256 ↔ 256 * byteAt data 12 + byteAt data 13 = 2048
  omega

theorem protocol_iff : data.getD (sizeofEthhdr + 9) 0 = ipprotoTcp ↔ byteAt data 23 = 6 := by
  rw [← UInt8.toNat_inj]
  rfl

/-- What the classifier does with a packet. -/
theorem classify_eq : classify data portsMap = some ⟨tcActOk, 0,
    if Passes data ∧ (portsMap (fixedPort data)).isSome then [(fixedPort data).toNat] else []⟩ := by
  have hSizes : sizeofEthhdr = 14 ∧ sizeofIphdr = 20 ∧ sizeofTcphdr = 20 := ⟨rfl, rfl, rfl⟩
  unfold classify portClassifier
  dsimp only
  by_cases hEth : 0 + sizeofEthhdr > data.length
  · rw [if_pos hEth, if_neg fun h => absurd h.1.1 (by omega)]
    rfl
  rw [if_neg hEth]
  refine (eval_load16 (by omega) _).trans ?_
  by_cases hType : field16 data 12 = ethPIp
  · rw [if_neg (not_not_intro (etherType_iff.mpr hType))]
    by_cases hIp : sizeofEthhdr + sizeofIphdr > data.length
    · rw [if_pos hIp, if_neg fun h => absurd h.1.1 (by omega)]
      rfl
    rw [if_neg hIp]
    refine (eval_loadByte (by omega) _).trans ?_
    by_cases hProtocol : byteAt data 23 = 6
    · rw [if_neg (not_not_intro (protocol_iff.mpr hProtocol))]
      by_cases hTcp : sizeofEthhdr + sizeofIphdr + sizeofTcphdr > data.length
      · rw [if_pos hTcp, if_neg fun h => absurd h.1.1 (by omega)]
        rfl
      rw [if_neg hTcp]
      refine (eval_load16 (by omega) _).trans ?_
      rw [bswap16_load]
      have hPasses : Passes data := ⟨by omega, hType, hProtocol⟩
      refine (Program.eval_perform rfl).trans ?_
      show Option.bind (some (portsMap (fixedPort data), ([] : List Nat))) _ = _
      cases hFound : portsMap (fixedPort data) with
      | none => rw [if_neg fun h => absurd h.2 (by simp)]; rfl
      | some value => rw [if_pos ⟨hPasses, rfl⟩]; rfl
    · rw [if_pos (mt protocol_iff.mp hProtocol), if_neg fun h => hProtocol h.1.2.2]
      rfl
  · rw [if_pos (mt etherType_iff.mp hType), if_neg fun h => hType h.1.2.1]
    rfl

theorem uses_load16 {length : Nat} (h : offset + 1 < length) :
    (load16 offset).Uses (fun _ _ => True) (InBounds length) :=
  ⟨Nat.lt_of_succ_lt h, fun _ _ => ⟨h, fun _ _ => trivial⟩⟩

/-- Every read is covered by the bounds check before it, whatever the bytes are. -/
theorem uses_portClassifier (length : Nat) :
    (portClassifier length).Uses (fun _ _ => True) (InBounds length) := by
  have hSizes : sizeofEthhdr = 14 ∧ sizeofIphdr = 20 ∧ sizeofTcphdr = 20 := ⟨rfl, rfl, rfl⟩
  unfold portClassifier
  dsimp only
  split
  · trivial
  refine Program.uses_bind (uses_load16 (by omega)) fun hProto => ?_
  split
  · trivial
  split
  · trivial
  have hProtocol : sizeofEthhdr + 9 < length := by omega
  refine ⟨hProtocol, fun protocol _ => ?_⟩
  dsimp only
  split
  · trivial
  split
  · trivial
  refine Program.uses_bind (uses_load16 (by omega)) fun dest => ⟨trivial, fun found _ => ?_⟩
  cases found with
  | none => trivial
  | some value => exact ⟨trivial, fun _ _ => trivial⟩

theorem TcpPacket.passes (h : TcpPacket data) : Passes data := by
  have hSizes : sizeofEthhdr = 14 ∧ sizeofIphdr = 20 ∧ sizeofTcphdr = 20 := ⟨rfl, rfl, rfl⟩
  have hHeader := h.header
  have hComplete := h.complete
  have hWhole := h.whole
  exact ⟨by omega, h.etherType, h.protocol⟩

/-- Two ports that are put out if they are in the map make the same events. -/
theorem events_eq_iff (port port' : UInt32) :
    (if (portsMap port).isSome then [port.toNat] else []) =
      (if (portsMap port').isSome then [port'.toNat] else []) ↔
      port = port' ∨ (portsMap port = none ∧ portsMap port' = none) := by
  by_cases hSame : port = port'
  · subst hSame
    exact iff_of_true rfl (Or.inl rfl)
  · rw [or_iff_right hSame]
    have hApart : port.toNat ≠ port'.toNat := fun h => hSame (UInt32.toNat_inj.mp h)
    cases portsMap port <;> cases portsMap port' <;> simp [hApart]

end Evaluation

/-- For every packet and every content of the map: the classifier reads inside the packet
and emits what it should, exactly when it is not mistaken about the place of the port. -/
theorem recognises_iff_unmistaken (data : List UInt8) (portsMap : UInt32 → Option UInt32) :
    Recognises data portsMap ↔ Unmistaken data portsMap := by
  rw [Recognises, and_iff_left (Program.performed_of_uses (uses_portClassifier data.length) 0 []), classify_eq]
  rw [Option.some_inj, Outcome.mk.injEq, and_iff_right rfl, and_iff_right rfl, expected, Unmistaken]
  by_cases hPacket : TcpPacket data
  · rw [if_pos hPacket, ← events_eq_iff]
    simp only [hPacket, hPacket.passes, true_and]
  · have hNothing : ¬ (TcpPacket data ∧ (portsMap (destinationPort data)).isSome = true) := fun h => hPacket h.1
    rw [if_neg hPacket, if_neg hNothing]
    by_cases hPasses : Passes data
    · cases hFound : portsMap (fixedPort data) <;> simp [hPasses]
    · simp [hPasses]

end Classifier

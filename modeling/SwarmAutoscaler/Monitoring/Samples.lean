import Mathlib.Data.List.DropRight
import SwarmAutoscaler.Arith.ByteOrder
import SwarmAutoscaler.Cluster.Operations
import SwarmAutoscaler.Kernel.Classifier
import SwarmAutoscaler.Monitoring.System

/-! The bytes of the two perf buffers. A BPF program writes them in the byte order of its
target; user space reads them as little-endian, whatever the target is. -/
namespace Samples

open Kernel (Data Maps Message kprobeTcpRecvmsg)
open Monitoring (directionOf)

/-- The bytes of a text that is ASCII. -/
def ascii (text : String) : List UInt8 := text.toList.map fun char => UInt8.ofNat char.toNat

/-- The message as the kprobe writes it and the Go code compares it. -/
def text : Message → String
  | .lower => "Lower"
  | .upper => "Upper"

/-- `count` bytes of the source replace those at the start of the destination. -/
def memcpy (dest src : List UInt8) (count : Nat) : List UInt8 := src.take count ++ dest.drop count

/-- `data.message`, with the NUL at its end. -/
def messageBytes (message : Message) : List UInt8 :=
  (memcpy (List.replicate 6 0) (ascii (text message)) 5).set 5 0

/-- `struct data_t`; `tail` are the two bytes that fill it up to a multiple of four. -/
def dataSample (order : ByteOrder) (data : Data) (tail : UInt8 × UInt8) : List UInt8 :=
  order.put 4 data.netns.toNat ++ messageBytes data.message ++ [tail.1, tail.2]

/-- The `long` of `port_classifier`. -/
def portSample (order : ByteOrder) (port : UInt16) : List UInt8 := order.put 8 port.toNat

/-- `Data` of the Go side. -/
structure RawData where
  netns : UInt32
  message : List UInt8
  six : message.length = 6

/-- `binary.Read` of a `Data` -/
def binaryRead (order : ByteOrder) (raw : List UInt8) : Except String RawData :=
  if hShort : raw.length < 10 then .error (if raw = [] then "EOF" else "unexpected EOF")
  else .ok ⟨UInt32.ofNat (order.get (raw.take 4)), (raw.drop 4).take 6, by simp; omega⟩

/-- `strings.Trim` with one character -/
def trim (cut : UInt8) (bytes : List UInt8) : List UInt8 := (bytes.dropWhile (· == cut)).rdropWhile (· == cut)

/-- What `Monitor` makes of the signal. -/
def thresholdDirection (signal : List UInt8) : String :=
  let threshold := trim 0 signal
  if threshold = ascii "Lower" then "under"
  else if threshold = ascii "Upper" then "over"
  else ""

/-- A raw sample on its way through `listenForEvents` and `Monitor`. -/
def receive (raw : List UInt8) : Except String (UInt32 × String) :=
  (binaryRead .littleEndian raw).map fun data => (data.netns, thresholdDirection data.message)

/-- A raw sample in `listenForEvents` of the port listener, which takes four bytes. -/
def receivePort (raw : List UInt8) : Option UInt32 :=
  if 4 ≤ raw.length then some (Cluster.littleEndianUint32 (raw.take 4)) else none

/-- What is written in the order is read back, with any padding behind it. -/
structure RoundTrips (order : ByteOrder) (padding : List UInt8) : Prop where
  data : ∀ (data : Data) (tail : UInt8 × UInt8),
    receive (dataSample order data tail ++ padding) = .ok (data.netns, directionOf data.message)
  port : ∀ port : UInt16, receivePort (portSample order port ++ padding) = some port.toUInt32

/-- The claim for both byte orders and any bytes in the padding. -/
def AlwaysRoundTrips : Prop := ∀ (order : ByteOrder) (padding : List UInt8), RoundTrips order padding

/-- An event for namespace 1 goes to namespace 16777216. -/
theorem not_alwaysRoundTrips : ¬ AlwaysRoundTrips := by
  intro h
  have hRead := (h .bigEndian []).data ⟨1, .upper⟩ (0, 0)
  have hSwapped : receive (dataSample .bigEndian ⟨1, .upper⟩ (0, 0) ++ []) = .ok (16777216, "over") := rfl
  rw [hSwapped] at hRead
  cases hRead

/-- The bytes of the number are the same in both orders. -/
def Mirrored (netns : UInt32) : Prop :=
  ByteOrder.bigEndian.put 4 netns.toNat = ByteOrder.littleEndian.put 4 netns.toNat

section Emitted

variable {maps : Maps} {netns : UInt32} {sk : Option UInt8} {data : Data}

/-- The kprobe names the namespace of the call. -/
theorem netns_of_kprobe (h : (kprobeTcpRecvmsg maps netns sk).2 = some data) : data.netns = netns := by
  unfold kprobeTcpRecvmsg at h
  split at h
  · split at h
    · dsimp only at h
      split at h
      · cases h
      · rw [Kernel.bufferSample, apply_ite Prod.snd, Option.ite_none_right_eq_some] at h
        rw [← Option.some.inj h.2]
    · cases h
  · cases h

/-- Limits that a first connection is outside of, on the side of the message. -/
def limitsFor : Message → UInt32 → Option UInt32
  | .lower, key => if key = 0 then some 1 else if key = 1 then some 10 else some 1
  | .upper, key => if key = 0 then some 0 else some 1

/-- Each message is emitted for each namespace. -/
theorem exists_kprobe (data : Data) : ∃ maps sk, (kprobeTcpRecvmsg maps data.netns sk).2 = some data := by
  obtain ⟨netns, message⟩ := data
  refine ⟨{ constantsMap := limitsFor message, validNetnsMap := fun _ => some 1 }, some Kernel.tcpEstablished, ?_⟩
  cases message <;> rfl

/-- The classifier emits 16-bit ports only. -/
theorem port_of_classify {packet : List UInt8} {portsMap : UInt32 → Option UInt32}
    {outcome : Process.Outcome (List Nat) Nat} {value : Nat}
    (h : Classifier.classify packet portsMap = some outcome) (hMem : value ∈ outcome.state) :
    ∃ port : UInt16, value = port.toNat := by
  rw [Classifier.classify_eq] at h
  cases h
  split at hMem
  · have hHigh := @Classifier.byteAt_lt packet 36
    have hLow := @Classifier.byteAt_lt packet (36 + 1)
    have hField : Classifier.field16 packet 36 < 2 ^ 16 := by
      rw [Classifier.field16]
      omega
    refine ⟨UInt16.ofNat (Classifier.field16 packet 36), ?_⟩
    rw [List.mem_singleton.mp hMem, Classifier.fixedPort, UInt32.toNat_ofNat', UInt16.toNat_ofNat']
    omega
  · cases hMem

end Emitted

section Received

variable {order : ByteOrder} {data : Data} {tail : UInt8 × UInt8} {padding : List UInt8} {port : UInt16}

theorem length_messageBytes (message : Message) : (messageBytes message).length = 6 := by
  cases message <;> rfl

theorem thresholdDirection_messageBytes (message : Message) :
    thresholdDirection (messageBytes message) = directionOf message := by
  cases message <;> rfl

/-- The message is read as it was written, and the number of the namespace from its bytes. -/
theorem receive_dataSample :
    receive (dataSample order data tail ++ padding) =
      .ok (UInt32.ofNat (ByteOrder.littleEndian.get (order.put 4 data.netns.toNat)),
        directionOf data.message) := by
  have hSplit : dataSample order data tail ++ padding =
      order.put 4 data.netns.toNat ++ (messageBytes data.message ++ (tail.1 :: tail.2 :: padding)) := by
    simp [dataSample]
  have hMessage := length_messageBytes data.message
  have hLong : ¬ (dataSample order data tail ++ padding).length < 10 := by
    simp only [hSplit, List.length_append, ByteOrder.length_put, hMessage]
    omega
  have hNetns : (dataSample order data tail ++ padding).take 4 = order.put 4 data.netns.toNat := by
    rw [hSplit, List.take_left' ByteOrder.length_put]
  have hRest : ((dataSample order data tail ++ padding).drop 4).take 6 = messageBytes data.message := by
    rw [hSplit, List.drop_left' ByteOrder.length_put, List.take_left' hMessage]
  rw [receive, binaryRead, dif_neg hLong]
  show Except.ok (UInt32.ofNat (ByteOrder.littleEndian.get ((dataSample order data tail ++ padding).take 4)),
    thresholdDirection (((dataSample order data tail ++ padding).drop 4).take 6)) = _
  rw [hNetns, hRest, thresholdDirection_messageBytes]

/-- The namespace is right in the target's own order, or if its bytes are the same in both. -/
theorem receive_iff :
    receive (dataSample order data tail ++ padding) = .ok (data.netns, directionOf data.message) ↔
      order = .littleEndian ∨ Mirrored data.netns := by
  have hRead : ByteOrder.littleEndian.get (order.put 4 data.netns.toNat) < 2 ^ 32 := ByteOrder.get_put_lt
  rw [Mirrored, ← ByteOrder.get_put_iff data.netns.toNat_lt, receive_dataSample, Except.ok.injEq, Prod.mk.injEq,
    and_iff_left rfl, ← UInt32.toNat_inj, UInt32.toNat_ofNat', Nat.mod_eq_of_lt hRead]

/-- On a little-endian target these are the bytes of the packet events between the nodes. -/
theorem portSample_littleEndian : portSample .littleEndian port = Cluster.longBytes port.toNat :=
  (Cluster.longBytes_eq port.toNat).symm

theorem receivePort_portSample : receivePort (portSample order port ++ padding) =
    some (UInt32.ofNat (ByteOrder.littleEndian.get ((order.put 8 port.toNat).take 4))) := by
  have hLong : 4 ≤ (portSample order port ++ padding).length := by
    rw [portSample, List.length_append, ByteOrder.length_put]
    omega
  have hFirst : (portSample order port ++ padding).take 4 = (order.put 8 port.toNat).take 4 := by
    rw [portSample, List.take_append_of_le_length (by rw [ByteOrder.length_put]; omega)]
  rw [receivePort, if_pos hLong, hFirst, Cluster.littleEndianUint32_eq]

/-- The first half of a big-endian `long` is 0, so no port but 0 is in it. -/
theorem receivePort_iff : receivePort (portSample order port ++ padding) = some port.toUInt32 ↔
    order = .littleEndian ∨ port = 0 := by
  have hPort := port.toNat_lt
  rw [receivePort_portSample, Option.some.injEq]
  cases order with
  | littleEndian =>
      refine iff_of_true ?_ (Or.inl rfl)
      rw [@ByteOrder.take_littleEndian 4 4 port.toNat, ByteOrder.get_put (by omega)]
      apply UInt32.toNat_inj.mp
      rw [UInt32.toNat_ofNat', UInt16.toNat_toUInt32]
      omega
  | bigEndian =>
      rw [or_iff_right nofun, @ByteOrder.take_bigEndian 4 4 port.toNat (by omega), ByteOrder.get,
        ByteOrder.ofLowFirst_replicate]
      constructor
      · intro hZero
        have hNat := congrArg UInt32.toNat hZero
        rw [UInt16.toNat_toUInt32] at hNat
        exact UInt16.toNat_inj.mp hNat.symm
      · rintro rfl
        rfl

/-- A call of the kprobe on a little-endian target is heard of under its own namespace. -/
theorem receive_kprobe {maps : Maps} {netns : UInt32} {sk : Option UInt8}
    (h : (kprobeTcpRecvmsg maps netns sk).2 = some data) :
    receive (dataSample .littleEndian data tail ++ padding) = .ok (netns, directionOf data.message) := by
  rw [← netns_of_kprobe h]
  exact receive_iff.mpr (Or.inl rfl)

/-- So is the port that the classifier has found. -/
theorem receivePort_classify {packet : List UInt8} {portsMap : UInt32 → Option UInt32}
    {outcome : Process.Outcome (List Nat) Nat} {value : Nat}
    (h : Classifier.classify packet portsMap = some outcome) (hMem : value ∈ outcome.state) :
    receivePort (ByteOrder.littleEndian.put 8 value ++ padding) = some (UInt32.ofNat value) := by
  obtain ⟨port, rfl⟩ := port_of_classify h hMem
  refine (receivePort_iff.mpr (Or.inl rfl)).trans (congrArg some ?_)
  apply UInt32.toNat_inj.mp
  have hPort := port.toNat_lt
  rw [UInt32.toNat_ofNat', UInt16.toNat_toUInt32]
  omega

/-- On a big-endian target the events of most namespaces and of all sleeping ports are
taken for others; nothing but the byte order and the value matters. -/
theorem roundTrips_iff (order : ByteOrder) (padding : List UInt8) :
    (∀ (data : Data) (tail : UInt8 × UInt8),
      receive (dataSample order data tail ++ padding) = .ok (data.netns, directionOf data.message) ↔
        order = .littleEndian ∨ Mirrored data.netns) ∧
    ∀ port : UInt16, receivePort (portSample order port ++ padding) = some port.toUInt32 ↔
      order = .littleEndian ∨ port = 0 :=
  ⟨fun _ _ => receive_iff, fun _ => receivePort_iff⟩

end Received

end Samples

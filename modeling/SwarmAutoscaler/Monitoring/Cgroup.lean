import SwarmAutoscaler.Monitoring.Thresholds
import SwarmAutoscaler.Monitoring.Utilization
import SwarmAutoscaler.Text.Decimal
import SwarmAutoscaler.Text.Words

/-! The two files of a container's cgroup that the Monitors read. The kernel writes a
number and a line end into the one, and lines of a key and a number into the other. -/
namespace Cgroup

open Cluster (SwarmNodeInfo getManagerNode)
open Decimal (Numeral parseInt parseInt_eq_ok parseInt_toDigits)
open Process
open Resources

/-- `unicode.IsSpace` -/
def isSpace (char : Char) : Bool :=
  (0x09 ≤ char.toNat && char.toNat ≤ 0x0D) || char.toNat == 0x20 || char.toNat == 0x85 || char.toNat == 0xA0 ||
    char.toNat == 0x1680 || (0x2000 ≤ char.toNat && char.toNat ≤ 0x200A) || char.toNat == 0x2028 ||
    char.toNat == 0x2029 || char.toNat == 0x202F || char.toNat == 0x205F || char.toNat == 0x3000

/-- Why a usage is not known. -/
inductive Fault where
  | file (err : String)
  | number (text : List Char) (fault : Decimal.Fault)
  | missing (containerID : String)
  deriving DecidableEq, Repr

/-- `os.ReadFile`: the files of the node, by their paths. -/
abbrev Files := String → Except String (List Char)

/-- The directory below which systemd puts the cgroups of the containers. -/
def cgroupDir : String := "/sys/fs/cgroup/system.slice"

/-- The file with the memory that a container uses, in bytes. -/
def memCurrentPath (containerID : String) : String :=
  cgroupDir ++ "/docker-" ++ containerID ++ ".scope/memory.current"

/-- The file with the CPU statistics of a container, one per line. -/
def cpuStatPath (containerID : String) : String :=
  cgroupDir ++ "/docker-" ++ containerID ++ ".scope/cpu.stat"

/-- `strconv.ParseInt(text, 10, 64)` -/
def parseInt64 (text : List Char) : Except Fault Int64 :=
  match parseInt 64 text with
  | .error fault => .error (.number text fault)
  | .ok value => .ok (Int64.ofInt value)

/-- In whole MiB. -/
def readMemoryUsage (files : Files) (containerID : String) : Except Fault Int64 :=
  match files (memCurrentPath containerID) with
  | .error err => .error (.file err)
  | .ok content =>
      match parseInt64 (Words.trim isSpace content) with
      | .error fault => .error fault
      | .ok memUsageBytes => .ok (memUsageBytes / (1024 * 1024))

/-- The key of the line with the CPU time used, in microseconds. -/
def usageUsec : List Char := "usage_usec".toList

/-- The loop over the lines of the file. -/
def findUsage (containerID : String) : List (List Char) → Except Fault Int64
  | [] => .error (.missing containerID)
  | line :: lines =>
      if usageUsec.isPrefixOf line then
        match Words.fields isSpace line with
        | [_, value] => parseInt64 value
        | _ => findUsage containerID lines
      else findUsage containerID lines

/-- The file is read as a whole and its lines are gone through in order. -/
def readCPUUsage (files : Files) (containerID : String) : Except Fault Int64 :=
  match files (cpuStatPath containerID) with
  | .error err => .error (.file err)
  | .ok content => findUsage containerID (content.splitOn '\n')

section Formats

/-- `memory.current`, as the kernel writes it. -/
def memoryCurrent (bytes : Nat) : List Char := Nat.toDigits 10 bytes ++ ['\n']

/-- A line of `cpu.stat`. -/
def statLine (stat : List Char × Nat) : List Char := stat.1 ++ ' ' :: Nat.toDigits 10 stat.2

/-- The text of the file that holds these statistics. -/
def cpuStat (stats : List (List Char × Nat)) : List Char := Words.unlines '\n' (stats.map statLine)

/-- A key is a word. -/
def Key (key : List Char) : Prop := key ≠ [] ∧ ∀ char ∈ key, isSpace char = false

variable {files : Files} {containerID : String} {content : List Char} {stats : List (List Char × Nat)}
  {n bytes : Nat} {value : Int} {mb : Int64}

theorem key_of_all {key : List Char} (h : (!key.isEmpty && key.all fun char => !isSpace char) = true) : Key key := by
  simpa [Key] using h

theorem isSpace_of_isDigit {char : Char} (h : char.isDigit = true) : isSpace char = false := by
  have hRange : 48 ≤ char.toNat ∧ char.toNat ≤ 57 := by
    simpa [Char.isDigit, UInt32.le_iff_toNat_le] using h
  simp [isSpace]
  omega

theorem isSpace_toDigits : ∀ char ∈ Nat.toDigits 10 n, isSpace char = false := fun _ hMem =>
  isSpace_of_isDigit (Decimal.isDigit_of_mem_toDigits hMem)

theorem parseInt64_toDigits : parseInt64 (Nat.toDigits 10 n) =
    if n < 2 ^ 63 then .ok (Int64.ofNat n) else .error (.number (Nat.toDigits 10 n) .range) := by
  rw [parseInt64, parseInt_toDigits (by decide)]
  by_cases hFits : n < 2 ^ 63
  · rw [if_pos hFits, if_pos hFits]
    rfl
  · rw [if_neg hFits, if_neg hFits]

/-- Exactly the numerals of 64-bit integers are read. -/
theorem parseInt64_eq_ok {text : List Char} {result : Int64} :
    parseInt64 text = .ok result ↔ Numeral text result.toInt := by
  rw [parseInt64]
  cases hRead : parseInt 64 text with
  | error fault =>
      refine iff_of_false (by simp) fun hNumeral => ?_
      have hOk : parseInt 64 text = .ok result.toInt :=
        (parseInt_eq_ok (by decide)).mpr ⟨hNumeral, result.le_toInt, result.toInt_lt⟩
      rw [hRead] at hOk
      cases hOk
  | ok value =>
      obtain ⟨hNumeral, hLow, hHigh⟩ := (parseInt_eq_ok (by decide)).mp hRead
      have hValue : (Int64.ofInt value).toInt = value := Int64.toInt_ofInt_of_le hLow hHigh
      dsimp only
      rw [Except.ok.injEq, ← Int64.toInt_inj, hValue]
      constructor
      · rintro rfl
        exact hNumeral
      · exact fun h => hNumeral.value.trans h.value.symm

/-- Exactly the numerals of 64-bit integers are accepted, with any blanks around them. -/
theorem readMemoryUsage_eq_ok (hFile : files (memCurrentPath containerID) = .ok content) :
    readMemoryUsage files containerID = .ok mb ↔
      ∃ bytes : Int64, Numeral (Words.trim isSpace content) bytes.toInt ∧ mb = bytes / (1024 * 1024) := by
  rw [readMemoryUsage, hFile]
  dsimp only
  simp only [← parseInt64_eq_ok]
  cases parseInt64 (Words.trim isSpace content) with
  | error fault => simp
  | ok bytes => simp [eq_comm]

/-- A number that the kernel would have written otherwise. -/
def padded : Files := fun _ => .ok " +3145728\r\n".toList

theorem readMemoryUsage_eq_ok_padded : ∃ bytes : Int64,
    Numeral (Words.trim isSpace " +3145728\r\n".toList) bytes.toInt ∧ (3 : Int64) = bytes / (1024 * 1024) := by
  have hRead : readMemoryUsage padded "web.1" = .ok 3 := by decide +kernel
  exact (readMemoryUsage_eq_ok rfl).mp hRead

/-- What the kernel has written is read as whole MiB, unless it is 2^63 bytes or more. -/
theorem readMemoryUsage_memoryCurrent (hFile : files (memCurrentPath containerID) = .ok (memoryCurrent bytes)) :
    readMemoryUsage files containerID =
      if bytes < 2 ^ 63 then .ok (Int64.ofNat (bytes / 2 ^ 20))
      else .error (.number (Nat.toDigits 10 bytes) .range) := by
  have hTrim : Words.trim isSpace (memoryCurrent bytes) = Nat.toDigits 10 bytes :=
    Words.trim_append Nat.toDigits_ne_nil isSpace_toDigits fun char hMem => List.mem_singleton.mp hMem ▸ rfl
  rw [readMemoryUsage, hFile]
  dsimp only
  rw [hTrim, parseInt64_toDigits]
  by_cases hFits : bytes < 2 ^ 63
  · rw [if_pos hFits, if_pos hFits]
    dsimp only
    refine congrArg Except.ok (Int64.toInt_inj.mp ?_)
    rw [Int64.toInt_div_of_ne_right _ _ (by decide), Int64.toInt_ofNat_of_lt hFits,
      Int64.toInt_ofNat_of_lt (by omega)]
    rfl
  · rw [if_neg hFits, if_neg hFits]

/-- A line that the loop takes: two words, of which the first begins with "usage_usec". -/
def Usage (line value : List Char) : Prop :=
  usageUsec.isPrefixOf line = true ∧ ∃ key, Words.fields isSpace line = [key, value]

theorem findUsage_of_usage {line value : List Char} {lines : List (List Char)} (h : Usage line value) :
    findUsage containerID (line :: lines) = parseInt64 value := by
  obtain ⟨hPrefix, key, hFields⟩ := h
  rw [findUsage, if_pos hPrefix, hFields]

theorem findUsage_of_not_usage {line : List Char} {lines : List (List Char)} (h : ∀ value, ¬ Usage line value) :
    findUsage containerID (line :: lines) = findUsage containerID lines := by
  rw [findUsage]
  split
  · next hPrefix =>
      split
      · next key value hFields => exact absurd ⟨hPrefix, key, hFields⟩ (h value)
      · rfl
  · rfl

/-- The first such line decides, and it is accepted with exactly the numerals of 64-bit integers. -/
theorem findUsage_eq_ok {lines : List (List Char)} {usec : Int64} : findUsage containerID lines = .ok usec ↔
    ∃ before line after value, lines = before ++ line :: after ∧
      (∀ other ∈ before, ∀ text, ¬ Usage other text) ∧ Usage line value ∧ Numeral value usec.toInt := by
  induction lines with
  | nil => exact iff_of_false (by simp [findUsage]) (by simp)
  | cons line lines ih =>
      by_cases hUsage : ∃ value, Usage line value
      · obtain ⟨value, hUsage⟩ := hUsage
        rw [findUsage_of_usage hUsage, parseInt64_eq_ok]
        constructor
        · intro hNumeral
          exact ⟨[], line, lines, value, rfl, by simp, hUsage, hNumeral⟩
        · rintro ⟨before, other, after, text, hLines, hBefore, hOther, hNumeral⟩
          cases before with
          | nil =>
              obtain ⟨rfl, rfl⟩ := List.cons_eq_cons.mp hLines
              obtain ⟨_, key, hFields⟩ := hUsage
              obtain ⟨_, key', hFields'⟩ := hOther
              rw [hFields] at hFields'
              cases hFields'
              exact hNumeral
          | cons first before =>
              obtain ⟨rfl, rfl⟩ := List.cons_eq_cons.mp hLines
              exact absurd hUsage (hBefore line (List.mem_cons_self ..) value)
      · rw [not_exists] at hUsage
        rw [findUsage_of_not_usage hUsage, ih]
        constructor
        · rintro ⟨before, other, after, text, rfl, hBefore, hOther⟩
          refine ⟨line :: before, other, after, text, rfl, fun earlier hMem => ?_, hOther⟩
          rcases List.mem_cons.mp hMem with rfl | hMem
          · exact hUsage
          · exact hBefore earlier hMem
        · rintro ⟨before, other, after, text, hLines, hBefore, hOther⟩
          cases before with
          | nil =>
              obtain ⟨rfl, rfl⟩ := List.cons_eq_cons.mp hLines
              exact absurd hOther.1 (hUsage text)
          | cons first before =>
              obtain ⟨rfl, rfl⟩ := List.cons_eq_cons.mp hLines
              exact ⟨before, other, after, text, rfl,
                fun earlier hMem => hBefore earlier (List.mem_cons_of_mem _ hMem), hOther⟩

theorem readCPUUsage_eq_ok {usec : Int64} (hFile : files (cpuStatPath containerID) = .ok content) :
    readCPUUsage files containerID = .ok usec ↔
      ∃ before line after value, content.splitOn '\n' = before ++ line :: after ∧
        (∀ other ∈ before, ∀ text, ¬ Usage other text) ∧ Usage line value ∧ Numeral value usec.toInt := by
  rw [readCPUUsage, hFile]
  exact findUsage_eq_ok

/-- The first line has three words, and the second key only begins as it should. -/
def unusual : Files := fun _ => .ok "usage_usec 1 2\nusage_usecs\t+7\nusage_usec 8".toList

theorem readCPUUsage_eq_ok_unusual : ∃ before line after value,
    "usage_usec 1 2\nusage_usecs\t+7\nusage_usec 8".toList.splitOn '\n' = before ++ line :: after ∧
      (∀ other ∈ before, ∀ text, ¬ Usage other text) ∧ Usage line value ∧ Numeral value (7 : Int64).toInt := by
  have hRead : readCPUUsage unusual "web.1" = .ok 7 := by decide +kernel
  exact (readCPUUsage_eq_ok rfl).mp hRead

theorem not_mem_usageUsec : ' ' ∉ usageUsec := by decide

theorem fields_statLine {stat : List Char × Nat} (hKey : Key stat.1) :
    Words.fields isSpace (statLine stat) = [stat.1, Nat.toDigits 10 stat.2] := by
  rw [statLine, Words.fields_append_cons hKey.1 hKey.2 rfl,
    Words.fields_of_word Nat.toDigits_ne_nil isSpace_toDigits]

theorem not_mem_statLine {stat : List Char × Nat} (hKey : Key stat.1) : '\n' ∉ statLine stat := by
  intro hMem
  have hBlank : isSpace '\n' = true := rfl
  rcases List.mem_append.mp hMem with hFirst | hRest
  · exact absurd (hKey.2 _ hFirst) (by simp [hBlank])
  · cases hRest with
    | tail _ hDigits => exact absurd (isSpace_toDigits _ hDigits) (by simp [hBlank])

theorem findUsage_map_statLine (hKeys : ∀ stat ∈ stats, Key stat.1) :
    findUsage containerID (stats.map statLine ++ [[]]) =
      match stats.find? fun stat => usageUsec.isPrefixOf stat.1 with
      | none => .error (.missing containerID)
      | some stat => parseInt64 (Nat.toDigits 10 stat.2) := by
  induction stats with
  | nil => rfl
  | cons stat stats ih =>
      have hKey := hKeys stat (List.mem_cons_self ..)
      have hPrefix : usageUsec.isPrefixOf (statLine stat) = usageUsec.isPrefixOf stat.1 :=
        Words.isPrefixOf_append_cons not_mem_usageUsec
      rw [List.map_cons, List.cons_append, findUsage, hPrefix, fields_statLine hKey]
      by_cases hFound : usageUsec.isPrefixOf stat.1 = true
      · simp [List.find?, hFound]
      · rw [if_neg hFound, ih fun other hOther => hKeys other (List.mem_cons_of_mem _ hOther)]
        simp [List.find?, hFound]

/-- The number of the first key that begins with "usage_usec" is read, unless it is 2^63 or more. -/
theorem readCPUUsage_cpuStat (hKeys : ∀ stat ∈ stats, Key stat.1)
    (hFile : files (cpuStatPath containerID) = .ok (cpuStat stats)) :
    readCPUUsage files containerID =
      match stats.find? fun stat => usageUsec.isPrefixOf stat.1 with
      | none => .error (.missing containerID)
      | some stat =>
          if stat.2 < 2 ^ 63 then .ok (Int64.ofNat stat.2)
          else .error (.number (Nat.toDigits 10 stat.2) .range) := by
  have hLines : ∀ line ∈ stats.map statLine, '\n' ∉ line := by
    intro line hMem
    obtain ⟨stat, hStat, rfl⟩ := List.mem_map.mp hMem
    exact not_mem_statLine (hKeys stat hStat)
  rw [readCPUUsage, hFile]
  dsimp only
  rw [cpuStat, Words.splitOn_unlines hLines, findUsage_map_statLine hKeys]
  simp only [parseInt64_toDigits]

end Formats

/-- What a Monitor finds at one instant: the files, what its `select` receives, and how
everything else is answered. -/
structure Instant where
  files : Files
  received : Ticked := .tick
  answers : (op : Op) → op.Answer

/-- `describe` gives the text of an error. -/
def Instant.answer (describe : Fault → String) (instant : Instant) : (op : Op) → op.Answer
  | .readCPUUsage containerID => (readCPUUsage instant.files containerID).mapError describe
  | .readMemoryUsage containerID => (readMemoryUsage instant.files containerID).mapError describe
  | .selectTick => instant.received
  | op => instant.answers op

/-- A Monitor, and the directions that it has asked for. -/
structure Watch where
  progress : Progress := .starting
  asked : List String := []
  deriving DecidableEq

/-- A container that is monitored. -/
structure Setting where
  describe : Fault → String
  resource : Resource
  node : SwarmNodeInfo
  containerID : String
  collectionPeriod : Int64

namespace Setting

variable (setting : Setting)

/-- A turn as the code goes through it, with the utilisation in `float64`. -/
def turn (progress : Progress) (instant : Instant) : List Op × Progress :=
  (setting.resource.turnIn setting.node setting.containerID setting.collectionPeriod cpuUtilization64 progress).replay
    (instant.answer setting.describe)

/-- One turn of the Monitor, with the directions it asks for put behind the earlier ones. -/
def step (s : Watch) (instant : Instant) : Option Watch :=
  if s.progress = .returned then none
  else
    some
      { progress := (setting.turn s.progress instant).2
        asked := s.asked ++ (setting.turn s.progress instant).1.filterMap Op.direction? }

/-- A request finds a manager, and on a worker the service of the container. -/
def Able (instant : Instant) : Prop :=
  setting.node.autoscalerManager = true ∨
    (∃ managerNode, getManagerNode setting.node.otherNodes = .ok managerNode) ∧
      ∃ serviceID, instant.answers (.findServiceIDFromContainer setting.containerID) = .ok serviceID

/-- A tick in the loop. -/
def Ticks (instant : Instant) : Prop := instant.received = .tick ∧ setting.Able instant

/-- The container uses so many bytes, or that cannot be read. -/
def UsesMemory (instant : Instant) : Option Nat → Prop
  | some bytes => bytes < 2 ^ 63 ∧ instant.files (memCurrentPath setting.containerID) = .ok (memoryCurrent bytes)
  | none => ∃ fault, readMemoryUsage instant.files setting.containerID = .error fault

/-- The container has used so many microseconds, or that cannot be read. -/
def UsesCPU (instant : Instant) : Option Nat → Prop
  | some usec => usec < 2 ^ 63 ∧ ∃ stats : List (List Char × Nat), (∀ stat ∈ stats, Key stat.1) ∧
      instant.files (cpuStatPath setting.containerID) = .ok (cpuStat stats) ∧
        (stats.find? fun stat => usageUsec.isPrefixOf stat.1).map Prod.snd = some usec
  | none => ∃ fault, readCPUUsage instant.files setting.containerID = .error fault

end Setting

/-- The direction for so many bytes, with no rounding but that to whole MiB. -/
def memoryDirection (mem : MemoryResource) (bytes : Nat) : List String :=
  if (mem.upperLimit.toInt + 1) * 2 ^ 20 ≤ bytes then ["over"]
  else if (bytes : Int) < mem.lowerLimit.toInt * 2 ^ 20 then ["under"]
  else []

/-- The exact utilisation in percent, for so many microseconds in a period. -/
def exactUtilization (collectionPeriod : Int64) (usec : Int) : Rat :=
  100 * usec / (collectionPeriod.toInt / 10 ^ 3)

/-- The direction for a utilisation. -/
def cpuDirection (cpu : CPUResource) (utilization : Rat) : List String :=
  if cpu.upperUtil < utilization then ["over"]
  else if utilization < cpu.lowerUtil then ["under"]
  else []

/-- The usage from each reading to the next one; readings that fail are passed over. -/
def increments (last : Nat) : List (Option Nat) → List Int
  | [] => []
  | none :: rest => increments last rest
  | some usec :: rest => (usec - last : Int) :: increments usec rest

/-- The last usage that was read, where `none` stands for a read that failed. -/
def lastReading (last : Nat) : List (Option Nat) → Nat
  | [] => last
  | none :: rest => lastReading last rest
  | some usec :: rest => lastReading usec rest

section Runs

variable {setting : Setting} {mem : MemoryResource} {cpu : CPUResource} {instant : Instant} {used : Option Nat}
  {direction : String} {progress : Progress} {bytes : Nat} {s : Watch}

/-- The requests that a computed direction leads to: the empty direction asks for
nothing. -/
def asks (direction : String) : List String := if direction = "" then [] else [direction]

/-- Where a request can be made it is made, and the Monitor goes on. -/
theorem replay_act_of_able (hAble : setting.Able instant) :
    let replayed := (act setting.node setting.containerID direction progress).replay
      (instant.answer setting.describe)
    replayed.1.filterMap Op.direction? = asks direction ∧ replayed.2 = progress := by
  dsimp only
  rw [act, asks]
  by_cases hNone : direction = ""
  · rw [if_neg (by simpa using hNone), if_pos hNone]
    exact ⟨rfl, rfl⟩
  · rw [if_pos hNone, if_neg hNone, request]
    rcases hAble with hManager | ⟨⟨managerNode, hFound⟩, serviceID, hService⟩
    · rw [if_pos hManager]
      exact ⟨rfl, rfl⟩
    · split
      · exact ⟨rfl, rfl⟩
      · rw [hFound]
        dsimp only
        have hAnswer : instant.answer setting.describe (.findServiceIDFromContainer setting.containerID) =
            .ok serviceID := hService
        rw [Program.replay_perform, hAnswer]
        exact ⟨rfl, rfl⟩

theorem asks_determineScalingDirection {value lower upper : Rat} :
    asks (determineScalingDirection value lower upper) =
      if upper < value then ["over"] else if value < lower then ["under"] else [] := by
  rw [determineScalingDirection, asks]
  split
  · rfl
  · split
    · rfl
    · rfl

theorem float64_lt_iff {a b : Int64} (h : b.toInt.natAbs + 1 < 2 ^ 53) :
    float64 a < float64 b ↔ a.toInt < b.toInt :=
  Int.cast_lt.trans (Binary64.ofInt_lt_ofInt_iff h)

theorem float64_lt_iff_left {a b : Int64} (h : a.toInt.natAbs + 1 < 2 ^ 53) :
    float64 a < float64 b ↔ a.toInt < b.toInt :=
  Int.cast_lt.trans (Binary64.ofInt_lt_ofInt_iff_left h)

/-- The conversions to `float64` do not change the direction. -/
theorem asks_memory (hFits : bytes < 2 ^ 63) :
    asks (mem.decide (Int64.ofNat (bytes / 2 ^ 20))) = memoryDirection mem bytes := by
  have hUsage : (Int64.ofNat (bytes / 2 ^ 20)).toInt = (bytes / 2 ^ 20 : Nat) :=
    Int64.toInt_ofNat_of_lt (by omega)
  have hSmall : (Int64.ofNat (bytes / 2 ^ 20)).toInt.natAbs + 1 < 2 ^ 53 := by
    rw [hUsage, Int.natAbs_natCast]
    omega
  rw [MemoryResource.decide, asks_determineScalingDirection, memoryDirection]
  refine if_congr ?_ rfl (if_congr ?_ rfl rfl)
  · rw [float64_lt_iff hSmall, hUsage]
    omega
  · rw [float64_lt_iff_left hSmall, hUsage]
    omega

/-- The difference of two readings does not overflow. -/
theorem toInt_sub_ofNat {last usec : Nat} (hLast : last < 2 ^ 63) (hUsec : usec < 2 ^ 63) :
    (Int64.ofNat usec - Int64.ofNat last).toInt = usec - last := by
  rw [Int64.toInt_sub, Int64.toInt_ofNat_of_lt hUsec, Int64.toInt_ofNat_of_lt hLast]
  exact Int.bmod_eq_of_le (by omega) (by omega)

theorem sub_ofNat {last usec : Nat} (hLast : last < 2 ^ 63) (hUsec : usec < 2 ^ 63) :
    Int64.ofNat usec - Int64.ofNat last = Int64.ofInt (usec - last) := by
  rw [← Int64.toInt_inj, toInt_sub_ofNat hLast hUsec, Int64.toInt_ofInt_of_le (by omega) (by omega)]

theorem asks_cpu {utilization : Rat} :
    asks (determineScalingDirection utilization cpu.lowerUtil cpu.upperUtil) = cpuDirection cpu utilization :=
  asks_determineScalingDirection

/-- The increments between readings that fit are numbers of 64 bits. -/
theorem increments_bounded {last : Nat} {shown : List (Option Nat)} (hLast : last < 2 ^ 63)
    (hShown : ∀ used ∈ shown, ∀ usec ∈ used, usec < 2 ^ 63) :
    ∀ usec ∈ increments last shown, -2 ^ 63 ≤ usec ∧ usec < 2 ^ 63 := by
  induction shown generalizing last with
  | nil => simp [increments]
  | cons used shown ih =>
      rw [List.forall_mem_cons] at hShown
      cases used with
      | none => exact ih hLast hShown.2
      | some next =>
          have hNext : next < 2 ^ 63 := hShown.1 next rfl
          rw [increments, List.forall_mem_cons]
          exact ⟨by omega, ih hNext hShown.2⟩

theorem within_exactUtilization {collectionPeriod : Int64} (hPeriod : 0 < collectionPeriod.toInt) {usec : Int}
    (hUsec : -2 ^ 63 ≤ usec ∧ usec < 2 ^ 63) :
    Binary64.Within (1 / 2 ^ 50) (cpuUtilization64 (Int64.ofInt usec) collectionPeriod)
      (exactUtilization collectionPeriod usec) := by
  have hExact : exactUtilization collectionPeriod usec =
      cpuUtilization (Int64.ofInt usec) collectionPeriod := by
    have hNonzero : (collectionPeriod.toInt : Rat) ≠ 0 := Int.cast_ne_zero.mpr (Int.ne_of_gt hPeriod)
    rw [exactUtilization, cpuUtilization, seconds, Int64.toInt_ofInt_of_le hUsec.1 hUsec.2]
    field_simp
  rw [hExact]
  exact within_cpuUtilization64 hPeriod

theorem readCPUUsage_of_uses {usec : Nat} (h : setting.UsesCPU instant (some usec)) :
    readCPUUsage instant.files setting.containerID = .ok (Int64.ofNat usec) := by
  obtain ⟨hFits, stats, hKeys, hFile, hFound⟩ := h
  obtain ⟨stat, hStat, rfl⟩ := Option.map_eq_some_iff.mp hFound
  rw [readCPUUsage_cpuStat hKeys hFile, hStat]
  exact if_pos hFits

theorem replay_memory (mem : MemoryResource) (hTicks : setting.Ticks instant)
    (h : setting.UsesMemory instant used) :
    let replayed := (mem.turn setting.node setting.containerID).replay (instant.answer setting.describe)
    replayed.1.filterMap Op.direction? = used.elim [] (memoryDirection mem) ∧ replayed.2 = .polling := by
  have hSelect : instant.answer setting.describe .selectTick = Ticked.tick := hTicks.1
  cases used with
  | none =>
      obtain ⟨fault, hFault⟩ := h
      have hRead : instant.answer setting.describe (.readMemoryUsage setting.containerID) =
          .error (setting.describe fault) := congrArg (Except.mapError setting.describe) hFault
      rw [MemoryResource.replay_error hSelect hRead]
      exact ⟨rfl, rfl⟩
  | some bytes =>
      obtain ⟨hFits, hFile⟩ := h
      have hRead : instant.answer setting.describe (.readMemoryUsage setting.containerID) =
          .ok (Int64.ofNat (bytes / 2 ^ 20)) :=
        congrArg (Except.mapError setting.describe)
          ((readMemoryUsage_memoryCurrent hFile).trans (if_pos hFits))
      rw [MemoryResource.replay_ok hSelect hRead]
      dsimp only
      rw [List.filterMap_cons_none rfl, List.filterMap_cons_none rfl, (replay_act_of_able hTicks.2).1,
        (replay_act_of_able hTicks.2).2, asks_memory hFits]
      exact ⟨rfl, rfl⟩

theorem replay_cpu (cpu : CPUResource) {last : Nat} (hLast : last < 2 ^ 63) (hTicks : setting.Ticks instant)
    (h : setting.UsesCPU instant used) :
    let replayed := (cpu.turn setting.node setting.containerID setting.collectionPeriod cpuUtilization64
      (Int64.ofNat last)).replay (instant.answer setting.describe)
    replayed.1.filterMap Op.direction? = used.elim [] (fun usec =>
        cpuDirection cpu (cpuUtilization64 (Int64.ofInt (usec - last)) setting.collectionPeriod)) ∧
      replayed.2 = .ticking (Int64.ofNat (used.getD last)) := by
  have hSelect : instant.answer setting.describe .selectTick = Ticked.tick := hTicks.1
  cases used with
  | none =>
      obtain ⟨fault, hFault⟩ := h
      have hRead : instant.answer setting.describe (.readCPUUsage setting.containerID) =
          .error (setting.describe fault) := congrArg (Except.mapError setting.describe) hFault
      rw [CPUResource.replay_error hSelect hRead]
      exact ⟨rfl, rfl⟩
  | some usec =>
      have hRead : instant.answer setting.describe (.readCPUUsage setting.containerID) = .ok (Int64.ofNat usec) :=
        congrArg (Except.mapError setting.describe) (readCPUUsage_of_uses h)
      rw [CPUResource.replay_ok hSelect hRead]
      dsimp only
      rw [List.filterMap_cons_none rfl, List.filterMap_cons_none rfl, (replay_act_of_able hTicks.2).1,
        (replay_act_of_able hTicks.2).2, asks_cpu, sub_ofNat hLast h.1]
      exact ⟨rfl, rfl⟩

variable {instants : List Instant} {shown : List (Option Nat)}

theorem run_polling (hMemory : setting.resource = .memory mem)
    (hTicks : ∀ instant ∈ instants, setting.Ticks instant)
    (hUses : List.Forall₂ setting.UsesMemory instants shown) (asked : List String) :
    run setting.step ⟨.polling, asked⟩ instants =
      some ⟨.polling, asked ++ shown.flatMap fun used => used.elim [] (memoryDirection mem)⟩ := by
  induction hUses generalizing asked with
  | nil => simp [run]
  | @cons instant used instants shown hUsed _ ih =>
      have hTurn : setting.turn .polling instant =
          (mem.turn setting.node setting.containerID).replay (instant.answer setting.describe) := by
        rw [Setting.turn, hMemory]
        rfl
      obtain ⟨hAsked, hProgress⟩ := replay_memory mem (hTicks instant (List.mem_cons_self ..)) hUsed
      have hStep : setting.step ⟨.polling, asked⟩ instant =
          some ⟨.polling, asked ++ used.elim [] (memoryDirection mem)⟩ := by
        rw [Setting.step, if_neg (by simp), hTurn, hProgress, hAsked]
      rw [run, hStep, Option.bind_some, ih fun other hOther => hTicks other (List.mem_cons_of_mem _ hOther),
        List.flatMap_cons, List.append_assoc]

/-- A Monitor for memory asks for what the bytes in the file call for, tick by tick: "over"
from one MiB above the limit on, "under" below the other limit. -/
theorem run_memory (hMemory : setting.resource = .memory mem)
    (hTicks : ∀ instant ∈ instants, setting.Ticks instant)
    (hUses : List.Forall₂ setting.UsesMemory instants shown) :
    run setting.step {} (instant :: instants) =
      some ⟨.polling, shown.flatMap fun used => used.elim [] (memoryDirection mem)⟩ := by
  have hStep : setting.step {} instant = some ⟨.polling, []⟩ := by
    rw [Setting.step, if_neg (by simp), Setting.turn, hMemory]
    rfl
  rw [run, hStep, Option.bind_some, run_polling hMemory hTicks hUses, List.nil_append]

theorem run_ticking (hCPU : setting.resource = .cpu cpu) (hTicks : ∀ instant ∈ instants, setting.Ticks instant)
    (hUses : List.Forall₂ setting.UsesCPU instants shown) {last : Nat} (hLast : last < 2 ^ 63)
    (asked : List String) :
    run setting.step ⟨.ticking (Int64.ofNat last), asked⟩ instants =
      some ⟨.ticking (Int64.ofNat (lastReading last shown)),
        asked ++ (increments last shown).flatMap fun usec =>
          cpuDirection cpu (cpuUtilization64 (Int64.ofInt usec) setting.collectionPeriod)⟩ := by
  induction hUses generalizing last asked with
  | nil => simp [run, lastReading, increments]
  | @cons instant used instants shown hUsed _ ih =>
      have hTurn : setting.turn (.ticking (Int64.ofNat last)) instant =
          (cpu.turn setting.node setting.containerID setting.collectionPeriod cpuUtilization64
            (Int64.ofNat last)).replay (instant.answer setting.describe) := by
        rw [Setting.turn, hCPU]
        rfl
      obtain ⟨hAsked, hProgress⟩ := replay_cpu cpu hLast (hTicks instant (List.mem_cons_self ..)) hUsed
      have hRest (last : Nat) (hLast : last < 2 ^ 63) (asked : List String) :=
        ih (fun other hOther => hTicks other (List.mem_cons_of_mem _ hOther)) hLast asked
      rw [run, Setting.step, if_neg (by simp), hTurn, hProgress, hAsked, Option.bind_some]
      cases used with
      | none => simpa [lastReading, increments] using hRest last hLast asked
      | some usec =>
          have hNext := hRest usec hUsed.1 (asked ++
            cpuDirection cpu (cpuUtilization64 (Int64.ofInt (usec - last)) setting.collectionPeriod))
          simpa [lastReading, increments] using hNext

theorem fits_of_uses (hUses : List.Forall₂ setting.UsesCPU instants shown) :
    ∀ used ∈ shown, ∀ usec ∈ used, usec < 2 ^ 63 := by
  induction hUses with
  | nil => simp
  | @cons instant used instants shown hUsed _ ih =>
      rw [List.forall_mem_cons]
      refine ⟨fun usec hSome => ?_, ih⟩
      cases hSome
      exact hUsed.1

/-- A Monitor for CPU asks for what the usage between one reading and the next calls for. The
utilisation that it computes from a difference, as a number without bounds, is the exact one
up to one part in 2^50. -/
theorem run_cpu (hCPU : setting.resource = .cpu cpu) (hPeriod : 0 < setting.collectionPeriod.toInt) {first : Nat}
    (hFirst : setting.UsesCPU instant (some first)) (hTicks : ∀ instant ∈ instants, setting.Ticks instant)
    (hUses : List.Forall₂ setting.UsesCPU instants shown) :
    run setting.step {} (instant :: instants) =
        some ⟨.ticking (Int64.ofNat (lastReading first shown)),
          (increments first shown).flatMap fun usec =>
            cpuDirection cpu (cpuUtilization64 (Int64.ofInt usec) setting.collectionPeriod)⟩ ∧
      ∀ usec ∈ increments first shown,
        Binary64.Within (1 / 2 ^ 50) (cpuUtilization64 (Int64.ofInt usec) setting.collectionPeriod)
          (exactUtilization setting.collectionPeriod usec) := by
  have hRead : instant.answer setting.describe (.readCPUUsage setting.containerID) = .ok (Int64.ofNat first) :=
    congrArg (Except.mapError setting.describe) (readCPUUsage_of_uses hFirst)
  have hStep : setting.step {} instant = some ⟨.ticking (Int64.ofNat first), []⟩ := by
    rw [Setting.step, if_neg (by simp), Setting.turn, hCPU]
    dsimp only [Resource.turnIn]
    rw [CPUResource.begin, Program.replay_perform, hRead]
    rfl
  refine ⟨?_, fun usec hMem =>
    within_exactUtilization hPeriod (increments_bounded hFirst.1 (fits_of_uses hUses) usec hMem)⟩
  rw [run, hStep, Option.bind_some, run_ticking hCPU hTicks hUses hFirst.1, List.nil_append]

end Runs

section Examples

/-- A text for the errors of the runs below, which nothing reads. -/
def describe : Fault → String := fun _ => "no such file"

/-- Limits of 1 and 2 MiB. -/
def smallContainer : Setting := ⟨describe, .memory ⟨1, 2⟩, ⟨true, [], 5⟩, "web.1", 1000000000⟩

/-- Limits of 20 and 80 %, and ticks once a second. -/
def busyContainer : Setting := ⟨describe, .cpu ⟨20, 80⟩, ⟨true, [], 5⟩, "web.1", 1000000000⟩

/-- The files of a container that has used so much. -/
def holding (bytes usec : Nat) : Files := fun path =>
  if path = memCurrentPath "web.1" then .ok (memoryCurrent bytes)
  else if path = cpuStatPath "web.1" then .ok (cpuStat [("usage_usec".toList, usec), ("user_usec".toList, usec)])
  else .error "no such file"

/-- An instant at which these files are there and every other operation succeeds. -/
def found (files : Files) : Instant := { files, answers := smoothly }

theorem ticks_of_received {setting : Setting} {files : Files} (hManager : setting.node.autoscalerManager = true) :
    setting.Ticks (found files) :=
  ⟨rfl, Or.inl hManager⟩

/-- At 2.5 MiB nothing is asked for, nor when the file is gone. -/
theorem run_memory_smallContainer :
    run smallContainer.step {} ([holding 0 0, holding (3 * 2 ^ 20) 0, holding (5 * 2 ^ 19) 0,
      fun _ => .error "gone", holding (2 ^ 19) 0].map found) = some ⟨.polling, ["over", "under"]⟩ := by
  have hUses : List.Forall₂ smallContainer.UsesMemory
      ([holding (3 * 2 ^ 20) 0, holding (5 * 2 ^ 19) 0, fun _ => .error "gone", holding (2 ^ 19) 0].map found)
      [some (3 * 2 ^ 20), some (5 * 2 ^ 19), none, some (2 ^ 19)] :=
    .cons ⟨by decide, rfl⟩ (.cons ⟨by decide, rfl⟩ (.cons ⟨_, rfl⟩ (.cons ⟨by decide, rfl⟩ .nil)))
  refine (run_memory rfl (fun instant hMem => ?_) hUses).trans rfl
  obtain ⟨files, _, rfl⟩ := List.mem_map.mp hMem
  exact ticks_of_received rfl

theorem uses_holding {bytes usec : Nat} (hFits : usec < 2 ^ 63) :
    busyContainer.UsesCPU (found (holding bytes usec)) (some usec) := by
  have hPaths : cpuStatPath "web.1" ≠ memCurrentPath "web.1" := by decide
  have hUsage : Key "usage_usec".toList := key_of_all rfl
  have hUser : Key "user_usec".toList := key_of_all rfl
  have hFile : holding bytes usec (cpuStatPath "web.1") =
      .ok (cpuStat [("usage_usec".toList, usec), ("user_usec".toList, usec)]) := by
    rw [holding, if_neg hPaths, if_pos rfl]
  refine ⟨hFits, [("usage_usec".toList, usec), ("user_usec".toList, usec)], fun stat hMem => ?_, hFile, rfl⟩
  rcases List.mem_pair.mp hMem with rfl | rfl
  · exact hUsage
  · exact hUser

/-- 90, 10 and 50 percent; the reading that fails is passed over. -/
theorem run_cpu_busyContainer :
    run busyContainer.step {} ([holding 0 1000000, holding 0 1900000, fun _ => .error "gone", holding 0 2000000,
      holding 0 2500000].map found) = some ⟨.ticking 2500000, ["over", "under"]⟩ := by
  have hUses : List.Forall₂ busyContainer.UsesCPU
      ([holding 0 1900000, fun _ => .error "gone", holding 0 2000000, holding 0 2500000].map found)
      [some 1900000, none, some 2000000, some 2500000] :=
    .cons (uses_holding (by decide)) (.cons ⟨_, rfl⟩
      (.cons (uses_holding (by decide)) (.cons (uses_holding (by decide)) .nil)))
  have hTicks : ∀ instant ∈ [holding 0 1900000, fun _ => .error "gone", holding 0 2000000, holding 0 2500000].map
      found, busyContainer.Ticks instant := by
    intro instant hMem
    obtain ⟨files, _, rfl⟩ := List.mem_map.mp hMem
    exact ticks_of_received rfl
  refine (run_cpu rfl (by decide) (uses_holding (by decide)) hTicks hUses).1.trans ?_
  decide +kernel

end Examples

end Cgroup

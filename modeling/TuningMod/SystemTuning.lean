/-
# `fDoSystemTuning` in the two programs

The daemon (`userspace`) and the stand-alone assessor (`assess-tuning`) read
the lines that `gdv.sh` or `gdv_100.sh` wrote, compare each value with the
recommended one, and run a `sysctl` command or keep it for the menu. The two
functions differ in the test that decides whether the maximum of a setting
with a minimum, a default and a maximum is looked at.

A copy past the 256 bytes of `setting` or `value`, a search that leaves the
line and an index outside `aStringval` have no outcome. The lines that are
only printed are left out. A script asks for at most ten settings, so that the
array of 100 commands is never full.

Key definitions: `Program.recommendNumber`, `Program.tuneLine`, `Program.fDoSystemTuning`, `SettingsFile`,
`SettingLine.Lags`.
Key theorems: `tuneLine_text`, `tuneLine_ahead`, `sameCommands_iff`.
-/
import TuningMod.UserConfig
import Mathlib.Data.List.Infix

namespace TuningMod

open KeyValues

/-! ### The recommended values -/

/-- A row of the tables. With a default of -1 there is only one value. -/
structure HostTuningVals where
  setting : String
  minimum : ℕ
  xDefault : ℤ
  maximum : ℕ
  deriving DecidableEq

def aStringval : List String := ["bbr", "fq", "htcp", "reno", "cubic", "getvalue"]

def aTuningNumsToUse10GandUnder : List HostTuningVals :=
  [⟨"net.core.rmem_max", 1147483647, -1, 0⟩,
    ⟨"net.core.wmem_max", 1147483647, -1, 0⟩,
    ⟨"net.ipv4.tcp_mtu_probing", 1, -1, 0⟩,
    ⟨"net.ipv4.tcp_available_congestion_control", 5, -1, 0⟩,
    ⟨"net.ipv4.tcp_congestion_control", 2, -1, 0⟩,
    ⟨"net.core.default_qdisc", 1, -1, 0⟩,
    ⟨"net.ipv4.tcp_rmem", 4096, 87380, 1147483647⟩,
    ⟨"net.ipv4.tcp_wmem", 4096, 65536, 1147483647⟩,
    ⟨"MTU", 0, 84, 0⟩]

def aTuningNumsToUseOver10GtoUnder100G : List HostTuningVals :=
  [⟨"net.core.rmem_max", 1147483647, -1, 0⟩,
    ⟨"net.core.wmem_max", 1147483647, -1, 0⟩,
    ⟨"net.ipv4.tcp_mtu_probing", 1, -1, 0⟩,
    ⟨"net.ipv4.tcp_available_congestion_control", 5, -1, 0⟩,
    ⟨"net.ipv4.tcp_congestion_control", 2, -1, 0⟩,
    ⟨"net.core.default_qdisc", 1, -1, 0⟩,
    ⟨"net.ipv4.tcp_rmem", 4096, 87380, 1147483647⟩,
    ⟨"net.ipv4.tcp_wmem", 4096, 65536, 1147483647⟩,
    ⟨"MTU", 0, 84, 0⟩]

def aTuningNumsToUse100Gb : List HostTuningVals :=
  [⟨"net.core.rmem_max", 1147483647, -1, 0⟩,
    ⟨"net.core.wmem_max", 1147483647, -1, 0⟩,
    ⟨"net.ipv4.tcp_mtu_probing", 1, -1, 0⟩,
    ⟨"net.ipv4.tcp_available_congestion_control", 5, -1, 0⟩,
    ⟨"net.ipv4.tcp_congestion_control", 2, -1, 0⟩,
    ⟨"net.core.default_qdisc", 1, -1, 0⟩,
    ⟨"net.ipv4.tcp_rmem", 4096, 87380, 1147483647⟩,
    ⟨"net.ipv4.tcp_wmem", 4096, 65536, 1147483647⟩,
    ⟨"net.core.netdev_max_backlog", 250000, -1, 0⟩,
    ⟨"net.ipv4.tcp_no_metrics_save", 1, -1, 0⟩,
    ⟨"MTU", 0, 84, 0⟩]

/-- `aTuningNumsToUse`, by the speed of the NIC in Mb/s. -/
def aTuningNumsToUse (netDeviceSpeed : ℤ) : List HostTuningVals :=
  if netDeviceSpeed ≤ 10000 then aTuningNumsToUse10GandUnder
  else if netDeviceSpeed < 100000 then aTuningNumsToUseOver10GtoUnder100G
  else aTuningNumsToUse100Gb

/-! ### The commands -/

/-- A value that a command sets. -/
inductive NewValue where
  | number (minimum : ℕ)
  | triple (minimum : ℕ) (xDefault : ℤ) (maximum : ℕ)
  | text (s : String)
  deriving DecidableEq

/-- What the two functions run: `sysctl -w`, the same with its output appended
to `/etc/sysctl.conf`, the comment before the first of these, and the commands
that look for htcp. -/
inductive SysctlCommand where
  | set (setting : String) (value : NewValue)
  | setPermanent (setting : String) (value : NewValue)
  | startOfModifications
  | modprobe
  | rmModprobeResult
  deriving DecidableEq

/-- What `modprobe tcp_htcp` leaves in its result file. -/
inductive ModprobeResult where
  | notOpened | printed | silent
  deriving DecidableEq

structure TuningEnv where
  netDeviceSpeed : ℤ
  gApplyDefSysTuning : UInt8 := 110
  gMakeTuningPermanent : UInt8 := 110
  modprobe : ModprobeResult := .silent

/-- The flags of the loop, the commands run, and `aApplyKernelDefTun2DArray`. -/
structure SysTuning where
  congestionControlRecommendedAvail : Bool := false
  vModifySysctlFile : Bool := false
  ran : List SysctlCommand := []
  saved : List SysctlCommand := []
  deriving DecidableEq

/-- Run the command, or save it in case the operator wants to apply it from the menu. -/
def SysTuning.apply (env : TuningEnv) (setting : String) (value : NewValue) (s : SysTuning) : SysTuning :=
  if env.gApplyDefSysTuning = 121 then
    if env.gMakeTuningPermanent = 121 then
      let start := if s.vModifySysctlFile then [] else [.startOfModifications]
      { s with
        vModifySysctlFile := true
        ran := s.ran ++ [.set setting value] ++ start ++ [.setPermanent setting value] }
    else { s with ran := s.ran ++ [.set setting value] }
  else { s with saved := s.saved ++ [.set setting value] }

/-- The command for a value, if one is recommended. -/
def SysTuning.applyOption (env : TuningEnv) (setting : String) (value : Option NewValue) (s : SysTuning) :
    SysTuning :=
  value.elim s fun value => s.apply env setting value

/-! ### The comparison with the current value -/

inductive Program where
  | daemon | standAlone
  deriving DecidableEq

/-- The test that decides whether the maximum is looked at. -/
def Program.examines (p : Program) (v : HostTuningVals) (intvalue : ℕ) : Bool :=
  match p with
  | daemon => intvalue ≤ v.minimum
  | standAlone => intvalue ≤ v.minimum || v.xDefault ≠ -1

/-- An `int` that is compared with an `unsigned int`. -/
def unsigned (n : ℤ) : ℕ := (n % 4294967296).toNat

/-- The next number in `value`, and what is behind it. -/
def nextNumber (value : List UInt8) : Option (List UInt8 × List UInt8) :=
  match value.dropWhile fun c => !isdigit c with
  | [] => none
  | c :: l => some ((c :: l).takeWhile isdigit, (c :: l).dropWhile isdigit)

/-- `min`, `def` and `max`. The zeros behind the text are searched too, so that
a missing number takes the search out of `value`. -/
def parseTriple (value : List UInt8) : Option (List UInt8 × List UInt8 × List UInt8) := do
  let (deflt, rest) ← nextNumber (value.dropWhile isdigit)
  let (max, _) ← nextNumber rest
  return (value.takeWhile isdigit, deflt, max)

/-- The recommendation for a value that starts with a digit. -/
def Program.recommendNumber (p : Program) (v : HostTuningVals) (value : List UInt8) : Option (Option NewValue) :=
  let intvalue := unsigned (atoiText value)
  if p.examines v intvalue then
    if v.xDefault = -1 then return if intvalue = v.minimum then none else some (.number v.minimum)
    else do
      let (_, _, max) ← parseTriple value
      let currmax := unsigned (atoiText max)
      return if v.maximum > currmax then some (.triple v.minimum v.xDefault v.maximum) else none
  else if v.xDefault = -1 then return none
  else do
    -- only the daemon comes here: it takes the triple apart to print it
    let _ ← parseTriple value
    return none

/-- The recommendation for a string. -/
def recommendString (env : TuningEnv) (v : HostTuningVals) (value : List UInt8) (s : SysTuning) :
    Option (SysTuning × Option NewValue) := do
  let recommended ← aStringval[v.minimum]?
  if value = bytes recommended then return (s, none)
  else if v.setting = "net.ipv4.tcp_available_congestion_control" then
    return ({ s with
      congestionControlRecommendedAvail := s.congestionControlRecommendedAvail || strstr (bytes "htcp") value }, none)
  else if v.setting = "net.ipv4.tcp_congestion_control" ∧ !s.congestionControlRecommendedAvail then
    match env.modprobe with
    | .notOpened => return ({ s with ran := s.ran ++ [.modprobe] }, none)
    | .printed => return ({ s with ran := s.ran ++ [.modprobe, .rmModprobeResult] }, none)
    | .silent => return ({ s with ran := s.ran ++ [.modprobe, .rmModprobeResult] }, some (.text recommended))
  else return (s, some (.text recommended))

/-- What `strncpy` and the terminator leave, if the array holds both. -/
def intoArray (l : List UInt8) : Option (List UInt8) := if l.length < 256 then some l else none

/-- One turn of the loop over the file. -/
def Program.tuneLine (p : Program) (env : TuningEnv) (s : SysTuning) (line : List UInt8) : Option SysTuning := do
  let (name, q) ← scanWhile (fun c => c ≠ 32) line
  let setting ← intoArray name
  match (aTuningNumsToUse env.netDeviceSpeed).find? fun v => bytes v.setting = setting with
  | none => return s
  | some v =>
    let (_, q) ← scanWhile (fun c => c ≠ 32) q.tail
    let (current, _) ← scanWhile (fun c => c ≠ 10) q.tail
    let value ← intoArray current
    if value.head?.any isdigit then
      let new ← p.recommendNumber v value
      return s.applyOption env v.setting new
    else
      let (s, new) ← recommendString env v value s
      return s.applyOption env v.setting new

def Program.fDoSystemTuning (p : Program) (env : TuningEnv) (s : SysTuning) (lines : List (List UInt8)) :
    Option SysTuning :=
  lines.foldlM (p.tuneLine env) s

/-- `my_tune_max`, which the daemon keeps for its tuner. -/
def myTuneMax (netDeviceSpeed : ℤ) (line : List UInt8) : Option ℕ := do
  let (setting, q) ← scanWhile (fun c => c ≠ 32) line
  let v ← (aTuningNumsToUse netDeviceSpeed).find? fun v => bytes v.setting = setting
  let (_, q) ← scanWhile (fun c => c ≠ 32) q.tail
  let (value, _) ← scanWhile (fun c => c ≠ 10) q.tail
  if value.head?.any isdigit ∧ v.xDefault ≠ -1 ∧ v.setting = "net.ipv4.tcp_wmem" then return v.maximum
  else none

/-- Whatever the file says, the tuner's bound is the recommended maximum. -/
theorem myTuneMax_eq {netDeviceSpeed : ℤ} {line : List UInt8} {n : ℕ} (h : myTuneMax netDeviceSpeed line = some n) :
    n = 1147483647 := by
  have htable : ∀ v ∈ aTuningNumsToUse netDeviceSpeed, v.setting = "net.ipv4.tcp_wmem" → v.maximum = 1147483647 := by
    unfold aTuningNumsToUse
    split_ifs <;> decide
  simp only [myTuneMax, Option.bind_eq_bind, Option.bind_eq_some_iff] at h
  obtain ⟨_, -, v, hv, _, -, q, -, h⟩ := h
  by_cases hw : q.1.head?.any isdigit ∧ v.xDefault ≠ -1 ∧ v.setting = "net.ipv4.tcp_wmem"
  · rw [if_pos hw] at h
    exact (Option.some.inj h).symm.trans (htable v (List.mem_of_find?_eq_some hv) hw.2.2)
  · rw [if_neg hw] at h
    exact absurd h.symm (Option.some_ne_none n)

/-! ### The settings file -/

/-- The settings the scripts ask for. -/
inductive GdvSetting where
  | rmemMax | wmemMax | availableCongestionControl | congestionControl | mtuProbing | defaultQdisc
  | tcpRmem | tcpWmem | netdevMaxBacklog | noMetricsSave
  deriving DecidableEq

namespace GdvSetting

def name : GdvSetting → String
  | rmemMax => "net.core.rmem_max"
  | wmemMax => "net.core.wmem_max"
  | availableCongestionControl => "net.ipv4.tcp_available_congestion_control"
  | congestionControl => "net.ipv4.tcp_congestion_control"
  | mtuProbing => "net.ipv4.tcp_mtu_probing"
  | defaultQdisc => "net.core.default_qdisc"
  | tcpRmem => "net.ipv4.tcp_rmem"
  | tcpWmem => "net.ipv4.tcp_wmem"
  | netdevMaxBacklog => "net.core.netdev_max_backlog"
  | noMetricsSave => "net.ipv4.tcp_no_metrics_save"

/-- The row of the tables, the same in each that has the setting. -/
def row : GdvSetting → HostTuningVals
  | rmemMax => ⟨"net.core.rmem_max", 1147483647, -1, 0⟩
  | wmemMax => ⟨"net.core.wmem_max", 1147483647, -1, 0⟩
  | availableCongestionControl => ⟨"net.ipv4.tcp_available_congestion_control", 5, -1, 0⟩
  | congestionControl => ⟨"net.ipv4.tcp_congestion_control", 2, -1, 0⟩
  | mtuProbing => ⟨"net.ipv4.tcp_mtu_probing", 1, -1, 0⟩
  | defaultQdisc => ⟨"net.core.default_qdisc", 1, -1, 0⟩
  | tcpRmem => ⟨"net.ipv4.tcp_rmem", 4096, 87380, 1147483647⟩
  | tcpWmem => ⟨"net.ipv4.tcp_wmem", 4096, 65536, 1147483647⟩
  | netdevMaxBacklog => ⟨"net.core.netdev_max_backlog", 250000, -1, 0⟩
  | noMetricsSave => ⟨"net.ipv4.tcp_no_metrics_save", 1, -1, 0⟩

/-- The settings with a minimum, a default and a maximum. -/
def isTriple (g : GdvSetting) : Bool := g = tcpRmem ∨ g = tcpWmem

/-- The settings that have a name for a value. -/
def isText (g : GdvSetting) : Bool :=
  g = availableCongestionControl ∨ g = congestionControl ∨ g = defaultQdisc

end GdvSetting

/-- `gdv.sh`. -/
def gdv : List GdvSetting :=
  [.rmemMax, .wmemMax, .availableCongestionControl, .congestionControl, .mtuProbing, .defaultQdisc, .tcpRmem, .tcpWmem]

/-- `gdv_100.sh`. -/
def gdv100 : List GdvSetting := gdv ++ [.netdevMaxBacklog, .noMetricsSave]

def script (netDeviceSpeed : ℤ) : List GdvSetting := if netDeviceSpeed < 100000 then gdv else gdv100

/-- What `sysctl` prints behind the equals sign. -/
inductive CurrentValue where
  | number (n : List UInt8)
  | triple (min deflt max : List UInt8)
  | text (s : List UInt8)
  deriving DecidableEq

namespace CurrentValue

def printed : CurrentValue → List UInt8
  | number n => n
  | triple min deflt max => min ++ 9 :: (deflt ++ 9 :: max)
  | text s => s

/-- The numbers are numerals, and a string is anything on one line. -/
def WellFormed : CurrentValue → Prop
  | number n => Numeral n
  | triple min deflt max => Numeral min ∧ Numeral deflt ∧ Numeral max
  | text s => ∀ c ∈ s, c ≠ 10 ∧ c ≠ 0

instance : DecidablePred WellFormed
  | number n => inferInstanceAs (Decidable (Numeral n))
  | triple min deflt max => inferInstanceAs (Decidable (Numeral min ∧ Numeral deflt ∧ Numeral max))
  | text s => decidable_of_iff (s.all (fun c => c ≠ 10 ∧ c ≠ 0) = true) (by simp [WellFormed, List.all_eq_true])

/-- The value is of the kind that the setting has. -/
def Fits (g : GdvSetting) : CurrentValue → Bool
  | number _ => !g.isTriple && !g.isText
  | triple .. => g.isTriple
  | text _ => g.isText

end CurrentValue

structure SettingLine where
  setting : GdvSetting
  value : CurrentValue
  wellFormed : value.WellFormed
  fits : value.Fits setting = true

def SettingLine.text (l : SettingLine) : List UInt8 :=
  bytes l.setting.name ++ (bytes " = " ++ (l.value.printed ++ [10]))

/-- The file after the script for the NIC has run. `sysctl` prints nothing for
a setting the kernel does not have. -/
structure SettingsFile (netDeviceSpeed : ℤ) where
  lines : List SettingLine
  ofScript : (lines.map fun l => l.setting).Sublist (script netDeviceSpeed)

/-- `value` holds the value of the line. -/
def SettingLine.Short (l : SettingLine) : Prop := l.value.printed.length < 256

instance (l : SettingLine) : Decidable l.Short := inferInstanceAs (Decidable (_ < _))

/-- The current minimum is above the recommended one, the current maximum
below. -/
def SettingLine.Lags (l : SettingLine) : Prop :=
  match l.value with
  | .triple min _ max => 4096 < unsigned (atoiText min) ∧ unsigned (atoiText max) < 1147483647
  | _ => False

/-- Both programs get through the file with the same commands. -/
def SameCommands (env : TuningEnv) (file : SettingsFile env.netDeviceSpeed) : Prop :=
  ∃ s s', Program.daemon.fDoSystemTuning env {} (file.lines.map SettingLine.text) = some s ∧
    Program.standAlone.fDoSystemTuning env {} (file.lines.map SettingLine.text) = some s' ∧
    s.ran = s'.ran ∧ s.saved = s'.saved

/-! ### One line -/

section Line

variable {p : Program} {env : TuningEnv} {s : SysTuning} {g : GdvSetting} {v : HostTuningVals} {l : SettingLine}
  {min deflt max value : List UInt8}

theorem find_row (h : g ∈ script env.netDeviceSpeed) :
    ((aTuningNumsToUse env.netDeviceSpeed).find? fun v => bytes v.setting = bytes g.name) = some g.row := by
  have hsmall : ∀ g ∈ gdv, (aTuningNumsToUse10GandUnder.find? fun v => bytes v.setting = bytes g.name) = some g.row ∧
      (aTuningNumsToUseOver10GtoUnder100G.find? fun v => bytes v.setting = bytes g.name) = some g.row := by decide
  have hlarge : ∀ g ∈ gdv100, (aTuningNumsToUse100Gb.find? fun v => bytes v.setting = bytes g.name) = some g.row := by
    decide
  unfold script at h
  unfold aTuningNumsToUse
  by_cases hspeed : env.netDeviceSpeed < 100000
  · rw [if_pos hspeed] at h
    split_ifs
    · exact (hsmall g h).1
    · exact (hsmall g h).2
  · rw [if_neg hspeed] at h
    rw [if_neg (by omega), if_neg hspeed]
    exact hlarge g h

theorem row_setting (g : GdvSetting) : g.row.setting = g.name := by cases g <;> rfl

theorem name_short (g : GdvSetting) : (bytes g.name).length < 256 ∧ ∀ c ∈ bytes g.name, (c ≠ 32 : Bool) = true := by
  have hname : (bytes g.name).length < 256 ∧ ((bytes g.name).all fun c => c ≠ 32) = true := by
    cases g <;> decide
  exact ⟨hname.1, List.all_eq_true.mp hname.2⟩

theorem not_newline_of_isdigit {c : UInt8} (h : isdigit c = true) : c ≠ 10 := by
  rintro rfl
  exact absurd h (by decide)

/-- What is printed has no newline in it. -/
theorem printed_newline (l : SettingLine) : ∀ c ∈ l.value.printed, (c ≠ 10 : Bool) = true := by
  have hwf := l.wellFormed
  intro c hc
  apply decide_eq_true
  cases hv : l.value with
  | number n =>
    rw [hv] at hwf hc
    exact not_newline_of_isdigit (hwf.2 c hc)
  | text s =>
    rw [hv] at hwf hc
    exact (hwf c hc).1
  | triple min deflt max =>
    rw [hv] at hwf hc
    obtain ⟨hmin, hdeflt, hmax⟩ := hwf
    simp only [CurrentValue.printed, List.mem_append, List.mem_cons] at hc
    rcases hc with hc | rfl | hc | rfl | hc
    · exact not_newline_of_isdigit (hmin.2 c hc)
    · decide
    · exact not_newline_of_isdigit (hdeflt.2 c hc)
    · decide
    · exact not_newline_of_isdigit (hmax.2 c hc)

/-- **A line, once it is cut.** -/
theorem tuneLine_text (h : l.setting ∈ script env.netDeviceSpeed) : p.tuneLine env s l.text =
    if l.Short then
      if l.value.printed.head?.any isdigit then
        (p.recommendNumber l.setting.row l.value.printed).map fun new => s.applyOption env l.setting.name new
      else (recommendString env l.setting.row l.value.printed s).map fun (s, new) =>
        s.applyOption env l.setting.name new
    else none := by
  have hname := name_short l.setting
  have hscan : scanWhile (fun c => (c ≠ 32 : Bool)) l.text =
      some (bytes l.setting.name, 32 :: 61 :: 32 :: (l.value.printed ++ [10])) :=
    scanWhile_append hname.2 (by decide) _
  have hequals : scanWhile (fun c => (c ≠ 32 : Bool)) (61 :: 32 :: (l.value.printed ++ [10])) =
      some ([61], 32 :: (l.value.printed ++ [10])) := rfl
  have hvalue : scanWhile (fun c => (c ≠ 10 : Bool)) (l.value.printed ++ [10]) = some (l.value.printed, [10]) :=
    scanWhile_append (printed_newline l) (by decide) _
  have hsetting : intoArray (bytes l.setting.name) = some (bytes l.setting.name) := if_pos hname.1
  unfold Program.tuneLine
  rw [hscan]
  simp only [Option.bind_eq_bind, Option.bind_some, hsetting, find_row h, List.tail_cons, hequals, hvalue,
    row_setting]
  by_cases hshort : l.Short
  · have hfits : intoArray l.value.printed = some l.value.printed := if_pos hshort
    rw [if_pos hshort, hfits, Option.bind_some]
    by_cases hd : l.value.printed.head?.any isdigit = true
    · rw [if_pos hd, if_pos hd]
      cases p.recommendNumber l.setting.row l.value.printed <;> rfl
    · rw [if_neg hd, if_neg hd]
      cases recommendString env l.setting.row l.value.printed s <;> rfl
  · have hfits : intoArray l.value.printed = none := if_neg hshort
    rw [if_neg hshort, hfits, Option.bind_none]

/-- With one value the two programs recommend the same. -/
theorem recommendNumber_single (hv : v.xDefault = -1) : p.recommendNumber v value = some
    (if unsigned (atoiText value) < v.minimum then some (.number v.minimum) else none) := by
  have hexamines : p.examines v (unsigned (atoiText value)) = decide (unsigned (atoiText value) ≤ v.minimum) := by
    cases p <;> simp [Program.examines, hv]
  unfold Program.recommendNumber
  dsimp only
  rw [hexamines]
  by_cases hle : unsigned (atoiText value) ≤ v.minimum
  · by_cases heq : unsigned (atoiText value) = v.minimum
    · simp [hv, heq]
    · have hlt : unsigned (atoiText value) < v.minimum := by omega
      simp [hv, hle, heq, hlt]
  · have hnot : ¬ unsigned (atoiText value) < v.minimum := by omega
    simp [hv, hle, hnot]

theorem nextNumber_tab (hd : Numeral deflt) {rest : List UInt8} (hr : rest.head?.any isdigit = false) :
    nextNumber (9 :: (deflt ++ rest)) = some (deflt, rest) := by
  obtain ⟨c, l, rfl⟩ := List.exists_cons_of_ne_nil hd.1
  have hc : isdigit c = true := hd.2 c List.mem_cons_self
  have htake : (c :: l ++ rest).takeWhile isdigit = c :: l := by
    rw [List.takeWhile_append_of_pos hd.2]
    cases rest with
    | nil => simp
    | cons r rest => simpa using hr
  have hdrop : (c :: l ++ rest).dropWhile isdigit = rest := by
    rw [List.dropWhile_append_of_pos hd.2]
    cases rest with
    | nil => rfl
    | cons r rest =>
      have hrd : isdigit r = false := hr
      simp [hrd]
  have hskip : (9 :: (c :: l ++ rest)).dropWhile (fun c => !isdigit c) = c :: (l ++ rest) := by
    simp [hc, show isdigit 9 = false from rfl]
  unfold nextNumber
  rw [hskip]
  exact congrArg some (Prod.ext htake hdrop)

theorem parseTriple_printed (hmin : Numeral min) (hd : Numeral deflt) (hmax : Numeral max) :
    parseTriple (min ++ 9 :: (deflt ++ 9 :: max)) = some (min, deflt, max) := by
  have htake : (min ++ 9 :: (deflt ++ 9 :: max)).takeWhile isdigit = min := by
    rw [List.takeWhile_append_of_pos hmin.2]
    simp [show isdigit 9 = false from rfl]
  have hdrop : (min ++ 9 :: (deflt ++ 9 :: max)).dropWhile isdigit = 9 :: (deflt ++ 9 :: max) := by
    rw [List.dropWhile_append_of_pos hmin.2]
    rfl
  have hlast : nextNumber (9 :: (max ++ [])) = some (max, []) := nextNumber_tab hmax rfl
  rw [List.append_nil] at hlast
  unfold parseTriple
  rw [hdrop, nextNumber_tab hd rfl]
  simp only [Option.bind_eq_bind, Option.bind_some, hlast, htake]
  rfl

/-- `atoi` reads the first of the three numbers. -/
theorem atoiText_printed (hmin : Numeral min) (rest : List UInt8) : atoiText (min ++ 9 :: rest) = atoiText min := by
  obtain ⟨c, l, rfl⟩ := List.exists_cons_of_ne_nil hmin.1
  have hc : isdigit c = true := hmin.2 c List.mem_cons_self
  have hspace : isspace c = false := not_isspace_of_isalnum (by simp [isalnum, hc])
  have hsign : c ≠ 45 ∧ c ≠ 43 := by
    constructor <;> rintro rfl <;> exact absurd hc (by decide)
  have htake : (c :: l ++ 9 :: rest).takeWhile isdigit = (c :: l).takeWhile isdigit := by
    rw [List.takeWhile_append_of_pos hmin.2, List.takeWhile_eq_self_iff.mpr hmin.2]
    simp [show isdigit 9 = false from rfl]
  have hdigits : digitsAt (c :: l ++ 9 :: rest) = digitsAt (c :: l) := by rw [digitsAt, digitsAt, htake]
  unfold atoiText strtol
  simp only [List.cons_append, List.dropWhile_cons, hspace, Bool.false_eq_true, if_false, List.head?_cons,
    Option.some.injEq, hsign.1, hsign.2] at hdigits ⊢
  rw [hdigits]

/-- With three values the stand-alone assessor looks at the maximum whatever
the minimum is, the daemon only below the recommended minimum. -/
theorem recommendNumber_triple (hv : v.xDefault ≠ -1) (hmin : Numeral min) (hd : Numeral deflt) (hmax : Numeral max) :
    p.recommendNumber v (min ++ 9 :: (deflt ++ 9 :: max)) = some
      (if (p = .standAlone ∨ unsigned (atoiText min) ≤ v.minimum) ∧ unsigned (atoiText max) < v.maximum then
        some (.triple v.minimum v.xDefault v.maximum) else none) := by
  unfold Program.recommendNumber
  dsimp only
  rw [atoiText_printed hmin, parseTriple_printed hmin hd hmax]
  cases p with
  | daemon =>
    by_cases hle : unsigned (atoiText min) ≤ v.minimum
    · simp [Program.examines, hv, hle]
    · simp [Program.examines, hv, hle]
  | standAlone => simp [Program.examines, hv]

end Line

/-! ### The two programs side by side -/

def SysctlCommand.isSet : SysctlCommand → Bool
  | set .. => true
  | _ => false

namespace SysTuning

/-- The number of settings changed, now or from the menu. -/
def sets (s : SysTuning) : ℕ := s.ran.countP SysctlCommand.isSet + s.saved.countP SysctlCommand.isSet

variable {env : TuningEnv} {setting : String} {value : NewValue} {new : Option NewValue} {s s' t : SysTuning}
  {v : HostTuningVals} {text : List UInt8}

@[simp] theorem applyOption_avail : (s.applyOption env setting new).congestionControlRecommendedAvail =
    s.congestionControlRecommendedAvail := by
  unfold applyOption apply
  cases new with
  | none => rfl
  | some value =>
    simp only [Option.elim_some]
    split_ifs <;> rfl

/-- A recommendation is one command more, whichever list it goes to. -/
theorem applyOption_sets : (s.applyOption env setting new).sets = s.sets + if new.isSome then 1 else 0 := by
  unfold applyOption apply sets
  cases new with
  | none => rfl
  | some value =>
    simp only [Option.elim_some, Option.isSome_some, if_true]
    split_ifs <;> simp [List.countP_cons, SysctlCommand.isSet] <;> omega

/-- Strings are handled by the flag alone, and change no setting on the way. -/
theorem recommendString_alike (havail : s.congestionControlRecommendedAvail = s'.congestionControlRecommendedAvail)
    (h : recommendString env v text s = some (t, new)) : ∃ t', recommendString env v text s' = some (t', new) ∧
      t.congestionControlRecommendedAvail = t'.congestionControlRecommendedAvail ∧
      t.sets = s.sets ∧ t'.sets = s'.sets := by
  unfold recommendString at h ⊢
  rw [havail] at h
  cases hr : aStringval[v.minimum]? with
  | none => simp [hr] at h
  | some recommended =>
    simp only [hr, Option.bind_eq_bind, Option.bind_some] at h ⊢
    have hstep : ∀ {x y : SysTuning × Option NewValue}, (pure x : Option (SysTuning × Option NewValue)) = some y →
        x = y := Option.some.inj
    split_ifs at h ⊢ with h1 h2 h3
    · obtain ⟨rfl, rfl⟩ := Prod.mk.inj (hstep h)
      exact ⟨s', rfl, havail, rfl, rfl⟩
    · obtain ⟨rfl, rfl⟩ := Prod.mk.inj (hstep h)
      exact ⟨_, rfl, rfl, rfl, rfl⟩
    · cases hm : env.modprobe <;> rw [hm] at h <;> obtain ⟨rfl, rfl⟩ := Prod.mk.inj (hstep h) <;>
        exact ⟨_, rfl, rfl, by simp [sets, SysctlCommand.isSet], by simp [sets, SysctlCommand.isSet]⟩
    · obtain ⟨rfl, rfl⟩ := Prod.mk.inj (hstep h)
      exact ⟨s', rfl, havail, rfl, rfl⟩

/-- A string has an outcome if there is a name to compare it with. -/
theorem recommendString_some (h : ∃ r, aStringval[v.minimum]? = some r) :
    ∃ t new, recommendString env v text s = some (t, new) := by
  obtain ⟨r, hr⟩ := h
  unfold recommendString
  simp only [hr, Option.bind_eq_bind, Option.bind_some]
  split_ifs
  · exact ⟨_, _, rfl⟩
  · exact ⟨_, _, rfl⟩
  · cases env.modprobe <;> exact ⟨_, _, rfl⟩
  · exact ⟨_, _, rfl⟩

end SysTuning

instance (l : SettingLine) : Decidable l.Lags := by
  unfold SettingLine.Lags
  cases l.value <;> infer_instance

/-- The stand-alone assessor is `k` commands ahead. -/
structure Ahead (k : ℕ) (s s' : SysTuning) : Prop where
  avail : s.congestionControlRecommendedAvail = s'.congestionControlRecommendedAvail
  sets : s'.sets = s.sets + k

section Side

variable {env : TuningEnv} {s s' : SysTuning} {l : SettingLine} {k : ℕ}

/-- A setting of the scripts has one value unless it is a triple. -/
theorem row_single {g : GdvSetting} (hg : g.isTriple = false) : g.row.xDefault = -1 := by
  cases g <;> first | rfl | exact absurd hg (by decide)

theorem row_triple {g : GdvSetting} (hg : g.isTriple = true) :
    g.row.xDefault ≠ -1 ∧ g.row.minimum = 4096 ∧ g.row.maximum = 1147483647 := by
  cases g <;> first | exact absurd hg (by decide) | decide

theorem isTriple_of_isText {g : GdvSetting} (hg : g.isText = true) : g.isTriple = false := by
  cases g <;> first | rfl | exact absurd hg (by decide)

/-- For a string there is a name in `aStringval`. -/
theorem row_text {g : GdvSetting} (hg : g.isText = true) : ∃ r, aStringval[g.row.minimum]? = some r := by
  cases g <;> first | exact absurd hg (by decide) | exact ⟨_, rfl⟩

/-- On a line without three values the two programs do the same. -/
theorem tuneLine_single (h : l.setting ∈ script env.netDeviceSpeed) (hg : l.setting.isTriple = false) :
    Program.daemon.tuneLine env s l.text = Program.standAlone.tuneLine env s l.text := by
  rw [tuneLine_text h, tuneLine_text h, recommendNumber_single (row_single hg), recommendNumber_single (row_single hg)]

theorem Ahead.applyOption (h : Ahead k s s') {setting : String} {new new' : Option NewValue} {d : ℕ}
    (hnew : (if new'.isSome then 1 else 0) = (if new.isSome then 1 else 0) + d) :
    Ahead (k + d) (s.applyOption env setting new) (s'.applyOption env setting new') where
  avail := by rw [SysTuning.applyOption_avail, SysTuning.applyOption_avail, h.avail]
  sets := by
    rw [SysTuning.applyOption_sets, SysTuning.applyOption_sets, h.sets, hnew]
    omega

theorem value_triple (hg : l.setting.isTriple = true) : ∃ min deflt max, l.value = .triple min deflt max := by
  have hfits := l.fits
  cases hv : l.value with
  | triple min deflt max => exact ⟨min, deflt, max, rfl⟩
  | number n => simp [hv, CurrentValue.Fits, hg] at hfits
  | text s₀ =>
    rw [hv] at hfits
    rw [isTriple_of_isText hfits] at hg
    exact absurd hg Bool.false_ne_true

theorem not_lags_single (hg : l.setting.isTriple = false) : ¬ l.Lags := by
  have hfits := l.fits
  unfold SettingLine.Lags
  cases hv : l.value with
  | triple min deflt max =>
    rw [hv] at hfits
    exact absurd (hfits.symm.trans hg) Bool.false_ne_true.symm
  | number n => exact not_false
  | text s₀ => exact not_false

/-- On a line with three values. -/
theorem tuneLine_triple {p : Program} {min deflt max : List UInt8} (hl : l.setting ∈ script env.netDeviceSpeed)
    (hv : l.value = .triple min deflt max) : p.tuneLine env s l.text =
    if l.Short then some (s.applyOption env l.setting.name
      (if (p = .standAlone ∨ unsigned (atoiText min) ≤ 4096) ∧ unsigned (atoiText max) < 1147483647 then
        some (.triple 4096 l.setting.row.xDefault 1147483647) else none))
    else none := by
  have hwf := l.wellFormed
  have hfits := l.fits
  rw [hv] at hwf hfits
  obtain ⟨hmin, hd, hmax⟩ := hwf
  obtain ⟨hdeflt, hminimum, hmaximum⟩ := row_triple hfits
  have hdigit : (l.value.printed.head?.any isdigit) = true := by
    obtain ⟨c, rest, rfl⟩ := List.exists_cons_of_ne_nil hmin.1
    rw [hv]
    exact hmin.2 c List.mem_cons_self
  rw [tuneLine_text hl, if_pos hdigit, hv, CurrentValue.printed, recommendNumber_triple hdeflt hmin hd hmax,
    hminimum, hmaximum, Option.map_some]

/-- A line without three values leaves the stand-alone assessor as far ahead
as it was. -/
theorem tuneLine_ahead_single (hl : l.setting ∈ script env.netDeviceSpeed) (hshort : l.Short)
    (hg : l.setting.isTriple = false) (h : Ahead k s s') : ∃ t t', Program.daemon.tuneLine env s l.text = some t ∧
      Program.standAlone.tuneLine env s' l.text = some t' ∧ Ahead k t t' := by
  rw [tuneLine_text hl, tuneLine_text hl, if_pos hshort, if_pos hshort, recommendNumber_single (row_single hg),
    recommendNumber_single (row_single hg)]
  by_cases hdigit : (l.value.printed.head?.any isdigit) = true
  · rw [if_pos hdigit, if_pos hdigit]
    exact ⟨_, _, rfl, rfl, h.applyOption (d := 0) rfl⟩
  · have hfits := l.fits
    have hwf := l.wellFormed
    have htext : l.setting.isText = true := by
      cases hv : l.value with
      | text s₀ =>
        rw [hv] at hfits
        exact hfits
      | triple min deflt max =>
        rw [hv] at hfits
        exact absurd (hfits.symm.trans hg) Bool.false_ne_true.symm
      | number n =>
        rw [hv] at hwf hdigit
        obtain ⟨c, rest, rfl⟩ := List.exists_cons_of_ne_nil hwf.1
        exact absurd (hwf.2 c List.mem_cons_self) hdigit
    obtain ⟨t, new, ht⟩ := SysTuning.recommendString_some (row_text htext)
    obtain ⟨t', ht', havail, hsets, hsets'⟩ := SysTuning.recommendString_alike h.avail ht
    have hahead : Ahead k t t' := ⟨havail, by rw [hsets', hsets, h.sets]⟩
    rw [if_neg hdigit, if_neg hdigit, ht, ht']
    exact ⟨_, _, rfl, rfl, hahead.applyOption (d := 0) rfl⟩

/-- **One line.** It puts the stand-alone assessor one command ahead if the
daemon's guard hides its maximum, and no further otherwise. -/
theorem tuneLine_ahead (hl : l.setting ∈ script env.netDeviceSpeed) (hshort : l.Short) (h : Ahead k s s') :
    ∃ t t', Program.daemon.tuneLine env s l.text = some t ∧ Program.standAlone.tuneLine env s' l.text = some t' ∧
      Ahead (k + if l.Lags then 1 else 0) t t' := by
  by_cases hg : l.setting.isTriple = true
  · obtain ⟨min, deflt, max, hv⟩ := value_triple hg
    have hlags : l.Lags ↔ 4096 < unsigned (atoiText min) ∧ unsigned (atoiText max) < 1147483647 := by
      rw [SettingLine.Lags, hv]
    rw [tuneLine_triple hl hv, tuneLine_triple hl hv, if_pos hshort, if_pos hshort]
    refine ⟨_, _, rfl, rfl, h.applyOption ?_⟩
    by_cases hle : unsigned (atoiText min) ≤ 4096
    · have hnot : ¬ 4096 < unsigned (atoiText min) := by omega
      simp [hlags, hle, hnot]
    · have hlt : 4096 < unsigned (atoiText min) := by omega
      by_cases hm : unsigned (atoiText max) < 1147483647 <;> simp [hlags, hle, hlt, hm]
  · have hsingle : l.setting.isTriple = false := Bool.not_eq_true _ ▸ hg
    rw [if_neg (not_lags_single hsingle)]
    exact tuneLine_ahead_single hl hshort hsingle h

/-- Two programs that are level do the same with a line that does not lag. -/
theorem tuneLine_eq (hl : l.setting ∈ script env.netDeviceSpeed) (h : ¬ l.Lags) :
    Program.daemon.tuneLine env s l.text = Program.standAlone.tuneLine env s l.text := by
  by_cases hg : l.setting.isTriple = true
  · obtain ⟨min, deflt, max, hv⟩ := value_triple hg
    rw [SettingLine.Lags, hv, not_and] at h
    rw [tuneLine_triple hl hv, tuneLine_triple hl hv]
    by_cases hle : unsigned (atoiText min) ≤ 4096
    · simp [hle]
    · have hge := h (by omega)
      simp [hge]
  · exact tuneLine_single hl (Bool.not_eq_true _ ▸ hg)

end Side

/-! ### The whole file -/

section File

variable {p : Program} {env : TuningEnv} {s s' t : SysTuning} {lines : List SettingLine} {k : ℕ}

theorem fDoSystemTuning_cons (line : List UInt8) (rest : List (List UInt8)) : p.fDoSystemTuning env s (line :: rest) =
    (p.tuneLine env s line).bind fun u => p.fDoSystemTuning env u rest := by
  rw [Program.fDoSystemTuning, List.foldlM_cons]
  rfl

/-- A program that gets through the file had room for every value. -/
theorem short_of_some (hl : ∀ l ∈ lines, l.setting ∈ script env.netDeviceSpeed)
    (h : p.fDoSystemTuning env s (lines.map SettingLine.text) = some t) : ∀ l ∈ lines, l.Short := by
  induction lines generalizing s with
  | nil => simp
  | cons l lines ih =>
    rw [List.map_cons, fDoSystemTuning_cons] at h
    obtain ⟨u, hu, hrest⟩ := Option.bind_eq_some_iff.mp h
    have hshort : l.Short := by
      by_contra hlong
      rw [tuneLine_text (hl l List.mem_cons_self), if_neg hlong] at hu
      exact absurd hu (Option.some_ne_none u).symm
    have htail := ih (fun m hm => hl m (List.mem_cons_of_mem l hm)) hrest
    intro m hm
    rcases List.mem_cons.mp hm with rfl | hm
    · exact hshort
    · exact htail m hm

/-- At the end the stand-alone assessor is ahead by the lines that lag. -/
theorem fDoSystemTuning_ahead (hl : ∀ l ∈ lines, l.setting ∈ script env.netDeviceSpeed) (hshort : ∀ l ∈ lines, l.Short)
    (h : Ahead k s s') : ∃ t t', Program.daemon.fDoSystemTuning env s (lines.map SettingLine.text) = some t ∧
      Program.standAlone.fDoSystemTuning env s' (lines.map SettingLine.text) = some t' ∧
      Ahead (k + lines.countP fun l => l.Lags) t t' := by
  induction lines generalizing s s' k with
  | nil => exact ⟨s, s', rfl, rfl, h⟩
  | cons l lines ih =>
    obtain ⟨u, u', hu, hu', hahead⟩ := tuneLine_ahead (hl l List.mem_cons_self) (hshort l List.mem_cons_self) h
    obtain ⟨t, t', ht, ht', hend⟩ := ih (fun m hm => hl m (List.mem_cons_of_mem l hm))
      (fun m hm => hshort m (List.mem_cons_of_mem l hm)) hahead
    simp only [List.map_cons, fDoSystemTuning_cons]
    refine ⟨t, t', Option.bind_eq_some_iff.mpr ⟨u, hu, ht⟩, Option.bind_eq_some_iff.mpr ⟨u', hu', ht'⟩, ?_⟩
    have hcount : k + (l :: lines).countP (fun l => l.Lags) =
        (k + if l.Lags then 1 else 0) + lines.countP fun l => l.Lags := by
      rw [List.countP_cons]
      simp only [decide_eq_true_eq]
      omega
    rwa [hcount]

/-- Without a line that lags the two programs go through the same states. -/
theorem fDoSystemTuning_eq (hl : ∀ l ∈ lines, l.setting ∈ script env.netDeviceSpeed) (h : ∀ l ∈ lines, ¬ l.Lags) :
    Program.daemon.fDoSystemTuning env s (lines.map SettingLine.text) =
      Program.standAlone.fDoSystemTuning env s (lines.map SettingLine.text) := by
  induction lines generalizing s with
  | nil => simp only [Program.fDoSystemTuning, List.map_nil, List.foldlM_nil]
  | cons l lines ih =>
    rw [List.map_cons, fDoSystemTuning_cons, fDoSystemTuning_cons,
      tuneLine_eq (hl l List.mem_cons_self) (h l List.mem_cons_self)]
    refine congrArg (Option.bind _) (funext fun u => ?_)
    exact ih (fun m hm => hl m (List.mem_cons_of_mem l hm)) fun m hm => h m (List.mem_cons_of_mem l hm)

end File

section Same

variable {env : TuningEnv} {file : SettingsFile env.netDeviceSpeed}

theorem setting_mem (file : SettingsFile env.netDeviceSpeed) :
    ∀ l ∈ file.lines, l.setting ∈ script env.netDeviceSpeed :=
  fun _ hl => file.ofScript.subset (List.mem_map_of_mem hl)

theorem level : Ahead 0 {} {} := ⟨rfl, rfl⟩

theorem SameCommands.short (h : SameCommands env file) : ∀ l ∈ file.lines, l.Short := by
  obtain ⟨s, s', hs, -⟩ := h
  exact short_of_some (setting_mem file) hs

/-- A line that lags would leave the stand-alone assessor ahead. -/
theorem SameCommands.not_lags (h : SameCommands env file) : ∀ l ∈ file.lines, ¬ l.Lags := by
  have hshort := h.short
  obtain ⟨s, s', hs, hs', hran, hsaved⟩ := h
  obtain ⟨t, t', ht, ht', hahead⟩ := fDoSystemTuning_ahead (setting_mem file) hshort level
  obtain rfl : s = t := Option.some.inj (hs.symm.trans ht)
  obtain rfl : s' = t' := Option.some.inj (hs'.symm.trans ht')
  have hsets : s'.sets = s.sets := by rw [SysTuning.sets, SysTuning.sets, hran, hsaved]
  have hzero : file.lines.countP (fun l => l.Lags) = 0 := by
    have := hahead.sets
    omega
  intro l hl
  simpa using List.countP_eq_zero.mp hzero l hl

theorem sameCommands_of_not_lags (hshort : ∀ l ∈ file.lines, l.Short) (h : ∀ l ∈ file.lines, ¬ l.Lags) :
    SameCommands env file := by
  obtain ⟨t, t', ht, -, -⟩ := fDoSystemTuning_ahead (setting_mem file) hshort level
  exact ⟨t, t, ht, by rw [← fDoSystemTuning_eq (setting_mem file) h, ht], rfl, rfl⟩

end Same

/-- **Exactly when the two programs agree.** Every value fits in its array, and
no setting with three values has its minimum above and its maximum below the
recommended one. -/
theorem sameCommands_iff (env : TuningEnv) (file : SettingsFile env.netDeviceSpeed) :
    SameCommands env file ↔ (∀ l ∈ file.lines, l.Short) ∧ ∀ l ∈ file.lines, ¬ l.Lags :=
  ⟨fun h => ⟨h.short, h.not_lags⟩, fun h => sameCommands_of_not_lags h.1 h.2⟩

/-- A kernel whose `tcp_wmem` has a minimum above 4096. -/
def currentConfig : SettingsFile 10000 where
  lines :=
    [⟨.rmemMax, .number (bytes "1147483647"), by decide, rfl⟩,
      ⟨.wmemMax, .number (bytes "1147483647"), by decide, rfl⟩,
      ⟨.availableCongestionControl, .text (bytes "reno cubic htcp"), by decide, rfl⟩,
      ⟨.congestionControl, .text (bytes "htcp"), by decide, rfl⟩,
      ⟨.mtuProbing, .number (bytes "1"), by decide, rfl⟩,
      ⟨.defaultQdisc, .text (bytes "fq"), by decide, rfl⟩,
      ⟨.tcpRmem, .triple (bytes "4096") (bytes "87380") (bytes "1147483647"), by decide, rfl⟩,
      ⟨.tcpWmem, .triple (bytes "8192") (bytes "65536") (bytes "4194304"), by decide, rfl⟩]
  ofScript := by decide

/-- The stand-alone assessor raises the maximum, the daemon does not. -/
theorem not_sameCommands : ¬ SameCommands { netDeviceSpeed := 10000 } currentConfig := by
  intro h
  exact absurd h.not_lags (by decide)

end TuningMod

/-
# The assessment at the start

`user_assess` goes through the settings of the kernel, of the BIOS and of the
NIC. Each of the three recommends commands: it runs them if the configuration
says `y`, and else keeps them in an array. At the end an array with something in
it becomes a file, the number of its lines first, and the file of an empty one is
removed.

`modprobe tcp_htcp` and the file with its result are in the log of the commands,
and their outcome is in the environment: the machine here does not run them. The
queue length, the offloads, the queueing discipline, the flow control and the
affinity of the interrupts are compiled out or commented out, and what
`fDoShowChannels` reads is kept for the tuner. A copy past an array and a search
that leaves its line have no outcome.

Key definitions: `SysctlCommand.texts`, `fDoCpuPerformance`, `fDoIrqBalance`, `fDoMTU`, `Assessment.userAssess`.
Key theorems: `tuneLine_mirrors`, `Assessment.kernel_mirrors`, `Assessment.bios_mirrors`, `Assessment.nic_mirrors`.
-/
import TuningMod.RingBufferSize
import TuningMod.Numerals
import TuningMod.Lib.Runs
import TuningMod.Lib.Search
import TuningMod.Lib.Shell

namespace TuningMod

open KeyValues Shell

/-! ### The commands as texts -/

/-- `%d`. -/
def iText (x : ℤ) : List UInt8 := if x < 0 then 45 :: uText x.natAbs else uText x.natAbs

def NewValue.printed : NewValue → List UInt8
  | number minimum => uText minimum
  | triple minimum xDefault maximum => 34 :: (uText minimum ++ 32 :: (iText xDefault ++ 32 :: uText maximum) ++ [34])
  | text s => bytes s

def sysctlConf : List UInt8 := bytes "/etc/sysctl.conf"

def startText : List UInt8 := bytes "echo \"#Start of tuningMod modifications\" >> /etc/sysctl.conf"

def endText : List UInt8 := bytes "echo \"#End of tuningMod modifications\" >> /etc/sysctl.conf"

/-- What `system` gets, but for the commands that look for htcp. -/
def SysctlCommand.texts : SysctlCommand → List (List UInt8)
  | set setting value => [bytes "sysctl -w " ++ (bytes setting ++ 61 :: value.printed)]
  | setPermanent setting value =>
    [bytes "sysctl -w " ++ (bytes setting ++ 61 :: value.printed) ++ bytes " >> /etc/sysctl.conf"]
  | startOfModifications => [startText]
  | modprobe => []
  | rmModprobeResult => []

/-! ### BIOS and NIC -/

/-- The commands run, and an array of commands that are kept. -/
structure Recommended where
  ran : List (List UInt8) := []
  saved : List (List UInt8) := []
  deriving DecidableEq

/-- Run the command, or save it in case the operator wants to apply it from the menu. -/
def Recommended.apply (flag : UInt8) (command : List UInt8) (r : Recommended) : Recommended :=
  if flag = 121 then { r with ran := r.ran ++ [command] } else { r with saved := r.saved ++ [command] }

def isalpha (c : UInt8) : Bool := (65 ≤ c && c ≤ 90) || (97 ≤ c && c ≤ 122)

/-- The first letters of a text, if `aBiosValue` has room for them. -/
def scanLetters (p : List UInt8) : Option (List UInt8) := do
  let (_, p) ← scanWhile (fun c => !isalpha c) (p ++ [0])
  let (letters, _) ← scanWhile isalpha p
  intoArray letters

/-- `strcpy(aBiosValue, line)`, without the end of the line. -/
def copyLine (line : List UInt8) : Option (List UInt8) :=
  (intoArray (cText line)).map fun l => if 10 ∈ l then l.dropLast else l

/-- The last line that is read stays in `aBiosValue`. -/
def copyLines (aBiosValue : List UInt8) (lines : List (List UInt8)) : Option (List UInt8) :=
  lines.foldlM (fun _ line => copyLine line) aBiosValue

/-- The first line with the pattern, from behind the pattern on, and the lines that are left. -/
def findLine (pat : List UInt8) : List (List UInt8) → Option (List UInt8 × List (List UInt8))
  | [] => none
  | line :: lines =>
    match Search.find pat (cText line) with
    | some g => some (g.drop pat.length, lines)
    | none => findLine pat lines

def reqGovernor : List UInt8 := bytes "performance"

/-- `aBiosValue` and `other_way`. `cat` prints nothing where there is no scaling
governor, and then the other file is read: behind the line that names the
governor its lines are read as well. -/
def governor (scalingGovernor frequencyInfo : List (List UInt8)) : Option (List UInt8 × Bool) :=
  if scalingGovernor = [] then
    match findLine (bytes "The governor") frequencyInfo with
    | some (g, lines) => do
      let letters ← scanLetters g
      let aBiosValue ← copyLines letters lines
      return (aBiosValue, true)
    | none => (copyLines [] frequencyInfo).map fun v => (v, false)
  else (copyLines [] scalingGovernor).map fun v => (v, false)

def fDoCpuPerformance (flag : UInt8) (scalingGovernor frequencyInfo : List (List UInt8)) (r : Recommended) :
    Option Recommended := do
  let (aBiosValue, otherWay) ← governor scalingGovernor frequencyInfo
  if aBiosValue ≠ reqGovernor then
    return r.apply flag
      (if otherWay then bytes "sudo cpupower frequency-set -g performance"
      else bytes "sh -c 'echo performance | tee /sys/devices/system/cpu/cpu*/cpufreq/scaling_governor'")
  else return r

def fDoIrqBalance (flag : UInt8) (status : List (List UInt8)) (r : Recommended) : Option Recommended :=
  match findLine (bytes "Active:") status with
  | some (y, _) => do
    let aBiosValue ← scanLetters y
    if aBiosValue ≠ bytes "inactive" then return r.apply flag (bytes "systemctl stop irqbalance") else return r
  | none => some r

/-- `ethtool -G`, for a device. -/
def RingCommand.text (netDevice : List UInt8) (c : RingCommand) : List UInt8 :=
  bytes "ethtool -G " ++ (netDevice ++ ((match c.side with
    | .rx => bytes " rx "
    | .tx => bytes " tx ") ++ iText c.size))

def recMtu : ℤ := 9200

/-- Only the first line counts. -/
def fDoMTU (flag : UInt8) (netDevice : List UInt8) (lines : List (List UInt8)) (r : Recommended) :
    Option Recommended :=
  match lines with
  | [] => some r
  | line :: _ => do
    let sValue ← copyLine line
    let cfgVal := atoiText sValue
    if cfgVal ≠ 0 ∧ recMtu > cfgVal then
      return r.apply flag (bytes "sudo ip link set dev " ++ (netDevice ++ (bytes " mtu " ++ iText recMtu)))
    else return r

/-! ### The whole assessment -/

/-- The four flags of the configuration. -/
structure Modes where
  gApplyDefSysTuning : UInt8 := 110
  gMakeTuningPermanent : UInt8 := 110
  gApplyBiosTuning : UInt8 := 110
  gApplyNicTuning : UInt8 := 110

/-- What the assessment finds on the host: the files that its commands write. -/
structure Assessment where
  netDevice : List UInt8
  netDeviceSpeed : ℤ
  settings : SettingsFile netDeviceSpeed
  modprobe : ModprobeResult := .silent
  scalingGovernor : List (List UInt8) := []
  frequencyInfo : List (List UInt8) := []
  irqbalance : List (List UInt8) := []
  ring : List (List UInt8) := []
  mtu : List (List UInt8) := []

def kernelFile : List UInt8 := bytes "/tmp/applyKernelDefFile"

def biosFile : List UInt8 := bytes "/tmp/applyBiosDefFile"

def nicFile : List UInt8 := bytes "/tmp/applyNicDefFile"

/-- The file of an array. -/
def savedText (saved : List (List UInt8)) : List UInt8 := unlines (uText (saved.length + 2) :: saved)

/-- The end of `user_assess`, for one of the arrays. -/
def keep {σ : Type*} (f : List UInt8) (saved : List (List UInt8)) (m : Machine σ) : Machine σ :=
  if saved = [] then m.remove f else m.write f (savedText saved)

namespace Assessment

variable (a : Assessment) (modes : Modes)

def tuningEnv : TuningEnv := ⟨a.netDeviceSpeed, modes.gApplyDefSysTuning, modes.gMakeTuningPermanent, a.modprobe⟩

/-- `fDoSystemTuning` of the daemon, with the end of the modifications. -/
def kernel : Option Recommended := do
  let t ← Program.daemon.fDoSystemTuning (a.tuningEnv modes) {} (a.settings.lines.map SettingLine.text)
  return { ran := t.ran.flatMap SysctlCommand.texts ++ (if t.vModifySysctlFile then [endText] else []),
           saved := t.saved.flatMap SysctlCommand.texts }

def bios : Option Recommended := do
  let r ← fDoCpuPerformance modes.gApplyBiosTuning a.scalingGovernor a.frequencyInfo {}
  fDoIrqBalance modes.gApplyBiosTuning a.irqbalance r

def nic : Option Recommended := do
  let t ← Program.daemon.fDoRingBufferSize ⟨a.netDeviceSpeed, modes.gApplyNicTuning⟩ a.ring
  fDoMTU modes.gApplyNicTuning a.netDevice a.mtu
    { ran := t.ran.map (RingCommand.text a.netDevice), saved := t.saved.map (RingCommand.text a.netDevice) }

/-- The commands are run in the order of the three parts, and the arrays are
written after the last of them. -/
def userAssess {σ : Type} (exec : List (List UInt8) → σ → σ × List UInt8) (m : Machine σ) : Option (Machine σ) := do
  let k ← a.kernel modes
  let b ← a.bios modes
  let n ← a.nic modes
  let m := m.runAll exec (k.ran ++ b.ran ++ n.ran)
  return keep biosFile b.saved (keep nicFile n.saved (keep kernelFile k.saved m))

end Assessment

/-! ### The texts are command lines -/

section Texts

variable {matching : List UInt8 → List (List UInt8)} {w : List UInt8}

theorem plain_of_isdigit {c : UInt8} (hc : isdigit c = true) : literal c = true := by
  have hall : ∀ n < 58, 48 ≤ n → literal n.toUInt8 = true := by decide +kernel
  simp only [isdigit, Bool.and_eq_true, decide_eq_true_eq, UInt8.le_iff_toNat_le] at hc
  have hplain := hall c.toNat (Nat.lt_succ_of_le hc.2) hc.1
  rwa [Nat.toUInt8_eq, UInt8.ofNat_toNat] at hplain

theorem plainWord_uText (n : ℕ) : PlainWord (uText n) :=
  ⟨(numeral_uText n).1, fun _ hc => plain_of_isdigit (isdigit_uText hc)⟩

theorem plainWord_iText (x : ℤ) : PlainWord (iText x) := by
  have hdigits := plainWord_uText x.natAbs
  unfold iText
  split_ifs
  · refine ⟨List.cons_ne_nil 45 _, fun c hc => ?_⟩
    rcases List.mem_cons.mp hc with rfl | hc
    · decide
    · exact hdigits.plain c hc
  · exact hdigits

/-- A value of the tables. -/
def NewValue.Plain : NewValue → Prop
  | text s => PlainWord (bytes s)
  | _ => True

theorem plainWord_name (g : GdvSetting) : PlainWord (bytes g.name) := by
  have hall : ∀ g ∈ gdv100, PlainWord (bytes g.name) := by decide +kernel
  refine hall g ?_
  cases g <;> decide

/-- The words of the commands. -/
theorem plainWord_fixed : ∀ w ∈ ["sysctl", "-w", "sudo", "cpupower", "frequency-set", "-g", "performance",
    "systemctl", "stop", "irqbalance", "ethtool", "-G", "rx", "tx", "ip", "link", "set", "dev", "mtu"],
    PlainWord (bytes w) := by decide +kernel

/-- `sysctl -w`, the setting and one word behind the `=`. -/
theorem commandLine_set_word {setting : String} {v : List UInt8} (hs : PlainWord (bytes setting)) (hv : PlainWord v) :
    CommandLine matching (bytes "sysctl -w " ++ (bytes setting ++ 61 :: v)) := by
  have hword : PlainWord (bytes setting ++ 61 :: v) := by
    rw [List.append_cons]
    exact (hs.append (List.forall_mem_singleton.mpr rfl)).append hv.plain
  have htext : bytes "sysctl -w " ++ (bytes setting ++ 61 :: v) =
      unwords [bytes "sysctl", bytes "-w", bytes setting ++ 61 :: v] := by
    rw [unwords_cons_cons, unwords_cons_cons, unwords, List.intercalate_singleton]
    rfl
  rw [htext]
  refine CommandLine.of_words ?_
  simp only [List.forall_mem_cons]
  exact ⟨plainWord_fixed "sysctl" (by simp), plainWord_fixed "-w" (by simp), hword, List.forall_mem_nil _⟩

/-- A character that no shell function treats apart, but for the quotes. -/
def Inert (c : UInt8) : Prop := blank c = false ∧ pattern c = false ∧ c ≠ 10

theorem Inert.of_plain (hw : PlainWord w) : ∀ c ∈ w, Inert c := fun c hc => plain_cases (hw.plain c hc)

/-- Three words in quotes: the shell sees one word, and `echo` three. -/
theorem commandLine_set_quoted {setting : String} {a b c : List UInt8} (hs : PlainWord (bytes setting))
    (ha : PlainWord a) (hb : PlainWord b) (hc : PlainWord c) : CommandLine matching
      (bytes "sysctl -w " ++ (bytes setting ++ 61 :: 34 :: (a ++ 32 :: (b ++ 32 :: c) ++ [34]))) := by
  have hname : PlainWord (bytes setting ++ [61]) := hs.append (List.forall_mem_singleton.mpr rfl)
  have hsysctl : PlainWord (bytes "sysctl") := plainWord_fixed _ (by simp)
  have hwrite : PlainWord (bytes "-w") := plainWord_fixed _ (by simp)
  have hquote : Inert 34 := by unfold Inert; decide +kernel
  have hopen : ∀ x ∈ bytes setting ++ 61 :: 34 :: a, Inert x := by
    rw [List.append_cons]
    exact List.forall_mem_append.mpr ⟨.of_plain hname, List.forall_mem_cons.mpr ⟨hquote, .of_plain ha⟩⟩
  have hclose : ∀ x ∈ c ++ [34], Inert x :=
    List.forall_mem_append.mpr ⟨.of_plain hc, List.forall_mem_singleton.mpr hquote⟩
  have htext : bytes "sysctl -w " ++ (bytes setting ++ 61 :: 34 :: (a ++ 32 :: (b ++ 32 :: c) ++ [34])) =
      unwords [bytes "sysctl", bytes "-w", bytes setting ++ 61 :: 34 :: a, b, c ++ [34]] := by
    simp only [unwords_cons_cons]
    rw [unwords, List.intercalate_singleton]
    simp [bytes]
  have hquoted : ∀ x ∈ a ++ 32 :: (b ++ 32 :: c), x ≠ 34 ∧ specialIn 34 x = false := by
    have hblank : (32 : UInt8) ≠ 34 ∧ specialIn 34 32 = false := by decide
    have hplain : ∀ {v}, PlainWord v → ∀ x ∈ v, x ≠ 34 ∧ specialIn 34 x = false := fun hv x hx =>
      plain_quoted (hv.plain x hx)
    exact List.forall_mem_append.mpr ⟨hplain ha, List.forall_mem_cons.mpr ⟨hblank,
      List.forall_mem_append.mpr ⟨hplain hb, List.forall_mem_cons.mpr ⟨hblank, hplain hc⟩⟩⟩⟩
  refine ⟨⟨_, htext, ?_⟩, ?_, ?_⟩
  · simp only [List.forall_mem_cons]
    refine ⟨⟨hsysctl.isWord, hsysctl.expand_eq⟩, ⟨hwrite.isWord, hwrite.expand_eq⟩, ?_, ⟨hb.isWord, hb.expand_eq⟩,
      ?_, List.forall_mem_nil _⟩
    · exact ⟨⟨by simp, fun x hx => (hopen x hx).1⟩, expand_of_no_pattern fun x hx => (hopen x hx).2.1⟩
    · exact ⟨⟨by simp, fun x hx => (hclose x hx).1⟩, expand_of_no_pattern fun x hx => (hclose x hx).2.1⟩
  · rw [htext]
    refine notMem_unwords ?_
    simp only [List.forall_mem_cons]
    have hno : ∀ {v : List UInt8}, (∀ x ∈ v, Inert x) → 10 ∉ v := fun hv hten => (hv 10 hten).2.2 rfl
    exact ⟨hno (.of_plain hsysctl), hno (.of_plain hwrite), hno hopen, hno (.of_plain hb), hno hclose,
      List.forall_mem_nil _⟩
  · have hword := hasWords_quoted hname.ne_nil hname.plain (q := 34) rfl hquoted
    rw [← List.append_cons] at hword
    exact ⟨_, (hsysctl.hasWords.append hwrite.hasWords).append hword⟩

/-- `sysctl -w`, the setting and the value. -/
theorem commandLine_set {setting : String} {value : NewValue} (hs : PlainWord (bytes setting)) (hv : value.Plain) :
    CommandLine matching (bytes "sysctl -w " ++ (bytes setting ++ 61 :: value.printed)) := by
  cases value with
  | number minimum => exact commandLine_set_word hs (plainWord_uText minimum)
  | text s => exact commandLine_set_word hs hv
  | triple minimum xDefault maximum =>
    exact commandLine_set_quoted hs (plainWord_uText minimum) (plainWord_iText xDefault) (plainWord_uText maximum)

end Texts

/-! ### Kept or run -/

/-- The texts that a permanent change is made of. -/
def toConf (text : List UInt8) : List UInt8 := text ++ bytes " >> /etc/sysctl.conf"

/-- What is run for the commands if it is `y` twice, but for the end: the first
of them comes before the comment. -/
def permanently : List (List UInt8) → List (List UInt8)
  | [] => []
  | c :: cs => c :: startText :: toConf c :: cs.flatMap fun c => [c, toConf c]

/-- The commands for the kernel with the comments around them. -/
def modifications (l : List (List UInt8)) : List (List UInt8) := permanently l ++ if l = [] then [] else [endText]

theorem permanently_concat (cs : List (List UInt8)) (c : List UInt8) :
    permanently (cs ++ [c]) = permanently cs ++ (c :: (if cs = [] then [startText] else []) ++ [toConf c]) := by
  cases cs with
  | nil => rfl
  | cons b cs => simp [permanently]

/-- `n` is not to apply a setting, and `y` is to apply it for good. -/
structure Mirrors (matching : List UInt8 → List (List UInt8)) (s u : SysTuning) : Prop where
  avail : s.congestionControlRecommendedAvail = u.congestionControlRecommendedAvail
  nothing : s.ran.flatMap SysctlCommand.texts = []
  not_modified : s.vModifySysctlFile = false
  none_saved : u.saved = []
  modified : u.vModifySysctlFile = !(s.saved.flatMap SysctlCommand.texts).isEmpty
  ran : u.ran.flatMap SysctlCommand.texts = permanently (s.saved.flatMap SysctlCommand.texts)
  lines : ∀ t ∈ s.saved.flatMap SysctlCommand.texts, CommandLine matching t

section Kernel

variable {matching : List UInt8 → List (List UInt8)} {env : TuningEnv} {s u t w : SysTuning} {l : SettingLine}
  {setting : String} {value : NewValue}

/-- The same assessment with `y` twice. -/
def TuningEnv.permanent (env : TuningEnv) : TuningEnv :=
  { env with gApplyDefSysTuning := 121, gMakeTuningPermanent := 121 }

theorem Mirrors.apply (h : Mirrors matching s u) (hn : env.gApplyDefSysTuning ≠ 121)
    (ht : CommandLine matching (bytes "sysctl -w " ++ (bytes setting ++ 61 :: value.printed))) :
    Mirrors matching (s.apply env setting value) (u.apply env.permanent setting value) := by
  have hsave : s.apply env setting value = { s with saved := s.saved ++ [.set setting value] } := by
    rw [SysTuning.apply, if_neg hn]
  have hrun : u.apply env.permanent setting value = { u with
      vModifySysctlFile := true
      ran := u.ran ++ [.set setting value] ++ (if u.vModifySysctlFile then [] else [.startOfModifications]) ++
        [.setPermanent setting value] } := rfl
  rw [hsave, hrun]
  refine { h with modified := ?_, ran := ?_, lines := ?_ }
  · simp [SysctlCommand.texts]
  · have hstart : (if u.vModifySysctlFile then [] else [SysctlCommand.startOfModifications]).flatMap
        SysctlCommand.texts = if s.saved.flatMap SysctlCommand.texts = [] then [startText] else [] := by
      rw [h.modified]
      by_cases hempty : s.saved.flatMap SysctlCommand.texts = [] <;> simp [hempty, SysctlCommand.texts]
    rw [List.flatMap_append, List.flatMap_append, List.flatMap_append, hstart, h.ran, List.flatMap_append,
      List.flatMap_singleton, List.flatMap_singleton]
    simp only [SysctlCommand.texts]
    rw [permanently_concat]
    simp [toConf]
  · rw [List.flatMap_append, List.forall_mem_append]
    exact ⟨h.lines, by simpa [SysctlCommand.texts] using ht⟩

theorem Mirrors.applyOption {new : Option NewValue} (h : Mirrors matching s u) (hn : env.gApplyDefSysTuning ≠ 121)
    (hs : PlainWord (bytes setting)) (hnew : ∀ value, new = some value → value.Plain) :
    Mirrors matching (s.applyOption env setting new) (u.applyOption env.permanent setting new) := by
  cases new with
  | none => exact h
  | some value => exact h.apply hn (commandLine_set hs (hnew value rfl))

theorem aStringval_plain {i : ℕ} {r : String} (h : aStringval[i]? = some r) : PlainWord (bytes r) := by
  have hall : ∀ r ∈ aStringval, PlainWord (bytes r) := by decide +kernel
  exact hall r (List.mem_of_getElem? h)

/-- What is recommended for a number is a number or three of them. -/
theorem recommendNumber_plain {p : Program} {v : HostTuningVals} {text : List UInt8} {new : Option NewValue}
    (h : p.recommendNumber v text = some new) : ∀ value, new = some value → value.Plain := by
  unfold Program.recommendNumber at h
  intro value hvalue
  subst hvalue
  cases value with
  | number => trivial
  | triple => trivial
  | text r =>
    dsimp only at h
    split_ifs at h
    · simp at h
    · simp at h
    · cases hp : parseTriple text with
      | none => simp [hp] at h
      | some x =>
        simp only [hp, Option.bind_eq_bind, Option.bind_some] at h
        split_ifs at h <;> simp at h
    · simp at h
    · cases hp : parseTriple text <;> simp [hp] at h

/-- A string takes the two in the same way. -/
theorem recommendString_mirrors (h : Mirrors matching s u) (v : HostTuningVals) (text : List UInt8) :
    Option.Rel (fun x y => Mirrors matching x.1 y.1 ∧ x.2 = y.2 ∧ ∀ value, x.2 = some value → value.Plain)
      (recommendString env v text s) (recommendString env.permanent v text u) := by
  unfold recommendString
  cases hr : aStringval[v.minimum]? with
  | none => exact .none
  | some r =>
    have hplain : ∀ value, some (NewValue.text r) = some value → value.Plain := by
      rintro _ ⟨⟩
      exact aStringval_plain hr
    have hran : ∀ cs, cs.flatMap SysctlCommand.texts = [] →
        Mirrors matching { s with ran := s.ran ++ cs } { u with
          congestionControlRecommendedAvail := s.congestionControlRecommendedAvail
          ran := u.ran ++ cs } := fun cs hcs =>
      { h with
        avail := rfl
        nothing := by rw [List.flatMap_append, h.nothing, hcs]; rfl
        ran := by rw [List.flatMap_append, h.ran, hcs, List.append_nil] }
    simp only [Option.bind_eq_bind, Option.bind_some]
    rw [← h.avail]
    split_ifs
    · exact .some ⟨h, rfl, by simp⟩
    · exact .some ⟨{ h with avail := rfl }, rfl, by simp⟩
    · simp only [TuningEnv.permanent]
      cases env.modprobe with
      | notOpened => exact .some ⟨hran _ rfl, rfl, by simp⟩
      | printed => exact .some ⟨hran _ rfl, rfl, by simp⟩
      | silent => exact .some ⟨hran _ rfl, rfl, hplain⟩
    · exact .some ⟨h, rfl, hplain⟩

/-- **One line** of the settings, kept and run. -/
theorem tuneLine_mirrors (h : Mirrors matching s u) (hn : env.gApplyDefSysTuning ≠ 121)
    (hl : l.setting ∈ script env.netDeviceSpeed) (p : Program) :
    Option.Rel (Mirrors matching) (p.tuneLine env s l.text) (p.tuneLine env.permanent u l.text) := by
  have hl' : l.setting ∈ script env.permanent.netDeviceSpeed := hl
  rw [tuneLine_text hl, tuneLine_text hl']
  split_ifs with hshort hdigit
  · cases hnew : p.recommendNumber l.setting.row l.value.printed with
    | none => exact .none
    | some new => exact .some (h.applyOption hn (plainWord_name l.setting) (recommendNumber_plain hnew))
  · rw [Option.map_eq_bind, Option.map_eq_bind]
    refine Runs.rel_bind (recommendString_mirrors h l.setting.row l.value.printed) fun (s', new) (u', new') hxy => ?_
    obtain ⟨hx, heq, hplain⟩ := hxy
    obtain rfl : new = new' := heq
    exact .some (hx.applyOption hn (plainWord_name l.setting) hplain)
  · exact .none

/-- **The whole file.** -/
theorem fDoSystemTuning_mirrors (hn : env.gApplyDefSysTuning ≠ 121) {lines : List SettingLine}
    (hlines : ∀ l ∈ lines, l.setting ∈ script env.netDeviceSpeed) (p : Program) :
    Option.Rel (Mirrors matching) (p.fDoSystemTuning env {} (lines.map SettingLine.text))
      (p.fDoSystemTuning env.permanent {} (lines.map SettingLine.text)) := by
  have hempty : Mirrors matching {} {} := ⟨rfl, rfl, rfl, rfl, rfl, rfl, by simp⟩
  refine Runs.rel_foldlM hempty fun line hline s u h => ?_
  obtain ⟨l, hl, rfl⟩ := List.mem_map.mp hline
  exact tuneLine_mirrors h hn (hlines l hl) p

end Kernel

/-! ### The parts for the BIOS and the NIC -/

/-- A part recommends the same commands whatever its flag is. -/
def Recommends (P : List UInt8 → Prop) (f : UInt8 → Recommended → Option Recommended) : Prop :=
  ∃ o : Option (List (List UInt8)),
    (∀ flag r, f flag r = o.map fun l => l.foldl (fun r c => r.apply flag c) r) ∧ ∀ l, o = some l → ∀ c ∈ l, P c

section Recommends

variable {P : List UInt8 → Prop} {f g : UInt8 → Recommended → Option Recommended} {flag : UInt8}
  {matching : List UInt8 → List (List UInt8)}

theorem foldl_apply_save (h : flag ≠ 121) (l : List (List UInt8)) (r : Recommended) :
    l.foldl (fun r c => r.apply flag c) r = { r with saved := r.saved ++ l } := by
  induction l generalizing r with
  | nil => rw [List.foldl_nil, List.append_nil]
  | cons c l ih =>
    rw [List.foldl_cons, ih, Recommended.apply, if_neg h]
    simp

theorem foldl_apply_run (l : List (List UInt8)) (r : Recommended) :
    l.foldl (fun r c => r.apply 121 c) r = { r with ran := r.ran ++ l } := by
  induction l generalizing r with
  | nil => rw [List.foldl_nil, List.append_nil]
  | cons c l ih =>
    rw [List.foldl_cons, ih, Recommended.apply, if_pos rfl]
    simp

/-- **Kept and run.** -/
theorem Recommends.mirrors (h : Recommends P f) (hn : flag ≠ 121) : ∃ o : Option (List (List UInt8)),
    f flag {} = o.map (fun l => { saved := l }) ∧ f 121 {} = o.map (fun l => { ran := l }) ∧
      ∀ l, o = some l → ∀ c ∈ l, P c := by
  obtain ⟨o, ho, hl⟩ := h
  refine ⟨o, ?_, ?_, hl⟩
  · rw [ho]
    simp only [foldl_apply_save hn, List.nil_append]
  · rw [ho]
    simp only [foldl_apply_run, List.nil_append]

theorem Recommends.bind (hf : Recommends P f) (hg : Recommends P g) :
    Recommends P fun flag r => (f flag r).bind (g flag) := by
  obtain ⟨o, ho, hol⟩ := hf
  obtain ⟨o', ho', hol'⟩ := hg
  refine ⟨o.bind fun l => o'.map fun l' => l ++ l', fun flag r => ?_, ?_⟩
  · simp only [ho, ho']
    cases o with
    | none => rfl
    | some l =>
      simp only [Option.map_some, Option.bind_some, Option.map_map]
      refine congrArg (fun k => Option.map k o') (funext fun l' => ?_)
      exact List.foldl_append.symm
  · intro l hl
    obtain ⟨x, hx, hy⟩ := Option.bind_eq_some_iff.mp hl
    obtain ⟨y, hy', rfl⟩ := Option.map_eq_some_iff.mp hy
    rw [List.forall_mem_append]
    exact ⟨hol x hx, hol' y hy'⟩

theorem recommends_none : Recommends P fun _ _ => none := ⟨none, fun _ _ => rfl, by simp⟩

theorem recommends_nothing : Recommends P fun _ r => some r := ⟨some [], fun _ _ => rfl, by simp⟩

theorem recommends_one {c : List UInt8} (hc : P c) : Recommends P fun flag r => some (r.apply flag c) :=
  ⟨some [c], fun _ _ => rfl, by simpa using hc⟩

/-- The file of the scaling governors has an apostrophe behind its name, in the word that `echo` sees. -/
def governorWord : List UInt8 := bytes "/sys/devices/system/cpu/cpu*/cpufreq/scaling_governor'"

theorem commandLine_governor (h : matching governorWord = []) : CommandLine matching
    (bytes "sh -c 'echo performance | tee /sys/devices/system/cpu/cpu*/cpufreq/scaling_governor'") where
  steady := by
    refine ⟨[bytes "sh", bytes "-c", bytes "'echo", bytes "performance", bytes "|", bytes "tee", governorWord],
      by decide +kernel, ?_⟩
    have hwords : ∀ w ∈ [bytes "sh", bytes "-c", bytes "'echo", bytes "performance", bytes "|", bytes "tee",
        governorWord], w ≠ [] ∧ (∀ c ∈ w, blank c = false) ∧ (w = governorWord ∨ ∀ c ∈ w, pattern c = false) := by
      decide +kernel
    intro w hw
    obtain ⟨hne, hblank, hpattern⟩ := hwords w hw
    refine ⟨⟨hne, hblank⟩, ?_⟩
    rcases hpattern with rfl | hpattern
    · rw [expand, if_neg fun hn => hn.2 h]
    · exact expand_of_no_pattern hpattern
  one_line := by decide +kernel
  hasWords := ⟨[bytes "sh", bytes "-c",
    bytes "echo performance | tee /sys/devices/system/cpu/cpu*/cpufreq/scaling_governor"],
      .of_lex (by decide +kernel)⟩

theorem recommends_cpu (h : matching governorWord = []) (scalingGovernor frequencyInfo : List (List UInt8)) :
    Recommends (CommandLine matching) fun flag r => fDoCpuPerformance flag scalingGovernor frequencyInfo r := by
  unfold fDoCpuPerformance
  cases governor scalingGovernor frequencyInfo with
  | none => exact recommends_none
  | some x =>
    obtain ⟨aBiosValue, otherWay⟩ := x
    simp only [Option.bind_eq_bind, Option.bind_some]
    split_ifs
    · have hline : CommandLine matching (unwords (["sudo", "cpupower", "frequency-set", "-g", "performance"].map
          bytes)) :=
        CommandLine.of_words (List.forall_mem_map.mpr fun w hw => plainWord_fixed w (by simp at hw ⊢; tauto))
      exact recommends_one hline
    · exact recommends_one (commandLine_governor h)
    · exact recommends_nothing

theorem recommends_irq (status : List (List UInt8)) :
    Recommends (CommandLine matching) fun flag r => fDoIrqBalance flag status r := by
  have hline : CommandLine matching (unwords (["systemctl", "stop", "irqbalance"].map bytes)) :=
    CommandLine.of_words (List.forall_mem_map.mpr fun w hw => plainWord_fixed w (by simp at hw ⊢; tauto))
  unfold fDoIrqBalance
  cases findLine (bytes "Active:") status with
  | none => exact recommends_nothing
  | some x =>
    obtain ⟨y, -⟩ := x
    dsimp only
    cases scanLetters y with
    | none => exact recommends_none
    | some aBiosValue =>
      simp only [Option.bind_eq_bind, Option.bind_some]
      split_ifs
      · exact recommends_one hline
      · exact recommends_nothing

theorem commandLine_ring {netDevice : List UInt8} (hd : PlainWord netDevice) (c : RingCommand) :
    CommandLine matching (c.text netDevice) := by
  have htext : ∀ side, PlainWord side → CommandLine matching
      (unwords [bytes "ethtool", bytes "-G", netDevice, side, iText c.size]) := by
    intro side hside
    refine CommandLine.of_words ?_
    simp only [List.forall_mem_cons]
    exact ⟨plainWord_fixed "ethtool" (by simp), plainWord_fixed "-G" (by simp), hd, hside, plainWord_iText c.size,
      List.forall_mem_nil _⟩
  unfold RingCommand.text
  cases c.side with
  | rx => simpa [unwords_cons_cons, unwords, bytes] using htext (bytes "rx") (plainWord_fixed _ (by simp))
  | tx => simpa [unwords_cons_cons, unwords, bytes] using htext (bytes "tx") (plainWord_fixed _ (by simp))

theorem commandLine_mtu {netDevice : List UInt8} (hd : PlainWord netDevice) : CommandLine matching
    (bytes "sudo ip link set dev " ++ (netDevice ++ (bytes " mtu " ++ iText recMtu))) := by
  have hline : CommandLine matching (unwords (["sudo", "ip", "link", "set", "dev"].map bytes ++
      [netDevice, bytes "mtu", iText recMtu])) := by
    refine CommandLine.of_words (List.forall_mem_append.mpr ⟨List.forall_mem_map.mpr fun w hw => ?_, ?_⟩)
    · exact plainWord_fixed w (by simp at hw ⊢; tauto)
    · simp only [List.forall_mem_cons]
      exact ⟨hd, plainWord_fixed "mtu" (by simp), plainWord_iText recMtu, List.forall_mem_nil _⟩
  simpa [unwords_cons_cons, unwords, bytes] using hline

/-- The two sides of the ring, from what the listing says. -/
theorem recommends_ring {netDevice : List UInt8} (hd : PlainWord netDevice) (netDeviceSpeed : ℤ)
    (lines : List (List UInt8)) : Recommends (CommandLine matching) fun flag r =>
      (Program.daemon.fDoRingBufferSize ⟨netDeviceSpeed, flag⟩ lines).map fun t =>
        { ran := r.ran ++ t.ran.map (RingCommand.text netDevice),
          saved := r.saved ++ t.saved.map (RingCommand.text netDevice) } := by
  have htuning : ∀ v, Recommends (CommandLine matching) fun flag r =>
      (some (Program.daemon.ringTuning ⟨netDeviceSpeed, flag⟩ v)).map fun t =>
        { ran := r.ran ++ t.ran.map (RingCommand.text netDevice),
          saved := r.saved ++ t.saved.map (RingCommand.text netDevice) } := by
    intro v
    refine ⟨some (((cappedSize netDeviceSpeed (v .rx)).toList.map (RingCommand.mk .rx) ++
      (cappedSize netDeviceSpeed (v .tx)).toList.map (RingCommand.mk .tx)).map (RingCommand.text netDevice)),
      fun flag r => ?_, ?_⟩
    · simp only [Option.map_some, Program.ringTuning, Program.ringSide, ringSize_eq, RingTuning.apply]
      by_cases hy : flag = 121
      · subst hy
        rw [foldl_apply_run]
        cases cappedSize netDeviceSpeed (v .rx) <;> cases cappedSize netDeviceSpeed (v .tx) <;> simp
      · rw [foldl_apply_save hy]
        cases cappedSize netDeviceSpeed (v .rx) <;> cases cappedSize netDeviceSpeed (v .tx) <;> simp [hy]
    · rintro _ ⟨⟩ c hc
      obtain ⟨c, -, rfl⟩ := List.mem_map.mp hc
      exact commandLine_ring hd c
  unfold Program.fDoRingBufferSize
  cases ringLines {} lines with
  | none => exact recommends_none
  | some x =>
    obtain ⟨s, last⟩ := x
    simp only [Option.bind_eq_bind, Option.bind_some]
    cases last with
    | false =>
      refine ⟨some [], fun flag r => ?_, by simp⟩
      simp
    | true =>
      cases s.sizes .rx with
      | none => exact recommends_none
      | some rx =>
        cases s.sizes .tx with
        | none => exact recommends_none
        | some tx => exact htuning _

theorem recommends_mtu {netDevice : List UInt8} (hd : PlainWord netDevice) (lines : List (List UInt8)) :
    Recommends (CommandLine matching) fun flag r => fDoMTU flag netDevice lines r := by
  cases lines with
  | nil => exact recommends_nothing
  | cons line lines =>
    unfold fDoMTU
    dsimp only
    cases copyLine line with
    | none => exact recommends_none
    | some sValue =>
      simp only [Option.bind_eq_bind, Option.bind_some]
      split_ifs
      · exact recommends_one (commandLine_mtu hd)
      · exact recommends_nothing

end Recommends

namespace Assessment

variable {matching : List UInt8 → List (List UInt8)} {a : Assessment} {modes : Modes}

/-- `y` for everything. -/
def applied : Modes := ⟨121, 121, 121, 121⟩

theorem kernel_mirrors (hn : modes.gApplyDefSysTuning ≠ 121) : ∃ o : Option (List (List UInt8)),
    a.kernel modes = o.map (fun l => { saved := l }) ∧ a.kernel applied = o.map (fun l => { ran := modifications l }) ∧
      ∀ l, o = some l → ∀ c ∈ l, CommandLine matching c := by
  have hrel : Option.Rel (Mirrors matching) _ _ :=
    fDoSystemTuning_mirrors hn (@setting_mem (a.tuningEnv modes) a.settings) .daemon
  have happlied : (a.tuningEnv modes).permanent = a.tuningEnv applied := rfl
  rw [happlied] at hrel
  unfold kernel
  generalize Program.daemon.fDoSystemTuning (a.tuningEnv modes) _ _ = x at hrel ⊢
  generalize Program.daemon.fDoSystemTuning (a.tuningEnv applied) _ _ = y at hrel ⊢
  cases hrel with
  | none => exact ⟨none, rfl, rfl, by simp⟩
  | @some s u h =>
    refine ⟨some (s.saved.flatMap SysctlCommand.texts), ?_, ?_, ?_⟩
    · simp [h.nothing, h.not_modified]
    · by_cases hempty : s.saved.flatMap SysctlCommand.texts = [] <;>
        simp [h.none_saved, h.ran, h.modified, modifications, hempty]
    · rintro _ ⟨⟩
      exact h.lines

theorem bios_mirrors (hn : modes.gApplyBiosTuning ≠ 121) (h : matching governorWord = []) :
    ∃ o : Option (List (List UInt8)), a.bios modes = o.map (fun l => { saved := l }) ∧
      a.bios applied = o.map (fun l => { ran := l }) ∧ ∀ l, o = some l → ∀ c ∈ l, CommandLine matching c :=
  Recommends.mirrors ((recommends_cpu h a.scalingGovernor a.frequencyInfo).bind (recommends_irq a.irqbalance)) hn

theorem nic_mirrors (hn : modes.gApplyNicTuning ≠ 121) (hd : PlainWord a.netDevice) :
    ∃ o : Option (List (List UInt8)), a.nic modes = o.map (fun l => { saved := l }) ∧
      a.nic applied = o.map (fun l => { ran := l }) ∧ ∀ l, o = some l → ∀ c ∈ l, CommandLine matching c := by
  obtain ⟨o, hsave, hrun, hl⟩ : ∃ o : Option (List (List UInt8)), _ ∧ _ ∧ ∀ l, o = some l →
      ∀ c ∈ l, CommandLine matching c :=
    Recommends.mirrors ((recommends_ring hd a.netDeviceSpeed a.ring).bind (recommends_mtu hd a.mtu)) hn
  have hnic : ∀ m, a.nic m = ((Program.daemon.fDoRingBufferSize ⟨a.netDeviceSpeed, m.gApplyNicTuning⟩ a.ring).map
      fun t => ({ ran := t.ran.map (RingCommand.text a.netDevice),
                  saved := t.saved.map (RingCommand.text a.netDevice) } : Recommended)).bind
      (fDoMTU m.gApplyNicTuning a.netDevice a.mtu) := by
    intro m
    rw [Option.bind_map]
    rfl
  exact ⟨o, (hnic modes).trans hsave, (hnic applied).trans hrun, hl⟩

end Assessment
end TuningMod

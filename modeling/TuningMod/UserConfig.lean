/-
# `user_config.txt`

`fDoGetUserCfgValues` reads a key up to the first blank of a line, and for a
known key the value behind the blanks: its first character and the letters and
digits after it, for two of the keys everything up to the next white space.
The values are kept as text, 31 characters of them; a key without a line keeps
the text -1. What the daemon uses is computed from these texts, by a test of
its own for every parameter.

A scan that goes past the end of the line, or past the 256 bytes of `setting`,
has no outcome.

Key definitions: `Param`, `scanValue`, `readLine`, `UserValues.ofCfg`, `fDoGetUserCfgValues`, `CfgLine`.
Key theorems: `readLine_text`, `fDoGetUserCfgValues_eq`.
-/
import TuningMod.CheckReq
import TuningMod.Lib.KeyValues
import Mathlib.Data.List.TakeWhile

namespace TuningMod

open KeyValues

/-! ### The parameters -/

/-- The entries of `userValues`. -/
inductive Param where
  | evaluationTimer | learningModeOnly | apiListenPort | applyDefaultSystemTuning | applyBiosTuning
  | applyNicTuning | makeDefaultSystemTuningPerm | maxnumTuningLogs | sourceDtnPort | nicToUse
  | nicAttachType | sourceHpnsshQfactorPort | useApacheKafka | apacheKafkaTopic
  deriving DecidableEq

namespace Param

/-- `aUserValues`. -/
def name : Param → String
  | evaluationTimer => "evaluation_timer"
  | learningModeOnly => "learning_mode_only"
  | apiListenPort => "API_listen_port"
  | applyDefaultSystemTuning => "apply_default_system_tuning"
  | applyBiosTuning => "apply_bios_tuning"
  | applyNicTuning => "apply_nic_tuning"
  | makeDefaultSystemTuningPerm => "make_default_system_tuning_perm"
  | maxnumTuningLogs => "maxnum_tuning_logs"
  | sourceDtnPort => "source_dtn_port"
  | nicToUse => "nic_to_use"
  | nicAttachType => "nic_attach_type"
  | sourceHpnsshQfactorPort => "source_hpnssh_qfactor_port"
  | useApacheKafka => "use_apache_kafka"
  | apacheKafkaTopic => "apache_kafka_topic"

/-- `default_val`. -/
def defaultVal : Param → String
  | evaluationTimer => "500000"
  | learningModeOnly => "y"
  | apiListenPort => "5523"
  | maxnumTuningLogs => "10"
  | sourceDtnPort => "5524"
  | nicToUse => "na"
  | nicAttachType => "xdpoffload"
  | sourceHpnsshQfactorPort => "5525"
  | apacheKafkaTopic => "none"
  | _ => "n"

def all : List Param :=
  [evaluationTimer, learningModeOnly, apiListenPort, applyDefaultSystemTuning, applyBiosTuning, applyNicTuning,
    makeDefaultSystemTuningPerm, maxnumTuningLogs, sourceDtnPort, nicToUse, nicAttachType, sourceHpnsshQfactorPort,
    useApacheKafka, apacheKafkaTopic]

/-- The value can have other characters than letters and digits in it. -/
def toSpace (p : Param) : Bool := p = nicToUse ∨ p = apacheKafkaTopic

end Param

/-! ### Reading a line -/

def isblank (c : UInt8) : Bool := c = 32 || c = 9

def isspace (c : UInt8) : Bool := c = 32 || (9 ≤ c && c ≤ 13)

def isalnum (c : UInt8) : Bool := isdigit c || (65 ≤ c && c ≤ 90) || (97 ≤ c && c ≤ 122)

/-- The string in an array. -/
def cText (setting : List UInt8) : List UInt8 := setting.takeWhile fun c => c ≠ 0

/-- What the loops leave in `setting`, if it holds it. -/
def intoSetting (l : List UInt8) : Option (List UInt8) := if l.length ≤ 256 then some l else none

/-- The key at the head of a line, and the line from the blank on. -/
def scanKey (p : List UInt8) : Option (List UInt8 × List UInt8) := do
  let (key, p) ← scanWhile (fun c => !isblank c) p
  let setting ← intoSetting key
  return (cText setting, p)

/-- The value behind the blanks. -/
def scanValue (toSpace : Bool) (p : List UInt8) : Option (List UInt8) := do
  let (_, p) ← scanWhile isblank p
  match p with
  | [] => none
  | c :: p =>
    let (alnum, p) ← scanWhile isalnum p
    let (more, _) ← if toSpace then scanWhile (fun c => !isspace c) p else some ([], p)
    let setting ← intoSetting (c :: alnum ++ more)
    return cText setting

/-- One turn of the loop: the parameter the line is for, and its `cfg_value`. -/
def readLine (line : List UInt8) : Option (Option (Param × List UInt8)) := do
  let (key, p) ← scanKey (line ++ [0])
  match Param.all.find? fun param => bytes param.name = key with
  | none => return none
  | some param =>
    let setting ← scanValue param.toSpace p
    return some (param, setting.take 31)

/-! ### What the texts mean -/

/-- The digits at the head of a text. -/
def digitsAt (l : List UInt8) : ℤ := decimal (l.takeWhile isdigit)

/-- `strtol` with base 10: white space, a sign, and digits. -/
def strtol (l : List UInt8) : ℤ :=
  let l := l.dropWhile isspace
  let n := if l.head? = some 45 then -digitsAt l.tail else if l.head? = some 43 then digitsAt l.tail else digitsAt l
  max (-9223372036854775808) (min n 9223372036854775807)

/-- `atoi`, which converts the `long` to an `int`. -/
def atoiText (l : List UInt8) : ℤ := Int.bmod (strtol l) 4294967296

/-- The globals that are set from the file, with their initial values. -/
structure UserValues where
  gInterval : ℤ := 500000
  vUseEvalutaionTimerDefaultValue : Bool := false
  gTuningMode : Bool := false
  gApplyDefSysTuning : UInt8 := 110
  gApplyBiosTuning : UInt8 := 110
  gApplyNicTuning : UInt8 := 110
  gMakeTuningPermanent : UInt8 := 110
  gAPIListenPort : ℤ := 5523
  gMaxnumTuningLogs : ℤ := 10
  gSourceDtnPort : ℤ := 5524
  gNicToUse : Option (List UInt8) := none
  gNicAttachType : List UInt8 := []
  gSourceHpnsshQfactorPort : ℤ := 5525
  gUseApacheKafka : Bool := false
  gKafkaTopic : List UInt8 := []
  deriving DecidableEq

/-- A flag that is set to y. -/
def flagY (cfgValue : List UInt8) : UInt8 := if cfgValue.head? = some 121 then 121 else 110

/-- A port or a count that is -1 when it is not configured. -/
def orDefault (p : Param) (cfgValue : List UInt8) : ℤ :=
  if atoiText cfgValue = -1 then atoiText (bytes p.defaultVal) else atoiText cfgValue

/-- A text that is -1 when it is not configured. -/
def textOrDefault (p : Param) (cfgValue : List UInt8) : List UInt8 :=
  if cfgValue = bytes "-1" then bytes p.defaultVal else cfgValue

/-- The globals from the texts of `cfg_value`. -/
def UserValues.ofCfg (cfg : Param → List UInt8) : UserValues where
  gInterval :=
    let cfgVal := atoiText (cfg .evaluationTimer)
    if cfgVal = 0 then atoiText (bytes Param.evaluationTimer.defaultVal)
    else if cfgVal > 999 then cfgVal
    else 500000
  vUseEvalutaionTimerDefaultValue :=
    let cfgVal := atoiText (cfg .evaluationTimer)
    cfgVal ≠ 0 ∧ ¬ cfgVal > 999
  gTuningMode := (cfg .learningModeOnly).head? = some 110
  gApplyDefSysTuning := flagY (cfg .applyDefaultSystemTuning)
  gApplyBiosTuning := flagY (cfg .applyBiosTuning)
  gApplyNicTuning := flagY (cfg .applyNicTuning)
  gMakeTuningPermanent := flagY (cfg .makeDefaultSystemTuningPerm)
  gAPIListenPort :=
    let cfgVal := atoiText (cfg .apiListenPort)
    if cfgVal = 0 then atoiText (bytes Param.apiListenPort.defaultVal) else cfgVal
  gMaxnumTuningLogs := orDefault .maxnumTuningLogs (cfg .maxnumTuningLogs)
  gSourceDtnPort := orDefault .sourceDtnPort (cfg .sourceDtnPort)
  gNicToUse := if cfg .nicToUse = bytes "-1" then none else some (cfg .nicToUse)
  gNicAttachType := textOrDefault .nicAttachType (cfg .nicAttachType)
  gSourceHpnsshQfactorPort := orDefault .sourceHpnsshQfactorPort (cfg .sourceHpnsshQfactorPort)
  gUseApacheKafka := (cfg .useApacheKafka).head? = some 121
  gKafkaTopic := textOrDefault .apacheKafkaTopic (cfg .apacheKafkaTopic)

/-- The texts before the file is read. -/
def notConfigured (_ : Param) : List UInt8 := bytes "-1"

/-- The globals after the lines of the file have been read, if every scan stays
inside the line and `setting`. -/
def fDoGetUserCfgValues (lines : List (List UInt8)) : Option UserValues :=
  (lines.mapM readLine).map fun found => .ofCfg (assign notConfigured found.reduceOption)

/-! ### Lines of a key, blanks and a value -/

/-- A line with a value of at most 31 characters. -/
structure CfgLine where
  key : List UInt8
  blanks : List UInt8
  value : List UInt8
  keyChars : ∀ c ∈ key, isblank c = false ∧ c ≠ 0
  blanks_ne : blanks ≠ []
  blankChars : ∀ c ∈ blanks, isblank c = true
  value_ne : value ≠ []
  valueChars : ∀ c ∈ value, isspace c = false ∧ c ≠ 0
  short : value.length ≤ 31

/-- The line with its end. -/
def CfgLine.text (l : CfgLine) : List UInt8 := l.key ++ (l.blanks ++ (l.value ++ [10]))

/-- What is read of a value: for most parameters its first character and the
letters and digits after it. -/
def Param.readAs (p : Param) : List UInt8 → List UInt8
  | [] => []
  | c :: value => if p.toSpace then c :: value else c :: value.takeWhile isalnum

/-- The entry that a line makes. -/
def CfgLine.entry (l : CfgLine) : Option (Param × List UInt8) :=
  (Param.all.find? fun p => bytes p.name = l.key).map fun p => (p, p.readAs l.value)

section Lines

variable {p : Param} {l : CfgLine} {file : List CfgLine} {s : List UInt8}

theorem isspace_of_isblank {c : UInt8} (h : isblank c = true) : isspace c = true := by
  rw [isblank, Bool.or_eq_true, decide_eq_true_eq, decide_eq_true_eq] at h
  rcases h with rfl | rfl <;> rfl

theorem not_isspace_of_isalnum {c : UInt8} (h : isalnum c = true) : isspace c = false := by
  rw [Bool.eq_false_iff]
  intro hs
  simp only [isalnum, isdigit, isspace, Bool.or_eq_true, Bool.and_eq_true, decide_eq_true_eq, UInt8.le_iff_toNat_le,
    ← UInt8.toNat_inj] at h hs
  simp only [UInt8.toNat_ofNat] at h hs
  omega

theorem isspace_digit {c : UInt8} (h : isdigit c = true) : isspace c = false := by
  have halnum : isalnum c = true := by rw [isalnum, h]; rfl
  exact not_isspace_of_isalnum halnum

theorem cText_eq (h : ∀ c ∈ s, c ≠ 0) : cText s = s := by
  rw [cText]
  apply List.takeWhile_eq_self_iff.mpr
  intro c hc
  exact decide_eq_true (h c hc)

/-- A short text without NULs is in `setting` as it is. -/
theorem intoSetting_short (hlen : s.length ≤ 31) (hz : ∀ c ∈ s, c ≠ 0) :
    ((intoSetting s).bind fun setting => some (cText setting)) = some s := by
  rw [intoSetting, if_pos (by omega), Option.bind_some, cText_eq hz]

theorem scanKey_text : scanKey (l.text ++ [0]) =
    if l.key.length ≤ 256 then some (l.key, l.blanks ++ (l.value ++ [10]) ++ [0]) else none := by
  obtain ⟨b, blanks, hb⟩ := List.exists_cons_of_ne_nil l.blanks_ne
  have hblank : isblank b = true := l.blankChars b (hb ▸ List.mem_cons_self)
  have hkey : ∀ c ∈ l.key, (!isblank c) = true := fun c hc => by rw [(l.keyChars c hc).1]; rfl
  have htext : l.text ++ [0] = l.key ++ b :: (blanks ++ (l.value ++ [10]) ++ [0]) := by simp [CfgLine.text, hb]
  have hstop : (!isblank b) = false := by
    rw [hblank]
    rfl
  have hscan := scanWhile_append (f := fun c => !isblank c) hkey hstop (blanks ++ (l.value ++ [10]) ++ [0])
  rw [scanKey, htext, hscan, hb]
  by_cases hfits : l.key.length ≤ 256
  · simp [intoSetting, hfits, cText_eq fun c hc => (l.keyChars c hc).2]
  · simp [intoSetting, hfits]

theorem scanValue_text : scanValue p.toSpace (l.blanks ++ (l.value ++ [10]) ++ [0]) = some (p.readAs l.value) := by
  obtain ⟨c, value, hv⟩ := List.exists_cons_of_ne_nil l.value_ne
  have hchars : ∀ d ∈ value, isspace d = false ∧ d ≠ 0 := fun d hd =>
    l.valueChars d (hv ▸ List.mem_cons_of_mem c hd)
  have hc := l.valueChars c (hv ▸ List.mem_cons_self)
  have hnotblank : isblank c = false := by
    rw [Bool.eq_false_iff]
    intro hb
    exact absurd (isspace_of_isblank hb) (by rw [hc.1]; exact Bool.false_ne_true)
  have hlen : value.length ≤ 30 := by
    have hshort := l.short
    rw [hv, List.length_cons] at hshort
    omega
  have htext : l.blanks ++ (l.value ++ [10]) ++ [0] = l.blanks ++ c :: (value ++ 10 :: [0]) := by simp [hv]
  rw [scanValue, htext, scanWhile_append l.blankChars hnotblank]
  have halnum := scanWhile_stop (f := isalnum) (c := 10) (by decide) value [0]
  simp only [Option.bind_eq_bind, Option.bind_some, halnum, hv, Param.readAs]
  by_cases hp : p.toSpace = true
  · -- the rest of the value is read up to the end of the line
    have hrest : ∀ d ∈ value.dropWhile isalnum, (!isspace d) = true := by
      intro d hd
      rw [(hchars d ((List.dropWhile_suffix _).mem hd)).1]
      rfl
    have hmore := scanWhile_append (f := fun d => !isspace d) (c := 10) hrest (by decide) [0]
    simp only [if_pos hp, hmore, Option.bind_some, List.cons_append, List.takeWhile_append_dropWhile]
    refine intoSetting_short ?_ fun d hd => ?_
    · rw [List.length_cons]
      omega
    · rcases List.mem_cons.mp hd with rfl | hd
      · exact hc.2
      · exact (hchars d hd).2
  · simp only [if_neg hp, List.append_nil]
    refine intoSetting_short ?_ fun d hd => ?_
    · have hle := (List.takeWhile_prefix (l := value) isalnum).length_le
      rw [List.length_cons]
      omega
    · rcases List.mem_cons.mp hd with rfl | hd
      · exact hc.2
      · exact (hchars d ((List.takeWhile_prefix _).mem hd)).2

theorem Param.readAs_begins (p : Param) : p.readAs s <+: s := by
  cases s with
  | nil => exact List.prefix_refl []
  | cons c s =>
    have htake : c :: s.takeWhile isalnum <+: c :: s := (List.prefix_cons_inj c).mpr (List.takeWhile_prefix _)
    rw [Param.readAs]
    by_cases hp : p.toSpace = true
    · simp only [if_pos hp, List.prefix_refl]
    · rwa [if_neg hp]

/-- The parameter names are different. -/
theorem find_name (p : Param) : (Param.all.find? fun q => bytes q.name = bytes p.name) = some p := by
  cases p <;> decide

/-- **What is read of a line.** -/
theorem readLine_text (l : CfgLine) : readLine l.text = if l.key.length ≤ 256 then some l.entry else none := by
  rw [readLine, scanKey_text]
  by_cases hfits : l.key.length ≤ 256
  · rw [if_pos hfits, if_pos hfits, CfgLine.entry]
    simp only [Option.bind_eq_bind, Option.bind_some]
    cases hp : Param.all.find? fun p => bytes p.name = l.key with
    | none => rfl
    | some p =>
      have htake : (p.readAs l.value).take 31 = p.readAs l.value := by
        apply List.take_of_length_le
        exact Nat.le_trans p.readAs_begins.length_le l.short
      simp only [scanValue_text, Option.bind_some, htake]
      rfl
  · rw [if_neg hfits, if_neg hfits]
    rfl

theorem mapM_readLine (file : List CfgLine) : (file.map CfgLine.text).mapM readLine =
    if ∀ l ∈ file, l.key.length ≤ 256 then some (file.map CfgLine.entry) else none := by
  induction file with
  | nil => simp
  | cons l file ih =>
    rw [List.map_cons, List.mapM_cons, ih, readLine_text]
    simp only [List.forall_mem_cons]
    by_cases hl : l.key.length ≤ 256
    · by_cases hall : ∀ l ∈ file, l.key.length ≤ 256
      · rw [if_pos hl, if_pos hall, if_pos ⟨hl, hall⟩]
        rfl
      · rw [if_pos hl, if_neg hall, if_neg (fun h => hall h.2)]
        rfl
    · have hno : ¬ (l.key.length ≤ 256 ∧ ∀ l ∈ file, l.key.length ≤ 256) := fun h => hl h.1
      rw [if_neg hl, if_neg hno]
      rfl

/-- **What is read of the file.** If the keys fit into `setting`, the texts are
those of the lines' entries, one after the other. -/
theorem fDoGetUserCfgValues_eq (file : List CfgLine) : fDoGetUserCfgValues (file.map CfgLine.text) =
    if ∀ l ∈ file, l.key.length ≤ 256 then some (.ofCfg (assign notConfigured (file.filterMap CfgLine.entry)))
    else none := by
  rw [fDoGetUserCfgValues, mapM_readLine]
  by_cases hall : ∀ l ∈ file, l.key.length ≤ 256
  · have hentries : (file.map CfgLine.entry).reduceOption = file.filterMap CfgLine.entry := by
      show (file.map CfgLine.entry).filterMap id = _
      rw [List.filterMap_map]
      rfl
    rw [if_pos hall, if_pos hall, Option.map_some, hentries]
  · rw [if_neg hall, if_neg hall]
    rfl

/-- The value on the last line with this key. -/
def lastLine (file : List CfgLine) (key : List UInt8) : Option (List UInt8) :=
  ((file.filter fun l => l.key = key).getLast?).map CfgLine.value

/-- The entries for a parameter are its lines. -/
theorem entries_filter (p : Param) (file : List CfgLine) :
    ((file.filterMap CfgLine.entry).filter fun kv => kv.1 = p) =
      (file.filter fun l => l.key = bytes p.name).map fun l => (p, p.readAs l.value) := by
  induction file with
  | nil => rfl
  | cons l file ih =>
    by_cases hl : l.key = bytes p.name
    · have hentry : l.entry = some (p, p.readAs l.value) := by
        rw [CfgLine.entry, hl, find_name]
        rfl
      rw [List.filterMap_cons_some hentry, List.filter_cons_of_pos (by simp), List.filter_cons_of_pos (by simp [hl]),
        List.map_cons, ih]
    · rw [List.filter_cons_of_neg (by simp [hl]), ← ih]
      cases he : l.entry with
      | none => rw [List.filterMap_cons_none he]
      | some kv =>
        obtain ⟨q, hq, rfl⟩ := Option.map_eq_some_iff.mp he
        have hname := List.find?_some hq
        have hne : q ≠ p := by
          rintro rfl
          exact hl (decide_eq_true_eq.mp hname).symm
        rw [List.filterMap_cons_some he, List.filter_cons_of_neg (by simp [hne])]

/-- **The last line of a key counts.** -/
theorem assign_entries (p : Param) (file : List CfgLine) : assign notConfigured (file.filterMap CfgLine.entry) p =
    ((lastLine file (bytes p.name)).map p.readAs).getD (bytes "-1") := by
  rw [assign_apply, lastValue, entries_filter, List.getLast?_map, lastLine, Option.map_map, Option.map_map]
  rfl

end Lines

end TuningMod

/-
# What the configured values mean

A parameter is documented by its default and by what a value of it is: a number
in a range, y or n, or a text. The daemon's own tests for a value that is
missing or invalid differ from one parameter to the next, and the text -1 that
stands for a missing key is a number for most of them; for the port of the API
it is taken as the port.

Key definitions: `Param.means`, `Param.expected`, `Param.Understood`, `MeansWhatItSays`.
Key theorems: `atoi_numeral`, `atoi_readAs`, `effective_iff`, `config_means`.
-/
import TuningMod.UserConfig
import Mathlib.Data.Bool.AllAny
import Mathlib.Tactic.SplitIfs

namespace TuningMod

open KeyValues

/-! ### The documented meaning -/

/-- An effective setting. -/
inductive Setting where
  | number (n : ℤ)
  | flag (on : Bool)
  | text (t : List UInt8)
  deriving DecidableEq

/-- A numeral between two bounds. -/
def numberFrom (low high : ℕ) (v : List UInt8) : Option Setting :=
  if Numeral v ∧ low ≤ decimal v ∧ decimal v ≤ high then some (.number (decimal v)) else none

def yesOrNo (v : List UInt8) : Option Setting :=
  if v = bytes "y" then some (.flag true) else if v = bytes "n" then some (.flag false) else none

namespace Param

/-- What a value means, if it is valid: the evaluation timer is at least 1000,
ports are 1 to 65535, numbers fit into an `int`. -/
def means (v : List UInt8) : Param → Option Setting
  | evaluationTimer => numberFrom 1000 2147483647 v
  | maxnumTuningLogs => numberFrom 0 2147483647 v
  | apiListenPort | sourceDtnPort | sourceHpnsshQfactorPort => numberFrom 1 65535 v
  | nicToUse | nicAttachType | apacheKafkaTopic => some (.text v)
  | _ => yesOrNo v

/-- What the default means. -/
def default (p : Param) : Setting := (p.means (bytes p.defaultVal)).getD (.text [])

/-- Every default is valid. -/
theorem default_valid (p : Param) : p.means (bytes p.defaultVal) = some p.default := by
  cases p <;> decide +kernel

/-- The setting for the value on the last line with the key, if there is one. -/
def expected (p : Param) (v : Option (List UInt8)) : Setting := (v.bind p.means).getD p.default

/-- The setting that is in effect. -/
def effective (u : UserValues) : Param → Setting
  | evaluationTimer => .number u.gInterval
  | learningModeOnly => .flag (!u.gTuningMode)
  | apiListenPort => .number u.gAPIListenPort
  | applyDefaultSystemTuning => .flag (u.gApplyDefSysTuning = 121)
  | applyBiosTuning => .flag (u.gApplyBiosTuning = 121)
  | applyNicTuning => .flag (u.gApplyNicTuning = 121)
  | makeDefaultSystemTuningPerm => .flag (u.gMakeTuningPermanent = 121)
  | maxnumTuningLogs => .number u.gMaxnumTuningLogs
  | sourceDtnPort => .number u.gSourceDtnPort
  | nicToUse => .text (u.gNicToUse.getD [])
  | nicAttachType => .text u.gNicAttachType
  | sourceHpnsshQfactorPort => .number u.gSourceHpnsshQfactorPort
  | useApacheKafka => .flag u.gUseApacheKafka
  | apacheKafkaTopic => .text u.gKafkaTopic

/-- The value is read as the text it is, or is invalid and leaves the default
in effect. -/
def Understood (v : List UInt8) : Param → Prop
  | evaluationTimer =>
    (evaluationTimer.means v).isSome ∨ atoiText v < 1000 ∨ atoiText v = 500000
  | apiListenPort => (apiListenPort.means v).isSome ∨ atoiText v = 0 ∨ atoiText v = 5523
  | maxnumTuningLogs => (maxnumTuningLogs.means v).isSome ∨ atoiText v = -1 ∨ atoiText v = 10
  | sourceDtnPort => (sourceDtnPort.means v).isSome ∨ atoiText v = -1 ∨ atoiText v = 5524
  | sourceHpnsshQfactorPort =>
    (sourceHpnsshQfactorPort.means v).isSome ∨ atoiText v = -1 ∨ atoiText v = 5525
  | nicAttachType => v ≠ bytes "-1" ∧ ∀ c ∈ v.tail, isalnum c = true
  | nicToUse | apacheKafkaTopic => v ≠ bytes "-1"
  | learningModeOnly => (learningModeOnly.means v).isSome ∨ v.head? ≠ some 110
  | p => (p.means v).isSome ∨ v.head? ≠ some 121

end Param

section Values

variable {p : Param} {c : UInt8} {v w : List UInt8} {n low high : ℕ}

/-! ### Numbers -/

theorem sign_not_digit (h : isdigit c = true) : c ≠ 45 ∧ c ≠ 43 := by
  constructor
  · rintro rfl
    exact absurd h (by decide)
  · rintro rfl
    exact absurd h (by decide)

theorem strtol_cons (hc : isspace c = false) : strtol (c :: w) = max (-9223372036854775808)
    (min (if c = 45 then -digitsAt w else if c = 43 then digitsAt w else digitsAt (c :: w)) 9223372036854775807) := by
  have hspace : (c :: w).dropWhile isspace = c :: w :=
    List.dropWhile_cons_of_neg (by rw [hc]; exact Bool.false_ne_true)
  simp only [strtol, hspace, List.head?_cons, Option.some.injEq, List.tail_cons]

/-- A numeral that fits is read as it is. -/
theorem atoi_numeral (hn : Numeral v) (hlt : decimal v ≤ 2147483647) : atoiText v = decimal v := by
  obtain ⟨c, w, rfl⟩ := List.exists_cons_of_ne_nil hn.1
  have hc : isdigit c = true := hn.2 c List.mem_cons_self
  obtain ⟨hminus, hplus⟩ := sign_not_digit hc
  have hdigits : digitsAt (c :: w) = decimal (c :: w) := by
    rw [digitsAt, List.takeWhile_eq_self_iff.mpr hn.2]
  have hstrtol : strtol (c :: w) = decimal (c :: w) := by
    rw [strtol_cons (isspace_digit hc), if_neg hminus, if_neg hplus, hdigits]
    omega
  rw [atoiText, hstrtol, Int.bmod_def]
  omega

/-- The letters and digits at the head of a text have its digits. -/
theorem takeWhile_isdigit (w : List UInt8) : (w.takeWhile isalnum).takeWhile isdigit = w.takeWhile isdigit := by
  rw [List.takeWhile_takeWhile]
  congr 1
  funext c
  cases hc : isdigit c with
  | false => simp
  | true => simp [isalnum, hc]

/-- A number is not changed by leaving out what follows the letters and digits. -/
theorem atoi_readAs (hc : isspace c = false) : atoiText (p.readAs (c :: w)) = atoiText (c :: w) := by
  rw [Param.readAs]
  by_cases hp : p.toSpace = true
  · rw [if_pos hp]
  · have hw : digitsAt (w.takeWhile isalnum) = digitsAt w := by rw [digitsAt, takeWhile_isdigit, digitsAt]
    have hcw : digitsAt (c :: w.takeWhile isalnum) = digitsAt (c :: w) := by
      rw [digitsAt, digitsAt, List.takeWhile_cons, List.takeWhile_cons, takeWhile_isdigit]
    rw [if_neg hp, atoiText, atoiText, strtol_cons hc, strtol_cons hc, hw, hcw]

/-! ### The settings in effect -/

/-- A number in effect is the expected one if the value is valid, else if it is the default. -/
theorem number_expected {x d : ℤ} (hvalid : Numeral v → low ≤ decimal v → decimal v ≤ high → x = decimal v) :
    Setting.number x = (numberFrom low high v).getD (.number d) ↔ (numberFrom low high v).isSome ∨ x = d := by
  rw [numberFrom]
  by_cases hv : Numeral v ∧ low ≤ decimal v ∧ decimal v ≤ high
  · rw [if_pos hv, Option.getD_some, Setting.number.injEq]
    exact ⟨fun _ => .inl rfl, fun _ => hvalid hv.1 hv.2.1 hv.2.2⟩
  · rw [if_neg hv, Option.getD_none, Setting.number.injEq]
    simp

theorem flag_expected {b d : Bool} (hy : v = bytes "y" → b = true) (hn : v = bytes "n" → b = false) :
    Setting.flag b = (yesOrNo v).getD (.flag d) ↔ (yesOrNo v).isSome ∨ b = d := by
  rw [yesOrNo]
  by_cases hvy : v = bytes "y"
  · rw [if_pos hvy, Option.getD_some, Setting.flag.injEq]
    exact ⟨fun _ => .inl rfl, fun _ => hy hvy⟩
  · rw [if_neg hvy]
    by_cases hvn : v = bytes "n"
    · rw [if_pos hvn, Option.getD_some, Setting.flag.injEq]
      exact ⟨fun _ => .inl rfl, fun _ => hn hvn⟩
    · rw [if_neg hvn, Option.getD_none, Setting.flag.injEq]
      simp

theorem head_readAs : (p.readAs v).head? = v.head? := by
  cases v with
  | nil => rfl
  | cons c v =>
    rw [Param.readAs]
    by_cases hp : p.toSpace = true
    · rw [if_pos hp]
    · rw [if_neg hp, List.head?_cons, List.head?_cons]

/-- A flag is on just if the value begins with y. -/
theorem flagY_on : decide (flagY (p.readAs v) = 121) = decide (v.head? = some 121) := by
  rw [flagY, head_readAs]
  by_cases hv : v.head? = some 121
  · simp [hv]
  · rw [if_neg hv, decide_eq_false hv]
    rfl

/-- A parameter whose number goes through `f`, which keeps the valid ones. -/
theorem through_expected {q : Param} {d : ℕ} {f : ℤ → ℤ} {other : Prop} (hdefault : q.default = .number d)
    (hhigh : high ≤ 2147483647) (hf : ∀ n : ℤ, low ≤ n → n ≤ high → f n = n) (hother : f (atoiText v) = d ↔ other) :
    Setting.number (f (atoiText v)) = (numberFrom low high v).getD q.default ↔
      (numberFrom low high v).isSome ∨ other := by
  rw [hdefault, number_expected, hother]
  intro hn hlow hle
  rw [atoi_numeral hn (by omega)]
  exact hf _ (by omega) (by omega)

theorem orDefault_expected {q : Param} {d : ℕ} (hdefault : q.default = .number d)
    (hd : atoiText (bytes q.defaultVal) = d) (hhigh : high ≤ 2147483647) (ha : atoiText w = atoiText v) :
    Setting.number (orDefault q w) = (numberFrom low high v).getD q.default ↔
      (numberFrom low high v).isSome ∨ atoiText v = -1 ∨ atoiText v = d := by
  rw [orDefault, hd, ha]
  refine through_expected (f := fun n => if n = -1 then d else n) hdefault hhigh ?_ ?_
  · intro n hlow _
    exact if_neg (by omega)
  · split_ifs with hnone
    · simp [hnone]
    · simp [hnone]

end Values

section Params

variable {cfg : Param → List UInt8} {c : UInt8} {v : List UInt8} {p : Param}

/-- A flag that is on if the value begins with y, and off by default. -/
theorem flag_on : Setting.flag (v.head? = some 121) = (yesOrNo v).getD (.flag false) ↔
    (yesOrNo v).isSome ∨ v.head? ≠ some 121 := by
  rw [flag_expected]
  · simp
  · rintro rfl
    decide
  · rintro rfl
    decide

/-- A flag that is off if the value begins with n, and on by default. -/
theorem flag_off : Setting.flag (!decide (v.head? = some 110)) = (yesOrNo v).getD (.flag true) ↔
    (yesOrNo v).isSome ∨ v.head? ≠ some 110 := by
  rw [flag_expected]
  · simp
  · rintro rfl
    decide
  · rintro rfl
    decide

/-- The flag of a parameter that is set to y or n. -/
theorem flagY_expected : Setting.flag (flagY (p.readAs v) = 121) = (yesOrNo v).getD (.flag false) ↔
    (yesOrNo v).isSome ∨ v.head? ≠ some 121 := by
  have hflag := @flagY_on p v
  rw [hflag]
  exact flag_on

/-- A text in effect is the value just if it was read whole and is not the
text for a missing value. -/
theorem textOrDefault_expected {q : Param} {w : List UInt8} (hd : (bytes q.defaultVal).head? ≠ some 45)
    (hw : w.head? = some c) : textOrDefault q w = c :: v ↔ w = c :: v ∧ c :: v ≠ bytes "-1" := by
  rw [textOrDefault]
  by_cases hmissing : w = bytes "-1"
  · rw [if_pos hmissing]
    have hc : c = 45 := by
      rw [hmissing] at hw
      exact (Option.some.inj hw).symm
    constructor
    · intro h
      rw [h, hc] at hd
      exact absurd rfl hd
    · intro ⟨heq, hne⟩
      exact absurd (heq.symm.trans hmissing) hne
  · rw [if_neg hmissing]
    exact ⟨fun h => ⟨h, h ▸ hmissing⟩, And.left⟩

/-- **A value in effect.** The setting for a value is the expected one just if
the value is understood. -/
theorem effective_iff (hp : p ≠ .nicToUse) (hc : isspace c = false) (hcfg : cfg p = p.readAs (c :: v)) :
    p.effective (.ofCfg cfg) = p.expected (some (c :: v)) ↔ p.Understood (c :: v) := by
  have ha : atoiText (cfg p) = atoiText (c :: v) := by rw [hcfg, atoi_readAs hc]
  cases p with
  | nicToUse => exact absurd rfl hp
  | evaluationTimer =>
    have hd : atoiText (bytes Param.evaluationTimer.defaultVal) = 500000 := by decide +kernel
    show Setting.number (if atoiText (cfg .evaluationTimer) = 0 then atoiText (bytes Param.evaluationTimer.defaultVal)
      else if atoiText (cfg .evaluationTimer) > 999 then atoiText (cfg .evaluationTimer) else 500000) = _ ↔ _
    rw [hd, ha]
    refine through_expected (d := 500000) (f := fun n => if n = 0 then 500000 else if n > 999 then n else 500000)
      (by decide +kernel) (by decide) ?_ ?_
    · intro n hlow _
      rw [if_neg (by omega), if_pos (by omega)]
    · split_ifs <;> omega
  | apiListenPort =>
    have hd : atoiText (bytes Param.apiListenPort.defaultVal) = 5523 := by decide +kernel
    show Setting.number (if atoiText (cfg .apiListenPort) = 0 then atoiText (bytes Param.apiListenPort.defaultVal)
      else atoiText (cfg .apiListenPort)) = _ ↔ _
    rw [hd, ha]
    refine through_expected (d := 5523) (f := fun n => if n = 0 then 5523 else n) (by decide +kernel) (by decide) ?_ ?_
    · intro n hlow _
      exact if_neg (by omega)
    · split_ifs <;> omega
  | maxnumTuningLogs => exact orDefault_expected (d := 10) (by decide +kernel) (by decide +kernel) (by decide) ha
  | sourceDtnPort => exact orDefault_expected (d := 5524) (by decide +kernel) (by decide +kernel) (by decide) ha
  | sourceHpnsshQfactorPort => exact orDefault_expected (d := 5525) (by decide +kernel) (by decide +kernel) (by decide) ha
  | learningModeOnly =>
    show Setting.flag (!decide ((cfg .learningModeOnly).head? = some 110)) = (yesOrNo (c :: v)).getD (.flag true) ↔ _
    rw [hcfg, head_readAs]
    exact flag_off
  | useApacheKafka =>
    show Setting.flag (decide ((cfg .useApacheKafka).head? = some 121)) = (yesOrNo (c :: v)).getD (.flag false) ↔ _
    rw [hcfg, head_readAs]
    exact flag_on
  | nicAttachType =>
    have hread : Param.nicAttachType.readAs (c :: v) = c :: v.takeWhile isalnum := rfl
    show Setting.text (textOrDefault .nicAttachType (cfg .nicAttachType)) = .text (c :: v) ↔
      c :: v ≠ bytes "-1" ∧ ∀ d ∈ v, isalnum d = true
    rw [Setting.text.injEq, hcfg, hread, textOrDefault_expected (by decide) (List.head?_cons), List.cons.injEq,
      List.takeWhile_eq_self_iff]
    tauto
  | apacheKafkaTopic =>
    have hread : cfg .apacheKafkaTopic = c :: v := hcfg
    show Setting.text (textOrDefault .apacheKafkaTopic (cfg .apacheKafkaTopic)) = .text (c :: v) ↔ c :: v ≠ bytes "-1"
    rw [Setting.text.injEq, hread, textOrDefault_expected (by decide) (List.head?_cons)]
    exact and_iff_right rfl
  | _ =>
    show Setting.flag (flagY (cfg _) = 121) = (yesOrNo (c :: v)).getD (.flag false) ↔ _
    rw [hcfg]
    exact flagY_expected

/-- A missing value is the default, except for the port of the API. -/
theorem effective_missing (hp : p ≠ .nicToUse) (hcfg : cfg p = bytes "-1") :
    p.effective (.ofCfg cfg) = p.expected none ↔ p ≠ .apiListenPort := by
  cases p with
  | nicToUse => exact absurd rfl hp
  | _ =>
    simp only [Param.effective, UserValues.ofCfg, hcfg]
    decide +kernel

end Params

/-! ### The file -/

/-- The setting in effect after the file is read is what its last line for the
parameter says. -/
def MeansWhatItSays (p : Param) (file : List CfgLine) : Prop :=
  ∃ u, fDoGetUserCfgValues (file.map CfgLine.text) = some u ∧
    p.effective u = p.expected (lastLine file (bytes p.name))

/-- The parameter has a line, or has a default that is used; and the value is understood. -/
def Param.ReadRight (p : Param) : Option (List UInt8) → Prop
  | none => p ≠ .apiListenPort
  | some v => p.Understood v

theorem lastLine_mem {file : List CfgLine} {key v : List UInt8} (h : lastLine file key = some v) :
    ∃ l : CfgLine, l.value = v := by
  obtain ⟨l, -, hv⟩ := Option.map_eq_some_iff.mp h
  exact ⟨l, hv⟩

theorem means_iff {p : Param} (hp : p ≠ .nicToUse) (file : List CfgLine) : MeansWhatItSays p file ↔
    (∀ l ∈ file, l.key.length ≤ 256) ∧ p.ReadRight (lastLine file (bytes p.name)) := by
  rw [MeansWhatItSays, fDoGetUserCfgValues_eq]
  by_cases hall : ∀ l ∈ file, l.key.length ≤ 256
  · rw [if_pos hall, and_iff_right hall]
    simp only [Option.some.injEq, exists_eq_left']
    have hcfg := assign_entries p file
    cases hlast : lastLine file (bytes p.name) with
    | none =>
      rw [hlast] at hcfg
      exact effective_missing hp hcfg
    | some v =>
      rw [hlast] at hcfg
      obtain ⟨l, rfl⟩ := lastLine_mem hlast
      obtain ⟨c, w, hv⟩ := List.exists_cons_of_ne_nil l.value_ne
      rw [hv] at hcfg ⊢
      exact effective_iff hp (l.valueChars c (hv ▸ List.mem_cons_self)).1 hcfg
  · rw [if_neg hall]
    refine iff_of_false ?_ fun h => hall h.1
    intro ⟨u, hu, _⟩
    cases hu

/-- The order of lines with different keys does not matter. -/
theorem same_of_lines {file file' : List CfgLine}
    (h : ∀ key, (file.filter fun l => l.key = key) = file'.filter fun l => l.key = key) :
    fDoGetUserCfgValues (file.map CfgLine.text) = fDoGetUserCfgValues (file'.map CfgLine.text) := by
  have hmem (l : CfgLine) : l ∈ file ↔ l ∈ file' := by
    have hl := congrArg (l ∈ ·) (h l.key)
    simpa using hl
  have hfits : (∀ l ∈ file, l.key.length ≤ 256) ↔ ∀ l ∈ file', l.key.length ≤ 256 :=
    forall_congr' fun l => by rw [hmem l]
  have hassign : assign notConfigured (file.filterMap CfgLine.entry) =
      assign notConfigured (file'.filterMap CfgLine.entry) := by
    apply assign_congr
    intro p
    rw [entries_filter, entries_filter, h]
  rw [fDoGetUserCfgValues_eq, fDoGetUserCfgValues_eq, hassign]
  exact if_congr hfits rfl rfl

/-- **What a configuration file means.** For a file of lines with a key, blanks
and a value of at most 31 characters, and a parameter other than `nic_to_use`:
in effect is the value on the last line with its key if that is valid, and the
default if there is none or it is invalid, if and only if the keys fit into
`setting`, and the last value is understood or is missing for another parameter
than the port of the API. Lines with different keys can change places. -/
theorem config_means (p : { p : Param // p ≠ .nicToUse }) (file file' : List CfgLine) :
    (MeansWhatItSays p file ↔
      (∀ l ∈ file, l.key.length ≤ 256) ∧ p.1.ReadRight (lastLine file (bytes p.1.name))) ∧
    ((∀ key, (file.filter fun l => l.key = key) = file'.filter fun l => l.key = key) →
      fDoGetUserCfgValues (file.map CfgLine.text) = fDoGetUserCfgValues (file'.map CfgLine.text)) :=
  ⟨means_iff p.2 file, same_of_lines⟩

/-- The line with the number of log backups, and no number. -/
def noCount : CfgLine :=
  ⟨bytes "maxnum_tuning_logs", bytes " ", bytes "ten", List.all_iff_forall_prop.mp (by decide), by decide,
    List.all_iff_forall_prop.mp (by decide), by decide, List.all_iff_forall_prop.mp (by decide), by decide⟩

/-- Without a line for it the port of the API is -1, and a count that is no
number is 0. -/
theorem config_differs : ¬ MeansWhatItSays .apiListenPort [noCount] ∧ ¬ MeansWhatItSays .maxnumTuningLogs [noCount] := by
  have hfile : fDoGetUserCfgValues ([noCount].map CfgLine.text) =
      some (.ofCfg (assign notConfigured [(.maxnumTuningLogs, bytes "ten")])) := by decide +kernel
  constructor
  · intro ⟨u, hu, heq⟩
    obtain rfl := Option.some.inj (hfile.symm.trans hu)
    exact absurd heq (by decide +kernel)
  · intro ⟨u, hu, heq⟩
    obtain rfl := Option.some.inj (hfile.symm.trans hu)
    exact absurd heq (by decide +kernel)

end TuningMod

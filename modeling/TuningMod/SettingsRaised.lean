/-
# Settings are only raised

The log says that nothing is changed where the recommended value is not above
the current one. For a setting with one value that is so. For one with three
the daemon compares the minima to decide whether it looks at the line, and the
maxima to decide whether it writes, and it writes all three: a minimum above
the recommended one keeps the maximum from being raised, and a default above
the recommended one is lowered when the maximum is raised.

Key definitions: `SysTuning.changes`, `SettingLine.recommended`, `OnlyRaises`, `SettingLine.Raisable`, `NumericFile`.
Key theorems: `tuneLine_adds`, `fDoSystemTuning_changes`, `onlyRaises_iff`.
-/
import TuningMod.ConfigValues
import TuningMod.SystemTuning
import Mathlib.Data.List.Nodup

namespace TuningMod

/-- The setting a command changes, and the value it sets. -/
def SysctlCommand.change : SysctlCommand → Option (String × NewValue)
  | set setting value | setPermanent setting value => some (setting, value)
  | _ => none

/-- What all commands change, run or saved. -/
def SysTuning.changes (s : SysTuning) : List (String × NewValue) := (s.ran ++ s.saved).filterMap SysctlCommand.change

/-- No component is below the current one; a string has no order. -/
def NewValue.NotBelow : NewValue → CurrentValue → Prop
  | number minimum, .number n => decimal n ≤ minimum
  | triple minimum xDefault maximum, .triple min deflt max =>
    decimal min ≤ minimum ∧ (decimal deflt : ℤ) ≤ xDefault ∧ decimal max ≤ maximum
  | _, .text _ => True
  | _, _ => False

namespace SettingLine

/-- The recommended value, of three the maximum, is above the current one. -/
def Exceeded (l : SettingLine) : Prop :=
  match l.value with
  | .number n => decimal n < l.setting.row.minimum
  | .triple _ _ max => decimal max < l.setting.row.maximum
  | .text _ => False

/-- If the maximum is to be raised, the minimum and the default are not above
the recommended ones. -/
def Raisable (l : SettingLine) : Prop :=
  match l.value with
  | .triple min deflt max =>
    decimal max < l.setting.row.maximum →
      decimal min ≤ l.setting.row.minimum ∧ (decimal deflt : ℤ) ≤ l.setting.row.xDefault
  | _ => True

/-- The numbers are those of an `int`. -/
def InRange (l : SettingLine) : Prop :=
  match l.value with
  | .number n => decimal n ≤ 2147483647
  | .triple min deflt max => decimal min ≤ 2147483647 ∧ decimal deflt ≤ 2147483647 ∧ decimal max ≤ 2147483647
  | .text _ => True

/-- What the daemon sets a number to. -/
def recommended (l : SettingLine) : Option NewValue :=
  match l.value with
  | .number n => if unsigned (atoiText n) < l.setting.row.minimum then some (.number l.setting.row.minimum) else none
  | .triple min _ max =>
    if unsigned (atoiText min) ≤ 4096 ∧ unsigned (atoiText max) < 1147483647 then
      some (.triple 4096 l.setting.row.xDefault 1147483647)
    else none
  | .text _ => none

end SettingLine

structure NumericFile (netDeviceSpeed : ℤ) extends SettingsFile netDeviceSpeed where
  inRange : ∀ l ∈ lines, l.InRange

/-- The daemon gets through the file; no command sets a component below the
current one, and there is one for every value that is exceeded. -/
def OnlyRaises (env : TuningEnv) (file : SettingsFile env.netDeviceSpeed) : Prop :=
  ∃ s, Program.daemon.fDoSystemTuning env {} (file.lines.map SettingLine.text) = some s ∧
    (∀ c ∈ s.changes, ∃ l ∈ file.lines, l.setting.name = c.1 ∧ c.2.NotBelow l.value) ∧
    ∀ l ∈ file.lines, l.Exceeded → ∃ value, (l.setting.name, value) ∈ s.changes

/-! ### What a line adds -/

section Line

variable {env : TuningEnv} {s s' t : SysTuning} {l : SettingLine} {new : Option NewValue} {setting : String}
  {v : HostTuningVals} {text : List UInt8}

theorem mem_changes_applyOption {c : String × NewValue} :
    c ∈ (s.applyOption env setting new).changes ↔ c ∈ s.changes ∨ ∃ value ∈ new, c = (setting, value) := by
  cases new with
  | none => simp [SysTuning.applyOption]
  | some value =>
    unfold SysTuning.applyOption SysTuning.apply SysTuning.changes
    simp only [Option.elim_some, Option.mem_some_iff, exists_eq_left']
    split_ifs <;> simp [SysctlCommand.change] <;> grind

/-- Looking for htcp changes no setting. -/
theorem changes_recommendString (h : recommendString env v text s = some (t, new)) : t.changes = s.changes := by
  simp only [recommendString, Option.bind_eq_bind, Option.bind_eq_some_iff] at h
  obtain ⟨recommended, -, h⟩ := h
  have hpure : ∀ {x y : SysTuning × Option NewValue}, (pure x : Option (SysTuning × Option NewValue)) = some y →
      x = y := Option.some.inj
  split_ifs at h with h1 h2 h3
  · obtain ⟨rfl, -⟩ := Prod.mk.inj (hpure h)
    rfl
  · obtain ⟨rfl, -⟩ := Prod.mk.inj (hpure h)
    rfl
  · cases hm : env.modprobe <;> rw [hm] at h <;> obtain ⟨rfl, -⟩ := Prod.mk.inj (hpure h) <;>
      simp [SysTuning.changes, SysctlCommand.change, List.filterMap_cons]
  · obtain ⟨rfl, -⟩ := Prod.mk.inj (hpure h)
    rfl

/-- A line for a number adds the change that is recommended, and one for a
string at most changes of its own setting. -/
structure Adds (l : SettingLine) (s t : SysTuning) : Prop where
  only : ∀ c ∈ t.changes, c ∈ s.changes ∨ l.setting.name = c.1 ∧ (c.2 ∈ l.recommended ∨ ∃ text, l.value = .text text)
  keeps : ∀ c ∈ s.changes, c ∈ t.changes
  added : ∀ value ∈ l.recommended, (l.setting.name, value) ∈ t.changes

theorem adds_number (hnew : new = l.recommended) : Adds l s (s.applyOption env l.setting.name new) where
  only c hc := by
    rcases mem_changes_applyOption.mp hc with hc | ⟨value, hvalue, rfl⟩
    · exact .inl hc
    · exact .inr ⟨rfl, .inl (hnew ▸ hvalue)⟩
  keeps c hc := mem_changes_applyOption.mpr (.inl hc)
  added value hvalue := mem_changes_applyOption.mpr (.inr ⟨value, hnew ▸ hvalue, rfl⟩)

theorem adds_text (hv : l.value = .text text) (hs : s'.changes = s.changes) :
    Adds l s (s'.applyOption env l.setting.name new) where
  only c hc := by
    rcases mem_changes_applyOption.mp hc with hc | ⟨value, hvalue, rfl⟩
    · exact .inl (hs ▸ hc)
    · exact .inr ⟨rfl, .inr ⟨text, hv⟩⟩
  keeps c hc := mem_changes_applyOption.mpr (.inl (hs ▸ hc))
  added value hvalue := by simp [SettingLine.recommended, hv] at hvalue

/-- **One line.** -/
theorem tuneLine_adds (hl : l.setting ∈ script env.netDeviceSpeed) (hshort : l.Short) :
    ∃ t, Program.daemon.tuneLine env s l.text = some t ∧ Adds l s t := by
  have hfits := l.fits
  have hwf := l.wellFormed
  cases hv : l.value with
  | triple min deflt max =>
    rw [tuneLine_triple hl hv, if_pos hshort]
    refine ⟨_, rfl, adds_number ?_⟩
    simp [SettingLine.recommended, hv]
  | number n =>
    rw [hv] at hfits hwf
    have hsingle : l.setting.isTriple = false := by
      simp only [CurrentValue.Fits, Bool.and_eq_true, Bool.not_eq_true'] at hfits
      exact hfits.1
    have hdigit : (l.value.printed.head?.any isdigit) = true := by
      obtain ⟨c, rest, rfl⟩ := List.exists_cons_of_ne_nil hwf.1
      rw [hv]
      exact hwf.2 c List.mem_cons_self
    rw [tuneLine_text hl, if_pos hshort, if_pos hdigit, recommendNumber_single (row_single hsingle), hv]
    refine ⟨_, rfl, adds_number ?_⟩
    rw [SettingLine.recommended, hv]
    rfl
  | text text =>
    rw [hv] at hfits
    rw [tuneLine_text hl, if_pos hshort, recommendNumber_single (row_single (isTriple_of_isText hfits))]
    by_cases hdigit : (l.value.printed.head?.any isdigit) = true
    · rw [if_pos hdigit]
      exact ⟨_, rfl, adds_text hv rfl⟩
    · obtain ⟨t, new, ht⟩ : ∃ t new, recommendString env l.setting.row l.value.printed s = some (t, new) :=
        SysTuning.recommendString_some (row_text hfits)
      rw [if_neg hdigit, ht]
      exact ⟨_, rfl, adds_text hv (changes_recommendString ht)⟩

end Line

/-! ### The whole file -/

section File

variable {env : TuningEnv} {s : SysTuning} {lines : List SettingLine} {l : SettingLine}

/-- **The changes** are those that are recommended, besides those of strings. -/
theorem fDoSystemTuning_changes (hl : ∀ l ∈ lines, l.setting ∈ script env.netDeviceSpeed)
    (hshort : ∀ l ∈ lines, l.Short) :
    ∃ t, Program.daemon.fDoSystemTuning env s (lines.map SettingLine.text) = some t ∧
      (∀ c ∈ t.changes, c ∈ s.changes ∨ ∃ l ∈ lines, l.setting.name = c.1 ∧
        (c.2 ∈ l.recommended ∨ ∃ text, l.value = .text text)) ∧
      (∀ c ∈ s.changes, c ∈ t.changes) ∧
      ∀ l ∈ lines, ∀ value ∈ l.recommended, (l.setting.name, value) ∈ t.changes := by
  induction lines generalizing s with
  | nil => exact ⟨s, rfl, fun c hc => .inl hc, fun c hc => hc, by simp⟩
  | cons l lines ih =>
    rw [List.forall_mem_cons] at hl hshort
    obtain ⟨u, hu, hadds⟩ := tuneLine_adds (s := s) hl.1 hshort.1
    obtain ⟨t, ht, honly, hkeeps, hadded⟩ := ih (s := u) hl.2 hshort.2
    rw [List.map_cons, fDoSystemTuning_cons, hu]
    refine ⟨t, ht, fun c hc => ?_, fun c hc => hkeeps c (hadds.keeps c hc), ?_⟩
    · rcases honly c hc with hc | ⟨m, hm, hchange⟩
      · rcases hadds.only c hc with hc | hchange
        · exact .inl hc
        · exact .inr ⟨l, List.mem_cons_self, hchange⟩
      · exact .inr ⟨m, List.mem_cons_of_mem l hm, hchange⟩
    · rw [List.forall_mem_cons]
      exact ⟨fun value hvalue => hkeeps _ (hadds.added value hvalue), hadded⟩

/-- The numbers of a file are those its texts denote. -/
theorem unsigned_numeral {n : List UInt8} (hn : Numeral n) (hle : decimal n ≤ 2147483647) :
    unsigned (atoiText n) = decimal n := by
  rw [atoi_numeral hn hle, unsigned]
  omega

/-- What is recommended for a value, in numbers. -/
theorem recommended_number {n : List UInt8} (hin : l.InRange) (hv : l.value = .number n) :
    l.recommended = if decimal n < l.setting.row.minimum then some (.number l.setting.row.minimum) else none := by
  have hwf := l.wellFormed
  rw [hv] at hwf
  rw [SettingLine.InRange, hv] at hin
  rw [SettingLine.recommended, hv]
  dsimp only
  rw [unsigned_numeral hwf hin]

theorem recommended_triple {min deflt max : List UInt8} (hin : l.InRange) (hv : l.value = .triple min deflt max) :
    l.recommended = if decimal min ≤ 4096 ∧ decimal max < 1147483647 then
      some (.triple 4096 l.setting.row.xDefault 1147483647) else none := by
  have hwf := l.wellFormed
  rw [hv] at hwf
  rw [SettingLine.InRange, hv] at hin
  rw [SettingLine.recommended, hv]
  dsimp only
  rw [unsigned_numeral hwf.1 hin.1, unsigned_numeral hwf.2.2 hin.2.2]

/-- There is one line for a setting. -/
theorem line_unique {netDeviceSpeed : ℤ} (file : SettingsFile netDeviceSpeed) {l m : SettingLine} (hl : l ∈ file.lines)
    (hm : m ∈ file.lines) (h : l.setting.name = m.setting.name) : l = m := by
  have hname : ∀ g g' : GdvSetting, g.name = g'.name → g = g' := by
    intro g g'
    cases g <;> cases g' <;> decide
  have hscript : (script netDeviceSpeed).Nodup := by
    unfold script
    split_ifs <;> decide
  exact List.inj_on_of_nodup_map (hscript.sublist file.ofScript) hl hm (hname _ _ h)

/-- What is recommended is not below a value that can be raised. -/
theorem notBelow_of_raisable {value : NewValue} (hin : l.InRange) (hraise : l.Raisable) (h : value ∈ l.recommended) :
    value.NotBelow l.value := by
  cases hv : l.value with
  | number n =>
    rw [recommended_number hin hv] at h
    obtain ⟨hlt, h⟩ := Option.ite_none_right_eq_some.mp h
    obtain rfl := Option.some.inj h
    exact hlt.le
  | triple min deflt max =>
    have hfits := l.fits
    rw [hv] at hfits
    obtain ⟨-, hminimum, hmaximum⟩ := row_triple hfits
    rw [recommended_triple hin hv] at h
    obtain ⟨⟨hmin, hmax⟩, h⟩ := Option.ite_none_right_eq_some.mp h
    obtain rfl := Option.some.inj h
    rw [SettingLine.Raisable, hv, hmaximum] at hraise
    exact ⟨hmin, (hraise hmax).2, hmax.le⟩
  | text text => cases value <;> trivial

/-- A value that is exceeded is raised if it can be. -/
theorem recommended_of_exceeded (hin : l.InRange) (hraise : l.Raisable) (h : l.Exceeded) :
    ∃ value, value ∈ l.recommended := by
  cases hv : l.value with
  | number n =>
    rw [SettingLine.Exceeded, hv] at h
    rw [recommended_number hin hv, if_pos h]
    exact ⟨_, rfl⟩
  | triple min deflt max =>
    have hfits := l.fits
    rw [hv] at hfits
    obtain ⟨-, hminimum, hmaximum⟩ := row_triple hfits
    rw [SettingLine.Exceeded, hv] at h
    rw [SettingLine.Raisable, hv] at hraise
    have hmin := (hraise h).1
    rw [hminimum] at hmin
    rw [hmaximum] at h
    rw [recommended_triple hin hv, if_pos ⟨hmin, h⟩]
    exact ⟨_, rfl⟩
  | text text =>
    rw [SettingLine.Exceeded, hv] at h
    exact h.elim

/-- A line that cannot be raised is not changed, or set below its default. -/
theorem raisable_of_notBelow {value : NewValue} (hin : l.InRange) (h : l.Exceeded → value ∈ l.recommended ∧
    value.NotBelow l.value) : l.Raisable := by
  unfold SettingLine.Raisable
  cases hv : l.value with
  | number n => trivial
  | text text => trivial
  | triple min deflt max =>
    have hfits := l.fits
    rw [hv] at hfits
    obtain ⟨-, hminimum, hmaximum⟩ := row_triple hfits
    intro hmax
    obtain ⟨hmem, hbelow⟩ := h (by rwa [SettingLine.Exceeded, hv])
    rw [recommended_triple hin hv] at hmem
    obtain ⟨⟨hmin, -⟩, hmem⟩ := Option.ite_none_right_eq_some.mp hmem
    obtain rfl := Option.some.inj hmem
    rw [hv] at hbelow
    rw [hminimum]
    exact ⟨hmin, hbelow.2.1⟩

end File

/-- **When settings are only raised.** Every value fits in its array, and no
setting with three values has a maximum below the recommended one with a
minimum or a default above it. -/
theorem onlyRaises_iff (env : TuningEnv) (file : NumericFile env.netDeviceSpeed) :
    OnlyRaises env file.toSettingsFile ↔ (∀ l ∈ file.lines, l.Short) ∧ ∀ l ∈ file.lines, l.Raisable := by
  have hscript := setting_mem file.toSettingsFile
  constructor
  · rintro ⟨s, hs, hbelow, hraised⟩
    have hshort := short_of_some hscript hs
    refine ⟨hshort, fun l hl => ?_⟩
    obtain ⟨t, ht, honly, -, -⟩ := fDoSystemTuning_changes (s := {}) hscript hshort
    obtain rfl : s = t := Option.some.inj (hs.symm.trans ht)
    by_cases hexceeded : l.Exceeded
    · obtain ⟨value, hvalue⟩ := hraised l hl hexceeded
      have hmem : value ∈ l.recommended ∨ ∃ text, l.value = .text text := by
        rcases honly _ hvalue with hc | ⟨m, hm, hname, hmem⟩
        · simp [SysTuning.changes] at hc
        · rwa [line_unique file.toSettingsFile hl hm hname.symm]
      obtain ⟨m, hm, hname, hnot⟩ := hbelow _ hvalue
      rw [← line_unique file.toSettingsFile hl hm hname.symm] at hnot
      rcases hmem with hmem | ⟨text, hv⟩
      · exact raisable_of_notBelow (file.inRange l hl) fun _ => ⟨hmem, hnot⟩
      · rw [SettingLine.Exceeded, hv] at hexceeded
        exact hexceeded.elim
    · exact @raisable_of_notBelow _ (.text "") (file.inRange l hl) fun h => absurd h hexceeded
  · rintro ⟨hshort, hraise⟩
    obtain ⟨t, ht, honly, -, hadded⟩ := fDoSystemTuning_changes (s := {}) hscript hshort
    refine ⟨t, ht, fun c hc => ?_, fun l hl hexceeded => ?_⟩
    · rcases honly c hc with hc | ⟨l, hl, hname, hvalue | ⟨text, hv⟩⟩
      · simp [SysTuning.changes] at hc
      · exact ⟨l, hl, hname, notBelow_of_raisable (file.inRange l hl) (hraise l hl) hvalue⟩
      · refine ⟨l, hl, hname, ?_⟩
        rw [hv]
        cases c.2 <;> trivial
    · obtain ⟨value, hvalue⟩ := recommended_of_exceeded (file.inRange l hl) (hraise l hl) hexceeded
      exact ⟨value, hadded l hl value hvalue⟩

/-- A kernel with a default above the recommended one, and a lower maximum. -/
def largeDefault : NumericFile 10000 where
  lines := [⟨.tcpRmem, .triple (bytes "4096") (bytes "131072") (bytes "6291456"), by decide, rfl⟩]
  ofScript := by decide
  inRange := by
    rw [List.forall_mem_singleton]
    exact ⟨by decide, by decide, by decide⟩

/-- The default is lowered to 87380. -/
theorem not_onlyRaises : ¬ OnlyRaises { netDeviceSpeed := 10000 } largeDefault.toSettingsFile := by
  rintro ⟨s, hs, hbelow, -⟩
  have hrun : (Program.daemon.fDoSystemTuning { netDeviceSpeed := 10000 } {}
      (largeDefault.lines.map SettingLine.text)).map SysTuning.changes =
        some [("net.ipv4.tcp_rmem", .triple 4096 87380 1147483647)] := by decide +kernel
  rw [hs, Option.map_some, Option.some.injEq] at hrun
  obtain ⟨l, hl, -, hnot⟩ := hbelow _ (hrun ▸ List.mem_singleton_self _)
  obtain rfl := List.mem_singleton.mp hl
  exact absurd hnot.2.1 (by decide +kernel)

end TuningMod

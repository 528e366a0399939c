/-
# Settings that settle

What is recommended is run at once or from the menu, and then the host is
assessed again. A kernel that takes every value it is given has nothing to be
recommended the second time, whichever of the two programs looks and with
whatever flags. The congestion controls in its list may be others by then, and
`modprobe` may do what it did not do before: if htcp was not to be had the first
time, and now is, htcp is recommended, and nothing else.

The ring buffers of a NIC with 100 Gb/s need not settle: below 8192 the size
goes to 8192 first and to the largest one the next time, and a size above 8192
that is not the largest is recommended as it is, every time again.

Key definitions: `CurrentValue.write`, `SettingsFile.after`, `SettingLine.new`, `HtcpComes`, `RingBuffer.after`,
`RingBuffer.Stuck`.
Key theorems: `tuneLine_new`, `new_write`, `new_after`, `settings_settle`, `rings_settle`.
-/
import TuningMod.Numerals
import TuningMod.RequestText
import TuningMod.ScannerBounds
import TuningMod.SettingsRaised

namespace TuningMod

open KeyValues

/-! ### A kernel that takes what is written -/

/-- What `sysctl` prints behind the equals sign once a value has been set. -/
def CurrentValue.write : CurrentValue → NewValue → CurrentValue
  | number _, .number minimum => number (uText minimum)
  | triple .., .triple minimum xDefault maximum => triple (uText minimum) (uText xDefault.toNat) (uText maximum)
  | text _, .number minimum => text (uText minimum)
  | text _, .text s => text (bytes s)
  | v, _ => v

theorem CurrentValue.fits_write {v : CurrentValue} {g : GdvSetting} (new : NewValue) (h : v.Fits g = true) :
    (v.write new).Fits g = true := by
  cases v <;> cases new <;> exact h

/-- A value that is no line of the listing is not taken. -/
def SettingLine.write (l : SettingLine) (new : NewValue) : SettingLine :=
  if h : (l.value.write new).WellFormed then
    ⟨l.setting, l.value.write new, h, CurrentValue.fits_write new l.fits⟩
  else l

/-- The line after the commands that set its setting; the last one counts. -/
def SettingLine.after (changes : List (String × NewValue)) (l : SettingLine) : SettingLine :=
  (changes.reverse.find? fun c => c.1 = l.setting.name).elim l fun c => l.write c.2

theorem SettingLine.write_setting (l : SettingLine) (new : NewValue) : (l.write new).setting = l.setting := by
  unfold write
  split_ifs <;> rfl

theorem SettingLine.after_setting (changes : List (String × NewValue)) (l : SettingLine) :
    (l.after changes).setting = l.setting := by
  unfold after
  cases changes.reverse.find? fun c => c.1 = l.setting.name with
  | none => rfl
  | some c => exact l.write_setting c.2

/-- The congestion controls that a kernel lists: names on a line, the first of
which begins with a letter. -/
structure CongestionControls where
  names : List UInt8
  one_line : ∀ c ∈ names, c ≠ 10 ∧ c ≠ 0
  letter : names.head?.any isdigit = false
  fits : names.length < 256

/-- The line that lists them. -/
def CongestionControls.line (controls : CongestionControls) : SettingLine :=
  ⟨.availableCongestionControl, .text controls.names, controls.one_line, rfl⟩

/-- A line of the next listing. -/
def SettingLine.next (changes : List (String × NewValue)) (controls : CongestionControls) (l : SettingLine) :
    SettingLine :=
  if l.setting = .availableCongestionControl then controls.line else l.after changes

theorem SettingLine.next_setting (changes : List (String × NewValue)) (controls : CongestionControls)
    (l : SettingLine) : (l.next changes controls).setting = l.setting := by
  unfold next
  split_ifs with h
  · exact h.symm
  · exact l.after_setting changes

/-- What the script lists after the commands, with the congestion controls that the kernel has then. -/
def SettingsFile.after {netDeviceSpeed : ℤ} (file : SettingsFile netDeviceSpeed) (changes : List (String × NewValue))
    (controls : CongestionControls) : SettingsFile netDeviceSpeed where
  lines := file.lines.map (SettingLine.next changes controls)
  ofScript := by
    rw [List.map_map]
    have hsame : (fun l : SettingLine => l.setting) ∘ SettingLine.next changes controls = fun l => l.setting :=
      funext fun l => l.next_setting changes controls
    rw [hsame]
    exact file.ofScript

/-! ### What is recommended for a line -/

/-- The name in `aStringval` for a setting with a string. -/
def GdvSetting.wanted (g : GdvSetting) : String := (aStringval[g.row.minimum]?).getD ""

/-- htcp is in the list, or `modprobe` finds it. -/
def htcpFound (modprobe : ModprobeResult) (avail : Bool) : Bool := avail || modprobe = .silent

/-- A string, with `congestion_control_recommended_avail`. -/
def GdvSetting.newText (modprobe : ModprobeResult) (avail : Bool) (g : GdvSetting) (value : List UInt8) :
    Option NewValue :=
  if value = bytes g.wanted ∨ g = .availableCongestionControl ∨
      g = .congestionControl ∧ htcpFound modprobe avail = false then none
  else some (.text g.wanted)

def GdvSetting.availText (avail : Bool) (g : GdvSetting) (value : List UInt8) : Bool :=
  avail || (g = .availableCongestionControl && value ≠ bytes g.wanted && strstr (bytes "htcp") value)

def GdvSetting.newNumber (g : GdvSetting) (value : List UInt8) : Option NewValue :=
  if unsigned (atoiText value) < g.row.minimum then some (.number g.row.minimum) else none

/-- The new value for a line. A string that begins with a digit is taken for a number. -/
def SettingLine.new (p : Program) (modprobe : ModprobeResult) (avail : Bool) (l : SettingLine) : Option NewValue :=
  match l.value with
  | .number n => l.setting.newNumber n
  | .triple min _ max =>
    if (p = .standAlone ∨ unsigned (atoiText min) ≤ 4096) ∧ unsigned (atoiText max) < 1147483647 then
      some (.triple 4096 l.setting.row.xDefault 1147483647)
    else none
  | .text s => if s.head?.any isdigit then l.setting.newNumber s else l.setting.newText modprobe avail s

/-- `congestion_control_recommended_avail` behind the line. -/
def SettingLine.availAfter (avail : Bool) (l : SettingLine) : Bool :=
  match l.value with
  | .text s => if s.head?.any isdigit then avail else l.setting.availText avail s
  | _ => avail

/-- The flag behind the lines. -/
def availBehind (lines : List SettingLine) (avail : Bool) : Bool :=
  lines.foldl (fun avail l => l.availAfter avail) avail

/-- Another congestion control than htcp is in use. -/
def SettingLine.Waits (l : SettingLine) : Prop :=
  l.setting = .congestionControl ∧ ∃ value, l.value = .text value ∧ value.head?.any isdigit = false ∧
    value ≠ bytes "htcp"

/-- The line is about a congestion control other than htcp, which is found now and was not before. -/
def HtcpComes (modprobe modprobe' : ModprobeResult) (lines lines' : List SettingLine) (avail avail' : Bool) : Prop :=
  (∃ l ∈ lines, l.Waits) ∧ htcpFound modprobe (availBehind lines avail) = false ∧
    htcpFound modprobe' (availBehind lines' avail') = true

def htcpChange : String × NewValue := ("net.ipv4.tcp_congestion_control", .text "htcp")

section Line

variable {p : Program} {env : TuningEnv} {s : SysTuning} {g : GdvSetting} {l : SettingLine} {value : List UInt8}
  {avail : Bool} {modprobe : ModprobeResult} {new : NewValue}

theorem name_iff : (g.row.setting = "net.ipv4.tcp_available_congestion_control" ↔ g = .availableCongestionControl) ∧
    (g.row.setting = "net.ipv4.tcp_congestion_control" ↔ g = .congestionControl) := by
  cases g <;> decide

theorem recommendString_cases (h : g.isText = true) {t : SysTuning} {new : Option NewValue}
    (ht : recommendString env g.row value s = some (t, new)) :
    new = g.newText env.modprobe s.congestionControlRecommendedAvail value ∧
      t.congestionControlRecommendedAvail = g.availText s.congestionControlRecommendedAvail value := by
  obtain ⟨r, hr⟩ := row_text h
  have hwanted : g.wanted = r := by rw [GdvSetting.wanted, hr, Option.getD_some]
  have hpure : ∀ {x y : SysTuning × Option NewValue}, (pure x : Option (SysTuning × Option NewValue)) = some y →
      x = y := Option.some.inj
  unfold GdvSetting.newText GdvSetting.availText
  rw [hwanted]
  simp only [recommendString, hr, Option.bind_eq_bind, Option.bind_some, name_iff] at ht
  split_ifs at ht with hsame havailable hcongestion
  · obtain ⟨rfl, rfl⟩ := Prod.mk.inj (hpure ht)
    simp [hsame]
  · obtain ⟨rfl, rfl⟩ := Prod.mk.inj (hpure ht)
    simp [hsame, havailable]
  · obtain ⟨rfl, havail⟩ := hcongestion
    cases hm : env.modprobe <;> rw [hm] at ht <;> obtain ⟨rfl, rfl⟩ := Prod.mk.inj (hpure ht) <;>
      simp_all [htcpFound]
  · obtain ⟨rfl, rfl⟩ := Prod.mk.inj (hpure ht)
    have hnot : ¬ (g = .congestionControl ∧ htcpFound env.modprobe s.congestionControlRecommendedAvail = false) := by
      rintro ⟨hc, hfound⟩
      exact hcongestion ⟨hc, by simp [(Bool.or_eq_false_iff.mp hfound).1]⟩
    simp [hsame, havailable, hnot]

/-- **A line** adds its new value to the changes, and nothing else. -/
theorem tuneLine_new (hl : l.setting ∈ script env.netDeviceSpeed) (hshort : l.Short) : ∃ t,
    p.tuneLine env s l.text = some t ∧
    (∀ c, c ∈ t.changes ↔ c ∈ s.changes ∨
      ∃ v ∈ l.new p env.modprobe s.congestionControlRecommendedAvail, c = (l.setting.name, v)) ∧
    t.congestionControlRecommendedAvail = l.availAfter s.congestionControlRecommendedAvail := by
  have hfits := l.fits
  have hwf := l.wellFormed
  unfold SettingLine.new SettingLine.availAfter
  cases hv : l.value with
  | triple min deflt max =>
    rw [tuneLine_triple hl hv, if_pos hshort]
    exact ⟨_, rfl, fun c => mem_changes_applyOption, SysTuning.applyOption_avail⟩
  | number n =>
    rw [hv] at hfits hwf
    have hsingle : l.setting.isTriple = false := by
      simp only [CurrentValue.Fits, Bool.and_eq_true, Bool.not_eq_true'] at hfits
      exact hfits.1
    have hdigit : (l.value.printed.head?.any isdigit) = true := by
      obtain ⟨c, rest, rfl⟩ := List.exists_cons_of_ne_nil hwf.1
      rw [hv]
      exact hwf.2 c List.mem_cons_self
    rw [tuneLine_text hl, if_pos hshort, if_pos hdigit, recommendNumber_single (row_single hsingle), hv]
    exact ⟨_, rfl, fun c => mem_changes_applyOption, SysTuning.applyOption_avail⟩
  | text value =>
    rw [hv] at hfits
    rw [tuneLine_text hl, if_pos hshort, recommendNumber_single (row_single (isTriple_of_isText hfits)), hv,
      CurrentValue.printed]
    by_cases hdigit : (value.head?.any isdigit) = true
    · rw [if_pos hdigit]
      simp only [hdigit, if_true]
      exact ⟨_, rfl, fun c => mem_changes_applyOption, SysTuning.applyOption_avail⟩
    · obtain ⟨t, new, ht⟩ : ∃ t new, recommendString env l.setting.row value s = some (t, new) :=
        SysTuning.recommendString_some (row_text hfits)
      obtain ⟨rfl, havail⟩ := recommendString_cases hfits ht
      rw [if_neg hdigit, ht]
      simp only [hdigit]
      refine ⟨_, rfl, fun c => ?_, SysTuning.applyOption_avail.trans havail⟩
      rw [← changes_recommendString ht]
      exact mem_changes_applyOption

theorem SettingLine.write_value (h : (l.value.write new).WellFormed) : (l.write new).value = l.value.write new := by
  rw [write, dif_pos h]

theorem row_minimum_le (g : GdvSetting) : g.row.minimum ≤ 2147483647 := by
  cases g <;> decide

/-- The number that is set reads as itself. -/
theorem newNumber_uText (g : GdvSetting) : g.newNumber (uText g.row.minimum) = none := by
  have hread := unsigned_numeral (numeral_uText g.row.minimum) (by rw [decimal_uText]; exact row_minimum_le g)
  rw [decimal_uText] at hread
  rw [GdvSetting.newNumber, hread, if_neg (lt_irrefl _)]

theorem short_uText {n : ℕ} (h : n ≤ 2147483647) : (uText n).length ≤ 10 :=
  length_uText_le (by omega) (by omega)

theorem head_uText (n : ℕ) : (uText n).head?.any isdigit = true := by
  obtain ⟨c, w, hcw⟩ := List.exists_cons_of_ne_nil (numeral_uText n).1
  rw [hcw]
  exact isdigit_uText (n := n) (hcw ▸ List.mem_cons_self)

/-- There is nothing to be set for the line, whatever is found. -/
structure SettingLine.Settled (p : Program) (l : SettingLine) : Prop where
  new : ∀ modprobe avail, l.new p modprobe avail = none
  short : l.Short

theorem settled_number {n : List UInt8} (hv : l.value = .number n) :
    (l.write (.number l.setting.row.minimum)).Settled p := by
  have hwritten : (l.write (.number l.setting.row.minimum)).value = .number (uText l.setting.row.minimum) := by
    rw [SettingLine.write_value] <;> rw [hv]
    · rfl
    · exact numeral_uText _
  constructor
  · intro modprobe avail
    rw [SettingLine.new, hwritten, SettingLine.write_setting]
    exact newNumber_uText _
  · rw [SettingLine.Short, hwritten]
    exact (short_uText (row_minimum_le _)).trans_lt (by norm_num)

theorem settled_digits (hv : l.value = .text value) :
    (l.write (.number l.setting.row.minimum)).Settled p := by
  have hwritten : (l.write (.number l.setting.row.minimum)).value = .text (uText l.setting.row.minimum) := by
    rw [SettingLine.write_value] <;> rw [hv]
    · rfl
    · intro c hc
      have hdigit := isdigit_uText hc
      constructor <;> rintro rfl <;> exact absurd hdigit (by decide)
  constructor
  · intro modprobe avail
    rw [SettingLine.new, hwritten, SettingLine.write_setting]
    simp only [head_uText, if_true]
    exact newNumber_uText _
  · rw [SettingLine.Short, hwritten]
    exact (short_uText (row_minimum_le _)).trans_lt (by norm_num)

theorem settled_triple {min deflt max : List UInt8} (hv : l.value = .triple min deflt max) :
    (l.write (.triple 4096 l.setting.row.xDefault 1147483647)).Settled p := by
  have hwritten : (l.write (.triple 4096 l.setting.row.xDefault 1147483647)).value =
      .triple (uText 4096) (uText l.setting.row.xDefault.toNat) (uText 1147483647) := by
    rw [SettingLine.write_value] <;> rw [hv]
    · rfl
    · exact ⟨numeral_uText _, numeral_uText _, numeral_uText _⟩
  have hmax := unsigned_numeral (numeral_uText 1147483647) (by rw [decimal_uText]; norm_num)
  rw [decimal_uText] at hmax
  constructor
  · intro modprobe avail
    rw [SettingLine.new, hwritten, SettingLine.write_setting]
    dsimp only
    rw [hmax, if_neg (fun h => lt_irrefl _ h.2)]
  · have hdeflt : l.setting.row.xDefault.toNat ≤ 2147483647 := by cases l.setting <;> decide
    have h1 := short_uText (n := 4096) (by norm_num)
    have h2 := short_uText hdeflt
    have h3 := short_uText (n := 1147483647) (by norm_num)
    rw [SettingLine.Short, hwritten]
    simp only [CurrentValue.printed, List.length_append, List.length_cons]
    omega

theorem settled_text (hv : l.value = .text value) (hnew : l.setting.newText modprobe avail value = some new) :
    (l.write new).Settled p := by
  have hfits := l.fits
  rw [hv] at hfits
  unfold GdvSetting.newText at hnew
  split_ifs at hnew with hnone
  obtain rfl := Option.some.inj hnew
  have hname : ∀ g : GdvSetting, g.isText = true →
      (CurrentValue.text (bytes g.wanted)).WellFormed ∧ (bytes g.wanted).length < 256 ∧
        (bytes g.wanted).head?.any isdigit = false := by
    intro g hg
    cases g <;> first | exact absurd hg (by decide) | decide
  obtain ⟨hwf, hshort, hletter⟩ := hname _ hfits
  have hwritten : (l.write (.text l.setting.wanted)).value = .text (bytes l.setting.wanted) := by
    rw [SettingLine.write_value] <;> rw [hv]
    · rfl
    · exact hwf
  constructor
  · intro modprobe avail
    rw [SettingLine.new, hwritten, SettingLine.write_setting]
    simp [hletter, GdvSetting.newText]
  · rw [SettingLine.Short, hwritten]
    exact hshort

/-- **What is set for a line is right for it.** -/
theorem new_write (h : l.new p modprobe avail = some new) : (l.write new).Settled p := by
  unfold SettingLine.new at h
  cases hv : l.value with
  | number n =>
    rw [hv] at h
    obtain ⟨-, h⟩ := Option.ite_none_right_eq_some.mp h
    obtain rfl := Option.some.inj h
    exact settled_number hv
  | triple min deflt max =>
    rw [hv] at h
    obtain ⟨-, h⟩ := Option.ite_none_right_eq_some.mp h
    obtain rfl := Option.some.inj h
    exact settled_triple hv
  | text value =>
    rw [hv] at h
    dsimp only at h
    by_cases hd : value.head?.any isdigit = true
    · rw [if_pos hd] at h
      obtain ⟨-, h⟩ := Option.ite_none_right_eq_some.mp h
      obtain rfl := Option.some.inj h
      exact settled_digits hv
    · rw [if_neg hd] at h
      exact settled_text hv h

theorem availAfter_of_ne (h : l.setting ≠ .availableCongestionControl) (avail : Bool) : l.availAfter avail = avail := by
  unfold SettingLine.availAfter GdvSetting.availText
  cases l.value with
  | number n => rfl
  | triple min deflt max => rfl
  | text value =>
    dsimp only
    split_ifs
    · rfl
    · simp [h]

/-- For a line that waits htcp is the new value, if it is found. -/
theorem new_of_waits (h : l.Waits) : l.new p modprobe avail =
    if htcpFound modprobe avail then some (.text "htcp") else none := by
  obtain ⟨hsetting, value, hv, hd, hother⟩ := h
  rw [SettingLine.new, hv, hsetting]
  simp only [hd, Bool.false_eq_true, if_false]
  unfold GdvSetting.newText
  cases htcpFound modprobe avail with
  | true =>
    have hname : value ≠ bytes GdvSetting.congestionControl.wanted := hother
    exact if_neg (by simpa using hname)
  | false => exact if_pos (.inr (.inr ⟨rfl, rfl⟩))

/-- For any other line it makes no difference whether htcp is found. -/
theorem new_of_not_waits (h : ¬ l.Waits) (modprobe modprobe' : ModprobeResult) (avail avail' : Bool) :
    l.new p modprobe avail = l.new p modprobe' avail' := by
  unfold SettingLine.new
  cases hv : l.value with
  | number n => rfl
  | triple min deflt max => rfl
  | text value =>
    dsimp only
    by_cases hd : value.head?.any isdigit = true
    · rw [if_pos hd, if_pos hd]
    · rw [if_neg hd, if_neg hd]
      unfold GdvSetting.newText
      by_cases hg : l.setting = .congestionControl
      · have hhtcp : value = bytes l.setting.wanted := by
          rw [hg]
          by_contra hother
          exact h ⟨hg, value, hv, Bool.not_eq_true _ ▸ hd, hother⟩
        rw [if_pos (.inl hhtcp), if_pos (.inl hhtcp)]
      · simp [hg]

/-- **A line the second time.** Only htcp may have to be set, for one that still waits. -/
theorem new_after (p : Program) (modprobe modprobe' : ModprobeResult) (avail avail' : Bool) (l : SettingLine)
    (v : NewValue) : ((l.new p modprobe avail).elim l l.write).new p modprobe' avail' = some v ↔
      v = .text "htcp" ∧ l.Waits ∧ htcpFound modprobe avail = false ∧ htcpFound modprobe' avail' = true := by
  cases hnew : l.new p modprobe avail with
  | some w =>
    rw [Option.elim_some, (new_write hnew).new]
    refine iff_of_false (Option.some_ne_none v).symm ?_
    rintro ⟨-, hwaits, hfound, -⟩
    rw [new_of_waits hwaits, hfound] at hnew
    cases hnew
  | none =>
    rw [Option.elim_none]
    by_cases hwaits : l.Waits
    · rw [new_of_waits hwaits] at hnew ⊢
      have hfound : htcpFound modprobe avail = false := by
        by_contra htrue
        rw [Bool.not_eq_false] at htrue
        rw [htrue] at hnew
        cases hnew
      rw [Option.ite_none_right_eq_some, Option.some.injEq, and_comm]
      exact ⟨fun h => ⟨h.1.symm, hwaits, hfound, h.2⟩, fun h => ⟨h.1.symm, h.2.2.2⟩⟩
    · rw [new_of_not_waits hwaits modprobe' modprobe avail' avail, hnew]
      exact iff_of_false (Option.some_ne_none v).symm fun h => hwaits h.2.1

theorem short_after (hshort : l.Short) : ((l.new p modprobe avail).elim l l.write).Short := by
  cases hnew : l.new p modprobe avail with
  | none => exact hshort
  | some v => exact (new_write hnew).short

theorem waits_name (h : l.Waits) : l.setting.name = htcpChange.1 := by
  rw [h.1]
  rfl

/-- The list of the congestion controls is never set. -/
theorem settled_controls (p : Program) (controls : CongestionControls) : controls.line.Settled p where
  new modprobe avail := by
    rw [SettingLine.new, CongestionControls.line]
    simp only [controls.letter, Bool.false_eq_true, if_false]
    exact if_pos (.inr (.inl rfl))
  short := controls.fits

end Line

/-! ### The whole listing -/

section File

variable {p : Program} {env env' : TuningEnv} {s t u : SysTuning} {l : SettingLine} {lines : List SettingLine}
  {changes : List (String × NewValue)}

theorem name_injective : Function.Injective GdvSetting.name := by
  intro g g'
  cases g <;> cases g' <;> decide

/-- The lines of other settings leave alone what is set for one. -/
theorem changes_other (hl : ∀ l ∈ lines, l.setting ∈ script env.netDeviceSpeed) (hshort : ∀ l ∈ lines, l.Short)
    {g : GdvSetting} (hg : ∀ l ∈ lines, l.setting ≠ g)
    (h : p.fDoSystemTuning env s (lines.map SettingLine.text) = some t) (v : NewValue) :
    (g.name, v) ∈ t.changes ↔ (g.name, v) ∈ s.changes := by
  induction lines generalizing s with
  | nil =>
    obtain rfl : s = t := Option.some.inj h
    rfl
  | cons l lines ih =>
    rw [List.forall_mem_cons] at hl hshort hg
    obtain ⟨r, hr, hadds, -⟩ := tuneLine_new (p := p) (s := s) hl.1 hshort.1
    rw [List.map_cons, fDoSystemTuning_cons, hr, Option.bind_some] at h
    rw [ih hl.2 hshort.2 hg.2 h, hadds]
    refine or_iff_left ?_
    rintro ⟨w, -, hw⟩
    exact hg.1 (name_injective (Prod.mk.inj hw).1).symm

/-- A line after commands that set its new value and no other. -/
theorem after_eq {new : Option NewValue} (h : ∀ v, (l.setting.name, v) ∈ changes ↔ v ∈ new) :
    l.after changes = new.elim l l.write := by
  unfold SettingLine.after
  cases hfind : changes.reverse.find? fun c => c.1 = l.setting.name with
  | none =>
    cases new with
    | none => rfl
    | some v =>
      have hmem := (h v).mpr rfl
      have hnot := List.find?_eq_none.mp hfind _ (List.mem_reverse.mpr hmem)
      exact absurd (decide_eq_true rfl) hnot
  | some c =>
    obtain ⟨name, v⟩ := c
    have hname : name = l.setting.name := by simpa using List.find?_some hfind
    subst hname
    have hv := (h v).mp (List.mem_reverse.mp (List.mem_of_find?_eq_some hfind))
    rw [hv]
    rfl

/-- **A line of the next listing.** -/
theorem tuneLine_next (controls : CongestionControls) (hspeed : env'.netDeviceSpeed = env.netDeviceSpeed)
    (hl : l.setting ∈ script env.netDeviceSpeed) (hshort : l.Short)
    (hafter : ∀ v, (l.setting.name, v) ∈ changes ↔ v ∈ l.new p env.modprobe s.congestionControlRecommendedAvail) :
    ∃ r, p.tuneLine env' u (l.next changes controls).text = some r ∧
      (∀ c, c ∈ r.changes ↔ c ∈ u.changes ∨ c = htcpChange ∧ l.Waits ∧
        htcpFound env.modprobe s.congestionControlRecommendedAvail = false ∧
        htcpFound env'.modprobe u.congestionControlRecommendedAvail = true) ∧
      r.congestionControlRecommendedAvail =
        (l.next changes controls).availAfter u.congestionControlRecommendedAvail := by
  have hscript : (l.next changes controls).setting ∈ script env'.netDeviceSpeed := by rwa [l.next_setting, hspeed]
  by_cases hcontrols : l.setting = .availableCongestionControl
  · have hnext : l.next changes controls = controls.line := if_pos hcontrols
    rw [hnext] at hscript ⊢
    obtain ⟨r, hr, hadds, hflag⟩ := tuneLine_new (p := p) (s := u) hscript (settled_controls p controls).short
    refine ⟨r, hr, fun c => ?_, hflag⟩
    have hwaits : ¬ l.Waits := fun h => by cases h.1.symm.trans hcontrols
    rw [hadds, (settled_controls p controls).new]
    simp [hwaits]
  · have hnext : l.next changes controls =
        (l.new p env.modprobe s.congestionControlRecommendedAvail).elim l l.write :=
      (if_neg hcontrols).trans (after_eq hafter)
    have hsetting : (l.next changes controls).setting.name = l.setting.name := by rw [l.next_setting]
    rw [hnext] at hscript hsetting ⊢
    obtain ⟨r, hr, hadds, hflag⟩ := tuneLine_new (p := p) (s := u) hscript (short_after hshort)
    refine ⟨r, hr, fun c => ?_, hflag⟩
    rw [hadds, hsetting]
    refine or_congr_right ⟨?_, ?_⟩
    · rintro ⟨v, hv, rfl⟩
      obtain ⟨rfl, hcomes⟩ := (new_after ..).mp hv
      exact ⟨Prod.ext (waits_name hcomes.1) rfl, hcomes⟩
    · rintro ⟨rfl, hcomes⟩
      exact ⟨_, (new_after ..).mpr ⟨rfl, hcomes⟩, Prod.ext (waits_name hcomes.1).symm rfl⟩

/-- The script asks for the list first. -/
def Ordered (lines : List SettingLine) : Prop :=
  lines.Pairwise fun l m => l.setting = .congestionControl → m.setting ≠ .availableCongestionControl

theorem availBehind_of_ne (h : ∀ l ∈ lines, l.setting ≠ .availableCongestionControl) (avail : Bool) :
    availBehind lines avail = avail := by
  induction lines generalizing avail with
  | nil => rfl
  | cons l lines ih =>
    rw [List.forall_mem_cons] at h
    rw [availBehind, List.foldl_cons, availAfter_of_ne h.1]
    exact ih h.2 avail

/-- htcp comes with the first line, or behind it. -/
theorem htcpComes_cons {next : SettingLine → SettingLine} {modprobe modprobe' : ModprobeResult} {avail avail' : Bool}
    (hnext : ∀ l : SettingLine, (next l).setting = l.setting) (hordered : Ordered (l :: lines)) :
    HtcpComes modprobe modprobe' (l :: lines) ((l :: lines).map next) avail avail' ↔
      (l.Waits ∧ htcpFound modprobe avail = false ∧ htcpFound modprobe' avail' = true) ∨
        HtcpComes modprobe modprobe' lines (lines.map next) (l.availAfter avail) ((next l).availAfter avail') := by
  have hbehind : availBehind (l :: lines) avail = availBehind lines (l.availAfter avail) ∧
      availBehind ((l :: lines).map next) avail' = availBehind (lines.map next) ((next l).availAfter avail') :=
    ⟨rfl, rfl⟩
  unfold HtcpComes
  rw [hbehind.1, hbehind.2, List.exists_mem_cons_iff, or_and_right]
  refine or_congr_left (and_congr_right fun hwaits => ?_)
  -- the lines behind one that waits leave the flag as it is
  have hother : l.setting ≠ .availableCongestionControl := fun h => by cases hwaits.1.symm.trans h
  have hlater := fun m hm => (List.pairwise_cons.mp hordered).1 m hm hwaits.1
  have hlater' : ∀ m ∈ lines.map next, m.setting ≠ .availableCongestionControl := by
    rw [List.forall_mem_map]
    exact fun m hm => by rw [hnext]; exact hlater m hm
  rw [availBehind_of_ne hlater, availBehind_of_ne hlater', availAfter_of_ne hother,
    availAfter_of_ne (by rwa [hnext])]

/-- **The lines**, from where no command has been given for any of them. -/
theorem fDoSystemTuning_next (controls : CongestionControls) (hspeed : env'.netDeviceSpeed = env.netDeviceSpeed)
    (hl : ∀ l ∈ lines, l.setting ∈ script env.netDeviceSpeed) (hshort : ∀ l ∈ lines, l.Short)
    (hnodup : (lines.map fun l => l.setting).Nodup) (hordered : Ordered lines)
    (hfresh : ∀ l ∈ lines, ∀ v, (l.setting.name, v) ∉ s.changes)
    (h : p.fDoSystemTuning env s (lines.map SettingLine.text) = some t)
    (hchanges : ∀ l ∈ lines, ∀ v, (l.setting.name, v) ∈ changes ↔ (l.setting.name, v) ∈ t.changes) :
    ∃ r, p.fDoSystemTuning env' u ((lines.map (SettingLine.next changes controls)).map SettingLine.text) = some r ∧
      ∀ c, c ∈ r.changes ↔ c ∈ u.changes ∨ c = htcpChange ∧ HtcpComes env.modprobe env'.modprobe lines
        (lines.map (SettingLine.next changes controls)) s.congestionControlRecommendedAvail
        u.congestionControlRecommendedAvail := by
  induction lines generalizing s u with
  | nil =>
    refine ⟨u, rfl, fun c => ?_⟩
    simp [HtcpComes]
  | cons l lines ih =>
    rw [List.map_cons, List.nodup_cons] at hnodup
    rw [List.forall_mem_cons] at hl hshort hfresh hchanges
    have hother : ∀ m ∈ lines, m.setting ≠ l.setting := fun m hm he => hnodup.1 (List.mem_map.mpr ⟨m, hm, he⟩)
    obtain ⟨s', hs', hadds, hflag⟩ := tuneLine_new (p := p) (s := s) hl.1 hshort.1
    rw [List.map_cons, fDoSystemTuning_cons, hs', Option.bind_some] at h
    -- behind this line no command is given for its setting
    have hafter : ∀ v, (l.setting.name, v) ∈ changes ↔
        v ∈ l.new p env.modprobe s.congestionControlRecommendedAvail := by
      intro v
      rw [hchanges.1, changes_other hl.2 hshort.2 hother h, hadds]
      constructor
      · rintro (hv | ⟨w, hw, hvw⟩)
        · exact absurd hv (hfresh.1 v)
        · rwa [(Prod.mk.inj hvw).2]
      · exact fun hv => .inr ⟨v, hv, rfl⟩
    obtain ⟨u', hu', hadds', hflag'⟩ := tuneLine_next (u := u) controls hspeed hl.1 hshort.1 hafter
    have hfresh' : ∀ m ∈ lines, ∀ v, (m.setting.name, v) ∉ s'.changes := by
      intro m hm v hv
      rcases (hadds _).mp hv with hv | ⟨w, -, hw⟩
      · exact hfresh.2 m hm v hv
      · exact hother m hm (name_injective (Prod.mk.inj hw).1)
    obtain ⟨r, hr, hrest⟩ := ih (u := u') hl.2 hshort.2 hnodup.2 (List.pairwise_cons.mp hordered).2 hfresh' h hchanges.2
    refine ⟨r, ?_, fun c => ?_⟩
    · rw [List.map_cons, List.map_cons, fDoSystemTuning_cons, hu', Option.bind_some]
      exact hr
    · rw [hrest, hadds', htcpComes_cons (SettingLine.next_setting changes controls) hordered, hflag, hflag', or_assoc,
        ← and_or_left]

theorem changes_initial : ({} : SysTuning).changes = [] := by
  simp [SysTuning.changes]

theorem nodup_settings {netDeviceSpeed : ℤ} (file : SettingsFile netDeviceSpeed) :
    (file.lines.map fun l => l.setting).Nodup := by
  have hscript : (script netDeviceSpeed).Nodup := by
    unfold script
    split_ifs <;> decide
  exact hscript.sublist file.ofScript

theorem ordered_settings {netDeviceSpeed : ℤ} (file : SettingsFile netDeviceSpeed) : Ordered file.lines := by
  have hscript : (script netDeviceSpeed).Pairwise fun g g' =>
      g = .congestionControl → g' ≠ .availableCongestionControl := by
    unfold script
    split_ifs <;> decide
  exact List.pairwise_map.mp (hscript.sublist file.ofScript)

end File

/-- **Settings settle.** Once what a program has set or recommended is set, it sets
and recommends nothing any more, whether it applies its settings or not, but for
htcp where it was not to be had and now is. -/
theorem settings_settle (p : Program) (env : TuningEnv) (file : SettingsFile env.netDeviceSpeed) {t : SysTuning}
    (h : p.fDoSystemTuning env {} (file.lines.map SettingLine.text) = some t) (apply permanent : UInt8)
    (modprobe : ModprobeResult) (controls : CongestionControls) :
    ∃ r, p.fDoSystemTuning { env with
          gApplyDefSysTuning := apply, gMakeTuningPermanent := permanent, modprobe := modprobe } {}
        ((file.after t.changes controls).lines.map SettingLine.text) = some r ∧
      ∀ c, c ∈ r.changes ↔ c = htcpChange ∧
        HtcpComes env.modprobe modprobe file.lines (file.after t.changes controls).lines false false := by
  have hfresh : ∀ l ∈ file.lines, ∀ v, (l.setting.name, v) ∉ ({} : SysTuning).changes := by
    intro l _ v
    rw [changes_initial]
    exact List.not_mem_nil
  have hl := setting_mem file
  have hspeed : ({ env with gApplyDefSysTuning := apply, gMakeTuningPermanent := permanent, modprobe := modprobe } :
      TuningEnv).netDeviceSpeed = env.netDeviceSpeed := rfl
  obtain ⟨r, hr, hchanges⟩ := fDoSystemTuning_next (u := {}) controls hspeed hl (short_of_some hl h)
    (nodup_settings file) (ordered_settings file) hfresh h fun _ _ _ => .rfl
  refine ⟨r, hr, fun c => ?_⟩
  rw [hchanges, changes_initial]
  exact or_iff_right List.not_mem_nil

/-- What the stand-alone assessor recommends for `currentConfig`. -/
def currentTuning : SysTuning where
  congestionControlRecommendedAvail := true
  saved := [.set "net.ipv4.tcp_wmem" (.triple 4096 65536 1147483647)]

/-- The list without htcp. -/
def withoutHtcp : CongestionControls := ⟨bytes "reno cubic", by decide +kernel, rfl, by decide⟩

theorem settings_settle_current : ∃ r,
    Program.standAlone.fDoSystemTuning
        { netDeviceSpeed := 10000, gApplyDefSysTuning := 121, gMakeTuningPermanent := 110, modprobe := .printed } {}
        ((currentConfig.after currentTuning.changes withoutHtcp).lines.map SettingLine.text) = some r ∧
      ∀ c, c ∈ r.changes ↔ c = htcpChange ∧ HtcpComes .silent .printed currentConfig.lines
        (currentConfig.after currentTuning.changes withoutHtcp).lines false false :=
  settings_settle .standAlone { netDeviceSpeed := 10000 } currentConfig (t := currentTuning) (by decide +kernel) 121 110
    .printed withoutHtcp

/-! ### The ring buffers -/

/-- One side of a NIC. -/
@[ext]
structure RingBuffer where
  max : ℕ
  cur : ℕ
  cur_le : cur ≤ max
  isInt : max ≤ 2147483647

/-- A device whose name is not taken for one of the two sides. -/
structure RingDevice where
  name : List UInt8
  plain : hasRX (bytes "Ring parameters for " ++ name ++ bytes ":\n") = false ∧
    hasTX (bytes "Ring parameters for " ++ name ++ bytes ":\n") = false

def RingSide.label : RingSide → List UInt8
  | rx => bytes "RX:\t\t"
  | tx => bytes "TX:\t\t"

/-- A line with a size. -/
def sizeLine (side : RingSide) (n : ℕ) : List UInt8 := side.label ++ (uText n ++ [10])

/-- `ethtool --show-ring`. -/
def RingDevice.listing (d : RingDevice) (v : RingSide → RingBuffer) : List (List UInt8) :=
  [bytes "Ring parameters for " ++ d.name ++ bytes ":\n", bytes "Pre-set maximums:\n",
    sizeLine .rx (v .rx).max, bytes "RX Mini:\t0\n", bytes "RX Jumbo:\t0\n", sizeLine .tx (v .tx).max,
    bytes "Current hardware settings:\n",
    sizeLine .rx (v .rx).cur, bytes "RX Mini:\t0\n", bytes "RX Jumbo:\t0\n", sizeLine .tx (v .tx).cur]

namespace RingBuffer

variable (netDeviceSpeed : ℤ) (r : RingBuffer)

def size : RingSize := ⟨r.max, r.cur⟩

/-- The current size after `ethtool -G`. -/
def next : ℕ := (cappedSize netDeviceSpeed r.size).elim r.cur Int.toNat

variable {netDeviceSpeed r}

theorem cappedSize_none : cappedSize netDeviceSpeed r.size = none ↔ netDeviceSpeed < 100000 ∨ r.cur = r.max := by
  have hle := r.cur_le
  unfold cappedSize size
  dsimp only
  split_ifs with hlt hspeed
  · exact iff_of_true rfl (.inl hspeed)
  · simp only [false_iff]
    omega
  · exact iff_of_true rfl (.inr (by omega))

theorem next_of_none (h : netDeviceSpeed < 100000 ∨ r.cur = r.max) : r.next netDeviceSpeed = r.cur := by
  rw [next, cappedSize_none.mpr h]
  rfl

theorem next_of_lt (hspeed : 100000 ≤ netDeviceSpeed) (h : r.cur < r.max) : r.next netDeviceSpeed =
    if r.cur < 8192 then min r.max 8192 else if r.cur = 8192 then r.max else r.cur := by
  have hlt : r.size.cfgCurVal < r.size.cfgMaxVal := by
    change (r.cur : ℤ) < r.max
    omega
  rw [next, cappedSize_eq hspeed hlt, Option.elim_some]
  unfold size
  dsimp only
  split_ifs <;> omega

theorem next_mem (netDeviceSpeed : ℤ) (r : RingBuffer) :
    r.cur ≤ r.next netDeviceSpeed ∧ r.next netDeviceSpeed ≤ r.max := by
  have hle := r.cur_le
  by_cases h : netDeviceSpeed < 100000 ∨ r.cur = r.max
  · rw [next_of_none h]
    omega
  · rw [next_of_lt (by omega) (by omega)]
    split_ifs <;> omega

/-- A NIC takes a size up to its largest one. -/
def after (netDeviceSpeed : ℤ) (r : RingBuffer) : RingBuffer where
  max := r.max
  cur := r.next netDeviceSpeed
  cur_le := (next_mem netDeviceSpeed r).2
  isInt := r.isInt

/-- Above 8192 and not the largest size. -/
def Stuck (netDeviceSpeed : ℤ) (r : RingBuffer) : Prop := 100000 ≤ netDeviceSpeed ∧ 8192 < r.cur ∧ r.cur < r.max

theorem after_stuck (h : r.Stuck netDeviceSpeed) : r.after netDeviceSpeed = r := by
  obtain ⟨hspeed, hcur, hmax⟩ := h
  refine RingBuffer.ext rfl ?_
  change r.next netDeviceSpeed = r.cur
  rw [next_of_lt hspeed hmax, if_neg (by omega), if_neg (by omega)]

theorem after_done (h : netDeviceSpeed < 100000 ∨ r.cur = r.max) : r.after netDeviceSpeed = r :=
  RingBuffer.ext rfl (next_of_none h)

/-- **Two rounds** bring a side that is not stuck to its largest size. -/
theorem done_after_after (h : ¬ r.Stuck netDeviceSpeed) : netDeviceSpeed < 100000 ∨
    ((r.after netDeviceSpeed).after netDeviceSpeed).cur = r.max := by
  rcases lt_or_ge netDeviceSpeed 100000 with hspeed | hspeed
  · exact .inl hspeed
  right
  have hle := r.cur_le
  by_cases hdone : r.cur = r.max
  · rw [after_done (.inr hdone), after_done (.inr hdone), hdone]
  · have hcur : r.cur ≤ 8192 := by
      by_contra hgt
      exact h ⟨hspeed, by omega, by omega⟩
    have hfirst : (r.after netDeviceSpeed).cur = if r.cur < 8192 then min r.max 8192 else r.max := by
      change r.next netDeviceSpeed = _
      rw [next_of_lt hspeed (by omega)]
      split_ifs <;> omega
    by_cases hnext : (r.after netDeviceSpeed).cur = r.max
    · rw [after_done (.inr hnext), hnext]
    · -- the first round has stopped at 8192
      have hmid : (r.after netDeviceSpeed).cur = 8192 ∧ 8192 < r.max := by
        rw [hfirst] at hnext ⊢
        split_ifs at hnext ⊢ <;> omega
      change (r.after netDeviceSpeed).next netDeviceSpeed = r.max
      have hmax : (r.after netDeviceSpeed).max = r.max := rfl
      rw [next_of_lt hspeed (by omega), hmax, if_neg (by omega), if_pos hmid.1]

/-- From the third time on nothing is recommended for a side, exactly if it is not stuck. -/
theorem rounds (k : ℕ) : cappedSize netDeviceSpeed ((after netDeviceSpeed)^[k + 2] r).size = none ↔
    ¬ r.Stuck netDeviceSpeed := by
  rw [cappedSize_none]
  constructor
  · intro h hstuck
    rw [Function.iterate_fixed (after_stuck hstuck)] at h
    obtain ⟨hspeed, -, hmax⟩ := hstuck
    omega
  · intro h
    have hdone := done_after_after h
    have hmax : ((r.after netDeviceSpeed).after netDeviceSpeed).max = r.max := rfl
    rw [Function.iterate_add_apply]
    change _ ∨ ((after netDeviceSpeed)^[k] ((r.after netDeviceSpeed).after netDeviceSpeed)).cur =
      ((after netDeviceSpeed)^[k] ((r.after netDeviceSpeed).after netDeviceSpeed)).max
    rwa [Function.iterate_fixed (after_done (hdone.imp id fun h => h.trans hmax.symm)), hmax]

end RingBuffer

/-! ### Its listing -/

section Listing

variable {n : ℕ} {s : RingListing} {netDeviceSpeed : ℤ}

/-- A character that is neither a digit nor in a label. -/
theorem notMem_sizeLine {side : RingSide} {c : UInt8} (hdigit : isdigit c = false) (hlabel : c ∉ side.label ++ [10]) :
    c ∉ sizeLine side n := by
  rw [List.mem_append, not_or] at hlabel
  unfold sizeLine
  rw [List.mem_append, List.mem_append, not_or, not_or]
  exact ⟨hlabel.1, notMem_uText hdigit, hlabel.2⟩

theorem cText_sizeLine (side : RingSide) (n : ℕ) : cText (sizeLine side n) = sizeLine side n := by
  have hzero : (0 : UInt8) ∉ sizeLine side n := notMem_sizeLine rfl (by cases side <;> decide +kernel)
  refine cText_eq fun c hc => ?_
  rintro rfl
  exact hzero hc

theorem scanSize_sizeLine (side : RingSide) (hn : n ≤ 2147483647) : scanSize (sizeLine side n) = some (uText n) := by
  obtain ⟨c, w, hcw⟩ := List.exists_cons_of_ne_nil (numeral_uText n).1
  have hc : isdigit c = true := isdigit_uText (n := n) (hcw ▸ List.mem_cons_self)
  have hlabel : ∀ c ∈ side.label, (!isdigit c) = true := by cases side <;> decide +kernel
  have hdigits : scanWhile isdigit (uText n ++ 10 :: [0]) = some (uText n, 10 :: [0]) :=
    scanWhile_append (fun _ => isdigit_uText) rfl _
  have hskip : scanWhile (fun c => !isdigit c) (sizeLine side n ++ [0]) = some (side.label, uText n ++ 10 :: [0]) := by
    rw [sizeLine, List.append_assoc, List.append_assoc, hcw]
    exact scanWhile_append hlabel (by rw [hc]; rfl) _
  have hroom : intoArray (uText n) = some (uText n) := if_pos ((short_uText hn).trans_lt (by norm_num))
  unfold scanSize
  rw [hskip]
  simp only [Option.bind_eq_bind, Option.bind_some]
  rw [hdigits]
  exact hroom

theorem hasRX_rx (n : ℕ) : hasRX (sizeLine .rx n) = true := by
  rw [hasRX, cText_sizeLine, strstr_iff]
  exact (List.prefix_append (bytes "RX:") (bytes "\t\t" ++ (uText n ++ [10]))).isInfix

theorem hasTX_tx (n : ℕ) : hasTX (sizeLine .tx n) = true := by
  rw [hasTX, cText_sizeLine, strstr_iff]
  exact (List.prefix_append (bytes "TX:") (bytes "\t\t" ++ (uText n ++ [10]))).isInfix

theorem hasRX_tx (n : ℕ) : hasRX (sizeLine .tx n) = false := by
  have hR : (82 : UInt8) ∉ sizeLine .tx n := notMem_sizeLine rfl (by decide +kernel)
  rw [hasRX, cText_sizeLine, ← Bool.not_eq_true, strstr_iff]
  exact fun h => hR (h.subset (by decide +kernel))

theorem ringLines_other {line : List UInt8} (h : hasRX line = false ∧ hasTX line = false) (lines : List (List UInt8)) :
    ringLines s (line :: lines) = ringLines s lines := by
  rw [ringLines, ringLine_other s h.1 h.2]
  rfl

theorem atoiText_uText (hn : n ≤ 2147483647) : atoiText (uText n) = n := by
  rw [atoi_numeral (numeral_uText n) (by rwa [decimal_uText]), decimal_uText]

/-- **The listing is read.** -/
theorem ringLines_listing (d : RingDevice) (v : RingSide → RingBuffer) : ∃ s,
    ringLines {} (d.listing v) = some (s, true) ∧ ∀ side, s.sizes side = some (v side).size := by
  have hfixed : ∀ l ∈ [bytes "Pre-set maximums:\n", bytes "RX Mini:\t0\n", bytes "RX Jumbo:\t0\n",
      bytes "Current hardware settings:\n"], hasRX l = false ∧ hasTX l = false := by decide +kernel
  simp only [List.forall_mem_cons] at hfixed
  obtain ⟨hmaximums, hmini, hjumbo, hcurrent, -⟩ := hfixed
  have hmax : ∀ side, (v side).max ≤ 2147483647 := fun side => (v side).isInt
  have hcur : ∀ side, (v side).cur ≤ 2147483647 := fun side => (v side).cur_le.trans (hmax side)
  refine ⟨⟨2, 2, some (uText (v .rx).max), some (uText (v .rx).cur), some (uText (v .tx).max),
    some (uText (v .tx).cur)⟩, ?_, fun side => ?_⟩
  · rw [RingDevice.listing, ringLines_other d.plain, ringLines_other hmaximums]
    simp only [ringLines, ringLine, hasRX_rx, hasRX_tx, hasTX_tx, hmini, hjumbo, hcurrent, scanSize_sizeLine, hmax,
      hcur, Option.map_some, Option.bind_eq_bind]
    rfl
  · cases side <;> simp [RingListing.sizes, RingBuffer.size, atoiText_uText, hmax, hcur]

end Listing

/-- The rings after an assessment and its commands. -/
def ringsAfter (netDeviceSpeed : ℤ) (v : RingSide → RingBuffer) : RingSide → RingBuffer :=
  fun side => (v side).after netDeviceSpeed

theorem iterate_ringsAfter (netDeviceSpeed : ℤ) (v : RingSide → RingBuffer) (k : ℕ) (side : RingSide) :
    (ringsAfter netDeviceSpeed)^[k] v side = (RingBuffer.after netDeviceSpeed)^[k] (v side) := by
  induction k generalizing v with
  | zero => rfl
  | succ k ih =>
    rw [Function.iterate_succ_apply, Function.iterate_succ_apply, ih]
    rfl

/-- Without a command there is none for either side. -/
theorem commands_eq_nil (t : RingTuning) : t.ran = [] ∧ t.saved = [] ↔ ∀ side, t.commands side = [] := by
  have hboth : t.ran = [] ∧ t.saved = [] ↔ t.ran ++ t.saved = [] := List.append_eq_nil_iff.symm
  rw [hboth]
  constructor
  · intro h side
    rw [RingTuning.commands, h, List.filter_nil]
  · intro h
    refine List.eq_nil_iff_forall_not_mem.mpr fun c hc => ?_
    have hmem : c ∈ t.commands c.side := List.mem_filter.mpr ⟨hc, decide_eq_true rfl⟩
    rw [h] at hmem
    exact List.not_mem_nil hmem

/-- **Rings settle** with the third assessment at the latest: from then on nothing
is recommended, exactly if no side is stuck. -/
theorem rings_settle (p : Program) (env : RingEnv) (d : RingDevice) (v : RingSide → RingBuffer) (k : ℕ) : ∃ t,
    p.fDoRingBufferSize env (d.listing ((ringsAfter env.netDeviceSpeed)^[k + 2] v)) = some t ∧
    (t.ran = [] ∧ t.saved = [] ↔ ∀ side, ¬ (v side).Stuck env.netDeviceSpeed) := by
  obtain ⟨s, hread, hsizes⟩ := ringLines_listing d ((ringsAfter env.netDeviceSpeed)^[k + 2] v)
  refine ⟨_, fDoRingBufferSize_eq hread (hsizes .rx) (hsizes .tx), ?_⟩
  rw [commands_eq_nil]
  refine forall_congr' fun side => ?_
  have hsize : (match side with
      | .rx => ((ringsAfter env.netDeviceSpeed)^[k + 2] v .rx).size
      | .tx => ((ringsAfter env.netDeviceSpeed)^[k + 2] v .tx).size) =
        ((RingBuffer.after env.netDeviceSpeed)^[k + 2] (v side)).size := by
    rw [← iterate_ringsAfter]
    cases side <;> rfl
  rw [ringTuning_size, List.map_eq_nil_iff, Option.toList_eq_nil_iff, ← RingBuffer.rounds k]
  exact Iff.of_eq (congrArg (fun v => cappedSize env.netDeviceSpeed v = none) hsize)

end TuningMod

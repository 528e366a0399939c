/-
# How far the tuner moves `tcp_wmem`

When only the tuner writes `net.ipv4.tcp_wmem`, the limits it reads are the
start's or those of its last command. The maximum goes up while it is below
`my_tune_max` and down while it is above 600000, so that it stays between
400001 and `my_tune_max + 199999`, or the start's maximum. Minimum and default
never change; but nothing keeps the maximum above the default. A text that was
never built sets nothing.

Key definitions: `TcpWmem`, `TuneMax`, `TuningHost.step`, `Sane`, `Undercuts`.
Key theorems: `settings_step`, `within_always`, `sane_iff`.
-/
import TuningMod.TuningLog

namespace TuningMod

/-- The limits at the start: ordered, and below `2^31`. -/
structure TcpWmem extends Wmem where
  min_le : (kminimum.toNat : ℤ) ≤ kdefault.toInt
  le_max : kdefault.toInt ≤ kmaximum.toNat
  isInt : kmaximum.toNat < 2 ^ 31

/-- `my_tune_max`, an `int`. -/
structure TuneMax where
  value : UInt32
  isInt : value.toNat < 2 ^ 31

/-- A command that was executed, and the limits it was built from. -/
structure WmemChange where
  tune : ℕ
  before : Wmem
  aApplyDefTun : Option Wmem
  deriving DecidableEq

/-- The tuner, the limits of the system, and what was executed. -/
structure TuningHost where
  thread : TuningThread := .initial
  wmem : Wmem
  changes : List WmemChange := []

namespace TuningHost

variable (myTuneMax : TuneMax)

/-- `sysctl` prints the limits of the system, if it prints anything. -/
def reads (s : TuningHost) (m : TimedMeasurement) : TimedMeasurement :=
  { m with env := { m.env with myTuneMax := myTuneMax.value, wmem := m.env.wmem.map fun _ => s.wmem } }

def executes (s : TuningHost) (m : TimedMeasurement) : Option Executed :=
  executed (s.thread.after (s.reads myTuneMax m)).2

def step (s : TuningHost) (m : TimedMeasurement) : Option TuningHost :=
  (s.thread.step (s.reads myTuneMax m)).map fun thread =>
    match s.executes myTuneMax m with
    | none => { s with thread := thread }
    | some e => {
        thread := thread
        wmem := e.aApplyDefTun.getD s.wmem
        changes := s.changes ++ [⟨thread.tuner.tune, s.wmem, e.aApplyDefTun⟩] }

def initial (start : TcpWmem) : TuningHost where
  wmem := start.toWmem

/-! ### Limits in their bounds -/

/-- The start's minimum and default, and a maximum in the bounds. -/
structure Within (start : TcpWmem) (w : Wmem) : Prop where
  min_eq : w.kminimum = start.kminimum
  default_eq : w.kdefault = start.kdefault
  ge : min start.kmaximum.toNat 400001 ≤ w.kmaximum.toNat
  le : w.kmaximum.toNat ≤ max start.kmaximum.toNat (myTuneMax.value.toNat + 199999)

/-- Within the bounds, and ordered. -/
structure Sane (start : TcpWmem) (w : Wmem) : Prop extends Within myTuneMax start w where
  min_le : (w.kminimum.toNat : ℤ) ≤ w.kdefault.toInt
  le_max : w.kdefault.toInt ≤ w.kmaximum.toNat

/-- The maximum is moved by 200000, without wrapping. -/
def NoWrap (c : WmemChange) (w : Wmem) : Prop :=
  if c.tune = 1 then w.kmaximum.toNat = c.before.kmaximum.toNat + 200000
  else w.kmaximum.toNat + 200000 = c.before.kmaximum.toNat

/-- What was built by raising or lowering the maximum. -/
def Built (P : WmemChange → Wmem → Prop) (changes : List WmemChange) : Prop :=
  ∀ c ∈ changes, c.tune = 1 ∨ c.tune = 2 → ∃ w, c.aApplyDefTun = some w ∧ P c w

/-- The measurement lowers the maximum: it reaches the check, does not give up
and does not climb, and the maximum is not too low already. -/
def Lowers (s : TuningHost) (m : TimedMeasurement) : Prop :=
  Tuner.Reaches (s.reads myTuneMax m).env m.txKbitsPerSec s.wmem s.thread.tuner ∧
    ¬ Tuner.GivesUp (gbits m.txKbitsPerSec) s.thread.tuner ∧ ¬ Tuner.Climbs (gbits m.txKbitsPerSec) s.thread.tuner ∧
    600000 < s.wmem.kmaximum

/-- It lowers the maximum to less than the default. -/
def Undercuts (s : TuningHost) (m : TimedMeasurement) : Prop :=
  s.Lowers myTuneMax m ∧ (s.wmem.kmaximum.toNat : ℤ) < s.wmem.kdefault.toInt + 200000

section Moves

variable {myTuneMax} {start : TcpWmem} {w : Wmem}

theorem toNat_up (h : w.kmaximum < myTuneMax.value) : w.up.kmaximum.toNat = w.kmaximum.toNat + 200000 := by
  have hmax := myTuneMax.isInt
  have hlt := UInt32.lt_iff_toNat_lt.mp h
  have hdelta : ktuningDelta.toNat = 200000 := rfl
  unfold Wmem.up
  rw [UInt32.toNat_add, hdelta, Nat.mod_eq_of_lt (by omega)]

theorem toNat_down (h : 600000 < w.kmaximum) : w.down.kmaximum.toNat + 200000 = w.kmaximum.toNat := by
  have hgt : 600000 < w.kmaximum.toNat := UInt32.lt_iff_toNat_lt.mp h
  have hdelta : ktuningDelta.toNat = 200000 := rfl
  have hle : ktuningDelta ≤ w.kmaximum := by
    rw [UInt32.le_iff_toNat_le, hdelta]
    omega
  unfold Wmem.down
  rw [UInt32.toNat_sub_of_le _ _ hle, hdelta]
  omega

theorem within_start (start : TcpWmem) : Within myTuneMax start start.toWmem where
  min_eq := rfl
  default_eq := rfl
  ge := Nat.min_le_left _ _
  le := Nat.le_max_left _ _

theorem Within.up (h : Within myTuneMax start w) (hlt : w.kmaximum < myTuneMax.value) :
    Within myTuneMax start w.up := by
  have hup := toNat_up hlt
  have hmax := UInt32.lt_iff_toNat_lt.mp hlt
  obtain ⟨hmin, hdefault, hge, hle⟩ := h
  exact ⟨w.up_keeps.1.trans hmin, w.up_keeps.2.trans hdefault, by omega, by omega⟩

theorem Within.down (h : Within myTuneMax start w) (hgt : 600000 < w.kmaximum) : Within myTuneMax start w.down := by
  have hdown := toNat_down hgt
  have hmin' : 600000 < w.kmaximum.toNat := UInt32.lt_iff_toNat_lt.mp hgt
  obtain ⟨hmin, hdefault, hge, hle⟩ := h
  exact ⟨w.down_keeps.1.trans hmin, w.down_keeps.2.trans hdefault, by omega, by omega⟩

theorem sane_start (start : TcpWmem) : Sane myTuneMax start start.toWmem where
  toWithin := within_start start
  min_le := start.min_le
  le_max := start.le_max

theorem Sane.up (h : Sane myTuneMax start w) (hlt : w.kmaximum < myTuneMax.value) : Sane myTuneMax start w.up := by
  have hup := toNat_up hlt
  have hle := h.le_max
  refine ⟨h.toWithin.up hlt, ?_, ?_⟩
  · rw [w.up_keeps.1, w.up_keeps.2]
    exact h.min_le
  · rw [w.up_keeps.2]
    omega

/-- A lower maximum is still ordered if it does not undercut the default. -/
theorem Sane.down_iff (h : Sane myTuneMax start w) (hgt : 600000 < w.kmaximum) :
    Sane myTuneMax start w.down ↔ ¬ (w.kmaximum.toNat : ℤ) < w.kdefault.toInt + 200000 := by
  have hdown := toNat_down hgt
  constructor
  · intro hd
    have hle := hd.le_max
    rw [w.down_keeps.2] at hle
    omega
  · intro hnot
    refine ⟨h.toWithin.down hgt, ?_, ?_⟩
    · rw [w.down_keeps.1, w.down_keeps.2]
      exact h.min_le
    · rw [w.down_keeps.2]
      omega

end Moves

/-! ### What a measurement does to the limits -/

section Steps

variable {myTuneMax} {start : TcpWmem} {s t : TuningHost} {m : TimedMeasurement} {P : Wmem → Prop}

/-- **What is executed**: nothing, the best setting, or the limits with the
maximum raised or lowered. -/
theorem executes_cases (s : TuningHost) (m : TimedMeasurement) :
    let tune := (s.thread.after (s.reads myTuneMax m)).1.tune
    (s.executes myTuneMax m = none ∧ ¬ s.Lowers myTuneMax m) ∨
      (tune = 3 ∧ s.executes myTuneMax m = some ⟨s.thread.tuner.bestWmemVal, none⟩ ∧ ¬ s.Lowers myTuneMax m) ∨
      (tune = 1 ∧ s.executes myTuneMax m = some ⟨some s.wmem.up, some s.wmem.up⟩ ∧
        s.wmem.kmaximum < myTuneMax.value ∧ ¬ s.Lowers myTuneMax m) ∨
      (tune = 2 ∧ s.executes myTuneMax m = some ⟨some s.wmem.down, some s.wmem.down⟩ ∧ s.Lowers myTuneMax m) := by
  unfold executes Lowers TuningThread.after
  have hread : ∀ k, Tuner.Reaches (s.reads myTuneMax m).env m.txKbitsPerSec k s.thread.tuner → k = s.wmem := by
    intro k hk
    obtain ⟨_, _, hmap⟩ := Option.map_eq_some_iff.mp hk.room.1
    exact hmap.symm
  cases Tuner.measure_outcome (s.reads myTuneMax m).env m.txKbitsPerSec m.rxKbitsPerSec s.thread.averaged
    s.thread.tuning with
  | nothing hno he => exact .inl ⟨he, fun h => (hno _ h.1).2.2 h.2.2.2⟩
  | givesUp k hk hg htune hbest he => exact .inr (.inl ⟨htune, he, fun h => h.2.1 hg⟩)
  | climbs k hk hg hc htune he =>
    obtain rfl := hread k hk
    exact .inr (.inr (.inl ⟨htune, he, hk.room.2.2, fun h => h.2.2.1 hc⟩))
  | lowers k hk hg hc hmax htune he =>
    obtain rfl := hread k hk
    exact .inr (.inr (.inr ⟨htune, he, hk, hg, hc, hmax⟩))

/-- The limits of the system and those in the command buffers. -/
structure Settings (P : Wmem → Prop) (s : TuningHost) : Prop where
  wmem : P s.wmem
  command : ∀ w, s.thread.tuner.aApplyDefTunBest = some w → P w
  best : ∀ w, s.thread.tuner.bestWmemVal = some w → P w

theorem settings_initial (h : P start.toWmem) : Settings P (initial start) where
  wmem := h
  command w hw := by cases hw
  best w hw := by cases hw

/-- The state after a measurement, by what it executes. -/
theorem step_eq (hs : s.step myTuneMax m = some t) :
    t.thread.tuner = (s.thread.after (s.reads myTuneMax m)).1 ∧
      (s.executes myTuneMax m = none → t.wmem = s.wmem ∧ t.changes = s.changes) ∧
      ∀ e, s.executes myTuneMax m = some e → t.wmem = e.aApplyDefTun.getD s.wmem ∧
        t.changes = s.changes ++
          [⟨(s.thread.after (s.reads myTuneMax m)).1.tune, s.wmem, e.aApplyDefTun⟩] := by
  obtain ⟨thread, hthread, rfl⟩ := Option.map_eq_some_iff.mp hs
  have htuner := TuningThread.step_tuner hthread
  cases hx : s.executes myTuneMax m with
  | none => exact ⟨htuner, fun _ => ⟨rfl, rfl⟩, nofun⟩
  | some e =>
    refine ⟨htuner, nofun, fun e' he' => ?_⟩
    obtain rfl := Option.some.inj he'
    dsimp only
    rw [htuner]
    exact ⟨rfl, rfl⟩

/-- What is executed has the property, if what the measurement makes of the
limits has it. -/
theorem Settings.executes (h : Settings P s) (hup : s.wmem.kmaximum < myTuneMax.value → P s.wmem.up)
    (hdown : s.Lowers myTuneMax m → P s.wmem.down) {e : Executed} (he : s.executes myTuneMax m = some e) {w : Wmem}
    (hw : e.aApplyDefTun = some w) : P w := by
  rcases s.executes_cases m with ⟨hx, -⟩ | ⟨-, hx, -⟩ | ⟨-, hx, hlt, -⟩ | ⟨-, hx, hlow⟩
  · rw [he] at hx
    cases hx
  · obtain rfl := Option.some.inj (he.symm.trans hx)
    exact h.best w hw
  · obtain rfl := Option.some.inj (he.symm.trans hx)
    obtain rfl := Option.some.inj hw
    exact hup hlt
  · obtain rfl := Option.some.inj (he.symm.trans hx)
    obtain rfl := Option.some.inj hw
    exact hdown hlow

/-- What holds of the settings holds after a measurement, if it holds of what
the measurement makes of the limits. -/
theorem settings_step (h : Settings P s) (hup : s.wmem.kmaximum < myTuneMax.value → P s.wmem.up)
    (hdown : s.Lowers myTuneMax m → P s.wmem.down) (hs : s.step myTuneMax m = some t) : Settings P t := by
  obtain ⟨htuner, hnone, hsome⟩ := step_eq hs
  have hbuffers : Tuner.Buffers s.thread.tuner t.thread.tuner (s.executes myTuneMax m) := by
    rw [htuner]
    exact (Tuner.measure_keeps s.thread.averaged s.thread.tuning).2
  constructor
  · cases hx : s.executes myTuneMax m with
    | none =>
      rw [(hnone hx).1]
      exact h.wmem
    | some e =>
      rw [(hsome e hx).1]
      cases hw : e.aApplyDefTun with
      | none => exact h.wmem
      | some w => exact h.executes hup hdown hx hw
  · intro w hw
    rcases hbuffers.command with hc | hc | ⟨v, hv⟩
    · exact h.command w (hc ▸ hw)
    · exact h.best w (hc ▸ hw)
    · exact h.executes hup hdown hv hw
  · intro w hw
    rcases hbuffers.best with hb | hb
    · exact h.best w (hb ▸ hw)
    · exact h.command w (hb ▸ hw)

/-- A raised or lowered maximum is what was ordered, and does not wrap. -/
theorem built_step (h : Built (fun c w => P w ∧ NoWrap c w) s.changes)
    (hup : s.wmem.kmaximum < myTuneMax.value → P s.wmem.up) (hdown : s.Lowers myTuneMax m → P s.wmem.down)
    (hs : s.step myTuneMax m = some t) : Built (fun c w => P w ∧ NoWrap c w) t.changes := by
  obtain ⟨-, hnone, hsome⟩ := step_eq hs
  have hconcat : ∀ c, (c.tune = 1 ∨ c.tune = 2 → ∃ w, c.aApplyDefTun = some w ∧ P w ∧ NoWrap c w) →
      Built (fun c w => P w ∧ NoWrap c w) (s.changes ++ [c]) := by
    intro c hc
    unfold Built
    rw [List.forall_mem_append, List.forall_mem_singleton]
    exact ⟨h, hc⟩
  rcases s.executes_cases m with ⟨hx, -⟩ | ⟨htune, hx, -⟩ | ⟨htune, hx, hlt, -⟩ | ⟨htune, hx, hlow⟩
  · rw [(hnone hx).2]
    exact h
  · rw [(hsome _ hx).2]
    apply hconcat
    dsimp only
    rw [htune]
    omega
  · rw [(hsome _ hx).2]
    apply hconcat
    refine fun _ => ⟨_, rfl, hup hlt, ?_⟩
    unfold NoWrap
    rw [if_pos htune]
    exact toNat_up hlt
  · rw [(hsome _ hx).2]
    apply hconcat
    refine fun _ => ⟨_, rfl, hdown hlow, ?_⟩
    unfold NoWrap
    rw [if_neg (by simp [htune])]
    exact toNat_down hlow.2.2.2

end Steps

/-! ### Runs -/

/-- **The bounds** hold of every command in every run, and nothing wraps. -/
theorem within_always (myTuneMax : TuneMax) (start : TcpWmem) (ms : List TimedMeasurement) :
    Runs.Always (step myTuneMax) (initial start)
      (fun _ t => Built (fun c w => Within myTuneMax start w ∧ NoWrap c w) t.changes) ms := by
  intro pre suf t _ hr
  refine (Runs.history_inv (P := fun _ t => Settings (Within myTuneMax start) t ∧
    Built (fun c w => Within myTuneMax start w ∧ NoWrap c w) t.changes) ?_ ?_ hr).2
  · exact ⟨settings_initial (within_start start), fun c hc => by cases hc⟩
  · intro pre s m t _ ⟨hset, hbuilt⟩ hs
    have hdown : s.Lowers myTuneMax m → Within myTuneMax start s.wmem.down := fun hl => hset.wmem.down hl.2.2.2
    exact ⟨settings_step hset hset.wmem.up hdown hs, built_step hbuilt hset.wmem.up hdown hs⟩

/-- **The commands are sane** in exactly the runs in which the maximum is never
lowered to less than the default. -/
theorem sane_iff (myTuneMax : TuneMax) (start : TcpWmem) (ms : List TimedMeasurement) :
    Runs.Always (step myTuneMax) (initial start)
        (fun _ t => Built (fun c w => Sane myTuneMax start w ∧ NoWrap c w) t.changes) ms ↔
      Runs.Steps (step myTuneMax) (initial start) (fun _ s m => ¬ s.Undercuts myTuneMax m) ms := by
  refine Runs.always_iff_steps (I := fun _ t => Settings (Sane myTuneMax start) t ∧
    Built (fun c w => Sane myTuneMax start w ∧ NoWrap c w) t.changes) ?_ ?_ ?_ ?_ ms
  · exact ⟨settings_initial (sane_start start), fun c hc => by cases hc⟩
  · intro pre s m t _ ⟨hset, hbuilt⟩ hnot hs
    have hdown : s.Lowers myTuneMax m → Sane myTuneMax start s.wmem.down := by
      intro hl
      exact (hset.wmem.down_iff hl.2.2.2).mpr fun hlt => hnot ⟨hl, hlt⟩
    exact ⟨settings_step hset hset.wmem.up hdown hs, built_step hbuilt hset.wmem.up hdown hs⟩
  · intro pre t _ h
    exact h.2
  · intro pre s m t _ ⟨hset, _⟩ hbad hs hbuilt
    obtain ⟨hl, hlt⟩ := not_not.mp hbad
    rcases s.executes_cases m with ⟨-, hno⟩ | ⟨-, -, hno⟩ | ⟨-, -, -, hno⟩ | ⟨htune, hx, -⟩
    · exact hno hl
    · exact hno hl
    · exact hno hl
    · have hchanges := ((step_eq hs).2.2 _ hx).2
      obtain ⟨w, hw, hsane, -⟩ := hbuilt _ (by rw [hchanges]; exact List.mem_append_right _ (List.mem_singleton_self _))
        (.inr htune)
      obtain rfl := Option.some.inj hw
      exact (hset.wmem.down_iff hl.2.2.2).mp hsane hlt

def largeDefault : TcpWmem where
  kminimum := 4096
  kdefault := 500000
  kmaximum := 650000
  min_le := by decide
  le_max := by decide
  isInt := by decide

def tunedMax : TuneMax where
  value := 1147483647
  isInt := by decide

/-- A transfer at 9 Gb/s, which is not good for a NIC of 10 Gb/s. -/
def steady (i : ℕ) : TimedMeasurement where
  env := {
    netDeviceSpeed := 10000
    vGoodBitrateValue := 97 / 10
    myTuneMax := 1147483647
    wmem := some largeDefault.toWmem }
  txKbitsPerSec := 9000000
  rxKbitsPerSec := 0
  time := i + 1
  time_pos := Int.succ_ofNat_pos i

/-- The maximum goes up once, and then down past the default. -/
theorem steady_undercuts : ¬ Runs.Always (step tunedMax) (initial largeDefault)
    (fun _ t => Built (fun c w => Sane tunedMax largeDefault w ∧ NoWrap c w) t.changes)
    ((List.range 3).map steady) := by
  intro h
  have hbelow : (Runs.run (step tunedMax) (initial largeDefault) ((List.range 3).map steady)).any (fun t =>
      t.changes.any fun c => c.tune = 2 ∧ c.aApplyDefTun = some ⟨4096, 500000, 450000⟩) = true := by decide +kernel
  obtain ⟨t, hbuilt, c, hc, hlow⟩ := h.exists_mem hbelow
  obtain ⟨htune, hcommand⟩ : c.tune = 2 ∧ c.aApplyDefTun = some ⟨4096, 500000, 450000⟩ := by simpa using hlow
  obtain ⟨w, hw, hsane, -⟩ := hbuilt c hc (.inr htune)
  obtain rfl := Option.some.inj (hcommand.symm.trans hw)
  exact absurd hsane.le_max (by decide)

end TuningHost
end TuningMod

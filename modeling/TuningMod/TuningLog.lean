/-
# The commands of the tuner and their CSV rows

Each command that sets `net.ipv4.tcp_wmem` in tuning mode is followed by a row
with the seconds since the first one and the value that was set. When the tuner
gives up it goes back to what it has recorded as best. That is a command
executed before if there is one; but none is recorded before the first
application that brings a new best bitrate, and then the text is whatever the
buffer held. The row of that command is always such a text: its value is
written with the other commands only.

Key definitions: `calculateDeltaForCsv`, `TuningThread.step`, `OnlyBuilt`, `RowsRight`.
Key theorems: `executed_cases`, `clocked_step`, `recorded_step`, `deltas_right`, `best_executed`, `commands_iff`.
-/
import TuningMod.TunerSteps
import TuningMod.Lib.Runs

namespace TuningMod

/-- A measurement: what it reads, and the clock when it ends. -/
structure TimedMeasurement where
  env : MeasureEnv
  txKbitsPerSec : ℕ
  rxKbitsPerSec : ℕ
  time : ℤ
  time_pos : 0 < time

/-- An executed command, with the tuner's `tune` and `best_wmem_val` and with
its row. -/
structure CsvEntry where
  tune : ℕ
  aApplyDefTun : Option Wmem
  bestWmemVal : Option Wmem
  time : ℤ
  delta : ℤ
  aValue : Option Wmem
  deriving DecidableEq

/-- `now_time` and `last_time` of the file, and the `delta` of `check_if_bitrate_too_low`. -/
structure CsvClock where
  nowTime : ℤ := 0
  lastTime : ℤ := 0
  delta : ℤ := 0

/-- `delta = delta + calculate_delta_for_csv()`. -/
def calculateDeltaForCsv (c : CsvClock) (time : ℤ) : CsvClock :=
  if c.nowTime = 0 then { c with nowTime := time }
  else { nowTime := time, lastTime := c.nowTime, delta := c.delta + (time - c.nowTime) }

/-- The measurement thread in tuning mode, which never suggests. -/
structure TuningThread where
  tuner : Tuner := {}
  clock : CsvClock := {}
  log : List CsvEntry := []
  averaged : tuner.averageTxKbitsPerSec = 0
  tuning : tuner.suggested = 0

namespace TuningThread

def initial : TuningThread where
  averaged := rfl
  tuning := rfl

/-- What a measurement does to the tuner. -/
def after (s : TuningThread) (m : TimedMeasurement) : Tuner × List Action :=
  s.tuner.measure true m.env m.txKbitsPerSec m.rxKbitsPerSec

/-- The clock and the log after an executed command. -/
def row (s : TuningThread) (m : TimedMeasurement) (e : Executed) : CsvClock × List CsvEntry :=
  let clock := calculateDeltaForCsv s.clock m.time
  (clock, s.log ++ [{
    tune := (s.after m).1.tune
    aApplyDefTun := e.aApplyDefTun
    bestWmemVal := (s.after m).1.bestWmemVal
    time := m.time
    delta := clock.delta
    aValue := e.aValue }])

def step (s : TuningThread) (m : TimedMeasurement) : Option TuningThread :=
  let logged := match executed (s.after m).2 with
    | none => (s.clock, s.log)
    | some e => s.row m e
  some {
    tuner := (s.after m).1
    clock := logged.1
    log := logged.2
    averaged := (Tuner.measure_rates _ _ _ _ _).1.1
    tuning := (Tuner.measure_keeps s.averaged s.tuning).1 }

/-- Every command that goes back to the best setting is that of an earlier entry,
the one recorded as best. -/
def OnlyBuilt (log : List CsvEntry) : Prop :=
  ∀ pre e post, log = pre ++ e :: post → e.tune = 3 →
    e.aApplyDefTun ≠ none ∧ e.aApplyDefTun = e.bestWmemVal ∧ ∃ b ∈ pre, b.aApplyDefTun = e.aApplyDefTun

/-- The seconds of a row are those since the first entry. -/
def DeltaRight (log : List CsvEntry) (e : CsvEntry) : Prop :=
  ∀ first, log.head? = some first → e.delta = e.time - first.time

/-- Every row has the triple of its command and the right seconds. -/
def RowsRight (log : List CsvEntry) : Prop :=
  ∀ e ∈ log, (e.aValue ≠ none ∧ e.aValue = e.aApplyDefTun) ∧ DeltaRight log e

/-- The measurement reaches the check and gives up. -/
def GivesUp (s : TuningThread) (m : TimedMeasurement) : Prop :=
  (∃ k, Tuner.Reaches m.env m.txKbitsPerSec k s.tuner) ∧ Tuner.GivesUp (gbits m.txKbitsPerSec) s.tuner

section Steps

variable {s t : TuningThread} {m : TimedMeasurement}

theorem step_tuner (h : s.step m = some t) : t.tuner = (s.after m).1 := by
  obtain rfl := Option.some.inj h
  rfl

theorem step_none (h : s.step m = some t) (hx : executed (s.after m).2 = none) :
    t.log = s.log ∧ t.clock = s.clock := by
  obtain rfl := Option.some.inj h
  simp only [hx, and_self]

theorem step_some {e : Executed} (h : s.step m = some t) (hx : executed (s.after m).2 = some e) :
    t.clock = (s.row m e).1 ∧ t.log = (s.row m e).2 := by
  obtain rfl := Option.some.inj h
  simp only [hx, and_self]

/-- **What a measurement executes**: nothing, the best setting when it gives up,
or a setting made of the limits. -/
theorem executed_cases (s : TuningThread) (m : TimedMeasurement) :
    (¬ s.GivesUp m ∧ executed (s.after m).2 = none) ∨
      (s.GivesUp m ∧ ((s.after m).1.tune = 3 ∧ (s.after m).1.bestWmemVal = s.tuner.bestWmemVal) ∧
        executed (s.after m).2 = some ⟨s.tuner.bestWmemVal, none⟩) ∨
      (¬ s.GivesUp m ∧ (s.after m).1.tune ≠ 3 ∧ ∃ w, executed (s.after m).2 = some ⟨some w, some w⟩) := by
  unfold GivesUp after
  cases Tuner.measure_outcome m.env m.txKbitsPerSec m.rxKbitsPerSec s.averaged s.tuning with
  | nothing hno he => exact .inl ⟨fun ⟨⟨k, hk⟩, hg⟩ => (hno k hk).1 hg, he⟩
  | givesUp k hk hg htune hbest he => exact .inr (.inl ⟨⟨⟨k, hk⟩, hg⟩, ⟨htune, hbest⟩, he⟩)
  | climbs k hk hg hc htune he => exact .inr (.inr ⟨fun h => hg h.2, by simp [htune], k.up, he⟩)
  | lowers k hk hg hc hmax htune he => exact .inr (.inr ⟨fun h => hg h.2, by simp [htune], k.down, he⟩)

/-! ### The seconds -/

/-- The clock and the log agree. -/
structure Clocked (s : TuningThread) : Prop where
  stopped : s.clock.nowTime = 0 → s.log = [] ∧ s.clock.delta = 0
  since : s.clock.nowTime ≠ 0 → ∃ first, s.log.head? = some first ∧ s.clock.delta = s.clock.nowTime - first.time
  deltas : ∀ e ∈ s.log, DeltaRight s.log e

theorem clocked_initial : Clocked initial where
  stopped _ := ⟨rfl, rfl⟩
  since h := absurd rfl h
  deltas e he := by cases he

/-- The first command starts the clock. -/
theorem clocked_first (h : Clocked s) {e : Executed} (h0 : s.clock.nowTime = 0) (hclock : t.clock = (s.row m e).1)
    (hlog : t.log = (s.row m e).2) : Clocked t := by
  have hpos := m.time_pos
  obtain ⟨hnil, hdelta⟩ := h.stopped h0
  unfold row calculateDeltaForCsv at hclock hlog
  rw [if_pos h0] at hclock hlog
  dsimp only at hclock hlog
  rw [hnil, List.nil_append, hdelta] at hlog
  have hnow : t.clock.nowTime = m.time ∧ t.clock.delta = 0 := by rw [hclock]; exact ⟨rfl, hdelta⟩
  refine ⟨fun h1 => ?_, fun _ => ⟨_, by rw [hlog]; rfl, ?_⟩, ?_⟩
  · omega
  · rw [hnow.1, hnow.2, Int.sub_self]
  · rw [hlog, List.forall_mem_singleton]
    intro first hfirst
    obtain rfl := Option.some.inj hfirst
    exact (Int.sub_self _).symm

/-- A later command adds the seconds since the one before. -/
theorem clocked_again (h : Clocked s) {e : Executed} (h0 : s.clock.nowTime ≠ 0) (hclock : t.clock = (s.row m e).1)
    (hlog : t.log = (s.row m e).2) : Clocked t := by
  have hpos := m.time_pos
  obtain ⟨first, hfirst, hdelta⟩ := h.since h0
  unfold row calculateDeltaForCsv at hclock hlog
  rw [if_neg h0] at hclock hlog
  dsimp only at hclock hlog
  have hnow : t.clock.nowTime = m.time ∧ t.clock.delta = m.time - first.time := by
    rw [hclock]
    refine ⟨rfl, ?_⟩
    dsimp only
    omega
  have hhead : t.log.head? = some first := by rw [hlog, List.head?_append, hfirst]; rfl
  refine ⟨fun h1 => ?_, fun _ => ⟨first, hhead, ?_⟩, ?_⟩
  · omega
  · rw [hnow.1, hnow.2]
  · intro e' he' first' hfirst'
    obtain rfl : first = first' := Option.some.inj (hhead.symm.trans hfirst')
    rw [hlog, List.mem_append, List.mem_singleton] at he'
    rcases he' with he' | rfl
    · exact h.deltas e' he' first hfirst
    · dsimp only
      omega

theorem clocked_step (h : Clocked s) (hs : s.step m = some t) : Clocked t := by
  cases hx : executed (s.after m).2 with
  | none =>
    obtain ⟨hlog, hclock⟩ := step_none hs hx
    obtain ⟨hstopped, hsince, hdeltas⟩ := h
    rw [← hlog, ← hclock] at hstopped hsince
    rw [← hlog] at hdeltas
    exact ⟨hstopped, hsince, hdeltas⟩
  | some e =>
    obtain ⟨hclock, hlog⟩ := step_some hs hx
    by_cases h0 : s.clock.nowTime = 0
    · exact clocked_first h h0 hclock hlog
    · exact clocked_again h h0 hclock hlog

/-! ### The best setting -/

/-- What the command buffers hold has been executed, if they were ever written,
and so has what was gone back to. -/
structure Recorded (s : TuningThread) : Prop where
  command : s.tuner.aApplyDefTunBest = none ∨ ∃ b ∈ s.log, b.aApplyDefTun = s.tuner.aApplyDefTunBest
  best : s.tuner.bestWmemVal = none ∨ ∃ b ∈ s.log, b.aApplyDefTun = s.tuner.bestWmemVal
  goesBack : ∀ pre e post, s.log = pre ++ e :: post → e.tune = 3 → e.aApplyDefTun = e.bestWmemVal ∧
    (e.aApplyDefTun = none ∨ ∃ b ∈ pre, b.aApplyDefTun = e.aApplyDefTun)

theorem recorded_initial : Recorded initial where
  command := .inl rfl
  best := .inl rfl
  goesBack pre e post hlog := by simp [initial] at hlog

/-- A longer log has the same entries, and the last one. -/
theorem goesBack_concat {log : List CsvEntry} {last : CsvEntry} {P : List CsvEntry → CsvEntry → Prop}
    (h : ∀ pre e post, log = pre ++ e :: post → P pre e) (hlast : P log last) :
    ∀ pre e post, log ++ [last] = pre ++ e :: post → P pre e := by
  intro pre e post heq
  rcases List.eq_nil_or_concat' post with rfl | ⟨init, x, rfl⟩
  · obtain ⟨rfl, hlast'⟩ := List.append_inj' heq rfl
    obtain ⟨rfl, -⟩ := List.cons.inj hlast'
    exact hlast
  · rw [← List.cons_append, ← List.append_assoc] at heq
    exact h pre e init (List.append_inj' heq rfl).1

/-- What one of the buffers held has been executed, and stays in a longer log. -/
theorem Recorded.mono (h : Recorded s) (hsub : s.log ⊆ t.log) {w : Option Wmem}
    (hw : w = s.tuner.aApplyDefTunBest ∨ w = s.tuner.bestWmemVal) :
    w = none ∨ ∃ b ∈ t.log, b.aApplyDefTun = w := by
  rcases hw with rfl | rfl
  · exact h.command.imp_right fun ⟨b, hb, hbw⟩ => ⟨b, hsub hb, hbw⟩
  · exact h.best.imp_right fun ⟨b, hb, hbw⟩ => ⟨b, hsub hb, hbw⟩

/-- What a measurement does to the two buffers. -/
theorem step_buffers (hs : s.step m = some t) : Tuner.Buffers s.tuner t.tuner (executed (s.after m).2) := by
  rw [step_tuner hs]
  exact (Tuner.measure_keeps s.averaged s.tuning).2

theorem recorded_idle (h : Recorded s) (hs : s.step m = some t) (hx : executed (s.after m).2 = none) :
    Recorded t := by
  obtain ⟨hlog, -⟩ := step_none hs hx
  obtain ⟨hcommand, hbest⟩ := step_buffers hs
  have hsub : s.log ⊆ t.log := fun b hb => hlog ▸ hb
  refine ⟨h.mono hsub (hcommand.imp_right (Or.resolve_right · ?_)), h.mono hsub hbest.symm, ?_⟩
  · rintro ⟨v, hv⟩
    rw [hx] at hv
    cases hv
  · rw [hlog]
    exact h.goesBack

theorem recorded_row (h : Recorded s) (hs : s.step m = some t) {e : Executed}
    (hx : executed (s.after m).2 = some e) : Recorded t := by
  obtain ⟨-, hlog⟩ := step_some hs hx
  obtain ⟨hcommand, hbest⟩ := step_buffers hs
  have hsub : s.log ⊆ t.log := by
    rw [hlog]
    exact List.subset_append_left _ _
  refine ⟨?_, h.mono hsub hbest.symm, ?_⟩
  · rcases hcommand with hc | hc | ⟨v, hv⟩
    · exact h.mono hsub (.inl hc)
    · exact h.mono hsub (.inr hc)
    · obtain rfl := Option.some.inj (hx.symm.trans hv)
      rw [hlog]
      exact .inr ⟨_, List.mem_append_right _ (List.mem_singleton_self _), rfl⟩
  · rw [hlog]
    refine goesBack_concat h.goesBack fun htune => ?_
    rcases s.executed_cases m with ⟨-, hnone⟩ | ⟨-, ⟨-, hkeep⟩, hsome⟩ | ⟨-, hnot, -⟩
    · rw [hx] at hnone
      cases hnone
    · obtain rfl := Option.some.inj (hx.symm.trans hsome)
      exact ⟨hkeep.symm, h.best⟩
    · exact absurd htune hnot

theorem recorded_step (h : Recorded s) (hs : s.step m = some t) : Recorded t := by
  cases hx : executed (s.after m).2 with
  | none => exact recorded_idle h hs hx
  | some e => exact recorded_row h hs hx

end Steps

/-! ### Runs -/

section Run

variable {s t : TuningThread} {m : TimedMeasurement}

/-- **The seconds are right** in every run. -/
theorem deltas_right (ms : List TimedMeasurement) :
    Runs.Always step initial (fun _ t => ∀ e ∈ t.log, DeltaRight t.log e) ms :=
  fun _ _ _ _ hr => (Runs.history_inv (P := fun _ t => Clocked t) clocked_initial
    (fun _ _ _ _ _ h hs => clocked_step h hs) hr).deltas

/-- **The best setting was executed before**, in every run, unless the text was
never written. -/
theorem best_executed (ms : List TimedMeasurement) : Runs.Always step initial (fun _ t =>
    OnlyBuilt t.log ↔ ∀ e ∈ t.log, e.tune = 3 → e.aApplyDefTun ≠ none) ms := by
  intro pre suf t _ hr
  have hrec := Runs.history_inv (P := fun _ t => Recorded t) recorded_initial
    (fun _ _ _ _ _ h hs => recorded_step h hs) hr
  constructor
  · intro h e he htune
    obtain ⟨pre, post, hlog⟩ := List.append_of_mem he
    exact (h pre e post hlog htune).1
  · intro h pre e post hlog htune
    obtain ⟨hbest, hearlier⟩ := hrec.goesBack pre e post hlog htune
    have hne := h e (by simp [hlog]) htune
    exact ⟨hne, hbest, hearlier.resolve_left hne⟩

/-- No entry goes back to the best setting, and each row has its command. -/
structure Right (s : TuningThread) : Prop where
  clocked : Clocked s
  rows : ∀ e ∈ s.log, e.tune ≠ 3 ∧ e.aValue ≠ none ∧ e.aValue = e.aApplyDefTun

theorem right_step (h : Right s) (hg : ¬ s.GivesUp m) (hs : s.step m = some t) : Right t := by
  refine ⟨clocked_step h.clocked hs, ?_⟩
  rcases s.executed_cases m with ⟨-, hnone⟩ | ⟨hgives, -⟩ | ⟨-, hnot, w, hsome⟩
  · rw [(step_none hs hnone).1]
    exact h.rows
  · exact absurd hgives hg
  · rw [(step_some hs hsome).2]
    unfold row
    rw [List.forall_mem_append, List.forall_mem_singleton]
    exact ⟨h.rows, hnot, Option.some_ne_none w, rfl⟩

theorem not_rowsRight (hg : s.GivesUp m) (hs : s.step m = some t) : ¬ RowsRight t.log := by
  rcases s.executed_cases m with ⟨hnot, -⟩ | ⟨-, -, hsome⟩ | ⟨hnot, -⟩
  · exact absurd hg hnot
  · intro h
    have hlast := (h _ (by rw [(step_some hs hsome).2]; exact List.mem_append_right _ (List.mem_singleton_self _))).1.1
    exact hlast rfl
  · exact absurd hg hnot

end Run

/-- **The commands and their rows** are right in exactly the runs in which the
tuner never gives up. -/
theorem commands_iff (ms : List TimedMeasurement) :
    Runs.Always step initial (fun _ t => OnlyBuilt t.log ∧ RowsRight t.log) ms ↔
      Runs.Steps step initial (fun _ s m => ¬ s.GivesUp m) ms := by
  refine Runs.always_iff_steps (I := fun _ t => Right t) ?_ ?_ ?_ ?_ ms
  · exact ⟨clocked_initial, fun e he => by cases he⟩
  · intro pre s m t _ h hg hs
    exact right_step h hg hs
  · intro pre t _ h
    constructor
    · intro pre e post hlog htune
      exact absurd htune (h.rows e (by simp [hlog])).1
    · intro e he
      exact ⟨(h.rows e he).2, h.clocked.deltas e he⟩
  · intro pre t m t' _ _ hg hs h
    exact not_rowsRight (not_not.mp hg) hs h.2

/-- The measurement `i` of a transfer that gets slower, on a NIC of 10 Gb/s with the
maximum `kmaximum`. -/
def slower (i : ℕ) (kmaximum : UInt32) : TimedMeasurement where
  env := {
    netDeviceSpeed := 10000
    vGoodBitrateValue := 97 / 10
    myTuneMax := 1147483647
    wmem := some ⟨4096, 16384, kmaximum⟩ }
  txKbitsPerSec := 9000000 - 100000 * i
  rxKbitsPerSec := 0
  time := i + 1
  time_pos := by omega

/-- The settings follow the commands: up, down, and then up again. -/
def slowerTransfer : List TimedMeasurement :=
  slower 0 4194304 :: slower 1 4394304 :: (List.range 9).map fun i => slower (i + 2) (4194304 + 200000 * i.toUInt32)

/-- The eleventh measurement gives up, and nothing was ever recorded as best. -/
theorem slower_unrecorded :
    ¬ Runs.Always step initial (fun _ t => OnlyBuilt t.log ∧ RowsRight t.log) slowerTransfer := by
  intro h
  have hlost : (Runs.run step initial slowerTransfer).any
      (fun t => t.log.any fun e => e.tune = 3 ∧ e.aApplyDefTun = none) = true := by decide +kernel
  obtain ⟨t, ⟨hbuilt, -⟩, e, he, hnever⟩ := h.exists_mem hlost
  obtain ⟨htune, hnone⟩ : e.tune = 3 ∧ e.aApplyDefTun = none := by simpa using hnever
  obtain ⟨pre, post, hlog⟩ := List.append_of_mem he
  exact (hbuilt pre e post hlog htune).1 hnone

end TuningThread
end TuningMod

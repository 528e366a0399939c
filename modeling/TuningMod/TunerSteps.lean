/-
# What a measurement of the tuner executes

In tuning mode a measurement executes at most one command that sets
`net.ipv4.tcp_wmem`, with a row of the CSV log. It does so if the measurement
reaches `check_if_bitrate_too_low` and the limits leave room (`Reaches`). After
the tenth application in a row without a new best bitrate the tuner gives up
(`GivesUp`) and executes what it has recorded as best; otherwise it raises the
maximum if the bitrate before was below the best one, and lowers it if not.

Key definitions: `executed`, `gbits`, `Reaches`, `GivesUp`, `Climbs`, `Outcome`, `Buffers`.
Key theorems: `aim_eq`, `measure_executed`, `measure_not_executed`, `measure_outcome`, `measure_keeps`.
-/
import TuningMod.Bitrate
import Mathlib.Tactic.Linarith

namespace TuningMod

/-- The command that is executed, and the value in its row. -/
structure Executed where
  aApplyDefTun : Option Wmem
  aValue : Option Wmem
  deriving DecidableEq

def executed : List Action → Option Executed
  | .system (.sysctlWriteWmem w) :: .csvRow v :: _ => some ⟨w, v⟩
  | _ :: acts => executed acts
  | [] => none

/-- The measured bitrate, with the jitter. -/
def gbits (txKbitsPerSec : ℕ) : ℚ :=
  if (txKbitsPerSec : ℚ) / 1000000 ≠ 0 then (txKbitsPerSec : ℚ) / 1000000 + 30 / 100 else txKbitsPerSec / 1000000

/-- The two changes of the maximum. -/
def Wmem.up (k : Wmem) : Wmem := { k with kmaximum := k.kmaximum + ktuningDelta }

def Wmem.down (k : Wmem) : Wmem := { k with kmaximum := k.kmaximum - ktuningDelta }

theorem Wmem.up_keeps (k : Wmem) : k.up.kminimum = k.kminimum ∧ k.up.kdefault = k.kdefault := by
  cases k
  exact ⟨rfl, rfl⟩

theorem Wmem.down_keeps (k : Wmem) : k.down.kminimum = k.kminimum ∧ k.down.kdefault = k.kdefault := by
  cases k
  exact ⟨rfl, rfl⟩

namespace Tuner

/-! ### When it does what -/

/-- The measurement goes on to the check: the tuner has not stopped, and nothing
is being waited for. -/
def Ready (t : Tuner) : Prop := t.tune ≠ 3 ∧ (t.applied ≠ 0 ∨ t.nothingDone = 0 ∨ 5 < t.nothingDone)

/-- The limits leave room. -/
def Room (env : MeasureEnv) (k : Wmem) : Prop := env.wmem = some k ∧ env.myTuneMax ≠ 0 ∧ k.kmaximum < env.myTuneMax

/-- The measurement counts and does not wait, the bitrate is between one Gb/s and
the good value, and the limit `k` can still be raised. -/
structure Reaches (env : MeasureEnv) (txKbitsPerSec : ℕ) (k : Wmem) (t : Tuner) : Prop where
  speed : (txKbitsPerSec : ℚ) / 1000000 ≤ (env.netDeviceSpeed.tdiv 1000 : ℤ)
  ready : Ready t
  gigabit : 1 ≤ gbits txKbitsPerSec
  low : gbits txKbitsPerSec < env.vGoodBitrateValue
  room : Room env k

/-- Ten applications in a row have not brought a new best bitrate. -/
def GivesUp (avg : ℚ) (t : Tuner) : Prop :=
  t.applied ≠ 0 ∧ avg < t.highestAverageTxGbitsPerSec ∧ maxTuningApply ≤ t.maxApply + 1

/-- The bitrate before was below the best one. -/
def Climbs (avg : ℚ) (t : Tuner) : Prop :=
  t.previousAverageTxGbitsPerSec < max t.highestAverageTxGbitsPerSec avg

instance (avg : ℚ) (t : Tuner) : Decidable (GivesUp avg t) := inferInstanceAs (Decidable (_ ∧ _ ∧ _))

instance (avg : ℚ) (t : Tuner) : Decidable (Climbs avg t) := inferInstanceAs (Decidable (_ < _))

section Steps

variable {t : Tuner} {env : MeasureEnv} {avg : ℚ} {txKbitsPerSec rxKbitsPerSec : ℕ} {k : Wmem}

/-- The tuner after it has been told the best setting. -/
theorem aim_stop (h : t.tune = 3 ∧ avg ≠ 0) : t.aim avg = { t with tune := 0, applied := 0, nothingDone := 1 } := by
  unfold aim
  rw [if_pos h]

/-- What the hill climbing changes. -/
theorem aim_eq (h : ¬ (t.tune = 3 ∧ avg ≠ 0)) : t.aim avg = { t with
    highestAverageTxGbitsPerSec := max t.highestAverageTxGbitsPerSec avg
    previousAverageTxGbitsPerSec := avg
    bestWmemVal := if t.highestAverageTxGbitsPerSec ≤ avg ∧ t.applied ≠ 0 then t.aApplyDefTunBest else t.bestWmemVal
    aApplyDefTunBest := if GivesUp avg t then t.bestWmemVal else t.aApplyDefTunBest
    tune := if GivesUp avg t then 3 else if Climbs avg t then 1 else 2
    maxApply :=
      if GivesUp avg t ∨ t.applied = 0 then 0
      else if t.highestAverageTxGbitsPerSec ≤ avg then 1 else t.maxApply + 1 } := by
  unfold aim
  rw [if_neg h]
  by_cases hbest : t.highestAverageTxGbitsPerSec ≤ avg
  · -- a new best bitrate: the count starts again
    have hnot : ¬ GivesUp avg t := fun hg => absurd hg.2.1 (not_lt.mpr hbest)
    by_cases happlied : t.applied = 0
    · simp [hbest, hnot, happlied, Climbs, maxTuningApply]
    · simp [hbest, hnot, happlied, Climbs, maxTuningApply]
  · have hmax : max t.highestAverageTxGbitsPerSec avg = t.highestAverageTxGbitsPerSec := max_eq_left (by linarith)
    by_cases happlied : t.applied = 0
    · have hnot : ¬ GivesUp avg t := fun hg => hg.1 happlied
      simp [hbest, hnot, hmax, happlied, Climbs, maxTuningApply]
    · by_cases hten : maxTuningApply ≤ t.maxApply + 1
      · have hgives : GivesUp avg t := ⟨happlied, by linarith, hten⟩
        simp [hbest, hgives, hmax, happlied, hten]
      · have hnot : ¬ GivesUp avg t := fun hg => hten hg.2.2
        simp [hbest, hnot, hmax, happlied, hten, Climbs]

/-- After the aim: whether the measurement waits, and what the wait leaves. -/
theorem waits_eq (hs : t.suggested = 0) :
    (t.waits.2 = false ↔ t.applied ≠ 0 ∨ t.nothingDone = 0 ∨ 5 < t.nothingDone) ∧ t.waits.1.suggested = 0 ∧
      t.waits.1.tune = t.tune ∧ t.waits.1.aApplyDefTunBest = t.aApplyDefTunBest ∧
      t.waits.1.bestWmemVal = t.bestWmemVal := by
  unfold waits
  rw [if_neg (by simp [hs])]
  split_ifs with happlied hnothing hfive
  · exact ⟨by simp [happlied], hs, rfl, rfl, rfl⟩
  · exact ⟨by simp [hfive], hs, rfl, rfl, rfl⟩
  · refine ⟨?_, hs, rfl, rfl, rfl⟩
    simp only [false_iff]
    omega
  · refine ⟨?_, hs, rfl, rfl, rfl⟩
    simp only [true_iff]
    omega

/-- What is executed with the limits `k`. -/
def order (k : Wmem) (tune : ℕ) (best : Option Wmem) : Option Executed :=
  if tune = 1 then some ⟨some k.up, some k.up⟩
  else if tune = 2 then if 600000 < k.kmaximum then some ⟨some k.down, some k.down⟩ else none
  else if tune = 3 then some ⟨best, none⟩
  else none

theorem check_executed (hlow : avg < env.vGoodBitrateValue) (hk : env.wmem = some k) (hknown : env.myTuneMax ≠ 0)
    (hroom : k.kmaximum < env.myTuneMax) :
    executed (t.checkIfBitrateTooLow true env avg).2 = order k t.tune t.aApplyDefTunBest := by
  have hnot : ¬ env.myTuneMax ≤ k.kmaximum := UInt32.not_le.mpr hroom
  unfold checkIfBitrateTooLow order applyTuning
  rw [if_pos hlow, hk]
  simp only [hknown, hnot, if_true, if_false]
  split_ifs <;> rfl

theorem check_not_executed (h : ¬ (avg < env.vGoodBitrateValue ∧
    ∃ k, env.wmem = some k ∧ env.myTuneMax ≠ 0 ∧ k.kmaximum < env.myTuneMax)) :
    executed (t.checkIfBitrateTooLow true env avg).2 = none := by
  unfold checkIfBitrateTooLow
  by_cases hlow : avg < env.vGoodBitrateValue
  · rw [if_pos hlow]
    cases hk : env.wmem with
    | none => rfl
    | some k =>
      by_cases hknown : env.myTuneMax = 0
      · simp only [hknown, if_true]
        rfl
      · have hfull : env.myTuneMax ≤ k.kmaximum := by
          by_contra hroom
          exact h ⟨hlow, k, hk, hknown, UInt32.not_le.mp hroom⟩
        simp only [hknown, hfull, if_true, if_false]
        rfl
  · rw [if_neg hlow]
    rfl

/-- The command buffers: one is kept, is the other one, or is what was executed. -/
structure Buffers (t u : Tuner) (e : Option Executed) : Prop where
  command : u.aApplyDefTunBest = t.aApplyDefTunBest ∨ u.aApplyDefTunBest = t.bestWmemVal ∨
    ∃ v, e = some ⟨u.aApplyDefTunBest, v⟩
  best : u.bestWmemVal = t.bestWmemVal ∨ u.bestWmemVal = t.aApplyDefTunBest

/-- What the check leaves, in tuning mode. -/
theorem check_keeps (t : Tuner) (env : MeasureEnv) (avg : ℚ) : (t.checkIfBitrateTooLow true env avg).1.tune = t.tune ∧
    (t.checkIfBitrateTooLow true env avg).1.suggested = t.suggested ∧
    (t.checkIfBitrateTooLow true env avg).1.bestWmemVal = t.bestWmemVal ∧
    ((t.checkIfBitrateTooLow true env avg).1.aApplyDefTunBest = t.aApplyDefTunBest ∨
      ∃ v, executed (t.checkIfBitrateTooLow true env avg).2 =
        some ⟨(t.checkIfBitrateTooLow true env avg).1.aApplyDefTunBest, v⟩) := by
  unfold checkIfBitrateTooLow applyTuning
  cases env.wmem <;> simp only [if_true] <;> split_ifs <;>
    first | exact ⟨rfl, rfl, rfl, .inl rfl⟩ | exact ⟨rfl, rfl, rfl, .inr ⟨_, rfl⟩⟩

theorem aim_buffers (t : Tuner) (avg : ℚ) : Buffers t (t.aim avg) none ∧ (t.aim avg).suggested = t.suggested := by
  by_cases h : t.tune = 3 ∧ avg ≠ 0
  · rw [aim_stop h]
    exact ⟨⟨.inl rfl, .inl rfl⟩, rfl⟩
  · rw [aim_eq h]
    refine ⟨⟨?_, ?_⟩, rfl⟩
    · dsimp only
      split_ifs
      · exact .inr (.inl rfl)
      · exact .inl rfl
    · dsimp only
      split_ifs
      · exact .inr rfl
      · exact .inl rfl

/-- What the tuner leaves, in tuning mode. -/
theorem climb_keeps (env : MeasureEnv) (avg : ℚ) (hs : t.suggested = 0) : (t.climb true env avg).1.suggested = 0 ∧
    Buffers t (t.climb true env avg).1 (executed (t.climb true env avg).2) := by
  obtain ⟨⟨hcommand, hbest⟩, haim⟩ := aim_buffers t avg
  obtain ⟨-, hwaits, -, hcommand', hbest'⟩ := waits_eq (haim.trans hs)
  have hcommand'' := hcommand.imp_right (Or.resolve_right · (by rintro ⟨v, hv⟩; cases hv))
  rw [← hcommand'] at hcommand''
  rw [← hbest'] at hbest
  unfold climb
  dsimp only
  split_ifs
  · exact ⟨hwaits, hcommand''.imp_right .inl, hbest⟩
  · obtain ⟨-, hsug, hb, hc⟩ := check_keeps { (t.aim avg).waits.1 with applied := 0 } env avg
    refine ⟨hsug.trans hwaits, ?_, by rw [hb]; exact hbest⟩
    rcases hc with hc | hc
    · rw [hc]
      exact hcommand''.imp_right .inl
    · exact .inr (.inr hc)
  · exact ⟨hwaits, hcommand''.imp_right .inl, hbest⟩

theorem aim_waits (hs : t.suggested = 0) (hgigabit : 1 ≤ avg) : (t.aim avg).waits.2 = false ↔ Ready t := by
  have hne : avg ≠ 0 := by linarith
  unfold Ready
  by_cases h : t.tune = 3
  · rw [aim_stop ⟨h, hne⟩, (waits_eq (t := { t with tune := 0, applied := 0, nothingDone := 1 }) hs).1]
    simp [h]
  · have hgo : ¬ (t.tune = 3 ∧ avg ≠ 0) := fun hc => h hc.1
    have hsug : (t.aim avg).suggested = 0 := (aim_buffers t avg).2.trans hs
    rw [(waits_eq hsug).1, aim_eq hgo]
    simp [h]

/-- The tuner reaches the check. -/
theorem climb_reaches (hs : t.suggested = 0) (hready : Ready t) (hgigabit : 1 ≤ avg)
    (hlow : avg < env.vGoodBitrateValue) (hroom : Room env k) :
    let tune := if GivesUp avg t then 3 else if Climbs avg t then 1 else 2
    (t.climb true env avg).1.tune = tune ∧ (GivesUp avg t → (t.climb true env avg).1.bestWmemVal = t.bestWmemVal) ∧
      executed (t.climb true env avg).2 = order k tune t.bestWmemVal := by
  intro tune
  obtain ⟨hk, hknown, hlt⟩ := hroom
  have hsug : (t.aim avg).suggested = 0 := (aim_buffers t avg).2.trans hs
  obtain ⟨-, -, htune, hcommand, hbest⟩ := waits_eq hsug
  rw [aim_eq (fun hc => hready.1 hc.1)] at htune hcommand hbest
  have horder : order k tune (if GivesUp avg t then t.bestWmemVal else t.aApplyDefTunBest) =
      order k tune t.bestWmemVal := by
    by_cases hg : GivesUp avg t
    · rw [if_pos hg]
    · have hnot : tune ≠ 3 := by
        simp only [tune, if_neg hg]
        split_ifs <;> decide
      unfold order
      rw [if_neg hnot, if_neg hnot]
  unfold climb
  dsimp only
  rw [(aim_waits hs hgigabit).mpr hready, if_neg Bool.false_ne_true, if_pos hgigabit,
    aim_eq (fun hc => hready.1 hc.1)]
  rw [(check_keeps _ env avg).1, (check_keeps _ env avg).2.2.1, check_executed hlow hk hknown hlt]
  dsimp only
  rw [htune, hcommand, hbest]
  exact ⟨rfl, fun hg => if_neg fun hc => absurd hg.2.1 (not_lt.mpr hc.1), horder⟩

/-- The tuner does not reach it. -/
theorem climb_not_reaches (hs : t.suggested = 0)
    (h : ¬ (Ready t ∧ 1 ≤ avg ∧ avg < env.vGoodBitrateValue ∧ ∃ k, Room env k)) :
    executed (t.climb true env avg).2 = none := by
  unfold climb
  dsimp only
  split_ifs with hskip hgigabit
  · rfl
  · have hready := (aim_waits hs hgigabit).mp (by simpa using hskip)
    exact check_not_executed fun hc => h ⟨hready, hgigabit, hc⟩
  · rfl

/-- What the hill climbing reads and keeps is the same. -/
structure SameTuning (t u : Tuner) : Prop where
  highest : u.highestAverageTxGbitsPerSec = t.highestAverageTxGbitsPerSec
  previous : u.previousAverageTxGbitsPerSec = t.previousAverageTxGbitsPerSec
  applied : u.applied = t.applied
  suggested : u.suggested = t.suggested
  nothingDone : u.nothingDone = t.nothingDone
  maxApply : u.maxApply = t.maxApply
  tune : u.tune = t.tune
  command : u.aApplyDefTunBest = t.aApplyDefTunBest
  best : u.bestWmemVal = t.bestWmemVal

theorem SameTuning.decisions {u : Tuner} (h : SameTuning t u) (avg : ℚ) :
    (Ready u ↔ Ready t) ∧ (GivesUp avg u ↔ GivesUp avg t) ∧ (Climbs avg u ↔ Climbs avg t) := by
  unfold Ready GivesUp Climbs
  rw [h.tune, h.applied, h.nothingDone, h.highest, h.maxApply, h.previous]
  exact ⟨Iff.rfl, Iff.rfl, Iff.rfl⟩

theorem restoreChannels_tuning : SameTuning t (t.restoreChannels env txKbitsPerSec).1 := by
  unfold restoreChannels
  split_ifs <;> constructor <;> rfl

/-- The channels are no matter of `tcp_wmem`. -/
theorem executed_channels (acts : List Action) :
    executed ((t.restoreChannels env txKbitsPerSec).2 ++ acts) = executed acts := by
  unfold restoreChannels
  split_ifs <;> rfl

/-- A rate that the NIC cannot have. -/
def Skips (env : MeasureEnv) (txKbitsPerSec : ℕ) : Prop :=
  (txKbitsPerSec : ℚ) / 1000000 ≠ 0 ∧ (txKbitsPerSec : ℚ) / 1000000 > (env.netDeviceSpeed.tdiv 1000 : ℤ)

theorem SameTuning.trans {u v : Tuner} (h : SameTuning t u) (h' : SameTuning u v) : SameTuning t v where
  highest := h'.highest.trans h.highest
  previous := h'.previous.trans h.previous
  applied := h'.applied.trans h.applied
  suggested := h'.suggested.trans h.suggested
  nothingDone := h'.nothingDone.trans h.nothingDone
  maxApply := h'.maxApply.trans h.maxApply
  tune := h'.tune.trans h.tune
  command := h'.command.trans h.command
  best := h'.best.trans h.best

theorem measure_skips (ha : t.averageTxKbitsPerSec = 0) (hskip : Skips env txKbitsPerSec) :
    t.measure true env txKbitsPerSec rxKbitsPerSec =
      ({ t with averageTxKbitsPerSec := 0, averageRxKbitsPerSec := 0 }, []) := by
  unfold measure
  simp only [ha, zero_add]
  exact if_pos hskip

/-- The rates are published, the channels may be set back, and the tuner climbs. -/
theorem measure_climbs (rxKbitsPerSec : ℕ) (ha : t.averageTxKbitsPerSec = 0) (hskip : ¬ Skips env txKbitsPerSec) :
    ∃ u : Tuner, SameTuning t u ∧ t.measure true env txKbitsPerSec rxKbitsPerSec =
      (((u.restoreChannels env txKbitsPerSec).1.climb true env (gbits txKbitsPerSec)).1,
        (u.restoreChannels env txKbitsPerSec).2 ++
          ((u.restoreChannels env txKbitsPerSec).1.climb true env (gbits txKbitsPerSec)).2) := by
  refine ⟨{ t with
    averageTxKbitsPerSec := 0
    averageRxKbitsPerSec := 0
    vGlobalAverageTxGbitsPerSec := gbits txKbitsPerSec
    vGlobalAverageRxGbitsPerSec := if (txKbitsPerSec : ℚ) / 1000000 ≠ 0 then
      (t.averageRxKbitsPerSec + rxKbitsPerSec) / 1000000 + 30 / 100
      else (t.averageRxKbitsPerSec + rxKbitsPerSec) / 1000000 }, ?_, ?_⟩
  · exact ⟨rfl, rfl, rfl, rfl, rfl, rfl, rfl, rfl, rfl⟩
  · unfold measure
    simp only [ha, zero_add]
    exact if_neg hskip

/-- A measurement is skipped, or it is the hill climbing of the same tuner. -/
theorem measure_cases (env : MeasureEnv) (txKbitsPerSec rxKbitsPerSec : ℕ) (ha : t.averageTxKbitsPerSec = 0) :
    (Skips env txKbitsPerSec ∧ executed (t.measure true env txKbitsPerSec rxKbitsPerSec).2 = none ∧
      SameTuning t (t.measure true env txKbitsPerSec rxKbitsPerSec).1) ∨
    (¬ Skips env txKbitsPerSec ∧ ∃ u, SameTuning t u ∧
      (t.measure true env txKbitsPerSec rxKbitsPerSec).1 = (u.climb true env (gbits txKbitsPerSec)).1 ∧
      executed (t.measure true env txKbitsPerSec rxKbitsPerSec).2 =
        executed (u.climb true env (gbits txKbitsPerSec)).2) := by
  by_cases hskip : Skips env txKbitsPerSec
  · rw [measure_skips ha hskip]
    exact .inl ⟨hskip, rfl, ⟨rfl, rfl, rfl, rfl, rfl, rfl, rfl, rfl, rfl⟩⟩
  · obtain ⟨u, hu, heq⟩ := measure_climbs rxKbitsPerSec ha hskip
    rw [heq]
    exact .inr ⟨hskip, _, hu.trans restoreChannels_tuning, rfl, executed_channels _⟩

theorem not_skips (hspeed : (txKbitsPerSec : ℚ) / 1000000 ≤ (env.netDeviceSpeed.tdiv 1000 : ℤ)) :
    ¬ Skips env txKbitsPerSec := fun h => absurd h.2 (not_lt.mpr hspeed)

/-- **A measurement that reaches the check** executes what the hill climbing
orders. -/
theorem measure_executed (rxKbitsPerSec : ℕ) (ha : t.averageTxKbitsPerSec = 0) (hs : t.suggested = 0)
    (h : Reaches env txKbitsPerSec k t) :
    let tune := if GivesUp (gbits txKbitsPerSec) t then 3 else if Climbs (gbits txKbitsPerSec) t then 1 else 2
    (t.measure true env txKbitsPerSec rxKbitsPerSec).1.tune = tune ∧
      (GivesUp (gbits txKbitsPerSec) t →
        (t.measure true env txKbitsPerSec rxKbitsPerSec).1.bestWmemVal = t.bestWmemVal) ∧
      executed (t.measure true env txKbitsPerSec rxKbitsPerSec).2 = order k tune t.bestWmemVal := by
  obtain ⟨hskip, -⟩ | ⟨-, u, hu, hstate, hacts⟩ := measure_cases env txKbitsPerSec
    rxKbitsPerSec ha
  · exact absurd hskip (not_skips h.speed)
  · obtain ⟨hready, hgives, hclimbs⟩ := hu.decisions (gbits txKbitsPerSec)
    have hreach := climb_reaches (t := u) (hu.suggested.trans hs) (hready.mpr h.ready) h.gigabit h.low h.room
    simp only [hgives, hclimbs, hu.best] at hreach
    rw [hstate, hacts]
    exact hreach

/-- **A measurement that does not** executes nothing. -/
theorem measure_not_executed (ha : t.averageTxKbitsPerSec = 0) (hs : t.suggested = 0)
    (h : ¬ ∃ k, Reaches env txKbitsPerSec k t) :
    executed (t.measure true env txKbitsPerSec rxKbitsPerSec).2 = none := by
  obtain ⟨-, hnone, -⟩ | ⟨hskip, u, hu, -, hacts⟩ := measure_cases env txKbitsPerSec
    rxKbitsPerSec ha
  · exact hnone
  · rw [hacts]
    refine climb_not_reaches (hu.suggested.trans hs) fun ⟨hready, hgigabit, hlow, k, hroom⟩ => h ⟨k, ?_⟩
    refine ⟨?_, (hu.decisions (gbits txKbitsPerSec)).1.mp hready, hgigabit, hlow, hroom⟩
    by_contra hfast
    refine hskip ⟨fun hzero => ?_, not_le.mp hfast⟩
    rw [gbits, if_neg (not_not.mpr hzero), hzero] at hgigabit
    exact absurd hgigabit (by norm_num)

/-- What a measurement of the tuner `t` comes to: it leaves `u` and executes `e`. -/
inductive Outcome (env : MeasureEnv) (txKbitsPerSec : ℕ) (t u : Tuner) (e : Option Executed) : Prop
  | nothing (hno : ∀ k, Reaches env txKbitsPerSec k t → ¬ GivesUp (gbits txKbitsPerSec) t ∧
      ¬ Climbs (gbits txKbitsPerSec) t ∧ ¬ 600000 < k.kmaximum) (he : e = none)
  | givesUp (k : Wmem) (hk : Reaches env txKbitsPerSec k t) (hg : GivesUp (gbits txKbitsPerSec) t)
      (htune : u.tune = 3) (hbest : u.bestWmemVal = t.bestWmemVal) (he : e = some ⟨t.bestWmemVal, none⟩)
  | climbs (k : Wmem) (hk : Reaches env txKbitsPerSec k t) (hg : ¬ GivesUp (gbits txKbitsPerSec) t)
      (hc : Climbs (gbits txKbitsPerSec) t) (htune : u.tune = 1) (he : e = some ⟨some k.up, some k.up⟩)
  | lowers (k : Wmem) (hk : Reaches env txKbitsPerSec k t) (hg : ¬ GivesUp (gbits txKbitsPerSec) t)
      (hc : ¬ Climbs (gbits txKbitsPerSec) t) (hmax : 600000 < k.kmaximum) (htune : u.tune = 2)
      (he : e = some ⟨some k.down, some k.down⟩)

theorem measure_outcome (env : MeasureEnv) (txKbitsPerSec rxKbitsPerSec : ℕ) (ha : t.averageTxKbitsPerSec = 0)
    (hs : t.suggested = 0) : Outcome env txKbitsPerSec t (t.measure true env txKbitsPerSec rxKbitsPerSec).1
      (executed (t.measure true env txKbitsPerSec rxKbitsPerSec).2) := by
  by_cases hr : ∃ k, Reaches env txKbitsPerSec k t
  · obtain ⟨k, hk⟩ := hr
    obtain ⟨htune, hbest, hx⟩ := measure_executed rxKbitsPerSec ha hs hk
    by_cases hg : GivesUp (gbits txKbitsPerSec) t
    · rw [if_pos hg] at htune hx
      exact .givesUp k hk hg htune (hbest hg) hx
    · rw [if_neg hg] at htune hx
      by_cases hc : Climbs (gbits txKbitsPerSec) t
      · rw [if_pos hc] at htune hx
        exact .climbs k hk hg hc htune hx
      · rw [if_neg hc] at htune hx
        by_cases hmax : 600000 < k.kmaximum
        · exact .lowers k hk hg hc hmax htune (hx.trans (if_pos hmax))
        · -- the limits that are read are the only ones
          have hsame : ∀ k', Reaches env txKbitsPerSec k' t → k' = k := fun k' hk' =>
            Option.some.inj (hk'.room.1.symm.trans hk.room.1)
          exact .nothing (fun k' hk' => ⟨hg, hc, hsame k' hk' ▸ hmax⟩) (hx.trans (if_neg hmax))
  · exact .nothing (fun k hk => absurd ⟨k, hk⟩ hr) (measure_not_executed ha hs hr)

/-- What a measurement leaves, in tuning mode. -/
theorem measure_keeps (ha : t.averageTxKbitsPerSec = 0) (hs : t.suggested = 0) :
    (t.measure true env txKbitsPerSec rxKbitsPerSec).1.suggested = 0 ∧
      Buffers t (t.measure true env txKbitsPerSec rxKbitsPerSec).1
        (executed (t.measure true env txKbitsPerSec rxKbitsPerSec).2) := by
  obtain ⟨-, hnone, hsame⟩ | ⟨-, u, hu, hstate, hacts⟩ := measure_cases env txKbitsPerSec
    rxKbitsPerSec ha
  · exact ⟨hsame.suggested.trans hs, .inl hsame.command, .inl hsame.best⟩
  · obtain ⟨hsug, hcommand, hbest⟩ := climb_keeps env (gbits txKbitsPerSec) (hu.suggested.trans hs)
    rw [hu.command, hu.best] at hcommand hbest
    rw [hstate, hacts]
    exact ⟨hsug, hcommand, hbest⟩

end Steps

end Tuner
end TuningMod

/-
# The direction of the tuner

`tune` is 1 for up, 2 for down and 3 for the best setting, and
`check_if_bitrate_too_low` has a branch for any other value. Once the best
setting has been ordered the tuner sets `tune` to 0, and does not aim again
until the next measurement. What keeps the 0 from the check is the wait of that
measurement: `nothing_done` has just been set to 1, and a suggestion, made if
the operator went back to learning in between, is not older than the order.

Key definitions: `CheckPath`, `Tuner.checkPath`, `Tuner.called`, `Tuner.Counters`, `Tuner.step`.
Key theorems: `checkIfBitrateTooLow_follow`, `measure_of_called`, `stop_waits`, `call_directed`, `step_counters`,
`called_directed`.
-/
import TuningMod.TunerSteps
import TuningMod.FlowRotation
import TuningMod.Lib.Runs

namespace TuningMod

/-- The ways through `check_if_bitrate_too_low`. -/
inductive CheckPath where
  | goodBitrate
  | notRead
  | notKnown
  | sufficient
  | up (k : Wmem)
  | down (k : Wmem)
  | tooSmall
  | best
  | invalidTune (tune : ℕ)
  | suggest
  deriving DecidableEq

/-- What each of them does. -/
def CheckPath.follow (t : Tuner) : CheckPath → Tuner × List Action
  | .goodBitrate => (t, [])
  | .notRead | .notKnown => (t, [.system .sysctlReadWmem])
  | .up k => t.applyTuning (some k.up) (some k.up)
  | .down k => t.applyTuning (some k.down) (some k.down)
  | .best => t.applyTuning t.aApplyDefTunBest none
  | .sufficient | .tooSmall | .invalidTune _ => ({ t with nothingDone := 1 }, [.system .sysctlReadWmem])
  | .suggest => ({ t with suggested := 1 }, [.system .sysctlReadWmem])

namespace Tuner

/-- The way that is taken. -/
def checkPath (gTuningMode : Bool) (env : MeasureEnv) (averageTxGbitsPerSec : ℚ) (t : Tuner) : CheckPath :=
  if averageTxGbitsPerSec < env.vGoodBitrateValue then
    match env.wmem with
    | none => .notRead
    | some k =>
      if env.myTuneMax = 0 then .notKnown
      else if gTuningMode then
        if env.myTuneMax ≤ k.kmaximum then .sufficient
        else if t.tune = 1 then .up k
        else if t.tune = 2 then if k.kmaximum > 600000 then .down k else .tooSmall
        else if t.tune = 3 then .best
        else .invalidTune t.tune
      else if env.myTuneMax ≤ k.kmaximum then .sufficient
      else .suggest
  else .goodBitrate

/-- The tuner with which the hill climbing calls the check, if it does. -/
def call (averageTxGbitsPerSec : ℚ) (t : Tuner) : Option Tuner :=
  let (t, skip) := (t.aim averageTxGbitsPerSec).waits
  if skip then none
  else if averageTxGbitsPerSec ≥ 1 then some { t with applied := 0 }
  else none

/-- The bitrate and the tuner with which a measurement calls it. -/
def called (t : Tuner) (m : RateMeasurement) : Option (ℚ × Tuner) :=
  let tx := (t.averageTxKbitsPerSec + m.txKbitsPerSec) / 1000000
  let rx := (t.averageRxKbitsPerSec + m.rxKbitsPerSec) / 1000000
  if tx ≠ 0 ∧ tx > (m.env.netDeviceSpeed.tdiv 1000 : ℤ) then none
  else
    let tx' := if tx ≠ 0 then tx + 30 / 100 else tx
    let rx' := if tx ≠ 0 then rx + 30 / 100 else rx
    let t := { t with
      averageTxKbitsPerSec := 0
      averageRxKbitsPerSec := 0
      vGlobalAverageTxGbitsPerSec := tx'
      vGlobalAverageRxGbitsPerSec := rx' }
    ((t.restoreChannels m.env m.txKbitsPerSec).1.call tx').map fun u => (tx', u)

/-- The tuner after a measurement. -/
def step (t : Tuner) (m : RateMeasurement) : Option Tuner :=
  some (t.measure m.gTuningMode m.env m.txKbitsPerSec m.rxKbitsPerSec).1

/-- `tune` is one of the three directions. -/
def Directed (t : Tuner) : Prop := t.tune = 1 ∨ t.tune = 2 ∨ t.tune = 3

/-- How far the counters go, and what they say of each other: what is suggested
is not applied, and the best setting is not ordered while a suggestion waits. -/
structure Counters (t : Tuner) : Prop where
  suggested : t.suggested ≤ 4
  nothingDone : t.nothingDone ≤ 6
  maxApply : t.maxApply < maxTuningApply
  applied : t.applied ≤ 1
  notApplied : t.suggested ≠ 0 → t.applied = 0
  best : t.tune = 3 → t.suggested ≤ 1

section Call

variable {t u : Tuner} {m : RateMeasurement} {gTuningMode : Bool} {env : MeasureEnv} {avg : ℚ}

/-! ### The calls of the check -/

theorem checkIfBitrateTooLow_follow :
    t.checkIfBitrateTooLow gTuningMode env avg = (t.checkPath gTuningMode env avg).follow t := by
  unfold checkIfBitrateTooLow checkPath
  by_cases hlow : avg < env.vGoodBitrateValue
  · rw [if_pos hlow, if_pos hlow]
    cases env.wmem with
    | none => rfl
    | some k =>
      dsimp only
      split_ifs <;> rfl
  · rw [if_neg hlow, if_neg hlow]
    rfl

theorem climb_of_call (h : t.call avg = some u) :
    t.climb gTuningMode env avg = u.checkIfBitrateTooLow gTuningMode env avg := by
  unfold call at h
  unfold climb
  dsimp only at h ⊢
  split_ifs at h ⊢
  obtain rfl := Option.some.inj h
  rfl

/-- Without a call neither the mode nor the limits have a part in it. -/
theorem climb_of_not_call (h : t.call avg = none) (gTuningMode' : Bool) (env' : MeasureEnv) :
    t.climb gTuningMode env avg = t.climb gTuningMode' env' avg := by
  unfold call at h
  unfold climb
  dsimp only at h ⊢
  split_ifs at h ⊢ <;> rfl

/-- A measurement that calls the check leaves what the check leaves. -/
theorem measure_of_called (h : t.called m = some (avg, u)) :
    (t.measure m.gTuningMode m.env m.txKbitsPerSec m.rxKbitsPerSec).1 =
        (u.checkIfBitrateTooLow m.gTuningMode m.env avg).1 ∧
      (t.measure m.gTuningMode m.env m.txKbitsPerSec m.rxKbitsPerSec).2 =
        (t.restoreChannels m.env m.txKbitsPerSec).2 ++ (u.checkIfBitrateTooLow m.gTuningMode m.env avg).2 := by
  unfold called at h
  unfold measure
  dsimp only at h ⊢
  split_ifs at h ⊢ with hskip
  all_goals
    obtain ⟨v, hv, heq⟩ := Option.map_eq_some_iff.mp h
    obtain ⟨rfl, rfl⟩ := Prod.mk.inj heq
    rw [climb_of_call hv]
    refine ⟨rfl, ?_⟩
    unfold restoreChannels
    split_ifs <;> rfl

theorem measure_of_not_called (h : t.called m = none) (gTuningMode : Bool) (vGoodBitrateValue : ℚ)
    (myTuneMax : UInt32) (wmem : Option Wmem) :
    t.measure m.gTuningMode m.env m.txKbitsPerSec m.rxKbitsPerSec =
      t.measure gTuningMode
        { m.env with vGoodBitrateValue := vGoodBitrateValue, myTuneMax := myTuneMax, wmem := wmem }
        m.txKbitsPerSec m.rxKbitsPerSec := by
  unfold called at h
  unfold measure
  dsimp only at h ⊢
  split_ifs at h ⊢ with hskip
  · rfl
  all_goals
    have hnone := Option.map_eq_none_iff.mp h
    rw [climb_of_not_call hnone gTuningMode
      { m.env with vGoodBitrateValue := vGoodBitrateValue, myTuneMax := myTuneMax, wmem := wmem }]
    rfl

theorem checkPath_ne_invalidTune (h : t.Directed) (tune : ℕ) :
    t.checkPath gTuningMode env avg ≠ .invalidTune tune := by
  intro heq
  unfold checkPath at heq
  by_cases hlow : avg < env.vGoodBitrateValue
  · rw [if_pos hlow] at heq
    cases hwmem : env.wmem with
    | none =>
      rw [hwmem] at heq
      cases heq
    | some k =>
      rw [hwmem] at heq
      dsimp only at heq
      split_ifs at heq with _ _ _ hup hdown _ hbest
      all_goals cases heq
      exact h.elim hup fun h => h.elim hdown hbest
  · rw [if_neg hlow] at heq
    cases heq

/-! ### The counters -/

theorem counters_initial : Counters {} := by
  constructor <;> decide

/-- Whoever aims has a direction, and orders the best setting of what was applied. -/
theorem aim_directed (h : Counters t) (hgo : ¬ (t.tune = 3 ∧ avg ≠ 0)) :
    (t.aim avg).Directed ∧ ((t.aim avg).tune = 3 → t.suggested = 0) := by
  rw [aim_eq hgo]
  unfold Directed
  dsimp only
  split_ifs with hgives hclimbs
  · refine ⟨.inr (.inr rfl), fun _ => ?_⟩
    by_contra hsuggested
    exact hgives.1 (h.notApplied hsuggested)
  · exact ⟨.inl rfl, nofun⟩
  · exact ⟨.inr (.inl rfl), nofun⟩

theorem aim_counters (h : Counters t) (avg : ℚ) :
    Counters (t.aim avg) ∧ ((t.aim avg).tune = 3 → (t.aim avg).suggested = 0) := by
  by_cases hstop : t.tune = 3 ∧ avg ≠ 0
  · rw [aim_stop hstop]
    refine ⟨{ h with
      nothingDone := (by decide : 1 ≤ 6)
      applied := Nat.zero_le 1
      notApplied := fun _ => rfl
      best := nofun }, nofun⟩
  · have hbest := (aim_directed h hstop).2
    rw [aim_eq hstop] at hbest ⊢
    refine ⟨⟨h.suggested, h.nothingDone, ?_, h.applied, h.notApplied, fun h3 => ?_⟩, hbest⟩
    · have hmax := h.maxApply
      have hone : 1 < maxTuningApply := by decide
      dsimp only
      split_ifs with hreset hnew
      · omega
      · exact hone
      · -- the tenth application in a row ends in the first case
        obtain ⟨hnot, happlied⟩ := not_or.mp hreset
        by_contra hten
        exact hnot ⟨happlied, not_le.mp hnew, not_lt.mp hten⟩
    · have hzero : t.suggested = 0 := hbest h3
      exact hzero.trans_le (Nat.zero_le 1)

/-- **Once the best setting has been ordered, the measurement waits.** -/
theorem stop_waits (h : Counters t) (hstop : t.tune = 3 ∧ avg ≠ 0) : (t.aim avg).waits.2 = true := by
  have hle := h.best hstop.1
  rw [aim_stop hstop]
  unfold waits
  by_cases hsuggested : t.suggested = 0
  · simp [hsuggested]
  · have hnot : ¬ t.suggested > 3 := by omega
    simp [hsuggested, hnot]

theorem waits_tune : t.waits.1.tune = t.tune := by
  unfold waits
  split_ifs <;> rfl

theorem waits_go (hgo : t.waits.2 = false) : t.waits.1.suggested = 0 := by
  unfold waits at hgo ⊢
  split_ifs at hgo ⊢ with hsuggested
  · rfl
  all_goals exact not_not.mp hsuggested

theorem waits_counters (h : Counters t) (hbest : t.tune = 3 → t.suggested = 0) : Counters t.waits.1 := by
  unfold waits
  split_ifs with hsuggested holder happlied hnothing hfive
  · exact ⟨Nat.zero_le 4, h.nothingDone, h.maxApply, h.applied, fun hne => absurd rfl hne, fun _ => Nat.zero_le 1⟩
  · refine ⟨?_, h.nothingDone, h.maxApply, h.applied, fun _ => h.notApplied hsuggested, fun h3 => ?_⟩
    · dsimp only
      omega
    · exact absurd (hbest h3) hsuggested
  · exact { h with applied := Nat.zero_le 1, notApplied := fun _ => rfl }
  · exact { h with nothingDone := Nat.zero_le 6 }
  · refine ⟨h.suggested, ?_, h.maxApply, h.applied, h.notApplied, h.best⟩
    dsimp only
    omega
  · exact h

theorem Counters.not_applied (h : Counters t) : Counters { t with applied := 0 } :=
  { h with applied := Nat.zero_le 1, notApplied := fun _ => rfl }

/-- **The check is called with a direction**, and with nothing applied or suggested. -/
theorem call_directed (h : Counters t) (hcall : t.call avg = some u) :
    u.Directed ∧ Counters u ∧ u.applied = 0 ∧ u.suggested = 0 := by
  obtain ⟨haim, hbest⟩ := aim_counters h avg
  have hwaits := waits_counters haim hbest
  unfold call at hcall
  dsimp only at hcall
  split_ifs at hcall with hskip
  have hgo : (t.aim avg).waits.2 = false := by simpa using hskip
  obtain rfl := Option.some.inj hcall
  refine ⟨?_, hwaits.not_applied, rfl, waits_go hgo⟩
  have hnot : ¬ (t.tune = 3 ∧ avg ≠ 0) := fun hstop => hskip (stop_waits h hstop)
  have hdirected := (aim_directed h hnot).1
  unfold Directed at hdirected ⊢
  dsimp only
  rw [waits_tune]
  exact hdirected

/-- Each way through the check keeps the counters. -/
theorem follow_counters (h : Counters u) (happlied : u.applied = 0) (hsuggested : u.suggested = 0) (p : CheckPath) :
    Counters (p.follow u).1 := by
  have hnothing : Counters { u with nothingDone := 1 } :=
    { h with nothingDone := (by decide : 1 ≤ 6) }
  have happly : ∀ a v, Counters (u.applyTuning a v).1 := fun _ _ =>
    { h with applied := le_rfl, notApplied := fun hne => absurd hsuggested hne }
  cases p with
  | goodBitrate => exact h
  | notRead => exact h
  | notKnown => exact h
  | sufficient => exact hnothing
  | up k => exact happly _ _
  | down k => exact happly _ _
  | tooSmall => exact hnothing
  | best => exact happly _ _
  | invalidTune tune => exact hnothing
  | suggest => exact ⟨(by decide : 1 ≤ 4), h.nothingDone, h.maxApply, h.applied, fun _ => happlied, fun _ => le_rfl⟩

/-- The hill climbing keeps them, in either mode. -/
theorem climb_counters (h : Counters t) : Counters (t.climb gTuningMode env avg).1 := by
  cases hcall : t.call avg with
  | some u =>
    obtain ⟨-, hcounters, happlied, hsuggested⟩ := call_directed h hcall
    rw [climb_of_call hcall, checkIfBitrateTooLow_follow]
    exact follow_counters hcounters happlied hsuggested _
  | none =>
    obtain ⟨haim, hbest⟩ := aim_counters h avg
    have hwaits := waits_counters haim hbest
    unfold call at hcall
    unfold climb
    dsimp only at hcall ⊢
    split_ifs at hcall ⊢
    · exact hwaits
    · exact hwaits.not_applied

theorem SameTuning.counters (h : Counters t) (hsame : SameTuning t u) : Counters u := by
  constructor
  · rw [hsame.suggested]
    exact h.suggested
  · rw [hsame.nothingDone]
    exact h.nothingDone
  · rw [hsame.maxApply]
    exact h.maxApply
  · rw [hsame.applied]
    exact h.applied
  · rw [hsame.suggested, hsame.applied]
    exact h.notApplied
  · rw [hsame.tune, hsame.suggested]
    exact h.best

theorem Counters.rates (h : Counters t) (tx rx globalTx globalRx : ℚ) : Counters { t with
    averageTxKbitsPerSec := tx
    averageRxKbitsPerSec := rx
    vGlobalAverageTxGbitsPerSec := globalTx
    vGlobalAverageRxGbitsPerSec := globalRx } :=
  { h with }

theorem measure_counters (h : Counters t) (m : RateMeasurement) :
    Counters (t.measure m.gTuningMode m.env m.txKbitsPerSec m.rxKbitsPerSec).1 := by
  unfold measure
  dsimp only
  split_ifs
  · exact h.rates _ _ _ _
  all_goals exact climb_counters (restoreChannels_tuning.counters (h.rates _ _ _ _))

theorem measure_directed (h : Counters t) (hcalled : t.called m = some (avg, u)) : u.Directed := by
  unfold called at hcalled
  dsimp only at hcalled
  split_ifs at hcalled
  all_goals
    obtain ⟨v, hv, heq⟩ := Option.map_eq_some_iff.mp hcalled
    obtain ⟨-, rfl⟩ := Prod.mk.inj heq
    exact (call_directed (restoreChannels_tuning.counters (h.rates _ _ _ _)) hv).1

theorem step_counters (h : Counters t) (hs : step t m = some u) : Counters u := by
  obtain rfl := Option.some.inj hs
  exact measure_counters h m

/-! ### Runs -/

theorem run_counters {ms : List RateMeasurement} (hr : Runs.run step {} ms = some t) : Counters t :=
  Runs.history_inv (P := fun _ => Counters) counters_initial (fun _ _ _ _ _ h hs => step_counters h hs) hr

/-- The tuner of the thread that counts the flows has such runs. -/
theorem run_tuner {es : List FlowEvent} {s : FlowThread} (hr : Runs.run FlowThread.step {} es = some s) :
    Runs.run step {} (FlowThread.measurements es) = some s.tuner := by
  refine Runs.history_inv (P := fun es s => Runs.run step {} (FlowThread.measurements es) = some s.tuner) rfl ?_ hr
  intro pre s e s' _ ih hs
  cases e with
  | measure m =>
    obtain rfl := Option.some.inj hs
    rw [FlowThread.measurements_measure]
    exact (Runs.run_snoc_iff step).mpr ⟨s.tuner, ih, rfl⟩
  | record act =>
    obtain ⟨activities, -, rfl⟩ := Option.map_eq_some_iff.mp hs
    rw [FlowThread.measurements_record]
    exact ih

end Call

/-- **The check is always called with a direction**, whatever the bitrates, the
modes and what the check comes to: its branch for an invalid one is never
taken. -/
theorem called_directed (ms : List RateMeasurement) :
    Runs.Steps step {} (fun _ t m => ∀ avg u, t.called m = some (avg, u) →
      (u.tune = 1 ∨ u.tune = 2 ∨ u.tune = 3) ∧
        ∀ tune, u.checkPath m.gTuningMode m.env avg ≠ .invalidTune tune) ms := by
  intro pre m suf t t' _ hr _ avg u hcalled
  have hdirected := measure_directed (run_counters hr) hcalled
  exact ⟨hdirected, checkPath_ne_invalidTune hdirected⟩

/-- A host of 10 Gb/s whose limit can be raised, in tuning mode. -/
def belowMaximum (txKbitsPerSec : ℕ) : RateMeasurement where
  gTuningMode := true
  env := {
    netDeviceSpeed := 10000
    vGoodBitrateValue := 97 / 10
    myTuneMax := 1147483647
    wmem := some ⟨4096, 16384, 67108864⟩ }
  txKbitsPerSec := txKbitsPerSec
  rxKbitsPerSec := 0

/-- A best bitrate and ten worse ones: the tuner gives up, and then `tune` is 0. -/
example : (Runs.run step {} (belowMaximum 9000000 :: List.replicate 10 (belowMaximum 8000000))).map
      (fun t => (t.tune, t.applied)) = some (3, 1) ∧
    (Runs.run step {} (belowMaximum 9000000 :: List.replicate 11 (belowMaximum 8000000))).map
      (fun t => (t.tune, t.nothingDone)) = some (0, 2) := by decide +kernel

end Tuner
end TuningMod

/-
# One bitrate measurement of `fDoRunGetThresholds`

What the measurement thread does once the transmit and receive rates of the
last second are known: reset this host's pacing on an idle link, average the
rates, set back the channels, and run the tuner of `net.ipv4.tcp_wmem`, which
may call `check_if_bitrate_too_low`. `BITRATE_INTERVAL` is 1, so every
measurement ends an interval.

The other commands of the thread (`bpftrace`, `lsof`, `ip route`) only read,
and are not modelled; `something_wrong_check` is 0 whenever it is tested.

Key definitions: `Tuner`, `checkIfBitrateTooLow`, `Tuner.aim`, `Tuner.measure`.
Key theorems: `checkIfBitrateTooLow_learning`, `measure_learning`.
-/
import TuningMod.Pacing

namespace TuningMod

def ktuningDelta : UInt32 := 200000
def maxTuningApply : ℕ := 10

/-- What the measurement thread reads: the NIC, the operator's settings, the
channel settings to go back to, `my_tune_max`, and the limits that
`sysctl net.ipv4.tcp_wmem` prints (`none` if it prints nothing). -/
structure MeasureEnv where
  netDeviceSpeed : ℤ
  vDebugLevel : ℤ := 1
  vGoodBitrateValue : ℚ
  myTuneMax : UInt32
  wmem : Option Wmem
  netDeviceOnlyCombinedChannelCfg : Bool := false
  netDeviceRxChannelCfgCurrVal : ℤ := 0
  netDeviceTxChannelCfgCurrVal : ℤ := 0
  netDeviceCombinedChannelCfgCurrVal : ℤ := 0

/-- What the thread keeps from one measurement to the next. `tune` is 1 for
up, 2 for down, 3 to go back to the best setting; a command buffer that was
never written is `none`. -/
structure Tuner where
  averageTxKbitsPerSec : ℚ := 0
  averageRxKbitsPerSec : ℚ := 0
  highestAverageTxGbitsPerSec : ℚ := 0
  previousAverageTxGbitsPerSec : ℚ := 0
  vGlobalAverageTxGbitsPerSec : ℚ := 0
  vGlobalAverageRxGbitsPerSec : ℚ := 0
  applied : ℕ := 0
  suggested : ℕ := 0
  nothingDone : ℕ := 0
  maxApply : ℕ := 0
  tune : ℕ := 1
  aApplyDefTunBest : Option Wmem := none
  bestWmemVal : Option Wmem := none
  vDidSetChannel : Bool := false
  deriving DecidableEq

namespace Tuner

/-! ### `check_if_bitrate_too_low` -/

/-- Run the command in `aApplyDefTun`; `aValue` is what the CSV row names. -/
def applyTuning (t : Tuner) (aApplyDefTun aValue : Option Wmem) : Tuner × List Action :=
  ({ t with aApplyDefTunBest := aApplyDefTun, applied := 1 },
    [.system .sysctlReadWmem, .system (.sysctlWriteWmem aApplyDefTun), .csvRow aValue,
      .recordActivity aApplyDefTun])

/-- The caller's `aApplyDefTunBest` is `aApplyDefTun` here. With `tune` 3 its
text is run as it is, and `aValue` is not written. -/
def checkIfBitrateTooLow (gTuningMode : Bool) (env : MeasureEnv) (averageTxGbitsPerSec : ℚ) (t : Tuner) :
    Tuner × List Action :=
  if averageTxGbitsPerSec < env.vGoodBitrateValue then
    match env.wmem with
    | none => (t, [.system .sysctlReadWmem])
    | some k =>
      if env.myTuneMax = 0 then (t, [.system .sysctlReadWmem])
      else if gTuningMode then
        if env.myTuneMax ≤ k.kmaximum then ({ t with nothingDone := 1 }, [.system .sysctlReadWmem])
        else if t.tune = 1 then
          let w := { k with kmaximum := k.kmaximum + ktuningDelta }
          t.applyTuning (some w) (some w)
        else if t.tune = 2 then
          if k.kmaximum > 600000 then
            let w := { k with kmaximum := k.kmaximum - ktuningDelta }
            t.applyTuning (some w) (some w)
          else ({ t with nothingDone := 1 }, [.system .sysctlReadWmem])
        else if t.tune = 3 then t.applyTuning t.aApplyDefTunBest none
        else ({ t with nothingDone := 1 }, [.system .sysctlReadWmem])
      else if env.myTuneMax ≤ k.kmaximum then ({ t with nothingDone := 1 }, [.system .sysctlReadWmem])
      else ({ t with suggested := 1 }, [.system .sysctlReadWmem])
  else (t, [])

/-! ### The tuner -/

/-- The hill climbing: pick the direction of the next change. -/
def aim (t : Tuner) (averageTxGbitsPerSec : ℚ) : Tuner :=
  if t.tune = 3 ∧ averageTxGbitsPerSec ≠ 0 then { t with tune := 0, applied := 0, nothingDone := 1 }
  else
    let t := if t.highestAverageTxGbitsPerSec ≤ averageTxGbitsPerSec then
      let t := { t with highestAverageTxGbitsPerSec := averageTxGbitsPerSec }
      if t.applied ≠ 0 then { t with bestWmemVal := t.aApplyDefTunBest, maxApply := 0 } else t
      else t
    let t := { t with
      tune := if t.previousAverageTxGbitsPerSec < t.highestAverageTxGbitsPerSec then 1 else 2
      maxApply := if t.applied ≠ 0 then t.maxApply + 1 else 0 }
    let t := if t.maxApply ≥ maxTuningApply then
      { t with tune := 3, aApplyDefTunBest := t.bestWmemVal, maxApply := 0 } else t
    { t with previousAverageTxGbitsPerSec := averageTxGbitsPerSec }

/-- Whether this measurement is skipped, after a suggestion or with nothing to
do: `true` stands for `goto ck_stage`. -/
def waits (t : Tuner) : Tuner × Bool :=
  if t.suggested ≠ 0 then
    if t.suggested > 3 then ({ t with suggested := 0 }, false)
    else ({ t with suggested := t.suggested + 1 }, true)
  else if t.applied ≠ 0 then ({ t with applied := 0 }, false)
  else if t.nothingDone ≠ 0 then
    if t.nothingDone > 5 then ({ t with nothingDone := 0 }, false)
    else ({ t with nothingDone := t.nothingDone + 1 }, true)
  else (t, false)

def climb (gTuningMode : Bool) (env : MeasureEnv) (averageTxGbitsPerSec : ℚ) (t : Tuner) :
    Tuner × List Action :=
  let (t, skip) := (t.aim averageTxGbitsPerSec).waits
  if skip then (t, [])
  else
    let t := { t with applied := 0 }
    -- at least a Gig to check
    if averageTxGbitsPerSec ≥ 1 then checkIfBitrateTooLow gTuningMode env averageTxGbitsPerSec t
    else (t, [])

/-! ### A measurement -/

/-- The channels are set back when transmission stops. `vDidSetChannel` is set
by `fDoSetChannels`, which nothing calls. -/
def restoreChannels (t : Tuner) (env : MeasureEnv) (txKbitsPerSec : ℕ) : Tuner × List Action :=
  if txKbitsPerSec = 0 ∧ t.vDidSetChannel ∧ env.vDebugLevel > 0 then
    ({ t with vDidSetChannel := false },
      [.system (if !env.netDeviceOnlyCombinedChannelCfg then
          .ethtoolChannels env.netDeviceRxChannelCfgCurrVal env.netDeviceTxChannelCfgCurrVal
            env.netDeviceCombinedChannelCfgCurrVal
        else .ethtoolCombined env.netDeviceCombinedChannelCfgCurrVal)])
  else (t, [])

/-- From the rates of the last second to `tx_Gbs_off`. A rate above the speed
of the NIC (in whole Gb/s) is not used. -/
def measure (gTuningMode : Bool) (env : MeasureEnv) (txKbitsPerSec rxKbitsPerSec : ℕ) (t : Tuner) :
    Tuner × List Action :=
  let tx := (t.averageTxKbitsPerSec + txKbitsPerSec) / 1000000
  let rx := (t.averageRxKbitsPerSec + rxKbitsPerSec) / 1000000
  let t := { t with averageTxKbitsPerSec := 0, averageRxKbitsPerSec := 0 }
  if tx ≠ 0 ∧ tx > (env.netDeviceSpeed.tdiv 1000 : ℤ) then (t, [])
  else
    -- the jitter
    let tx' := if tx ≠ 0 then tx + 30 / 100 else tx
    let rx' := if tx ≠ 0 then rx + 30 / 100 else rx
    let t := { t with vGlobalAverageTxGbitsPerSec := tx', vGlobalAverageRxGbitsPerSec := rx' }
    let (t, channels) := t.restoreChannels env txKbitsPerSec
    let (t, tuning) := t.climb gTuningMode env tx'
    (t, channels ++ tuning)

/-! ### Learning mode -/

/-- The only command is one that reads `net.ipv4.tcp_wmem`. -/
def OnlyReads (acts : List Action) : Prop := ∀ a ∈ acts, a = .system .sysctlReadWmem

theorem onlyReads_nil : OnlyReads [] := fun _ h => by cases h

theorem onlyReads_read : OnlyReads [.system .sysctlReadWmem] := fun _ h => List.mem_singleton.mp h

section Learning

variable {env : MeasureEnv} {t : Tuner}

theorem checkIfBitrateTooLow_learning (averageTxGbitsPerSec : ℚ) :
    OnlyReads (t.checkIfBitrateTooLow false env averageTxGbitsPerSec).2 := by
  unfold checkIfBitrateTooLow
  by_cases hg : averageTxGbitsPerSec < env.vGoodBitrateValue
  · rw [if_pos hg]
    cases env.wmem with
    | none => exact onlyReads_read
    | some k =>
      simp only [Bool.false_eq_true, if_false]
      split_ifs <;> exact onlyReads_read
  · rw [if_neg hg]
    exact onlyReads_nil

theorem climb_learning (averageTxGbitsPerSec : ℚ) :
    OnlyReads (t.climb false env averageTxGbitsPerSec).2 := by
  unfold climb
  dsimp only
  split_ifs
  · exact onlyReads_nil
  · exact checkIfBitrateTooLow_learning _
  · exact onlyReads_nil

theorem restoreChannels_of_not_set {txKbitsPerSec : ℕ} (h : t.vDidSetChannel = false) :
    t.restoreChannels env txKbitsPerSec = (t, []) := by
  unfold restoreChannels
  rw [if_neg (by simp [h])]

/-- With the channels never set, a measurement in learning mode only reads. -/
theorem measure_learning {txKbitsPerSec rxKbitsPerSec : ℕ} (h : t.vDidSetChannel = false) :
    OnlyReads (t.measure false env txKbitsPerSec rxKbitsPerSec).2 := by
  unfold measure
  dsimp only
  split_ifs
  all_goals first
    | exact onlyReads_nil
    | rw [restoreChannels_of_not_set (by exact h), List.nil_append]
      exact climb_learning _

end Learning

/-! ### The channels are never set -/

section Channels

variable {gTuningMode : Bool} {env : MeasureEnv} {t : Tuner}

theorem checkIfBitrateTooLow_vDidSetChannel (averageTxGbitsPerSec : ℚ) :
    (t.checkIfBitrateTooLow gTuningMode env averageTxGbitsPerSec).1.vDidSetChannel = t.vDidSetChannel := by
  unfold checkIfBitrateTooLow applyTuning
  cases env.wmem <;> dsimp only <;> split_ifs <;> rfl

theorem aim_vDidSetChannel (averageTxGbitsPerSec : ℚ) :
    (t.aim averageTxGbitsPerSec).vDidSetChannel = t.vDidSetChannel := by
  unfold aim
  dsimp only
  split_ifs <;> rfl

theorem waits_vDidSetChannel : t.waits.1.vDidSetChannel = t.vDidSetChannel := by
  unfold waits
  split_ifs <;> rfl

theorem climb_vDidSetChannel (averageTxGbitsPerSec : ℚ) :
    (t.climb gTuningMode env averageTxGbitsPerSec).1.vDidSetChannel = t.vDidSetChannel := by
  have hw : (t.aim averageTxGbitsPerSec).waits.1.vDidSetChannel = t.vDidSetChannel :=
    waits_vDidSetChannel.trans (aim_vDidSetChannel _)
  unfold climb
  dsimp only
  split_ifs
  · exact hw
  · rw [checkIfBitrateTooLow_vDidSetChannel]
    exact hw
  · exact hw

theorem measure_vDidSetChannel {txKbitsPerSec rxKbitsPerSec : ℕ} (h : t.vDidSetChannel = false) :
    (t.measure gTuningMode env txKbitsPerSec rxKbitsPerSec).1.vDidSetChannel = false := by
  unfold measure
  dsimp only
  split_ifs
  all_goals first
    | exact h
    | rw [restoreChannels_of_not_set (by exact h), climb_vDidSetChannel]
      exact h

end Channels

/-! ### Pacing is left alone -/

/-- No `tc` command and no write of the pacing record. -/
def LeavesPacing (acts : List Action) : Prop :=
  ∀ a ∈ acts, (∀ c, a ≠ .system (.tc c)) ∧ ∀ r, a ≠ .shmWrite r

section Pacing

variable {gTuningMode : Bool} {env : MeasureEnv} {t : Tuner}

theorem leavesPacing_nil : LeavesPacing [] := fun _ h => by cases h

theorem leavesPacing_read : LeavesPacing [.system .sysctlReadWmem] := by simp [LeavesPacing]

theorem applyTuning_leavesPacing (aApplyDefTun aValue : Option Wmem) :
    LeavesPacing (t.applyTuning aApplyDefTun aValue).2 := by
  simp [applyTuning, LeavesPacing]

theorem checkIfBitrateTooLow_leavesPacing (averageTxGbitsPerSec : ℚ) :
    LeavesPacing (t.checkIfBitrateTooLow gTuningMode env averageTxGbitsPerSec).2 := by
  unfold checkIfBitrateTooLow
  cases env.wmem <;> dsimp only <;> split_ifs
  all_goals first
    | exact leavesPacing_nil
    | exact leavesPacing_read
    | exact applyTuning_leavesPacing _ _

theorem climb_leavesPacing (averageTxGbitsPerSec : ℚ) :
    LeavesPacing (t.climb gTuningMode env averageTxGbitsPerSec).2 := by
  unfold climb
  dsimp only
  split_ifs
  · exact leavesPacing_nil
  · exact checkIfBitrateTooLow_leavesPacing _
  · exact leavesPacing_nil

theorem restoreChannels_leavesPacing {txKbitsPerSec : ℕ} :
    LeavesPacing (t.restoreChannels env txKbitsPerSec).2 := by
  unfold restoreChannels
  by_cases h : txKbitsPerSec = 0 ∧ t.vDidSetChannel ∧ env.vDebugLevel > 0
  · rw [if_pos h]
    cases env.netDeviceOnlyCombinedChannelCfg <;> simp [LeavesPacing]
  · rw [if_neg h]
    exact leavesPacing_nil

theorem measure_leavesPacing {txKbitsPerSec rxKbitsPerSec : ℕ} :
    LeavesPacing (t.measure gTuningMode env txKbitsPerSec rxKbitsPerSec).2 := by
  unfold measure
  dsimp only
  split_ifs
  all_goals first
    | exact leavesPacing_nil
    | intro a ha
      rcases List.mem_append.mp ha with ha | ha
      · exact restoreChannels_leavesPacing a ha
      · exact climb_leavesPacing _ a ha

end Pacing
end Tuner
end TuningMod

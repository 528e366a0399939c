/-
# Pacing decisions of a source DTN

What a source does with the messages of its destinations and with Kafka's
bandwidth reports. Each handler reads the shared record `sResetPacingBack`,
picks a `tc` command and writes the record; it is modelled by the list of what
it does, in order, as a function of the record it read. Rates are exact
rationals, and every command and every access to the shared memory succeeds.

Key definitions: `TcCmd`, `Action`, `fDoQinfoAssessment2`, `fDoResetPacing2`,
`fDoCleanupResetPacing2`, `fDoQinfoAssessmentKafka`, `idleReset`, `Records`.
Key theorems: `pickPacing_cases`, `qinfo_cases`, `kafka_cases`, `qinfo_records`, `kafka_records`.
-/
import Mathlib.Algebra.Order.Ring.Rat
import Mathlib.Tactic.SplitIfs

namespace TuningMod

/-! ### The record and the commands -/

def regularPacingFlagSet : ℤ := 1
def nopacingFlagSet : ℤ := 99

/-- `sResetPacingBack`, the record in shared memory. -/
structure SResetPacingBack where
  set : ℤ := 0
  currentPacing : ℚ := 0
  deriving DecidableEq

/-- The `tc qdisc` commands for the root qdisc of `netDevice`. -/
inductive TcCmd where
  /-- `tc qdisc del dev %s root` -/
  | del
  /-- `tc qdisc del dev %s root; tc qdisc add dev %s root fq maxrate %.2fgbit` -/
  | delAddMaxrate (rate : ℚ)
  /-- `tc qdisc change dev %s root fq maxrate %.2fgbit pacing` -/
  | changeMaxrate (rate : ℚ)
  /-- `tc qdisc change dev %s root fq nopacing` -/
  | changeNopacing
  deriving DecidableEq

/-- The rate a command sets, if it is a maxrate command. -/
def TcCmd.maxrate : TcCmd → Option ℚ
  | .delAddMaxrate rate => some rate
  | .changeMaxrate rate => some rate
  | _ => none

/-- The limits of `net.ipv4.tcp_wmem`. -/
structure Wmem where
  kminimum : UInt32
  kdefault : Int32
  kmaximum : UInt32
  deriving DecidableEq

/-- The commands of the handlers and of the measurement thread. -/
inductive Cmd where
  | tc (c : TcCmd)
  /-- `sysctl net.ipv4.tcp_wmem` -/
  | sysctlReadWmem
  /-- `sysctl -w net.ipv4.tcp_wmem="%u %d %u"`; `none` is a buffer never written. -/
  | sysctlWriteWmem (w : Option Wmem)
  /-- `ethtool -L %s rx %d tx %d  combined %d` -/
  | ethtoolChannels (rx tx combined : ℤ)
  /-- `ethtool -L %s combined %d` -/
  | ethtoolCombined (combined : ℤ)
  deriving DecidableEq

def Cmd.tc? : Cmd → Option TcCmd
  | .tc c => some c
  | _ => none

/-- What a handler does, apart from its log messages. -/
inductive Action where
  | system (c : Cmd)
  | shmWrite (r : SResetPacingBack)
  | fStartEvaluationTimer
  | csvRow (aValue : Option Wmem)
  | recordActivity (aApplyDefTun : Option Wmem)
  deriving DecidableEq

def Action.tc? : Action → Option TcCmd
  | .system c => c.tc?
  | _ => none

/-! ### The handlers -/

/-- The globals the handlers read: the bitrate and the retransmission rate last
published, the operator's settings, and the `dest_ip_addr` of the entries of
`aDest_Dtn_IPs` (the entries' own rates are not used with `USEGLOBALRETRAN`). -/
structure PacingEnv where
  netDeviceSpeed : ℤ
  vGlobalAverageTxGbitsPerSec : ℚ
  vGlobalRetransmissionRate : ℚ
  vRetransmissionRateThreshold : ℚ
  vMaxPacingRate : ℚ := 9 / 10
  vCanStartEvaluationTimer : Bool := true
  aDestDtnIPs : List UInt32
  deriving DecidableEq

/-- The loops over `aDest_Dtn_IPs`: an address of zero is an empty entry. -/
def PacingEnv.found (env : PacingEnv) (destIpAddr : UInt32) : Bool :=
  env.aDestDtnIPs.any fun a => a ≠ 0 && destIpAddr = a

/-- `vNewPacingValue` of `fDoQinfoAssessment2`: above 34 Gb/s it is forced to
40, below 2 to 2. -/
def PacingEnv.newPacingValue (env : PacingEnv) : ℚ :=
  let v := env.vGlobalAverageTxGbitsPerSec * env.vMaxPacingRate
  let v := if v > 34 then 40 else v
  if v < 2 then 2 else v

/-- How both branches of `fDoQinfoAssessment2` pick a command: the command,
`vPacingFlag` and the value for `current_pacing`, or `none` for `goto leavethis`. -/
def pickPacing (r : SResetPacingBack) (vNewPacingValue : ℚ) : Option (TcCmd × ℤ × ℚ) :=
  if r.set ≠ 0 then
    if vNewPacingValue = 40 then
      if r.set = nopacingFlagSet then none
      else if r.set = regularPacingFlagSet then some (.changeNopacing, nopacingFlagSet, vNewPacingValue)
      else none
    else some (.changeMaxrate vNewPacingValue, regularPacingFlagSet, vNewPacingValue)
  else
    -- not set up yet
    let vNewPacingValue := if vNewPacingValue > 34 then 34 else vNewPacingValue
    some (.delAddMaxrate vNewPacingValue, regularPacingFlagSet, vNewPacingValue)

def fDoQinfoAssessment2 (gTuningMode : Bool) (sResetPacingBack : SResetPacingBack) (env : PacingEnv)
    (hopDelay destIpAddr : UInt32) : List Action :=
  if env.vGlobalAverageTxGbitsPerSec = 0 then []
  else if env.found destIpAddr && hopDelay ≠ 0 then
    match pickPacing sResetPacingBack env.newPacingValue with
    | none => []
    | some (c, vPacingFlag, v) =>
      if gTuningMode then [.system (.tc c), .shmWrite { set := vPacingFlag, currentPacing := v }] else []
  else if env.found destIpAddr && hopDelay = 0 &&
      env.vGlobalRetransmissionRate > env.vRetransmissionRateThreshold then
    match pickPacing sResetPacingBack env.newPacingValue with
    | none => []
    | some (c, _, v) =>
      -- this branch does not use `vPacingFlag`
      if gTuningMode then
        [.system (.tc c), .shmWrite { set := regularPacingFlagSet, currentPacing := v }]
      else []
  else []

def fDoResetPacing2 (gTuningMode : Bool) (sResetPacingBack : SResetPacingBack) (env : PacingEnv)
    (destIpAddr : UInt32) : List Action :=
  if env.found destIpAddr && sResetPacingBack.set ≠ 0 then
    if gTuningMode then
      if sResetPacingBack.set = nopacingFlagSet then []
      else if sResetPacingBack.set = regularPacingFlagSet then
        [.shmWrite { set := nopacingFlagSet, currentPacing := 0 }, .system (.tc .changeNopacing)]
      else []
    else []
  else []

/-- Pacing is given up: the record is cleared and the root qdisc deleted. -/
def giveUpPacing (gTuningMode : Bool) (sResetPacingBack : SResetPacingBack) : List Action :=
  if sResetPacingBack.set ≠ 0 then
    if gTuningMode then [.shmWrite { set := 0, currentPacing := 0 }, .system (.tc .del)] else []
  else []

def fDoCleanupResetPacing2 (gTuningMode : Bool) (sResetPacingBack : SResetPacingBack) : List Action :=
  giveUpPacing gTuningMode sResetPacingBack

/-- The part of the idle detection of `fDoRunGetThresholds` that resets this
host's own pacing. -/
def idleReset (gTuningMode : Bool) (sResetPacingBack : SResetPacingBack) : List Action :=
  giveUpPacing gTuningMode sResetPacingBack

/-- The two places of `fDoQinfoAssessmentKafka` that remove pacing. -/
def kafkaRemovePacing (sResetPacingBack : SResetPacingBack) (env : PacingEnv) : List Action :=
  if sResetPacingBack.set = regularPacingFlagSet then
    if env.vCanStartEvaluationTimer then
      [.shmWrite { set := nopacingFlagSet, currentPacing := 0 }, .system (.tc .changeNopacing),
        .fStartEvaluationTimer]
    else []
  else []

/-- `residualBandwidth` is the number in the payload, in bits per second. -/
def fDoQinfoAssessmentKafka (gTuningMode : Bool) (sResetPacingBack : SResetPacingBack) (env : PacingEnv)
    (residualBandwidth : ℕ) : List Action :=
  let Gbps : ℚ := residualBandwidth / 1000 / 1000000
  let vFDevSpeed : ℚ := env.netDeviceSpeed / 1000
  let vThisAverage := env.vGlobalAverageTxGbitsPerSec
  if vThisAverage = 0 then []
  else
    let vCurrentPacingSet : Bool := sResetPacingBack.set ≠ 0
    let v := (vThisAverage + Gbps) * (95 / 100)
    let v := if v > 34 then 40 else v
    if vThisAverage + Gbps < vFDevSpeed * (95 / 100) then
      if v ≥ vFDevSpeed * (95 / 100) then
        if gTuningMode && vCurrentPacingSet then kafkaRemovePacing sResetPacingBack env else []
      else if v < vFDevSpeed * (10 / 100) then []
      else if !vCurrentPacingSet || sResetPacingBack.currentPacing * (95 / 100) < v ||
          sResetPacingBack.currentPacing * (95 / 100) > v then
        let c := if vCurrentPacingSet then TcCmd.changeMaxrate v else TcCmd.delAddMaxrate v
        if gTuningMode then
          if env.vCanStartEvaluationTimer then
            [.system (.tc c), .shmWrite { set := regularPacingFlagSet, currentPacing := v },
              .fStartEvaluationTimer]
          else []
        else []
      else []
    else if gTuningMode && vCurrentPacingSet then kafkaRemovePacing sResetPacingBack env
    else []

/-! ### What a handler can do -/

/-- The record describes the command. -/
def TcCmd.RecordedAs : TcCmd → SResetPacingBack → Prop
  | .del, r => r = { set := 0, currentPacing := 0 }
  | .delAddMaxrate rate, r => r = { set := regularPacingFlagSet, currentPacing := rate }
  | .changeMaxrate rate, r => r = { set := regularPacingFlagSet, currentPacing := rate }
  | .changeNopacing, r => r.set = nopacingFlagSet

/-- A handler runs one `tc` command and writes the record, in either order. -/
inductive Adjusts (c : TcCmd) (r : SResetPacingBack) : List Action → Prop
  | afterCommand : Adjusts c r [.system (.tc c), .shmWrite r]
  | beforeCommand : Adjusts c r [.shmWrite r, .system (.tc c)]
  | afterCommandTimer : Adjusts c r [.system (.tc c), .shmWrite r, .fStartEvaluationTimer]
  | beforeCommandTimer : Adjusts c r [.shmWrite r, .system (.tc c), .fStartEvaluationTimer]

/-- A handler does nothing, or runs a command and writes a record that describes it. -/
def Records (acts : List Action) : Prop :=
  acts = [] ∨ ∃ c r, Adjusts c r acts ∧ c.RecordedAs r

/-- A QINFO that `fDoQinfoAssessment2` acts on: there is traffic, the
destination is attached, and one of the two triggers holds. -/
structure PacingEnv.Congested (env : PacingEnv) (hopDelay destIpAddr : UInt32) : Prop where
  bitrate : env.vGlobalAverageTxGbitsPerSec ≠ 0
  found : env.found destIpAddr = true
  trigger : hopDelay ≠ 0 ∨ env.vGlobalRetransmissionRate > env.vRetransmissionRateThreshold

/-- The picked command, and the record with the flag that the branch of the
trigger writes. -/
def pickedActs (hopDelay : UInt32) : Option (TcCmd × ℤ × ℚ) → List Action
  | none => []
  | some (c, vPacingFlag, v) =>
    [.system (.tc c),
      .shmWrite { set := if hopDelay ≠ 0 then vPacingFlag else regularPacingFlagSet, currentPacing := v }]

/-- The QINFOs whose retransmission branch runs `fq nopacing`: it writes
`REGULAR_PACING_FLAG_SET` all the same. -/
structure NopacingAsRegular (gTuningMode : Bool) (r : SResetPacingBack) (env : PacingEnv)
    (hopDelay destIpAddr : UInt32) : Prop where
  tuning : gTuningMode = true
  regular : r.set = regularPacingFlagSet
  found : env.found destIpAddr = true
  noHopDelay : hopDelay = 0
  bitrate : env.vGlobalAverageTxGbitsPerSec ≠ 0
  retrans : env.vGlobalRetransmissionRate > env.vRetransmissionRateThreshold
  clamped : env.vGlobalAverageTxGbitsPerSec * env.vMaxPacingRate > 34

section Handlers

variable {gTuningMode : Bool} {r : SResetPacingBack} {env : PacingEnv} {destIpAddr hopDelay : UInt32}

theorem newPacingValue_eq_forty : env.newPacingValue = 40 ↔
    env.vGlobalAverageTxGbitsPerSec * env.vMaxPacingRate > 34 := by
  unfold PacingEnv.newPacingValue
  dsimp only
  split_ifs <;> grind

/-! ### The command that is picked -/

theorem pickPacing_notSetUp (h : r.set = 0) (v : ℚ) :
    pickPacing r v = some (.delAddMaxrate (min v 34), regularPacingFlagSet, min v 34) := by
  have hmin : (if v > 34 then 34 else v) = min v 34 := by
    rw [min_def]
    split_ifs <;> grind
  rw [pickPacing, if_neg (not_not.mpr h), hmin]

theorem pickPacing_setUp (h : r.set ≠ 0) {v : ℚ} (hv : v ≠ 40) :
    pickPacing r v = some (.changeMaxrate v, regularPacingFlagSet, v) := by
  rw [pickPacing, if_pos h, if_neg hv]

theorem pickPacing_forty (h : r.set = regularPacingFlagSet) :
    pickPacing r 40 = some (.changeNopacing, nopacingFlagSet, 40) := by
  unfold pickPacing
  rw [if_pos (by rw [h]; decide), if_pos rfl, if_neg (by rw [h]; decide), if_pos h]

theorem pickPacing_none (h : r.set ≠ 0) (h1 : r.set ≠ regularPacingFlagSet) : pickPacing r 40 = none := by
  rw [pickPacing, if_pos h, if_pos rfl, if_neg h1, ite_self]

theorem pickPacing_cases {v v' : ℚ} {c : TcCmd} {vPacingFlag : ℤ}
    (h : pickPacing r v = some (c, vPacingFlag, v')) :
    (r.set = 0 ∧ c = .delAddMaxrate v' ∧ v' = min v 34 ∧ vPacingFlag = regularPacingFlagSet) ∨
      (r.set ≠ 0 ∧ v ≠ 40 ∧ c = .changeMaxrate v' ∧ v' = v ∧ vPacingFlag = regularPacingFlagSet) ∨
      (r.set = regularPacingFlagSet ∧ v = 40 ∧ c = .changeNopacing ∧ v' = v ∧ vPacingFlag = nopacingFlagSet) := by
  by_cases h0 : r.set = 0
  · rw [pickPacing_notSetUp h0] at h
    cases h
    exact Or.inl ⟨h0, rfl, rfl, rfl⟩
  by_cases hv : v = 40
  · subst hv
    by_cases h1 : r.set = regularPacingFlagSet
    · rw [pickPacing_forty h1] at h
      cases h
      exact Or.inr (Or.inr ⟨h1, rfl, rfl, rfl, rfl⟩)
    · rw [pickPacing_none h0 h1] at h
      cases h
  · rw [pickPacing_setUp h0 hv] at h
    cases h
    exact Or.inr (Or.inl ⟨h0, hv, rfl, rfl, rfl⟩)

/-- A command that is picked is described by its own flag and value. -/
theorem pickPacing_recorded {v v' : ℚ} {c : TcCmd} {vPacingFlag : ℤ}
    (h : pickPacing r v = some (c, vPacingFlag, v')) : c.RecordedAs ⟨vPacingFlag, v'⟩ := by
  rcases pickPacing_cases h with ⟨-, rfl, -, rfl⟩ | ⟨-, -, rfl, -, rfl⟩ | ⟨-, -, rfl, -, rfl⟩
  all_goals rfl

/-! ### What each handler does -/

theorem qinfo_learning : fDoQinfoAssessment2 false r env hopDelay destIpAddr = [] := by
  unfold fDoQinfoAssessment2
  simp only [Bool.false_eq_true, if_false]
  cases pickPacing r env.newPacingValue <;> simp

/-- Both triggers pick the same command; they differ in the flag they record. -/
theorem qinfo_congested (h : env.Congested hopDelay destIpAddr) :
    fDoQinfoAssessment2 true r env hopDelay destIpAddr =
      pickedActs hopDelay (pickPacing r env.newPacingValue) := by
  unfold fDoQinfoAssessment2
  rw [if_neg h.bitrate]
  by_cases hd : hopDelay = 0
  · have hr : env.vGlobalRetransmissionRate > env.vRetransmissionRateThreshold :=
      h.trigger.resolve_left (not_not.mpr hd)
    simp only [hd, h.found, hr, ne_eq, not_true_eq_false, decide_false, decide_true, Bool.and_false,
      Bool.and_true, Bool.false_eq_true, if_false, if_true]
    cases pickPacing r env.newPacingValue <;> rfl
  · simp only [hd, h.found, ne_eq, not_false_eq_true, decide_true, Bool.and_true, if_true]
    cases pickPacing r env.newPacingValue with
    | none => rfl
    | some p => simp [pickedActs, hd]

theorem qinfo_not_congested (h : ¬ env.Congested hopDelay destIpAddr) :
    fDoQinfoAssessment2 gTuningMode r env hopDelay destIpAddr = [] := by
  unfold fDoQinfoAssessment2
  by_cases hb : env.vGlobalAverageTxGbitsPerSec = 0
  · rw [if_pos hb]
  by_cases hf : env.found destIpAddr = true
  · have ht : ¬ (hopDelay ≠ 0 ∨ env.vGlobalRetransmissionRate > env.vRetransmissionRateThreshold) :=
      fun ht => h ⟨hb, hf, ht⟩
    obtain ⟨hd, hr⟩ := not_or.mp ht
    rw [if_neg hb, if_neg (by simpa using fun _ => not_not.mp hd), if_neg (by simpa using fun _ _ => not_lt.mp hr)]
  · rw [if_neg hb, if_neg (by simp [hf]), if_neg (by simp [hf])]

/-- **What a QINFO can do**: nothing, or what was picked. -/
theorem qinfo_cases : fDoQinfoAssessment2 gTuningMode r env hopDelay destIpAddr = [] ∨
    gTuningMode = true ∧ env.Congested hopDelay destIpAddr ∧
      ∃ c vPacingFlag v, pickPacing r env.newPacingValue = some (c, vPacingFlag, v) ∧
        fDoQinfoAssessment2 gTuningMode r env hopDelay destIpAddr = [.system (.tc c),
          .shmWrite { set := if hopDelay ≠ 0 then vPacingFlag else regularPacingFlagSet, currentPacing := v }] := by
  by_cases hc : env.Congested hopDelay destIpAddr
  swap
  · exact Or.inl (qinfo_not_congested hc)
  cases gTuningMode with
  | false => exact Or.inl qinfo_learning
  | true =>
    rw [qinfo_congested hc]
    cases hp : pickPacing r env.newPacingValue with
    | none => exact Or.inl rfl
    | some p => exact Or.inr ⟨rfl, hc, p.1, p.2.1, p.2.2, rfl, rfl⟩

theorem resetPacing_cases : fDoResetPacing2 gTuningMode r env destIpAddr = [] ∨
    gTuningMode = true ∧ r.set = regularPacingFlagSet ∧ fDoResetPacing2 gTuningMode r env destIpAddr =
      [.shmWrite { set := nopacingFlagSet, currentPacing := 0 }, .system (.tc .changeNopacing)] := by
  unfold fDoResetPacing2
  split_ifs with _ ht _ h1
  · exact Or.inl rfl
  · exact Or.inr ⟨ht, h1, rfl⟩
  all_goals exact Or.inl rfl

theorem giveUpPacing_cases : giveUpPacing gTuningMode r = [] ∧ ¬ (gTuningMode = true ∧ r.set ≠ 0) ∨
    (gTuningMode = true ∧ r.set ≠ 0) ∧
      giveUpPacing gTuningMode r = [.shmWrite { set := 0, currentPacing := 0 }, .system (.tc .del)] := by
  unfold giveUpPacing
  split_ifs with h0 ht
  · exact Or.inr ⟨⟨ht, h0⟩, rfl⟩
  · exact Or.inl ⟨rfl, fun h => ht h.1⟩
  · exact Or.inl ⟨rfl, fun h => h0 h.2⟩

theorem kafkaRemovePacing_cases : kafkaRemovePacing r env = [] ∨
    env.vCanStartEvaluationTimer = true ∧ r.set = regularPacingFlagSet ∧ kafkaRemovePacing r env =
      [.shmWrite { set := nopacingFlagSet, currentPacing := 0 }, .system (.tc .changeNopacing),
        .fStartEvaluationTimer] := by
  unfold kafkaRemovePacing
  split_ifs with h1 ht
  · exact Or.inr ⟨ht, h1, rfl⟩
  all_goals exact Or.inl rfl

/-- **What a Kafka report can do**: nothing, or it removes or applies pacing
through the open gate of the evaluation timer. -/
theorem kafka_cases {residualBandwidth : ℕ} :
    fDoQinfoAssessmentKafka gTuningMode r env residualBandwidth = [] ∨
      gTuningMode = true ∧ env.vCanStartEvaluationTimer = true ∧
        (r.set = regularPacingFlagSet ∧ fDoQinfoAssessmentKafka gTuningMode r env residualBandwidth =
            [.shmWrite { set := nopacingFlagSet, currentPacing := 0 }, .system (.tc .changeNopacing),
              .fStartEvaluationTimer] ∨
          ∃ v, fDoQinfoAssessmentKafka gTuningMode r env residualBandwidth =
            [.system (.tc (if (r.set ≠ 0 : Bool) then .changeMaxrate v else .delAddMaxrate v)),
              .shmWrite { set := regularPacingFlagSet, currentPacing := v }, .fStartEvaluationTimer]) := by
  generalize hacts : fDoQinfoAssessmentKafka gTuningMode r env residualBandwidth = acts
  have hremove : ∀ {b : Bool}, (if (gTuningMode && b) = true then kafkaRemovePacing r env else []) = acts →
      acts = [] ∨ gTuningMode = true ∧ env.vCanStartEvaluationTimer = true ∧ r.set = regularPacingFlagSet ∧
        acts = [.shmWrite { set := nopacingFlagSet, currentPacing := 0 }, .system (.tc .changeNopacing),
          .fStartEvaluationTimer] := by
    rintro b rfl
    split_ifs with hb
    · rcases @kafkaRemovePacing_cases r env with hnil | ⟨ht, h1, h⟩
      · exact Or.inl hnil
      · exact Or.inr ⟨(Bool.and_eq_true_iff.mp hb).1, ht, h1, h⟩
    · exact Or.inl rfl
  unfold fDoQinfoAssessmentKafka at hacts
  dsimp only at hacts
  generalize env.vGlobalAverageTxGbitsPerSec + (residualBandwidth : ℚ) / 1000 / 1000000 = available at hacts
  generalize (if available * (95 / 100) > 34 then 40 else available * (95 / 100)) = v at hacts
  split at hacts
  · exact Or.inl hacts.symm
  split at hacts
  · split at hacts
    · exact (hremove hacts).imp_right fun h => ⟨h.1, h.2.1, Or.inl h.2.2⟩
    split at hacts
    · exact Or.inl hacts.symm
    split at hacts
    · split at hacts
      · split at hacts
        · exact Or.inr ⟨‹_›, ‹_›, Or.inr ⟨_, hacts.symm⟩⟩
        · exact Or.inl hacts.symm
      · exact Or.inl hacts.symm
    · exact Or.inl hacts.symm
  · exact (hremove hacts).imp_right fun h => ⟨h.1, h.2.1, Or.inl h.2.2⟩

/-! ### What is recorded -/

/-- Every other QINFO is recorded. -/
theorem qinfo_records (h : ¬ NopacingAsRegular gTuningMode r env hopDelay destIpAddr) :
    Records (fDoQinfoAssessment2 gTuningMode r env hopDelay destIpAddr) := by
  rcases @qinfo_cases gTuningMode r env destIpAddr hopDelay with hnil | ⟨ht, hc, c, vPacingFlag, v, hp, hacts⟩
  · exact Or.inl hnil
  have hflag : (if hopDelay ≠ 0 then vPacingFlag else regularPacingFlagSet) = vPacingFlag := by
    by_cases hd : hopDelay = 0
    swap
    · exact if_pos hd
    rw [if_neg (not_not.mpr hd)]
    rcases pickPacing_cases hp with ⟨-, -, -, rfl⟩ | ⟨-, -, -, -, rfl⟩ | ⟨h1, hv, -⟩
    · rfl
    · rfl
    · have hr : env.vGlobalRetransmissionRate > env.vRetransmissionRateThreshold :=
        hc.trigger.resolve_left (not_not.mpr hd)
      exact absurd ⟨ht, h1, hc.found, hd, hc.bitrate, hr, newPacingValue_eq_forty.mp hv⟩ h
  rw [hflag] at hacts
  rw [hacts]
  exact Or.inr ⟨c, _, .afterCommand, pickPacing_recorded hp⟩

/-- What the retransmission branch does at the clamp. -/
theorem qinfo_nopacingAsRegular (h : NopacingAsRegular gTuningMode r env hopDelay destIpAddr) :
    fDoQinfoAssessment2 gTuningMode r env hopDelay destIpAddr =
      [.system (.tc .changeNopacing), .shmWrite { set := regularPacingFlagSet, currentPacing := 40 }] := by
  have hv : env.newPacingValue = 40 := newPacingValue_eq_forty.mpr h.clamped
  have hc : env.Congested hopDelay destIpAddr := ⟨h.bitrate, h.found, Or.inr h.retrans⟩
  rw [h.tuning, qinfo_congested hc, hv, pickPacing_forty h.regular, h.noHopDelay]
  rfl

theorem resetPacing_records : Records (fDoResetPacing2 gTuningMode r env destIpAddr) := by
  rcases @resetPacing_cases gTuningMode r env destIpAddr with hnil | ⟨-, -, hacts⟩
  · exact Or.inl hnil
  · rw [hacts]
    exact Or.inr ⟨.changeNopacing, _, .beforeCommand, rfl⟩

theorem giveUpPacing_records : Records (giveUpPacing gTuningMode r) := by
  rcases @giveUpPacing_cases gTuningMode r with ⟨hnil, -⟩ | ⟨-, hacts⟩
  · exact Or.inl hnil
  · rw [hacts]
    exact Or.inr ⟨.del, _, .beforeCommand, rfl⟩

theorem kafka_records {residualBandwidth : ℕ} :
    Records (fDoQinfoAssessmentKafka gTuningMode r env residualBandwidth) := by
  rcases @kafka_cases gTuningMode r env residualBandwidth with hnil | ⟨-, -, ⟨-, hacts⟩ | ⟨v, hacts⟩⟩
  · exact Or.inl hnil
  · rw [hacts]
    exact Or.inr ⟨.changeNopacing, _, .beforeCommandTimer, rfl⟩
  · rw [hacts]
    refine Or.inr ⟨_, _, .afterCommandTimer, ?_⟩
    cases (r.set ≠ 0 : Bool) <;> rfl

/-! ### Learning mode -/

theorem resetPacing_learning : fDoResetPacing2 false r env destIpAddr = [] :=
  resetPacing_cases.resolve_right fun h => absurd h.1 Bool.false_ne_true

theorem giveUpPacing_learning : giveUpPacing false r = [] :=
  (giveUpPacing_cases.resolve_right fun h => absurd h.1.1 Bool.false_ne_true).1

theorem kafka_learning {residualBandwidth : ℕ} :
    fDoQinfoAssessmentKafka false r env residualBandwidth = [] :=
  kafka_cases.resolve_right fun h => absurd h.1 Bool.false_ne_true

end Handlers
end TuningMod

/-
# The rates put on the NIC

Every maxrate in a `tc` command should be positive, at most 34 Gb/s and at
most the speed of the NIC. `fDoQinfoAssessment2` raises its rate to 2 and cuts
it to 34 without looking at the speed; `fDoQinfoAssessmentKafka` compares its
rate with the speed, but the 40 that stands for "above 34" is a rate like any
other there once the NIC is fast enough. The lemmas `qinfo_maxrates` and
`kafka_maxrates` say which rates the commands carry, and from them follows
exactly which runs of the two handlers are feasible.

Key definitions: `maxrates`, `Feasible`, `QinfoTooFast`, `KafkaMarker`.
Key theorems: `qinfo_maxrates`, `kafka_maxrates`, `maxrates_feasible`.
-/
import TuningMod.SourceDtn
import TuningMod.Lib.Decimal

namespace TuningMod

open Decimal

/-- The rates of the maxrate commands among `acts`, as computed. -/
def maxrates (acts : List Action) : List ℚ :=
  acts.filterMap fun
    | .system (.tc c) => c.maxrate
    | _ => none

/-- `vFDevSpeed`, the speed of the NIC in Gb/s. -/
def PacingEnv.vFDevSpeed (env : PacingEnv) : ℚ := env.netDeviceSpeed / 1000

/-- `maxrate %.2fgbit` is a rate the NIC can be paced at. -/
def PacingEnv.FeasibleRate (env : PacingEnv) (rate : ℚ) : Prop :=
  0 < printed 2 rate ∧ printed 2 rate ≤ 34 ∧ printed 2 rate ≤ env.vFDevSpeed

instance (env : PacingEnv) : DecidablePred env.FeasibleRate := fun _ => by
  unfold PacingEnv.FeasibleRate
  infer_instance

/-- Every maxrate that `acts` put on the NIC is feasible. -/
def PacingEnv.Feasible (env : PacingEnv) (acts : List Action) : Prop :=
  ∀ rate ∈ maxrates acts, env.FeasibleRate rate

instance (env : PacingEnv) : DecidablePred env.Feasible := fun _ => by
  unfold PacingEnv.Feasible
  infer_instance

/-- A QINFO that puts a maxrate on the NIC. -/
structure QinfoPaces (gTuningMode : Bool) (r : SResetPacingBack) (env : PacingEnv)
    (hopDelay destIpAddr : UInt32) : Prop where
  tuning : gTuningMode = true
  congested : env.Congested hopDelay destIpAddr
  notClamped : r.set = 0 ∨ env.vGlobalAverageTxGbitsPerSec * env.vMaxPacingRate ≤ 34

/-- The rate it asks for is one that the NIC cannot carry: the 2 Gb/s that lower
rates are raised to, or the share of the bitrate, cut to 34. -/
structure QinfoTooFast (gTuningMode : Bool) (r : SResetPacingBack) (env : PacingEnv)
    (hopDelay destIpAddr : UInt32) : Prop where
  paces : QinfoPaces gTuningMode r env hopDelay destIpAddr
  tooFast : env.vFDevSpeed < 2 ∨
    env.vFDevSpeed < printed 2 (env.vGlobalAverageTxGbitsPerSec * env.vMaxPacingRate) ∧ env.vFDevSpeed < 34

/-- The sum of the bitrate and of what Kafka reports as left, in Gb/s. -/
def PacingEnv.available (env : PacingEnv) (residualBandwidth : ℕ) : ℚ :=
  env.vGlobalAverageTxGbitsPerSec + (residualBandwidth : ℚ) / 1000 / 1000000

/-- `vNewPacingValue` of `fDoQinfoAssessmentKafka`: above 34 Gb/s it is forced to 40. -/
def PacingEnv.kafkaPacingValue (env : PacingEnv) (residualBandwidth : ℕ) : ℚ :=
  let v := env.available residualBandwidth * (95 / 100)
  if v > 34 then 40 else v

/-- A Kafka report that puts a maxrate on the NIC. -/
structure KafkaPaces (gTuningMode : Bool) (r : SResetPacingBack) (env : PacingEnv)
    (residualBandwidth : ℕ) : Prop where
  tuning : gTuningMode = true
  timer : env.vCanStartEvaluationTimer = true
  bitrate : env.vGlobalAverageTxGbitsPerSec ≠ 0
  available : env.available residualBandwidth < env.vFDevSpeed * (95 / 100)
  belowTop : env.kafkaPacingValue residualBandwidth < env.vFDevSpeed * (95 / 100)
  aboveBottom : env.vFDevSpeed * (10 / 100) ≤ env.kafkaPacingValue residualBandwidth
  differs : r.set = 0 ∨ r.currentPacing * (95 / 100) ≠ env.kafkaPacingValue residualBandwidth

/-- The marker 40 is put on the NIC. -/
structure KafkaMarker (gTuningMode : Bool) (r : SResetPacingBack) (env : PacingEnv)
    (residualBandwidth : ℕ) : Prop where
  paces : KafkaPaces gTuningMode r env residualBandwidth
  marker : env.available residualBandwidth * (95 / 100) > 34

section Handlers

variable {gTuningMode : Bool} {r : SResetPacingBack} {env : PacingEnv} {destIpAddr hopDelay : UInt32}
  {residualBandwidth : ℕ} {rate : ℚ}

/-! ### The rates of a QINFO -/

/-- Below the clamp the rate is the share of the bitrate, raised to 2. -/
theorem newPacingValue_eq (h : env.vGlobalAverageTxGbitsPerSec * env.vMaxPacingRate ≤ 34) :
    env.newPacingValue = max (env.vGlobalAverageTxGbitsPerSec * env.vMaxPacingRate) 2 := by
  unfold PacingEnv.newPacingValue
  dsimp only
  rw [if_neg (not_lt.mpr h), max_def]
  split_ifs <;> linarith

theorem newPacingValue_le (h : env.vGlobalAverageTxGbitsPerSec * env.vMaxPacingRate ≤ 34) :
    env.newPacingValue ≤ 34 := by
  rw [newPacingValue_eq h]
  exact max_le h (by norm_num)

/-- The rate of the command that is picked, if it is a maxrate command. -/
theorem pickedActs_maxrates {v : ℚ} :
    maxrates (pickedActs hopDelay (pickPacing r v)) =
      if r.set = 0 then [min v 34] else if v = 40 then [] else [v] := by
  by_cases h0 : r.set = 0
  · rw [pickPacing_notSetUp h0, if_pos h0]
    rfl
  rw [if_neg h0]
  by_cases hv : v = 40
  · rw [if_pos hv, hv]
    by_cases h1 : r.set = regularPacingFlagSet
    · rw [pickPacing_forty h1]
      rfl
    · rw [pickPacing_none h0 h1]
      rfl
  · rw [pickPacing_setUp h0 hv, if_neg hv]
    rfl

/-- **The rates of a QINFO**: the share of the bitrate between 2 and 34 Gb/s. -/
theorem qinfo_maxrates : rate ∈ maxrates (fDoQinfoAssessment2 gTuningMode r env hopDelay destIpAddr) ↔
    QinfoPaces gTuningMode r env hopDelay destIpAddr ∧ rate = min env.newPacingValue 34 := by
  by_cases hc : env.Congested hopDelay destIpAddr
  · cases gTuningMode with
    | false =>
      rw [qinfo_learning]
      exact iff_of_false (by simp [maxrates]) fun h => absurd h.1.tuning (by simp)
    | true =>
      rw [qinfo_congested hc, pickedActs_maxrates]
      have hv : env.newPacingValue ≠ 40 ↔ env.vGlobalAverageTxGbitsPerSec * env.vMaxPacingRate ≤ 34 :=
        (not_congr newPacingValue_eq_forty).trans not_lt
      by_cases h0 : r.set = 0
      · rw [if_pos h0, List.mem_singleton]
        exact ⟨fun h => ⟨⟨rfl, hc, Or.inl h0⟩, h⟩, fun h => h.2⟩
      · rw [if_neg h0]
        by_cases h40 : env.newPacingValue = 40
        · rw [if_pos h40]
          refine iff_of_false (by simp) fun h => ?_
          exact hv.mpr (h.1.notClamped.resolve_left h0) h40
        · have h34 : env.newPacingValue ≤ 34 := newPacingValue_le (hv.mp h40)
          rw [if_neg h40, List.mem_singleton, min_eq_left h34]
          exact ⟨fun h => ⟨⟨rfl, hc, Or.inr (hv.mp h40)⟩, h⟩, fun h => h.2⟩
  · rw [qinfo_not_congested hc]
    exact iff_of_false (by simp [maxrates]) fun h => hc h.1.congested

theorem qinfo_feasibleRate : env.FeasibleRate (min env.newPacingValue 34) ↔
    ¬ (env.vFDevSpeed < 2 ∨
      env.vFDevSpeed < printed 2 (env.vGlobalAverageTxGbitsPerSec * env.vMaxPacingRate) ∧ env.vFDevSpeed < 34) := by
  have h2 : printed 2 (2 : ℚ) = 2 := by exact_mod_cast printed_natCast 2 2
  have h34 : printed 2 (34 : ℚ) = 34 := by exact_mod_cast printed_natCast 2 34
  by_cases hx : env.vGlobalAverageTxGbitsPerSec * env.vMaxPacingRate ≤ 34
  · have hle : printed 2 (env.vGlobalAverageTxGbitsPerSec * env.vMaxPacingRate) ≤ 34 := by
      rw [← h34]
      exact printed_mono hx
    have hmax : printed 2 (max (env.vGlobalAverageTxGbitsPerSec * env.vMaxPacingRate) 2) =
        max (printed 2 (env.vGlobalAverageTxGbitsPerSec * env.vMaxPacingRate)) 2 := by
      rw [Monotone.map_max (fun _ _ h => printed_mono h), h2]
    rw [min_eq_left (newPacingValue_le hx), newPacingValue_eq hx, PacingEnv.FeasibleRate, hmax]
    constructor
    · rintro ⟨-, -, hspeed⟩ hfast
      have := le_max_left (printed 2 (env.vGlobalAverageTxGbitsPerSec * env.vMaxPacingRate)) 2
      have := le_max_right (printed 2 (env.vGlobalAverageTxGbitsPerSec * env.vMaxPacingRate)) 2
      rcases hfast with h | ⟨h, -⟩ <;> linarith
    · intro hslow
      obtain ⟨hlow, hshare⟩ := not_or.mp hslow
      refine ⟨lt_max_of_lt_right (by norm_num), max_le hle (by norm_num), max_le ?_ (not_lt.mp hlow)⟩
      by_contra h
      exact hshare ⟨not_le.mp h, by linarith⟩
  · have hfast : env.newPacingValue = 40 := newPacingValue_eq_forty.mpr (not_le.mp hx)
    have hge : 34 ≤ printed 2 (env.vGlobalAverageTxGbitsPerSec * env.vMaxPacingRate) := by
      rw [← h34]
      exact printed_mono (not_le.mp hx).le
    rw [hfast, min_eq_right (by norm_num), PacingEnv.FeasibleRate, h34]
    constructor
    · rintro ⟨-, -, hspeed⟩ (h | ⟨-, h⟩) <;> linarith
    · intro hslow
      refine ⟨by norm_num, le_refl _, ?_⟩
      by_contra h
      exact hslow (Or.inr ⟨by linarith, not_le.mp h⟩)

theorem qinfo_feasible : env.Feasible (fDoQinfoAssessment2 gTuningMode r env hopDelay destIpAddr) ↔
    ¬ QinfoTooFast gTuningMode r env hopDelay destIpAddr := by
  constructor
  · rintro h ⟨hp, hfast⟩
    exact qinfo_feasibleRate.mp (h _ (qinfo_maxrates.mpr ⟨hp, rfl⟩)) hfast
  · intro h rate hrate
    obtain ⟨hp, rfl⟩ := qinfo_maxrates.mp hrate
    exact qinfo_feasibleRate.mpr fun hfast => h ⟨hp, hfast⟩

/-! ### The rates of a Kafka report -/

theorem kafkaRemovePacing_maxrates : maxrates (kafkaRemovePacing r env) = [] := by
  rcases @kafkaRemovePacing_cases r env with hnil | ⟨-, -, hacts⟩
  · rw [hnil]
    rfl
  · rw [hacts]
    rfl

/-- The handler, in the words used here. -/
theorem kafka_eq : fDoQinfoAssessmentKafka gTuningMode r env residualBandwidth =
    if env.vGlobalAverageTxGbitsPerSec = 0 then []
    else if env.available residualBandwidth < env.vFDevSpeed * (95 / 100) then
      if env.kafkaPacingValue residualBandwidth ≥ env.vFDevSpeed * (95 / 100) then
        if gTuningMode && r.set ≠ 0 then kafkaRemovePacing r env else []
      else if env.kafkaPacingValue residualBandwidth < env.vFDevSpeed * (10 / 100) then []
      else if (!(r.set ≠ 0 : Bool) || r.currentPacing * (95 / 100) < env.kafkaPacingValue residualBandwidth ||
          r.currentPacing * (95 / 100) > env.kafkaPacingValue residualBandwidth) then
        if gTuningMode then
          if env.vCanStartEvaluationTimer then
            [.system (.tc (if (r.set ≠ 0 : Bool) then .changeMaxrate (env.kafkaPacingValue residualBandwidth)
                else .delAddMaxrate (env.kafkaPacingValue residualBandwidth))),
              .shmWrite { set := regularPacingFlagSet, currentPacing := env.kafkaPacingValue residualBandwidth },
              .fStartEvaluationTimer]
          else []
        else []
      else []
    else if gTuningMode && r.set ≠ 0 then kafkaRemovePacing r env
    else [] := rfl

/-- The handler's comparison of the rate with the one recorded. -/
theorem kafka_differs : (!(r.set ≠ 0 : Bool) ||
      r.currentPacing * (95 / 100) < env.kafkaPacingValue residualBandwidth ||
      r.currentPacing * (95 / 100) > env.kafkaPacingValue residualBandwidth) = true ↔
    r.set = 0 ∨ r.currentPacing * (95 / 100) ≠ env.kafkaPacingValue residualBandwidth := by
  simp [or_assoc, lt_or_lt_iff_ne]

/-- A report that paces sends the rate and records it. -/
theorem kafka_of_paces (h : KafkaPaces gTuningMode r env residualBandwidth) :
    fDoQinfoAssessmentKafka gTuningMode r env residualBandwidth =
      [.system (.tc (if (r.set ≠ 0 : Bool) then .changeMaxrate (env.kafkaPacingValue residualBandwidth)
          else .delAddMaxrate (env.kafkaPacingValue residualBandwidth))),
        .shmWrite { set := regularPacingFlagSet, currentPacing := env.kafkaPacingValue residualBandwidth },
        .fStartEvaluationTimer] := by
  rw [kafka_eq, if_neg h.bitrate, if_pos h.available, if_neg (not_le.mpr h.belowTop),
    if_neg (not_lt.mpr h.aboveBottom), if_pos (kafka_differs.mpr h.differs), if_pos h.tuning, if_pos h.timer]

/-- One that does not pace sends no rate. -/
theorem kafka_of_not_paces (h : ¬ KafkaPaces gTuningMode r env residualBandwidth) :
    maxrates (fDoQinfoAssessmentKafka gTuningMode r env residualBandwidth) = [] := by
  rw [kafka_eq]
  split_ifs with hb ha htop _ hlow hd htuning htimer
  all_goals first
    | rfl
    | exact kafkaRemovePacing_maxrates
    | exact absurd ⟨htuning, htimer, hb, ha, not_le.mp htop, not_lt.mp hlow, kafka_differs.mp hd⟩ h

/-- **The rate of a Kafka report**: what is available, less 5 percent. -/
theorem kafka_maxrates :
    rate ∈ maxrates (fDoQinfoAssessmentKafka gTuningMode r env residualBandwidth) ↔
      KafkaPaces gTuningMode r env residualBandwidth ∧ rate = env.kafkaPacingValue residualBandwidth := by
  by_cases hpaces : KafkaPaces gTuningMode r env residualBandwidth
  · have hrates : ∀ b : Bool, (if b then TcCmd.changeMaxrate (env.kafkaPacingValue residualBandwidth)
        else .delAddMaxrate (env.kafkaPacingValue residualBandwidth)).maxrate =
        some (env.kafkaPacingValue residualBandwidth) := by
      intro b
      cases b <;> rfl
    rw [kafka_of_paces hpaces]
    simp only [maxrates, List.filterMap_cons, hrates, List.filterMap_nil, List.mem_singleton, hpaces, true_and]
  · rw [kafka_of_not_paces hpaces]
    exact iff_of_false List.not_mem_nil fun h => hpaces h.1

/-- The available bandwidth is below the speed of the NIC, so only the marker
is not feasible. -/
theorem kafka_feasibleRate (hspeed : 1000 ≤ env.netDeviceSpeed)
    (hp : KafkaPaces gTuningMode r env residualBandwidth) :
    env.FeasibleRate (env.kafkaPacingValue residualBandwidth) ↔
      ¬ env.available residualBandwidth * (95 / 100) > 34 := by
  have h40 : printed 2 (40 : ℚ) = 40 := by exact_mod_cast printed_natCast 2 40
  have h34 : printed 2 (34 : ℚ) = 34 := by exact_mod_cast printed_natCast 2 34
  have htenth : printed 2 (1 / 10 : ℚ) = 1 / 10 := printed_eq (n := 10) (by norm_num)
  have hfast : 1 ≤ env.vFDevSpeed := by
    have : (1000 : ℚ) ≤ env.netDeviceSpeed := by exact_mod_cast hspeed
    unfold PacingEnv.vFDevSpeed
    linarith
  by_cases hm : env.available residualBandwidth * (95 / 100) > 34
  · have hv : env.kafkaPacingValue residualBandwidth = 40 := if_pos hm
    rw [hv, PacingEnv.FeasibleRate, h40]
    exact iff_of_false (fun h => absurd h.2.1 (by norm_num)) (not_not.mpr hm)
  · have hv : env.kafkaPacingValue residualBandwidth = env.available residualBandwidth * (95 / 100) := if_neg hm
    have hbottom := hp.aboveBottom
    have htop := hp.available
    rw [hv] at hbottom ⊢
    refine iff_of_true ⟨?_, ?_, ?_⟩ hm
    · calc (0 : ℚ) < 1 / 10 := by norm_num
        _ = printed 2 (1 / 10) := htenth.symm
        _ ≤ _ := printed_mono (by linarith)
    · calc printed 2 (env.available residualBandwidth * (95 / 100)) ≤ printed 2 34 := printed_mono (not_lt.mp hm)
        _ = 34 := h34
    · calc printed 2 (env.available residualBandwidth * (95 / 100))
          ≤ env.available residualBandwidth * (95 / 100) + 1 / 2 / 10 ^ 2 := printed_le _
        _ ≤ env.vFDevSpeed := by linarith

theorem kafka_feasible (hspeed : 1000 ≤ env.netDeviceSpeed) :
    env.Feasible (fDoQinfoAssessmentKafka gTuningMode r env residualBandwidth) ↔
      ¬ KafkaMarker gTuningMode r env residualBandwidth := by
  constructor
  · rintro h ⟨hp, hm⟩
    exact (kafka_feasibleRate hspeed hp).mp (h _ (kafka_maxrates.mpr ⟨hp, rfl⟩)) hm
  · intro h rate hrate
    obtain ⟨hp, rfl⟩ := kafka_maxrates.mp hrate
    exact (kafka_feasibleRate hspeed hp).mpr fun hm => h ⟨hp, hm⟩

end Handlers

/-- **Exactly when every rate is feasible**: no QINFO asks for a rate above
the speed of the NIC, and no Kafka report puts the marker 40 on it. -/
theorem maxrates_feasible (gTuningMode : Bool) (r : SResetPacingBack) (env : PacingEnv)
    (hopDelay destIpAddr : UInt32) (residualBandwidth : ℕ) (hspeed : 1000 ≤ env.netDeviceSpeed) :
    (env.Feasible (fDoQinfoAssessment2 gTuningMode r env hopDelay destIpAddr) ↔
        ¬ QinfoTooFast gTuningMode r env hopDelay destIpAddr) ∧
      (env.Feasible (fDoQinfoAssessmentKafka gTuningMode r env residualBandwidth) ↔
        ¬ KafkaMarker gTuningMode r env residualBandwidth) :=
  ⟨qinfo_feasible, kafka_feasible hspeed⟩

/-- A QINFO at 10 Gb/s on a NIC of 40 Gb/s. -/
theorem maxrates_feasible_forty : (SourceDtn.congestedEnv 10).Feasible
    (fDoQinfoAssessment2 true {} (SourceDtn.congestedEnv 10) 5 0x0900000a) := by
  refine (maxrates_feasible true {} (SourceDtn.congestedEnv 10) 5 0x0900000a 0 (by decide)).1.mpr fun h => ?_
  exact absurd h.tooFast (by decide +kernel)

/-- A NIC of 1 Gb/s with 0.5 Gb/s on it, and one of 100 Gb/s. -/
def gigabitEnv : PacingEnv := { SourceDtn.congestedEnv (1 / 2) with netDeviceSpeed := 1000 }
def hundredGigabitEnv : PacingEnv := { SourceDtn.congestedEnv 10 with netDeviceSpeed := 100000 }

/-- A QINFO paces the first at 2 Gb/s, and 30 Gb/s left pace the second at 40. -/
theorem maxrates_infeasible :
    ¬ gigabitEnv.Feasible (fDoQinfoAssessment2 true {} gigabitEnv 5 0x0900000a) ∧
      ¬ hundredGigabitEnv.Feasible (fDoQinfoAssessmentKafka true {} hundredGigabitEnv 30000000000) := by
  constructor <;> decide +kernel

end TuningMod

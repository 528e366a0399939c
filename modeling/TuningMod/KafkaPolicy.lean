/-
# The bandwidth policy of the Kafka handler

The pseudocode at the head of `fDoQinfoAssessmentKafka` as a function of four
numbers, with a rate above 34 Gb/s counted as one that reached the removal
threshold, and the decision the handler takes. They agree except on two kinds
of reports. The marker 40 that stands for "above 34" is below the removal
threshold of a NIC faster than 42.1 Gb/s, so there it goes on through the
other branches. And with pacing removed the handler still compares the rate
with the one recorded.

Key definitions: `Decision`, `policy`, `decisionOf`, `MarkerPasses`, `ComparesStale`.
Key theorems: `kafka_decision`, `policy_decision`, `kafka_follows_policy`.
-/
import TuningMod.PacingRates

namespace TuningMod

inductive Decision where
  | removePacing
  | applyPacing (rate : ℚ)
  | nothing
  deriving DecidableEq

/-- The policy of the pseudocode, in its words. -/
def policy (interfaceCapacity residualBw currentBitrate : ℚ) (currentPacing : Option ℚ) : Decision :=
  let newPacing := (residualBw + currentBitrate) * (95 / 100)
  if residualBw + currentBitrate < interfaceCapacity * (95 / 100) then
    if newPacing ≥ interfaceCapacity * (95 / 100) ∨ newPacing > 34 then
      if currentPacing ≠ none then .removePacing else .nothing
    else if newPacing < interfaceCapacity * (10 / 100) then .nothing
    else match currentPacing with
      | none => .applyPacing newPacing
      | some current =>
        if current * (95 / 100) < newPacing ∨ current * (95 / 100) > newPacing then .applyPacing newPacing
        else .nothing
  else if currentPacing ≠ none then .removePacing else .nothing

/-- `current_pacing` of the pseudocode: NULL while no pacing is set. -/
def SResetPacingBack.pacing? (r : SResetPacingBack) : Option ℚ :=
  if r.set = 0 ∨ r.set = nopacingFlagSet then none else some r.currentPacing

/-- What the policy decides for a host. -/
def PacingEnv.policy (env : PacingEnv) (r : SResetPacingBack) (residualBandwidth : ℕ) : Decision :=
  TuningMod.policy env.vFDevSpeed ((residualBandwidth : ℚ) / 1000 / 1000000)
    env.vGlobalAverageTxGbitsPerSec r.pacing?

/-- What a handler decided, by the `tc` command it ran. -/
def decisionOf (acts : List Action) : Decision :=
  match acts.findSome? Action.tc? with
  | some .del | some .changeNopacing => .removePacing
  | some (.delAddMaxrate rate) | some (.changeMaxrate rate) => .applyPacing rate
  | none => .nothing

/-- Pacing is removed if there is one. -/
def removal (r : SResetPacingBack) : Decision :=
  if r.set = regularPacingFlagSet then .removePacing else .nothing

/-- The rate is above 34 Gb/s, and the NIC so fast that 40 is below its removal threshold. -/
structure MarkerPasses (r : SResetPacingBack) (env : PacingEnv) (residualBandwidth : ℕ) : Prop where
  available : env.available residualBandwidth < env.vFDevSpeed * (95 / 100)
  marker : env.available residualBandwidth * (95 / 100) > 34
  belowTop : 40 < env.vFDevSpeed * (95 / 100)
  -- a marker that is too low, or the one recorded already, leaves removed pacing as it is
  acts : r.set = regularPacingFlagSet ∨ env.vFDevSpeed * (10 / 100) ≤ 40 ∧
    ¬ (r.set = nopacingFlagSet ∧ r.currentPacing * (95 / 100) = 40)

/-- Pacing is removed, and the rate recorded is the new one for the handler. -/
structure ComparesStale (r : SResetPacingBack) (env : PacingEnv) (residualBandwidth : ℕ) : Prop where
  available : env.available residualBandwidth < env.vFDevSpeed * (95 / 100)
  noMarker : env.available residualBandwidth * (95 / 100) ≤ 34
  belowTop : env.available residualBandwidth * (95 / 100) < env.vFDevSpeed * (95 / 100)
  aboveBottom : env.vFDevSpeed * (10 / 100) ≤ env.available residualBandwidth * (95 / 100)
  removed : r.set = nopacingFlagSet
  same : r.currentPacing * (95 / 100) = env.available residualBandwidth * (95 / 100)

section Decisions

variable {r : SResetPacingBack} {env : PacingEnv} {residualBandwidth : ℕ}

theorem decisionOf_remove (ht : env.vCanStartEvaluationTimer = true) :
    decisionOf (if (true && r.set ≠ 0 : Bool) then kafkaRemovePacing r env else []) = removal r := by
  by_cases h1 : r.set = regularPacingFlagSet
  · have h0 : r.set ≠ 0 := by
      rw [h1]
      decide
    rw [removal, if_pos h1, if_pos (by simp [h0]), kafkaRemovePacing, if_pos h1, if_pos ht]
    rfl
  · have hnothing : kafkaRemovePacing r env = [] := if_neg h1
    rw [hnothing, ite_self, removal, if_neg h1]
    rfl

/-- The decisions of the handler, with the timer free to start. -/
theorem kafka_decision (hb : env.vGlobalAverageTxGbitsPerSec ≠ 0) (ht : env.vCanStartEvaluationTimer = true) :
    decisionOf (fDoQinfoAssessmentKafka true r env residualBandwidth) =
      if env.available residualBandwidth < env.vFDevSpeed * (95 / 100) then
        if env.kafkaPacingValue residualBandwidth ≥ env.vFDevSpeed * (95 / 100) then removal r
        else if env.kafkaPacingValue residualBandwidth < env.vFDevSpeed * (10 / 100) then .nothing
        else if r.set = 0 ∨ r.currentPacing * (95 / 100) ≠ env.kafkaPacingValue residualBandwidth then
          .applyPacing (env.kafkaPacingValue residualBandwidth)
        else .nothing
      else removal r := by
  rw [kafka_eq, if_neg hb]
  by_cases ha : env.available residualBandwidth < env.vFDevSpeed * (95 / 100)
  swap
  · rw [if_neg ha, if_neg ha, decisionOf_remove ht]
  rw [if_pos ha, if_pos ha]
  by_cases htop : env.kafkaPacingValue residualBandwidth ≥ env.vFDevSpeed * (95 / 100)
  · rw [if_pos htop, if_pos htop, decisionOf_remove ht]
  rw [if_neg htop, if_neg htop]
  by_cases hlow : env.kafkaPacingValue residualBandwidth < env.vFDevSpeed * (10 / 100)
  · rw [if_pos hlow, if_pos hlow]
    rfl
  rw [if_neg hlow, if_neg hlow]
  by_cases hd : r.set = 0 ∨ r.currentPacing * (95 / 100) ≠ env.kafkaPacingValue residualBandwidth
  · rw [if_pos (kafka_differs.mpr hd), if_pos hd, if_pos rfl, if_pos ht]
    cases (r.set ≠ 0 : Bool) <;> rfl
  · rw [if_neg (mt kafka_differs.mp hd), if_neg hd]
    rfl

/-- The decisions of the policy, for the records that occur. -/
theorem policy_decision (hset : r.set = 0 ∨ r.set = regularPacingFlagSet ∨ r.set = nopacingFlagSet) :
    env.policy r residualBandwidth =
      if env.available residualBandwidth < env.vFDevSpeed * (95 / 100) then
        if env.available residualBandwidth * (95 / 100) ≥ env.vFDevSpeed * (95 / 100) ∨
            env.available residualBandwidth * (95 / 100) > 34 then removal r
        else if env.available residualBandwidth * (95 / 100) < env.vFDevSpeed * (10 / 100) then .nothing
        else if r.set ≠ regularPacingFlagSet ∨
            r.currentPacing * (95 / 100) ≠ env.available residualBandwidth * (95 / 100) then
          .applyPacing (env.available residualBandwidth * (95 / 100))
        else .nothing
      else removal r := by
  have hcomm : (residualBandwidth : ℚ) / 1000 / 1000000 + env.vGlobalAverageTxGbitsPerSec =
      env.available residualBandwidth := add_comm _ _
  have hremove : (if r.pacing? ≠ none then Decision.removePacing else .nothing) = removal r := by
    rcases hset with h | h | h <;> simp [SResetPacingBack.pacing?, removal, h, regularPacingFlagSet, nopacingFlagSet]
  unfold PacingEnv.policy policy
  dsimp only
  rw [hcomm, hremove]
  congr 3
  by_cases h1 : r.set = regularPacingFlagSet
  · have hsome : r.pacing? = some r.currentPacing := by
      simp [SResetPacingBack.pacing?, h1, regularPacingFlagSet, nopacingFlagSet]
    rw [hsome]
    simp [h1, lt_or_lt_iff_ne]
  · have hnone : r.pacing? = none := by
      rcases hset with h | h | h
      · simp [SResetPacingBack.pacing?, h]
      · exact absurd h h1
      · simp [SResetPacingBack.pacing?, h]
    rw [hnone]
    simp [h1]

/-- Where the handler removes pacing, the policy does too. -/
theorem decisions_removal (hset : r.set = 0 ∨ r.set = regularPacingFlagSet ∨ r.set = nopacingFlagSet)
    (hb : env.vGlobalAverageTxGbitsPerSec ≠ 0) (ht : env.vCanStartEvaluationTimer = true)
    (h : env.available residualBandwidth < env.vFDevSpeed * (95 / 100) →
      env.kafkaPacingValue residualBandwidth ≥ env.vFDevSpeed * (95 / 100)) :
    decisionOf (fDoQinfoAssessmentKafka true r env residualBandwidth) = env.policy r residualBandwidth := by
  rw [kafka_decision hb ht, policy_decision hset]
  by_cases ha : env.available residualBandwidth < env.vFDevSpeed * (95 / 100)
  · have hpolicy : env.available residualBandwidth * (95 / 100) ≥ env.vFDevSpeed * (95 / 100) ∨
        env.available residualBandwidth * (95 / 100) > 34 := by
      by_cases hm : env.available residualBandwidth * (95 / 100) > 34
      · exact Or.inr hm
      · have hv : env.kafkaPacingValue residualBandwidth = env.available residualBandwidth * (95 / 100) := if_neg hm
        exact Or.inl (hv ▸ h ha)
    rw [if_pos ha, if_pos ha, if_pos (h ha), if_pos hpolicy]
  · rw [if_neg ha, if_neg ha]

/-- Below the clamp the handler and the policy differ in the comparison with a
rate that was removed. -/
theorem decisions_below (hm : env.available residualBandwidth * (95 / 100) ≤ 34)
    (hset : r.set = 0 ∨ r.set = regularPacingFlagSet ∨ r.set = nopacingFlagSet)
    (hb : env.vGlobalAverageTxGbitsPerSec ≠ 0) (ht : env.vCanStartEvaluationTimer = true) :
    decisionOf (fDoQinfoAssessmentKafka true r env residualBandwidth) = env.policy r residualBandwidth ↔
      ¬ ComparesStale r env residualBandwidth := by
  have hv : env.kafkaPacingValue residualBandwidth = env.available residualBandwidth * (95 / 100) :=
    if_neg (not_lt.mpr hm)
  by_cases hremoves : env.available residualBandwidth < env.vFDevSpeed * (95 / 100) →
      env.kafkaPacingValue residualBandwidth ≥ env.vFDevSpeed * (95 / 100)
  · refine iff_of_true (decisions_removal hset hb ht hremoves) fun h => ?_
    exact not_lt.mpr (hremoves h.available) (hv ▸ h.belowTop)
  rw [hv] at hremoves
  obtain ⟨ha, htop⟩ := Classical.not_imp.mp hremoves
  rw [kafka_decision hb ht, policy_decision hset, hv]
  simp only [not_lt.mpr hm, or_false]
  rw [if_pos ha, if_pos ha, if_neg htop, if_neg htop]
  by_cases hlow : env.available residualBandwidth * (95 / 100) < env.vFDevSpeed * (10 / 100)
  · rw [if_pos hlow, if_pos hlow]
    exact iff_of_true rfl fun h => not_le.mpr hlow h.aboveBottom
  rw [if_neg hlow, if_neg hlow]
  by_cases hd : r.currentPacing * (95 / 100) = env.available residualBandwidth * (95 / 100)
  · by_cases h99 : r.set = nopacingFlagSet
    · -- the policy applies the rate, the handler finds it recorded
      have hcode : ¬ (r.set = 0 ∨ r.currentPacing * (95 / 100) ≠ env.available residualBandwidth * (95 / 100)) := by
        simp [h99, hd, nopacingFlagSet]
      have hpolicy : r.set ≠ regularPacingFlagSet ∨
          r.currentPacing * (95 / 100) ≠ env.available residualBandwidth * (95 / 100) :=
        Or.inl (by rw [h99]; decide)
      rw [if_neg hcode, if_pos hpolicy]
      refine iff_of_false (by simp) (not_not.mpr ?_)
      exact ⟨ha, hm, not_le.mp htop, not_lt.mp hlow, h99, hd⟩
    · have hsame : r.set = 0 ∨ r.currentPacing * (95 / 100) ≠ env.available residualBandwidth * (95 / 100) ↔
          r.set ≠ regularPacingFlagSet ∨
            r.currentPacing * (95 / 100) ≠ env.available residualBandwidth * (95 / 100) := by
        rcases hset with h | h | h
        · simp [h, regularPacingFlagSet]
        · simp [h, hd, regularPacingFlagSet]
        · exact absurd h h99
      simp only [hsame]
      exact iff_of_true trivial fun h => h99 h.removed
  · rw [if_pos (Or.inr hd), if_pos (Or.inr hd)]
    exact iff_of_true rfl fun h => hd h.same

/-- Above it they agree only where the marker does no more than the policy. -/
theorem decisions_marker (hm : env.available residualBandwidth * (95 / 100) > 34)
    (hset : r.set = 0 ∨ r.set = regularPacingFlagSet ∨ r.set = nopacingFlagSet)
    (hb : env.vGlobalAverageTxGbitsPerSec ≠ 0) (ht : env.vCanStartEvaluationTimer = true) :
    decisionOf (fDoQinfoAssessmentKafka true r env residualBandwidth) = env.policy r residualBandwidth ↔
      ¬ MarkerPasses r env residualBandwidth := by
  have hv : env.kafkaPacingValue residualBandwidth = 40 := if_pos hm
  by_cases hremoves : env.available residualBandwidth < env.vFDevSpeed * (95 / 100) →
      env.kafkaPacingValue residualBandwidth ≥ env.vFDevSpeed * (95 / 100)
  · refine iff_of_true (decisions_removal hset hb ht hremoves) fun h => ?_
    exact not_lt.mpr (hremoves h.available) (hv ▸ h.belowTop)
  rw [hv] at hremoves
  obtain ⟨ha, htop⟩ := Classical.not_imp.mp hremoves
  rw [kafka_decision hb ht, policy_decision hset, hv]
  simp only [hm, or_true, if_true]
  rw [if_pos ha, if_pos ha, if_neg htop]
  by_cases hlow : (40 : ℚ) < env.vFDevSpeed * (10 / 100)
  · rw [if_pos hlow]
    by_cases h1 : r.set = regularPacingFlagSet
    · rw [removal, if_pos h1]
      exact iff_of_false (by simp) (not_not.mpr ⟨ha, hm, not_le.mp htop, Or.inl h1⟩)
    · rw [removal, if_neg h1]
      exact iff_of_true rfl fun h => not_le.mpr hlow (h.acts.resolve_left h1).1
  rw [if_neg hlow]
  by_cases hkeep : r.set = nopacingFlagSet ∧ r.currentPacing * (95 / 100) = 40
  · have hcode : ¬ (r.set = 0 ∨ r.currentPacing * (95 / 100) ≠ 40) := by
      simp [hkeep.1, hkeep.2, nopacingFlagSet]
    have h1 : r.set ≠ regularPacingFlagSet := by
      rw [hkeep.1]
      decide
    rw [if_neg hcode, removal, if_neg h1]
    exact iff_of_true rfl fun h => (h.acts.resolve_left h1).2 hkeep
  · refine iff_of_false ?_ (not_not.mpr ⟨ha, hm, not_le.mp htop, Or.inr ⟨not_lt.mp hlow, hkeep⟩⟩)
    by_cases hd : r.set = 0 ∨ r.currentPacing * (95 / 100) ≠ 40
    · rw [if_pos hd, removal]
      split_ifs <;> simp
    · obtain ⟨h0, hsame⟩ := not_or.mp hd
      have h1 : r.set = regularPacingFlagSet := by
        rcases hset with h | h | h
        · exact absurd h h0
        · exact h
        · exact absurd ⟨h, not_not.mp hsame⟩ hkeep
      rw [if_neg hd, removal, if_pos h1]
      simp

end Decisions

/-- **Exactly when the handler follows the policy**: the marker is at or above
the removal threshold or changes nothing, and a rate that was removed is not
the new one. -/
theorem kafka_follows_policy (r : SResetPacingBack) (env : PacingEnv) (residualBandwidth : ℕ)
    (hset : r.set = 0 ∨ r.set = regularPacingFlagSet ∨ r.set = nopacingFlagSet)
    (hb : env.vGlobalAverageTxGbitsPerSec ≠ 0) (ht : env.vCanStartEvaluationTimer = true) :
    decisionOf (fDoQinfoAssessmentKafka true r env residualBandwidth) = env.policy r residualBandwidth ↔
      ¬ MarkerPasses r env residualBandwidth ∧ ¬ ComparesStale r env residualBandwidth := by
  by_cases hm : env.available residualBandwidth * (95 / 100) > 34
  · rw [decisions_marker hm hset hb ht]
    exact ⟨fun h => ⟨h, fun hs => not_lt.mpr hs.noMarker hm⟩, fun h => h.1⟩
  · rw [decisions_below (not_lt.mp hm) hset hb ht]
    exact ⟨fun h => ⟨fun hp => hm hp.marker, h⟩, fun h => h.2⟩

/-- With 5 Gb/s left on a NIC of 40 Gb/s the handler applies the policy's rate. -/
theorem kafka_follows_policy_forty :
    decisionOf (fDoQinfoAssessmentKafka true {} (SourceDtn.congestedEnv 10) 5000000000) =
      (SourceDtn.congestedEnv 10).policy {} 5000000000 := by
  refine (kafka_follows_policy {} (SourceDtn.congestedEnv 10) 5000000000 (Or.inl rfl) (by decide +kernel)
    rfl).mpr ⟨fun h => ?_, fun h => ?_⟩
  · exact absurd h.marker (by decide +kernel)
  · exact absurd h.removed (by decide)

/-- On a NIC of 100 Gb/s with 30 Gb/s left and no pacing the policy does
nothing, and the handler paces at 40. -/
theorem kafka_applies_marker :
    decisionOf (fDoQinfoAssessmentKafka true {} hundredGigabitEnv 30000000000) ≠
      hundredGigabitEnv.policy {} 30000000000 := by
  have hhandler : decisionOf (fDoQinfoAssessmentKafka true {} hundredGigabitEnv 30000000000) = .applyPacing 40 := by
    decide +kernel
  have hpolicy : hundredGigabitEnv.policy {} 30000000000 = .nothing := by decide +kernel
  rw [hhandler, hpolicy]
  simp

end TuningMod

/-
# What a destination DTN sends

`SendStep` says once what a step of the trigger logic can do to the messages
published, to `vSentPacingOver` and to the evaluation timer: an expiry sends a
QINFO and starts the evaluation timer, an uncongested sample sends a
RESET_PACING, an idle detection sends a CLEANUP, and nothing is sent while the
evaluation timer runs.

Key definitions: `congestionMsg`, `released`, `SendStep`.
Key theorems: `step_sends`, `evaluation_armed`, `run_thresholds`.
-/
import TuningMod.Trigger
import Mathlib.Tactic.SplitIfs

namespace TuningMod
namespace Trigger

/-! ### Messages of a step -/

/-- The QINFO of a trigger timer that expires. -/
def congestionMsg (t : Trigger) : TriggerEvent → Option Produce
  | .qOCCHopTimer => if t.qOCCHopTimerID.isSome then some (.qOCCHopTimerIDHandler t.sqOCCTimerIDData) else none
  | .qOCCTimer => if t.qOCCTimerID.isSome then some (.qOCCTimerIDHandler t.sqOCCTimerIDData) else none
  | _ => none

/-- The RESET_PACING or CLEANUP of a step, if it sends one. -/
def released [ByteOrder] (t : Trigger) : TriggerEvent → Option Produce
  | .sample k md =>
    if !t.congested md && t.vSentPacingOver && t.vCanStartEvaluationTimer then
      some (.sendResetPacingMsg k)
    else none
  | .measurement tx rx =>
    if (tx = 0 ∧ rx = 0) ∧ t.vSentPacingOver && t.vTwiceInaRow then
      some (.sendResetCleanUpPacingMsg t.srcIpAddr)
    else none
  | _ => none

/-- What a step can do to the messages published, to `vSentPacingOver` and to
the evaluation timer. -/
inductive SendStep [ByteOrder] (kafka : Bool) (t t' : Trigger) (e : TriggerEvent) : Prop
  | congestion (m : Produce) : t.congestionMsg e = some m → t.vCanStartEvaluationTimer = true →
      t'.sent = t.sent ++ [m] → t'.vSentPacingOver = (!kafka || t.vSentPacingOver) →
      t'.vCanStartEvaluationTimer = false → t'.qEvaluationTimerID = some t.now → SendStep kafka t t' e
  | release (m : Produce) : t.released e = some m → t.vSentPacingOver = true →
      t'.sent = t.sent ++ [m] → t'.vSentPacingOver = false →
      t'.vCanStartEvaluationTimer = true → SendStep kafka t t' e
  | restart : t.congestionMsg e = none → t.released e = none →
      t'.sent = t.sent → t'.vSentPacingOver = t.vSentPacingOver →
      t'.vCanStartEvaluationTimer = true → SendStep kafka t t' e
  | quiet : (t.congestionMsg e = none ∨ t.vCanStartEvaluationTimer = false) → t.released e = none →
      t'.sent = t.sent → t'.vSentPacingOver = t.vSentPacingOver →
      t'.vCanStartEvaluationTimer = t.vCanStartEvaluationTimer →
      t'.qEvaluationTimerID = t.qEvaluationTimerID → SendStep kafka t t' e

section Step

variable [ByteOrder] {kafka : Bool} {t t' : Trigger} {e : TriggerEvent}

theorem sample_sends {k : HopKey} {md : IntHopMetadata}
    (h : t.step kafka (.sample k md) = some t') : SendStep kafka t t' (.sample k md) := by
  rw [step_sample h]
  by_cases hc : t.congested md = true
  · have hr : t.released (.sample k md) = none := by simp [released, hc]
    obtain hb | hq := Bool.or_eq_true_iff.mp hc
    · have hop := hopTrigger_both (k := k) hb
      apply SendStep.quiet (Or.inl rfl) hr <;>
        (simp only [sampleFunc, hop, evaluateQOccAndHopDelay]; split_ifs <;> rfl)
    · by_cases hb : t.thresholds.overBoth md = true
      · have hop := hopTrigger_both (k := k) hb
        apply SendStep.quiet (Or.inl rfl) hr <;>
          (simp only [sampleFunc, hop, evaluateQOccAndHopDelay]; split_ifs <;> rfl)
      · have hop := hopTrigger_userInfo (k := k) (Bool.not_eq_true _ ▸ hb) hq
        apply SendStep.quiet (Or.inl rfl) hr <;>
          (simp only [sampleFunc, hop, evaluateQOccUserInfo]; split_ifs <;> rfl)
  · rw [Bool.not_eq_true] at hc
    have hop := hopTrigger_below (k := k) hc
    by_cases hs : (t.vSentPacingOver && t.vCanStartEvaluationTimer) = true
    · have hr : t.released (.sample k md) = some (.sendResetPacingMsg k) := by simp_all [released]
      obtain ⟨hso, hcs⟩ := Bool.and_eq_true_iff.mp hs
      apply SendStep.release _ hr hso <;>
        (simp only [sampleFunc, hop, resetPacing, cancelTimers]; split_ifs <;> simp_all)
    · have hr : t.released (.sample k md) = none := by simp_all [released]
      apply SendStep.quiet (Or.inl rfl) hr <;>
        (simp only [sampleFunc, hop, resetPacing, cancelTimers]; split_ifs <;> simp_all)

omit [ByteOrder] in
theorem idleDetection_sends (t : Trigger) :
    t.idleDetection.sent =
        (if t.vSentPacingOver && t.vTwiceInaRow then t.sent ++ [.sendResetCleanUpPacingMsg t.srcIpAddr]
          else t.sent) ∧
      t.idleDetection.vSentPacingOver = (t.vSentPacingOver && !t.vTwiceInaRow) ∧
      t.idleDetection.vCanStartEvaluationTimer = (t.vCanStartEvaluationTimer || t.vTwiceInaRow) ∧
      (t.vTwiceInaRow = false → t.idleDetection.qEvaluationTimerID = t.qEvaluationTimerID) := by
  unfold idleDetection
  cases ht : t.vTwiceInaRow <;> cases hs : t.vSentPacingOver <;>
    cases hc : t.vCanStartEvaluationTimer <;> cases hf : t.vqTimerIsSet <;> simp [ht, hs, hc, hf]

theorem measurement_sends {tx rx : ℕ} (h : t.step kafka (.measurement tx rx) = some t') :
    SendStep kafka t t' (.measurement tx rx) := by
  rw [step_measurement h]
  by_cases hz : tx = 0 ∧ rx = 0
  · have hm : t.measurement tx rx = t.idleDetection := if_pos hz
    obtain ⟨h1, h2, h3, h4⟩ := idleDetection_sends t
    rw [hm]
    cases ht : t.vTwiceInaRow
    · apply SendStep.quiet (Or.inl rfl) <;> simp_all [released]
    · cases hs : t.vSentPacingOver
      · apply SendStep.restart rfl <;> simp_all [released]
      · apply SendStep.release (.sendResetCleanUpPacingMsg t.srcIpAddr) _ hs <;> simp_all [released]
  · have hm : t.measurement tx rx = { t with vTwiceInaRow := false } := if_neg hz
    have hr : t.released (.measurement tx rx) = none := by simp [released, hz]
    rw [hm]
    exact .quiet (Or.inl rfl) hr rfl rfl rfl rfl

theorem step_sends (h : t.step kafka e = some t') : SendStep kafka t t' e := by
  cases e with
  | sample k md => exact sample_sends h
  | qOCCHopTimer =>
    obtain ⟨ha, rfl⟩ := step_qOCCHopTimer h
    unfold qOCCHopTimerIDHandler
    cases hc : t.vCanStartEvaluationTimer
    · exact .quiet (Or.inr hc) rfl rfl rfl hc.symm rfl
    · exact .congestion _ (if_pos ha) hc rfl rfl rfl rfl
  | qOCCTimer =>
    obtain ⟨ha, rfl⟩ := step_qOCCTimer h
    unfold qOCCTimerIDHandler
    cases hc : t.vCanStartEvaluationTimer
    · exact .quiet (Or.inr hc) rfl rfl rfl hc.symm rfl
    · exact .congestion _ (if_pos ha) hc rfl rfl rfl rfl
  | qEvaluationTimer =>
    obtain ⟨_, rfl⟩ := step_qEvaluationTimer h
    exact .restart rfl rfl rfl rfl rfl
  | measurement tx rx => exact measurement_sends h
  | useRetransmissionRate on =>
    obtain ⟨u, hu, rfl⟩ := step_eq h
    cases hu
    exact .quiet (Or.inl rfl) rfl rfl rfl rfl rfl
  | changeThresholds th =>
    obtain ⟨u, hu, rfl⟩ := step_eq h
    cases hu
    exact .quiet (Or.inl rfl) rfl rfl rfl rfl rfl

/-- A trigger timer that has a message to send can expire. -/
theorem step_expiry_some (kafka : Bool) {m : Produce} (h : t.congestionMsg e = some m) :
    ∃ t', t.step kafka e = some t' := by
  cases e with
  | qOCCHopTimer => exact step_qOCCHopTimer_some kafka (Option.ite_none_right_eq_some.mp h).1
  | qOCCTimer => exact step_qOCCTimer_some kafka (Option.ite_none_right_eq_some.mp h).1
  | _ => cases h

/-- While messages are held back the evaluation timer is armed. -/
theorem step_armed (h : t.step kafka e = some t')
    (ha : t.vCanStartEvaluationTimer = false → t.qEvaluationTimerID.isSome = true) :
    t'.vCanStartEvaluationTimer = false → t'.qEvaluationTimerID.isSome = true := by
  intro hc
  cases step_sends h with
  | congestion m _ _ _ _ _ h5 =>
    rw [h5]
    rfl
  | release m _ _ _ _ h4 =>
    rw [h4] at hc
    cases hc
  | restart _ _ _ _ h4 =>
    rw [h4] at hc
    cases hc
  | quiet _ _ _ _ h4 h5 =>
    rw [h5]
    exact ha (h4 ▸ hc)

theorem evaluation_armed {es : List TriggerEvent} (h : Runs.run (step kafka) {} es = some t) :
    t.vCanStartEvaluationTimer = false → t.qEvaluationTimerID.isSome = true :=
  Runs.history_inv (P := fun _ t => t.vCanStartEvaluationTimer = false → t.qEvaluationTimerID.isSome = true)
    (by simp) (fun _ _ _ _ _ hp hs => step_armed hs hp) h

/-! ### Thresholds -/

/-- What an event does to the thresholds in force. -/
def nextThresholds (th : Thresholds) : TriggerEvent → Thresholds
  | .changeThresholds th' => th'
  | _ => th

/-- The thresholds in force after the events. -/
def thresholdsAfter (es : List TriggerEvent) : Thresholds := es.foldl nextThresholds {}

theorem hopTrigger_thresholds (k : HopKey) (md : IntHopMetadata) :
    (t.hopTrigger k md).thresholds = t.thresholds := by
  unfold hopTrigger evaluateQOccAndHopDelay evaluateQOccUserInfo resetPacing cancelTimers
  split_ifs <;> rfl

omit [ByteOrder] in
theorem idleDetection_thresholds (t : Trigger) : t.idleDetection.thresholds = t.thresholds := by
  unfold idleDetection
  dsimp only
  split_ifs <;> rfl

/-- Only an operator changes the thresholds. -/
theorem step_thresholds (h : t.step kafka e = some t') :
    t'.thresholds = nextThresholds t.thresholds e := by
  cases e with
  | sample k md =>
    rw [step_sample h]
    exact hopTrigger_thresholds k md
  | qOCCHopTimer =>
    rw [(step_qOCCHopTimer h).2]
    unfold qOCCHopTimerIDHandler fStartEvaluationTimer
    dsimp only
    split <;> rfl
  | qOCCTimer =>
    rw [(step_qOCCTimer h).2]
    unfold qOCCTimerIDHandler fStartEvaluationTimer
    dsimp only
    split <;> rfl
  | qEvaluationTimer =>
    rw [(step_qEvaluationTimer h).2]
    rfl
  | measurement tx rx =>
    rw [step_measurement h]
    show (t.measurement tx rx).thresholds = t.thresholds
    unfold measurement
    split
    · exact idleDetection_thresholds t
    · rfl
  | useRetransmissionRate on =>
    obtain ⟨u, hu, rfl⟩ := step_eq h
    cases hu
    rfl
  | changeThresholds th =>
    obtain ⟨u, hu, rfl⟩ := step_eq h
    cases hu
    rfl

theorem run_thresholds {es : List TriggerEvent} (h : Runs.run (step kafka) {} es = some t) :
    t.thresholds = thresholdsAfter es := by
  refine Runs.history_inv (P := fun es t => t.thresholds = thresholdsAfter es) rfl
    (fun pre t e t' _ hp hs => ?_) h
  rw [step_thresholds hs, thresholdsAfter, List.foldl_append, ← thresholdsAfter, ← hp]
  rfl

end Step
end Trigger
end TuningMod

/-
# The trigger timers of a destination DTN

Two timers, `qOCC_Hop_TimerID` and `qOCC_TimerID`, share the flag
`vq_TimerIsSet` and the record `sqOCC_TimerID_Data`. `TimerStep` says once what
a step can do to the four. They agree in every state of a run exactly if no
uncongested sample comes while `qOCC_TimerID` is armed and '-r' is off: such a
sample clears the flag and leaves the timer armed (`cancelTimers`), while the
idle detection disarms both timers.

Key definitions: `TimerStep`, `TimersAgree`, `LeavesArmed`.
Key theorems: `step_timers`, `timersAgree_step`, `trigger_state`.
-/
import TuningMod.Trigger
import Mathlib.Tactic.SplitIfs
import Mathlib.Tactic.Common

namespace TuningMod
namespace Trigger

/-! ### What a step does to the timers -/

/-- What a step can do to the two timers, their flag and their record. -/
inductive TimerStep [ByteOrder] (t t' : Trigger) : TriggerEvent → Prop
  | armHop {k md} : t.thresholds.overBoth md = true → t.vqTimerIsSet = false →
      t'.qOCCHopTimerID = some t.now → t'.qOCCTimerID = t.qOCCTimerID → t'.vqTimerIsSet = true →
      t'.sqOCCTimerIDData = timerData k md.qinfo md.hopLatencyThreshold →
      TimerStep t t' (.sample k md)
  | armQOcc {k md} : t.thresholds.overBoth md = false → t.vUseRetransmissionRate = true →
      t.thresholds.overQueue md = true → t.vqTimerIsSet = false →
      t'.qOCCHopTimerID = t.qOCCHopTimerID → t'.qOCCTimerID = some t.now → t'.vqTimerIsSet = true →
      t'.sqOCCTimerIDData = timerData k md.qinfo 0 →
      TimerStep t t' (.sample k md)
  | cancel {k md} : t.congested md = false → t.vqTimerIsSet = true → t'.qOCCHopTimerID = none →
      t'.qOCCTimerID = (if t.vUseRetransmissionRate then none else t.qOCCTimerID) →
      t'.vqTimerIsSet = false → t'.sqOCCTimerIDData = t.sqOCCTimerIDData →
      TimerStep t t' (.sample k md)
  | keep {k md} : t.congested md = t.vqTimerIsSet →
      t'.qOCCHopTimerID = t.qOCCHopTimerID → t'.qOCCTimerID = t.qOCCTimerID →
      t'.vqTimerIsSet = t.vqTimerIsSet → t'.sqOCCTimerIDData = t.sqOCCTimerIDData →
      TimerStep t t' (.sample k md)
  | hopExpiry : t.qOCCHopTimerID.isSome = true → t'.qOCCHopTimerID = none →
      t'.qOCCTimerID = t.qOCCTimerID → t'.vqTimerIsSet = false →
      t'.sqOCCTimerIDData = t.sqOCCTimerIDData → TimerStep t t' .qOCCHopTimer
  | qOccExpiry : t.qOCCTimerID.isSome = true → t'.qOCCHopTimerID = t.qOCCHopTimerID →
      t'.qOCCTimerID = none → t'.vqTimerIsSet = false →
      t'.sqOCCTimerIDData = t.sqOCCTimerIDData → TimerStep t t' .qOCCTimer
  | idle : t.vqTimerIsSet = true → t'.qOCCHopTimerID = none → t'.qOCCTimerID = none →
      t'.vqTimerIsSet = false → t'.sqOCCTimerIDData = t.sqOCCTimerIDData →
      TimerStep t t' (.measurement 0 0)
  | other {e} : (∀ k md, e ≠ .sample k md) →
      t'.qOCCHopTimerID = t.qOCCHopTimerID → t'.qOCCTimerID = t.qOCCTimerID →
      t'.vqTimerIsSet = t.vqTimerIsSet → t'.sqOCCTimerIDData = t.sqOCCTimerIDData →
      TimerStep t t' e

section Step

variable [ByteOrder] {kafka : Bool} {t t' : Trigger} {e : TriggerEvent}

theorem sample_timers {k : HopKey} {md : IntHopMetadata}
    (h : t.step kafka (.sample k md) = some t') : TimerStep t t' (.sample k md) := by
  rw [step_sample h]
  by_cases hb : t.thresholds.overBoth md = true
  · have hop := hopTrigger_both (t := t) (k := k) hb
    cases hf : t.vqTimerIsSet
    · apply TimerStep.armHop hb hf <;> simp [sampleFunc, hop, evaluateQOccAndHopDelay, hf]
    · have hc : t.congested md = t.vqTimerIsSet := by rw [congested, hb, hf, Bool.true_or]
      apply TimerStep.keep hc <;> simp [sampleFunc, hop, evaluateQOccAndHopDelay, hf]
  rw [Bool.not_eq_true] at hb
  by_cases hq : (t.vUseRetransmissionRate && t.thresholds.overQueue md) = true
  · have hop := hopTrigger_userInfo (t := t) (k := k) hb hq
    obtain ⟨hu, ho⟩ := Bool.and_eq_true_iff.mp hq
    cases hf : t.vqTimerIsSet
    · apply TimerStep.armQOcc hb hu ho hf <;> simp [sampleFunc, hop, evaluateQOccUserInfo, hf]
    · have hc : t.congested md = t.vqTimerIsSet := by rw [congested, hq, hf, Bool.or_true]
      apply TimerStep.keep hc <;> simp [sampleFunc, hop, evaluateQOccUserInfo, hf]
  · -- the branch that cancels the timers
    rw [Bool.not_eq_true] at hq
    have hc : t.congested md = false := by rw [congested, hb, hq, Bool.or_false]
    have hop := hopTrigger_below (k := k) hc
    cases hf : t.vqTimerIsSet
    · apply TimerStep.keep (hc.trans hf.symm) <;> simp [sampleFunc, hop, cancelTimers, hf]
    · apply TimerStep.cancel hc hf <;> simp [sampleFunc, hop, cancelTimers, hf]

omit [ByteOrder] in
theorem idleDetection_timers (t : Trigger) :
    (t.idleDetection.qOCCHopTimerID = if t.vqTimerIsSet then none else t.qOCCHopTimerID) ∧
      (t.idleDetection.qOCCTimerID = if t.vqTimerIsSet then none else t.qOCCTimerID) ∧
      t.idleDetection.vqTimerIsSet = false ∧
      t.idleDetection.sqOCCTimerIDData = t.sqOCCTimerIDData := by
  unfold idleDetection
  cases hf : t.vqTimerIsSet <;> simp only [hf, Bool.false_eq_true, ↓reduceIte] <;>
    split_ifs <;> simp_all

theorem step_timers (h : t.step kafka e = some t') : TimerStep t t' e := by
  cases e with
  | sample k md => exact sample_timers h
  | qOCCHopTimer =>
    obtain ⟨ha, rfl⟩ := step_qOCCHopTimer h
    unfold qOCCHopTimerIDHandler fStartEvaluationTimer
    dsimp only
    split
    · exact .hopExpiry ha rfl rfl rfl rfl
    · exact .hopExpiry ha rfl rfl rfl rfl
  | qOCCTimer =>
    obtain ⟨ha, rfl⟩ := step_qOCCTimer h
    unfold qOCCTimerIDHandler fStartEvaluationTimer
    dsimp only
    split
    · exact .qOccExpiry ha rfl rfl rfl rfl
    · exact .qOccExpiry ha rfl rfl rfl rfl
  | qEvaluationTimer =>
    obtain ⟨_, rfl⟩ := step_qEvaluationTimer h
    exact .other (by simp) rfl rfl rfl rfl
  | measurement tx rx =>
    rw [step_measurement h]
    obtain ⟨h1, h2, h3, h4⟩ := idleDetection_timers t
    unfold measurement
    split
    · rename_i hz
      obtain ⟨rfl, rfl⟩ := hz
      cases hf : t.vqTimerIsSet
      · exact .other (by simp) (by simp [h1, hf]) (by simp [h2, hf]) (by simp [h3, hf]) h4
      · exact .idle hf (by simp [h1, hf]) (by simp [h2, hf]) h3 h4
    · exact .other (by simp) rfl rfl rfl rfl
  | useRetransmissionRate on =>
    obtain ⟨u, hu, rfl⟩ := step_eq h
    cases hu
    exact .other (by simp) rfl rfl rfl rfl
  | changeThresholds th =>
    obtain ⟨u, hu, rfl⟩ := step_eq h
    cases hu
    exact .other (by simp) rfl rfl rfl rfl

end Step

/-! ### The trigger state -/

/-- After the events `es`, the flag, the two timers and their record agree. -/
structure TimersAgree (es : List TriggerEvent) (t : Trigger) : Prop where
  one : ¬ (t.qOCCHopTimerID.isSome = true ∧ t.qOCCTimerID.isSome = true)
  flag : t.vqTimerIsSet = true ↔ t.qOCCHopTimerID.isSome = true ∨ t.qOCCTimerID.isSome = true
  hop : ∀ n, t.qOCCHopTimerID = some n → ∃ k md, es[n]? = some (.sample k md) ∧
    t.sqOCCTimerIDData = timerData k md.qinfo md.hopLatencyThreshold
  qOcc : ∀ n, t.qOCCTimerID = some n → ∃ k md, es[n]? = some (.sample k md) ∧
    t.sqOCCTimerIDData = timerData k md.qinfo 0

/-- An uncongested sample while `qOCC_TimerID` is armed and '-r' is off. -/
def LeavesArmed (t : Trigger) (e : TriggerEvent) : Prop :=
  ∃ k md, e = .sample k md ∧ t.qOCCTimerID.isSome = true ∧ t.vUseRetransmissionRate = false ∧
    t.thresholds.overBoth md = false

/-- An event of the past stays where it is. -/
theorem getElem?_snoc {pre : List TriggerEvent} {n : ℕ} {e x : TriggerEvent}
    (h : pre[n]? = some x) : (pre ++ [e])[n]? = some x := by
  have hn : n < pre.length := (List.getElem?_eq_some_iff.mp h).1
  rw [List.getElem?_append_left hn, h]

section Agree

variable {kafka : Bool} {t t' : Trigger} {e : TriggerEvent} {pre : List TriggerEvent}

theorem timersAgree_initial : TimersAgree [] {} where
  one := by simp
  flag := by simp
  hop := by simp
  qOcc := by simp

/-- Timers, flag and record that a step leaves alone still agree. -/
theorem TimersAgree.keep (h : TimersAgree pre t) (hh : t'.qOCCHopTimerID = t.qOCCHopTimerID)
    (hq : t'.qOCCTimerID = t.qOCCTimerID) (hf : t'.vqTimerIsSet = t.vqTimerIsSet)
    (hd : t'.sqOCCTimerIDData = t.sqOCCTimerIDData) : TimersAgree (pre ++ [e]) t' where
  one := by
    rw [hh, hq]
    exact h.one
  flag := by
    rw [hf, hh, hq]
    exact h.flag
  hop n hn := by
    rw [hh] at hn
    obtain ⟨k, md, hk, hkd⟩ := h.hop n hn
    exact ⟨k, md, getElem?_snoc hk, hd.trans hkd⟩
  qOcc n hn := by
    rw [hq] at hn
    obtain ⟨k, md, hk, hkd⟩ := h.qOcc n hn
    exact ⟨k, md, getElem?_snoc hk, hd.trans hkd⟩

/-- With no timer armed and the flag clear there is nothing to disagree on. -/
theorem timersAgree_idle (hh : t'.qOCCHopTimerID = none) (hq : t'.qOCCTimerID = none)
    (hf : t'.vqTimerIsSet = false) : TimersAgree pre t' where
  one := by rw [hh, hq]; simp
  flag := by rw [hf, hh, hq]; simp
  hop := by rw [hh]; simp
  qOcc := by rw [hq]; simp

/-- With the flag clear, no timer is armed. -/
theorem TimersAgree.none (h : TimersAgree pre t) (hf : t.vqTimerIsSet = false) :
    t.qOCCHopTimerID = .none ∧ t.qOCCTimerID = .none := by
  have hn : ¬ (t.qOCCHopTimerID.isSome = true ∨ t.qOCCTimerID.isSome = true) := by
    rw [← h.flag, hf]
    exact Bool.false_ne_true
  rw [not_or, Option.not_isSome_iff_eq_none, Option.not_isSome_iff_eq_none] at hn
  exact hn

/-- A step that does not leave `qOCC_TimerID` armed keeps the agreement. -/
theorem timersAgree_step (hn : t.now = pre.length) (h : TimersAgree pre t)
    (hc : ¬ LeavesArmed t e) (hs : TimerStep t t' e) : TimersAgree (pre ++ [e]) t' := by
  have hlast : (pre ++ [e])[t.now]? = some e := by rw [hn]; simp
  cases hs with
  | armHop hb hf h1 h2 h3 h4 =>
    obtain ⟨hh, hq⟩ := h.none hf
    have hnone : t'.qOCCTimerID = .none := h2.trans hq
    constructor
    · simp [hnone]
    · simp [h1, h3]
    · intro n hn'
      obtain rfl : t.now = n := by simpa [h1] using hn'
      exact ⟨_, _, hlast, h4⟩
    · simp [hnone]
  | armQOcc hb hu hq hf h1 h2 h3 h4 =>
    obtain ⟨hh, hq⟩ := h.none hf
    have hnone : t'.qOCCHopTimerID = .none := h1.trans hh
    constructor
    · simp [hnone]
    · simp [h2, h3]
    · simp [hnone]
    · intro n hn'
      obtain rfl : t.now = n := by simpa [h2] using hn'
      exact ⟨_, _, hlast, h4⟩
  | cancel hb hf h1 h2 h3 h4 =>
    refine timersAgree_idle h1 ?_ h3
    -- with '-r' on the branch disarms `qOCC_TimerID`, with '-r' off it was not armed
    cases hu : t.vUseRetransmissionRate
    · rw [h2, hu, if_neg Bool.false_ne_true, ← Option.not_isSome_iff_eq_none]
      intro hq
      exact hc ⟨_, _, rfl, hq, hu, (Bool.or_eq_false_iff.mp hb).1⟩
    · rw [h2, hu, if_pos rfl]
  | keep _ h1 h2 h3 h4 => exact h.keep h1 h2 h3 h4
  | hopExpiry ha h1 h2 h3 h4 =>
    refine timersAgree_idle h1 ?_ h3
    rw [h2, ← Option.not_isSome_iff_eq_none]
    exact fun hq => h.one ⟨ha, hq⟩
  | qOccExpiry ha h1 h2 h3 h4 =>
    refine timersAgree_idle ?_ h2 h3
    rw [h1, ← Option.not_isSome_iff_eq_none]
    exact fun hh => h.one ⟨hh, ha⟩
  | idle hf h1 h2 h3 h4 => exact timersAgree_idle h1 h2 h3
  | other _ h1 h2 h3 h4 => exact h.keep h1 h2 h3 h4

/-- A step that leaves `qOCC_TimerID` armed clears the flag all the same. -/
theorem not_timersAgree_of_leavesArmed (h : TimersAgree pre t) (hc : LeavesArmed t e)
    (hs : TimerStep t t' e) : ¬ TimersAgree (pre ++ [e]) t' := by
  obtain ⟨k, md, rfl, ha, hu, hb⟩ := hc
  have hf : t.vqTimerIsSet = true := h.flag.mpr (Or.inr ha)
  have hg : t.congested md = false := by rw [congested, hb, hu, Bool.false_and, Bool.or_false]
  intro h'
  cases hs with
  | armHop hb' => rw [hb] at hb'; exact Bool.false_ne_true hb'
  | armQOcc _ hu' => rw [hu] at hu'; exact Bool.false_ne_true hu'
  | cancel _ _ _ h2 h3 =>
    rw [hu, if_neg Bool.false_ne_true] at h2
    have hf' : t'.vqTimerIsSet = true := h'.flag.mpr (Or.inr (h2 ▸ ha))
    rw [h3] at hf'
    exact Bool.false_ne_true hf'
  | keep hk => rw [hg, hf] at hk; exact Bool.false_ne_true hk
  | other hne => exact hne k md rfl

end Agree

/-- **The trigger state.** In a run of the trigger logic the flag, the timers
and the record agree in every state exactly if no uncongested sample comes
while `qOCC_TimerID` is armed and '-r' is off. -/
theorem trigger_state (kafka : Bool) (es : List TriggerEvent) :
    Runs.Always (step kafka) {} TimersAgree es ↔
      Runs.Steps (step kafka) {} (fun _ t e => ¬ LeavesArmed t e) es := by
  refine Runs.always_iff_steps timersAgree_initial (fun pre t e t' hr h hc hs => ?_)
    (fun _ _ _ h => h) (fun pre t e t' _ h hc hs => ?_) es
  · exact timersAgree_step (run_now hr) h hc (step_timers hs)
  · exact not_timersAgree_of_leavesArmed h (not_not.mp hc) (step_timers hs)

/-! ### A run that loses the agreement -/

/-- '-r' is on when the queue fills, off when it is empty again. -/
def toggledOff : List TriggerEvent :=
  [.useRetransmissionRate true, sampleFrom 1 1000 10, .useRetransmissionRate false, sampleFrom 1 10 10]

theorem toggledOff_disagrees : ¬ Runs.Always (step false) {} TimersAgree toggledOff := by
  intro h
  have hrun : ∃ t, Runs.run (step false) {} toggledOff = some t ∧ t.vqTimerIsSet = false ∧
      t.qOCCTimerID = some 1 := ⟨_, rfl, rfl, rfl⟩
  obtain ⟨t, ht, hf, hq⟩ := hrun
  have hset := (h.last ht).flag.mpr (Or.inr (hq ▸ rfl))
  rw [hf] at hset
  exact Bool.false_ne_true hset

end Trigger
end TuningMod

/-
# Duplicate messages

A destination repeats its messages while congestion lasts. Handled twice in a
row, with the same inputs, a message leaves the record and the root qdisc as
once, from any state, except for a QINFO above 34 Gb/s that sets pacing up:
its first handling paces at 34, its second runs `fq nopacing`.

Key definitions: `SourceDtn.handle`, `SourceDtn.settings`, `SourceDtn.Overshoots`.
Key theorems: `step_event`, `again_nothing`, `again_same`, `qinfo_again`, `duplicates_harmless`.
-/
import TuningMod.RootQdisc
import TuningMod.PacingRates

namespace TuningMod

/-! ### Commands run twice -/

namespace TcCmd

theorem changeMaxrate_twice (rate : ℚ) (q : Qdisc) :
    (changeMaxrate rate).apply ((changeMaxrate rate).apply q) = (changeMaxrate rate).apply q := by
  cases q <;> rfl

theorem changeNopacing_twice (q : Qdisc) :
    changeNopacing.apply (changeNopacing.apply q) = changeNopacing.apply q := by
  cases q <;> rfl

/-- The rate an `fq` was added with is the one a `change` to it sets. -/
theorem changeMaxrate_delAddMaxrate (rate : ℚ) (q : Qdisc) :
    (changeMaxrate rate).apply ((delAddMaxrate rate).apply q) = (delAddMaxrate rate).apply q := rfl

end TcCmd

namespace SourceDtn

/-- A message is handled to completion. -/
def handle (s : SourceDtn) (m : PacingMsg) : SourceDtn := s.performAll (m.acts s.gTuningMode s.shm)

/-- The record and the root qdisc. -/
def settings (q0 : Qdisc) (s : SourceDtn) : SResetPacingBack × Qdisc := (s.shm, s.rootQdisc q0)

/-- The message is a QINFO that sets up pacing with a rate above 34 Gb/s. -/
def Overshoots (s : SourceDtn) (m : PacingMsg) : Prop :=
  ∃ env hopDelay destIpAddr, m = .qinfo env hopDelay destIpAddr ∧ s.gTuningMode = true ∧ s.shm.set = 0 ∧
    env.Congested hopDelay destIpAddr ∧ env.vGlobalAverageTxGbitsPerSec * env.vMaxPacingRate > 34

theorem step_event (s : SourceDtn) (m : PacingMsg) : s.step m.event = some (s.handle m) := by
  cases m <;> rfl

section Handle

variable {s : SourceDtn} {q0 : Qdisc} {m : PacingMsg} {c c' : TcCmd} {r : SResetPacingBack}

theorem handle_nothing (h : m.acts s.gTuningMode s.shm = []) : s.handle m = s := by
  rw [handle, h]
  rfl

theorem handle_gTuningMode : (s.handle m).gTuningMode = s.gTuningMode := performAll_gTuningMode

theorem settings_adjusts (h : Adjusts c r (m.acts s.gTuningMode s.shm)) :
    (s.handle m).settings q0 = (r, c.apply (s.rootQdisc q0)) := by
  have hshm : (s.handle m).shm = r := (performAll_adjusts h).1
  have htcs : (s.handle m).tcs = s.tcs ++ [c] := by
    rw [handle, performAll_tcs, h.tcs]
  rw [settings, hshm, rootQdisc_snoc htcs]

theorem acts_again (h : Adjusts c r (m.acts s.gTuningMode s.shm)) :
    m.acts (s.handle m).gTuningMode (s.handle m).shm = m.acts s.gTuningMode r := by
  have hshm : (s.handle m).shm = r := (performAll_adjusts h).1
  rw [handle_gTuningMode, hshm]

/-- A second handling that does nothing with the record of the first. -/
theorem again_nothing (h : Adjusts c r (m.acts s.gTuningMode s.shm)) (hnil : m.acts s.gTuningMode r = []) :
    ((s.handle m).handle m).settings q0 = (s.handle m).settings q0 := by
  rw [handle_nothing ((acts_again h).trans hnil)]

/-- A second handling that writes the record of the first and runs a command
that changes nothing after the first one's. -/
theorem again_same (h : Adjusts c r (m.acts s.gTuningMode s.shm)) (ha : Adjusts c' r (m.acts s.gTuningMode r))
    (hq : ∀ q, c'.apply (c.apply q) = c.apply q) :
    ((s.handle m).handle m).settings q0 = (s.handle m).settings q0 := by
  have htcs : (s.handle m).tcs = s.tcs ++ [c] := by
    rw [handle, performAll_tcs, h.tcs]
  rw [← acts_again h] at ha
  rw [settings_adjusts ha, rootQdisc_snoc htcs, hq, settings_adjusts h]

theorem again_of_nothing (h : m.acts s.gTuningMode s.shm = []) :
    ((s.handle m).handle m).settings q0 = (s.handle m).settings q0 := by
  have hid : s.handle m = s := handle_nothing h
  rw [hid, hid]

/-! ### The three messages -/

section Qinfo

variable {env : PacingEnv} {hopDelay destIpAddr : UInt32}

theorem pickedActs_adjusts (hopDelay : UInt32) (vPacingFlag : ℤ) (v : ℚ) :
    Adjusts c { set := if hopDelay ≠ 0 then vPacingFlag else regularPacingFlagSet, currentPacing := v }
      (pickedActs hopDelay (some (c, vPacingFlag, v))) := .afterCommand

theorem qinfo_acts (ht : s.gTuningMode = true) (hc : env.Congested hopDelay destIpAddr) (r : SResetPacingBack) :
    (PacingMsg.qinfo env hopDelay destIpAddr).acts s.gTuningMode r =
      pickedActs hopDelay (pickPacing r env.newPacingValue) := by
  rw [ht]
  exact qinfo_congested hc

/-- Below the clamp the second handling sets the rate that the first recorded. -/
theorem qinfo_again_below (ht : s.gTuningMode = true) (hc : env.Congested hopDelay destIpAddr)
    (hv : env.newPacingValue ≠ 40) :
    ((s.handle (.qinfo env hopDelay destIpAddr)).handle (.qinfo env hopDelay destIpAddr)).settings q0 =
      (s.handle (.qinfo env hopDelay destIpAddr)).settings q0 := by
  have hle : min env.newPacingValue 34 = env.newPacingValue :=
    min_eq_left (newPacingValue_le (not_lt.mp (mt newPacingValue_eq_forty.mpr hv)))
  have hrecord : ∀ c v, Adjusts c { set := regularPacingFlagSet, currentPacing := v }
      (pickedActs hopDelay (some (c, regularPacingFlagSet, v))) := by
    intro c v
    have h := pickedActs_adjusts (c := c) hopDelay regularPacingFlagSet v
    rwa [ite_self] at h
  have hreg : regularPacingFlagSet ≠ 0 := by decide
  have hagain : (PacingMsg.qinfo env hopDelay destIpAddr).acts s.gTuningMode
      { set := regularPacingFlagSet, currentPacing := env.newPacingValue } =
        pickedActs hopDelay (some (.changeMaxrate env.newPacingValue, regularPacingFlagSet, env.newPacingValue)) := by
    rw [qinfo_acts ht hc, pickPacing_setUp hreg hv]
  by_cases h0 : s.shm.set = 0
  · have hfirst : (PacingMsg.qinfo env hopDelay destIpAddr).acts s.gTuningMode s.shm =
        pickedActs hopDelay (some (.delAddMaxrate env.newPacingValue, regularPacingFlagSet, env.newPacingValue)) := by
      rw [qinfo_acts ht hc, pickPacing_notSetUp h0, hle]
    exact again_same (hfirst ▸ hrecord _ _) (hagain ▸ hrecord _ _) (TcCmd.changeMaxrate_delAddMaxrate _)
  · have hfirst : (PacingMsg.qinfo env hopDelay destIpAddr).acts s.gTuningMode s.shm =
        pickedActs hopDelay (some (.changeMaxrate env.newPacingValue, regularPacingFlagSet, env.newPacingValue)) := by
      rw [qinfo_acts ht hc, pickPacing_setUp h0 hv]
    exact again_same (hfirst ▸ hrecord _ _) (hagain ▸ hrecord _ _) (TcCmd.changeMaxrate_twice _)

/-- At the clamp pacing is removed once, or twice with the same record. -/
theorem qinfo_again_clamped (ht : s.gTuningMode = true) (hc : env.Congested hopDelay destIpAddr)
    (hv : env.newPacingValue = 40) (h1 : s.shm.set = regularPacingFlagSet) :
    ((s.handle (.qinfo env hopDelay destIpAddr)).handle (.qinfo env hopDelay destIpAddr)).settings q0 =
      (s.handle (.qinfo env hopDelay destIpAddr)).settings q0 := by
  have hfirst : (PacingMsg.qinfo env hopDelay destIpAddr).acts s.gTuningMode s.shm =
      pickedActs hopDelay (some (.changeNopacing, nopacingFlagSet, 40)) := by
    rw [qinfo_acts ht hc, hv, pickPacing_forty h1]
  by_cases hd : hopDelay ≠ 0
  · have hrecord : Adjusts .changeNopacing { set := nopacingFlagSet, currentPacing := 40 }
        (pickedActs hopDelay (some (.changeNopacing, nopacingFlagSet, 40))) := by
      have h := pickedActs_adjusts (c := .changeNopacing) hopDelay nopacingFlagSet 40
      rwa [if_pos hd] at h
    refine again_nothing (hfirst ▸ hrecord) ?_
    rw [qinfo_acts ht hc, hv, pickPacing_none (by decide) (by decide)]
    rfl
  · have hrecord : Adjusts .changeNopacing { set := regularPacingFlagSet, currentPacing := 40 }
        (pickedActs hopDelay (some (.changeNopacing, nopacingFlagSet, 40))) := by
      have h := pickedActs_adjusts (c := .changeNopacing) hopDelay nopacingFlagSet 40
      rwa [if_neg hd] at h
    have hagain : (PacingMsg.qinfo env hopDelay destIpAddr).acts s.gTuningMode
        { set := regularPacingFlagSet, currentPacing := 40 } =
          pickedActs hopDelay (some (.changeNopacing, nopacingFlagSet, 40)) := by
      rw [qinfo_acts ht hc, hv, pickPacing_forty rfl]
    exact again_same (hfirst ▸ hrecord) (hagain ▸ hrecord) TcCmd.changeNopacing_twice

theorem qinfo_again (h : ¬ s.Overshoots (.qinfo env hopDelay destIpAddr)) :
    ((s.handle (.qinfo env hopDelay destIpAddr)).handle (.qinfo env hopDelay destIpAddr)).settings q0 =
      (s.handle (.qinfo env hopDelay destIpAddr)).settings q0 := by
  by_cases hc : env.Congested hopDelay destIpAddr
  swap
  · exact again_of_nothing (qinfo_not_congested hc)
  by_cases ht : s.gTuningMode = true
  swap
  · refine again_of_nothing ?_
    rw [Bool.eq_false_of_not_eq_true ht]
    exact qinfo_learning
  by_cases hv : env.newPacingValue = 40
  swap
  · exact qinfo_again_below ht hc hv
  by_cases h1 : s.shm.set = regularPacingFlagSet
  · exact qinfo_again_clamped ht hc hv h1
  · have h0 : s.shm.set ≠ 0 := fun h0 =>
      h ⟨env, hopDelay, destIpAddr, rfl, ht, h0, hc, newPacingValue_eq_forty.mp hv⟩
    refine again_of_nothing ?_
    rw [qinfo_acts ht hc, hv, pickPacing_none h0 h1]
    rfl

/-- Paced at 34 Gb/s by the first handling, not paced by the second. -/
theorem qinfo_overshoots (h : s.Overshoots m) :
    ((s.handle m).handle m).settings q0 ≠ (s.handle m).settings q0 := by
  obtain ⟨env, hopDelay, destIpAddr, rfl, ht, h0, hc, hclamp⟩ := h
  have hv : env.newPacingValue = 40 := newPacingValue_eq_forty.mpr hclamp
  have hfirst : Adjusts (.delAddMaxrate 34) { set := regularPacingFlagSet, currentPacing := 34 }
      ((PacingMsg.qinfo env hopDelay destIpAddr).acts s.gTuningMode s.shm) := by
    have h := pickedActs_adjusts (c := .delAddMaxrate 34) hopDelay regularPacingFlagSet 34
    rw [ite_self] at h
    rw [qinfo_acts ht hc, hv, pickPacing_notSetUp h0, min_eq_right (by norm_num)]
    exact h
  have hshm : (s.handle (.qinfo env hopDelay destIpAddr)).shm =
      { set := regularPacingFlagSet, currentPacing := 34 } := (performAll_adjusts hfirst).1
  have hagain : ∃ set, Adjusts .changeNopacing { set := set, currentPacing := 40 }
      ((PacingMsg.qinfo env hopDelay destIpAddr).acts (s.handle (.qinfo env hopDelay destIpAddr)).gTuningMode
        (s.handle (.qinfo env hopDelay destIpAddr)).shm) := by
    rw [handle_gTuningMode, hshm, qinfo_acts ht hc, hv, pickPacing_forty rfl]
    exact ⟨_, pickedActs_adjusts hopDelay nopacingFlagSet 40⟩
  obtain ⟨set, hagain⟩ := hagain
  intro hsame
  rw [settings_adjusts hagain, settings, hshm] at hsame
  have hrate : (40 : ℚ) = 34 := congrArg (fun p => p.1.currentPacing) hsame
  norm_num at hrate

end Qinfo

theorem resetPacing_again (env : PacingEnv) (destIpAddr : UInt32) :
    ((s.handle (.resetPacing env destIpAddr)).handle (.resetPacing env destIpAddr)).settings q0 =
      (s.handle (.resetPacing env destIpAddr)).settings q0 := by
  by_cases h : (env.found destIpAddr && s.shm.set ≠ 0) = true ∧ s.gTuningMode = true ∧
      s.shm.set = regularPacingFlagSet
  · obtain ⟨hf, ht, h1⟩ := h
    have hfirst : Adjusts .changeNopacing { set := nopacingFlagSet, currentPacing := 0 }
        ((PacingMsg.resetPacing env destIpAddr).acts s.gTuningMode s.shm) := by
      have hn : s.shm.set ≠ nopacingFlagSet := by
        rw [h1]
        decide
      rw [PacingMsg.acts, fDoResetPacing2, if_pos hf, if_pos ht, if_neg hn, if_pos h1]
      exact .beforeCommand
    refine again_nothing hfirst ?_
    rw [PacingMsg.acts, fDoResetPacing2]
    split_ifs with _ hn
    · rfl
    · exact absurd rfl hn
    all_goals rfl
  · refine again_of_nothing ?_
    rw [PacingMsg.acts, fDoResetPacing2]
    split_ifs with hf ht hn h1
    · rfl
    · exact absurd ⟨hf, ht, h1⟩ h
    all_goals rfl

theorem cleanupResetPacing_again :
    ((s.handle .cleanupResetPacing).handle .cleanupResetPacing).settings q0 =
      (s.handle .cleanupResetPacing).settings q0 := by
  by_cases h : s.gTuningMode = true ∧ s.shm.set ≠ 0
  · have hfirst : Adjusts .del { set := 0, currentPacing := 0 }
        (PacingMsg.cleanupResetPacing.acts s.gTuningMode s.shm) := by
      rw [PacingMsg.acts, fDoCleanupResetPacing2, giveUpPacing, if_pos h.2, if_pos h.1]
      exact .beforeCommand
    exact again_nothing hfirst rfl
  · exact again_of_nothing (giveUpPacing_quiet h)

end Handle

/-- **Duplicates are harmless** in every state: a message handled twice in a
row leaves the record and the root qdisc as once, exactly if it is no QINFO
that sets up pacing with a rate above 34 Gb/s. -/
theorem duplicates_harmless (q0 : Qdisc) (s : SourceDtn) (m : PacingMsg) :
    ((s.handle m).handle m).settings q0 = (s.handle m).settings q0 ↔ ¬ s.Overshoots m := by
  refine ⟨fun h ho => qinfo_overshoots ho h, fun h => ?_⟩
  cases m with
  | qinfo env hopDelay destIpAddr => exact qinfo_again h
  | resetPacing env destIpAddr => exact resetPacing_again env destIpAddr
  | cleanupResetPacing => exact cleanupResetPacing_again

/-- In tuning mode, a QINFO at 40 Gb/s is repeated. -/
theorem duplicate_removes_pacing : ∃ s, Runs.run step {} [.learningMode false] = some s ∧
    ((s.handle (.qinfo (congestedEnv 40) 5 0x0900000a)).handle (.qinfo (congestedEnv 40) 5 0x0900000a)).settings
        .kernelDefault ≠
      (s.handle (.qinfo (congestedEnv 40) 5 0x0900000a)).settings .kernelDefault :=
  ⟨_, rfl, by decide +kernel⟩

end SourceDtn
end TuningMod

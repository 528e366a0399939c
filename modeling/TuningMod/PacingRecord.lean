/-
# The pacing record and the qdisc

While the record's `set` is not zero it should describe the last `tc` command.
It does in every state of a run exactly if no QINFO takes the retransmission
branch at the clamp with regular pacing in force: that branch runs `fq nopacing`
and writes `REGULAR_PACING_FLAG_SET`, where the hop-delay branch writes the
flag it picked.

Key definitions: `Describes`, `SlipsAt`.
Key theorems: `describes_step`, `not_describes_of_slip`, `record_describes`.
-/
import TuningMod.SourceDtn

namespace TuningMod
namespace SourceDtn

/-- While `set` is not zero there is a last `tc` command, and the record
describes it: its flag says which kind it is, its rate is a maxrate command's. -/
def Describes (s : SourceDtn) : Prop :=
  s.shm.set ≠ 0 → ∃ c, s.lastTc = some c ∧
    (s.shm.set = nopacingFlagSet ↔ c = .changeNopacing) ∧
    (s.shm.set = regularPacingFlagSet ↔ c.maxrate.isSome = true) ∧
    ∀ rate, c.maxrate = some rate → s.shm.currentPacing = rate

/-- The step is a QINFO that runs `fq nopacing` and records regular pacing. -/
def SlipsAt (s : SourceDtn) (e : SourceEvent) : Prop :=
  ∃ env hopDelay destIpAddr, e = .qinfo env hopDelay destIpAddr ∧
    NopacingAsRegular s.gTuningMode s.shm env hopDelay destIpAddr

section Record

variable {s s' : SourceDtn} {e : SourceEvent}

/-- What a command is recorded as describes it. -/
theorem describes_of_recordedAs {c : TcCmd} (hc : s.lastTc = some c) (hr : c.RecordedAs s.shm) :
    s.Describes := by
  intro hset
  refine ⟨c, hc, ?_⟩
  cases c with
  | del =>
    rw [show s.shm = { set := 0, currentPacing := 0 } from hr] at hset
    exact absurd rfl hset
  | delAddMaxrate rate | changeMaxrate rate =>
    rw [show s.shm = { set := regularPacingFlagSet, currentPacing := rate } from hr]
    simp [TcCmd.maxrate, regularPacingFlagSet, nopacingFlagSet]
  | changeNopacing =>
    rw [show s.shm.set = nopacingFlagSet from hr]
    simp [TcCmd.maxrate, regularPacingFlagSet, nopacingFlagSet]

theorem describes_of_records {as : List Action} (h : s.Describes) (hr : Records as) :
    (s.performAll as).Describes := by
  rcases hr with rfl | ⟨c, r, ha, hr⟩
  · exact h
  · obtain ⟨hshm, hlast⟩ := performAll_adjusts (s := s) ha
    rw [← hshm] at hr
    exact describes_of_recordedAs hlast hr

theorem describes_of_leavesPacing {as : List Action} (h : s.Describes) (hl : Tuner.LeavesPacing as) :
    (s.performAll as).Describes := by
  obtain ⟨h1, h2⟩ := performAll_leavesPacing (s := s) hl
  unfold Describes
  rw [h1, h2]
  exact h

theorem describes_step (h : s.Describes) (hc : ¬ SlipsAt s e) (hs : s.step e = some s') :
    s'.Describes := by
  suffices hd : (s.performAll (s.acts e)).Describes by
    unfold Describes
    rw [step_shm hs, step_lastTc hs]
    exact hd
  cases e with
  | qinfo env hopDelay destIpAddr =>
    exact describes_of_records h (qinfo_records fun hn => hc ⟨env, hopDelay, destIpAddr, rfl, hn⟩)
  | resetPacing env destIpAddr => exact describes_of_records h resetPacing_records
  | cleanupResetPacing => exact describes_of_records h giveUpPacing_records
  | kafka env residualBandwidth => exact describes_of_records h kafka_records
  | measurement env tx rx =>
    rw [acts, performAll_append]
    refine describes_of_leavesPacing ?_ Tuner.measure_leavesPacing
    by_cases hz : tx = 0 ∧ rx = 0
    · rw [if_pos hz]
      exact describes_of_records h giveUpPacing_records
    · rw [if_neg hz]
      exact h
  | learningMode on => exact h

theorem not_describes_of_slip (hc : SlipsAt s e) (hs : s.step e = some s') : ¬ s'.Describes := by
  obtain ⟨env, hopDelay, destIpAddr, rfl, hn⟩ := hc
  have ha : Adjusts .changeNopacing { set := regularPacingFlagSet, currentPacing := 40 }
      (s.acts (.qinfo env hopDelay destIpAddr)) := by
    rw [acts, qinfo_nopacingAsRegular hn]
    exact .afterCommand
  obtain ⟨hshm, hlast⟩ := step_adjusts ha hs
  intro h
  have hset : s'.shm.set = regularPacingFlagSet := by rw [hshm]
  have hne : s'.shm.set ≠ 0 := by
    rw [hset]
    decide
  obtain ⟨c, hc, _, hreg, _⟩ := h hne
  rw [hlast] at hc
  cases hc
  have hsome : TcCmd.changeNopacing.maxrate.isSome = true := hreg.mp hset
  exact Bool.false_ne_true hsome

end Record

/-- **The record describes the qdisc.** In every state of a run the record
describes the last `tc` command, exactly if no step is a QINFO that takes the
retransmission branch at the clamp with regular pacing in force. -/
theorem record_describes (es : List SourceEvent) :
    Runs.Always step {} (fun _ => Describes) es ↔ Runs.Steps step {} (fun _ s e => ¬ SlipsAt s e) es := by
  refine Runs.always_iff_steps (I := fun _ => Describes) (fun h => absurd rfl h)
    (fun pre s e s' _ h hc hs => ?_) (fun _ _ _ h => h) (fun pre s e s' _ _ hc hs => ?_) es
  · exact describes_step h hc hs
  · exact not_describes_of_slip (not_not.mp hc) hs

/-- Pacing is set up at 10 Gb/s, and removed at 40 Gb/s by a QINFO without hop delay. -/
def removedAtClamp : List SourceEvent :=
  [.learningMode false, .qinfo (congestedEnv 10) 0 0x0900000a, .qinfo (congestedEnv 40) 0 0x0900000a]

theorem removedAtClamp_undescribed : ¬ Runs.Always step {} (fun _ => Describes) removedAtClamp := by
  intro h
  have hrun : ∃ s, Runs.run step {} removedAtClamp = some s ∧
      s.shm = { set := regularPacingFlagSet, currentPacing := 40 } ∧ s.lastTc = some .changeNopacing :=
    ⟨_, rfl, by decide +kernel, by decide +kernel⟩
  obtain ⟨s, hs, hshm, hlast⟩ := hrun
  have hset : s.shm.set = regularPacingFlagSet := by rw [hshm]
  have hne : s.shm.set ≠ 0 := by
    rw [hset]
    decide
  obtain ⟨c, hc, _, hreg, _⟩ := h.last hs hne
  rw [hlast] at hc
  cases hc
  exact Bool.false_ne_true (hreg.mp hset)

end SourceDtn
end TuningMod

/-
# The gate of the evaluation timer

One process runs the trigger logic, the Kafka consumer and the measurement
thread. A trigger timer's handler that enqueues a QINFO and a Kafka report that
changes the pacing both start `qEvaluation_TimerID` and close the gate
`vCanStartEvaluationTimer`, and do nothing while it is closed. `gate_opens`
says which steps open it: an expiry of the timer, or an idle measurement that
cancels it after another idle one. So one of the two lies between any two of
these actions.

Key definitions: `Daemon`, `Daemon.step`, `Daemon.Acts`, `Daemon.Reopens`.
Key theorems: `kafka_gated`, `acts_closes`, `gate_opens`, `actions_gated`.
-/
import TuningMod.TriggerSends
import TuningMod.RootQdisc

namespace TuningMod

/-- The process: its trigger logic, and its pacing with the measurement thread. -/
structure Daemon where
  trigger : Trigger := {}
  source : SourceDtn := {}

inductive DaemonEvent where
  /-- A hop sample, an expiry, a '-r' request or a change of the thresholds. -/
  | trigger (e : TriggerEvent)
  | measurement (env : MeasureEnv) (txKbitsPerSec rxKbitsPerSec : ℕ)
  | kafka (env : PacingEnv) (residualBandwidth : ℕ)
  /-- A message, handled by a child process. -/
  | message (m : PacingMsg)
  | learningMode (on : Bool)

/-! ### Kafka reports -/

/-- A Kafka report does nothing, or finds the gate open, changes the pacing and
starts the timer. -/
theorem kafka_gated {gTuningMode : Bool} {r : SResetPacingBack} {env : PacingEnv} {residualBandwidth : ℕ} :
    fDoQinfoAssessmentKafka gTuningMode r env residualBandwidth = [] ∨
      env.vCanStartEvaluationTimer = true ∧
        .fStartEvaluationTimer ∈ fDoQinfoAssessmentKafka gTuningMode r env residualBandwidth := by
  refine kafka_cases.imp_right ?_
  rintro ⟨-, ht, ⟨-, hacts⟩ | ⟨v, hacts⟩⟩
  · exact ⟨ht, by simp [hacts]⟩
  · exact ⟨ht, by simp [hacts]⟩

/-! ### The gate in the trigger logic -/

namespace Trigger

section Gate

variable {kafka : Bool} {t t' : Trigger} {e : TriggerEvent}

theorem idleDetection_gate (hc : t.vCanStartEvaluationTimer = false)
    (ho : t.idleDetection.vCanStartEvaluationTimer = true) :
    t.vTwiceInaRow = true ∧ t.idleDetection.qEvaluationTimerID = none := by
  obtain ⟨-, -, hcan, -⟩ := idleDetection_sends t
  have htwice : t.vTwiceInaRow = true := by
    rw [hcan, hc, Bool.false_or] at ho
    exact ho
  refine ⟨htwice, ?_⟩
  unfold idleDetection
  cases t.vqTimerIsSet <;> simp [hc, htwice] <;> split_ifs <;> rfl

/-- A sample neither opens the gate nor counts as a measurement. -/
theorem sampleFunc_keeps (k : HopKey) (md : IntHopMetadata) :
    (t.sampleFunc k md).vCanStartEvaluationTimer = t.vCanStartEvaluationTimer ∧
      (t.sampleFunc k md).vTwiceInaRow = t.vTwiceInaRow := by
  unfold sampleFunc hopTrigger evaluateQOccAndHopDelay evaluateQOccUserInfo resetPacing cancelTimers
  dsimp only
  split_ifs <;> exact ⟨rfl, rfl⟩

/-- **What opens the gate.** -/
theorem step_opens (h : t.step kafka e = some t') (hc : t.vCanStartEvaluationTimer = false)
    (ho : t'.vCanStartEvaluationTimer = true) : e = .qEvaluationTimer ∨
      e = .measurement 0 0 ∧ t.vTwiceInaRow = true ∧ t'.qEvaluationTimerID = none := by
  have hkeep : t'.vCanStartEvaluationTimer ≠ t.vCanStartEvaluationTimer := by
    rw [ho, hc]
    simp
  cases e with
  | qEvaluationTimer => exact Or.inl rfl
  | sample k md =>
    rw [step_sample h] at hkeep
    exact absurd (sampleFunc_keeps k md).1 hkeep
  | qOCCHopTimer =>
    rw [(step_qOCCHopTimer h).2, qOCCHopTimerIDHandler, if_neg (by simp [hc])] at hkeep
    exact absurd rfl hkeep
  | qOCCTimer =>
    rw [(step_qOCCTimer h).2, qOCCTimerIDHandler, if_neg (by simp [hc])] at hkeep
    exact absurd rfl hkeep
  | measurement tx rx =>
    rw [step_measurement h] at ho hkeep ⊢
    by_cases hz : tx = 0 ∧ rx = 0
    · obtain ⟨rfl, rfl⟩ := hz
      exact Or.inr ⟨rfl, idleDetection_gate hc ho⟩
    · rw [measurement, if_neg hz] at hkeep
      exact absurd rfl hkeep
  | useRetransmissionRate on =>
    obtain ⟨u, hu, rfl⟩ := step_eq h
    cases hu
    exact absurd rfl hkeep
  | changeThresholds th =>
    obtain ⟨u, hu, rfl⟩ := step_eq h
    cases hu
    exact absurd rfl hkeep

/-- `vTwiceInaRow` says whether the last measurement was idle. -/
theorem step_measurement_twice {tx rx : ℕ} (h : t.step kafka (.measurement tx rx) = some t')
    (ht : t'.vTwiceInaRow = true) : tx = 0 ∧ rx = 0 := by
  by_contra hz
  rw [step_measurement h, measurement, if_neg hz] at ht
  exact Bool.false_ne_true ht

theorem step_twice (h : t.step kafka e = some t') (hm : ∀ tx rx, e ≠ .measurement tx rx) :
    t'.vTwiceInaRow = t.vTwiceInaRow := by
  cases e with
  | sample k md =>
    rw [step_sample h]
    exact (sampleFunc_keeps k md).2
  | qOCCHopTimer =>
    rw [(step_qOCCHopTimer h).2]
    unfold qOCCHopTimerIDHandler fStartEvaluationTimer
    dsimp only
    split <;> rfl
  | qOCCTimer =>
    rw [(step_qOCCTimer h).2]
    unfold qOCCTimerIDHandler fStartEvaluationTimer
    dsimp only
    split <;> rfl
  | qEvaluationTimer => rw [(step_qEvaluationTimer h).2]
  | measurement tx rx => exact absurd rfl (hm tx rx)
  | useRetransmissionRate on =>
    obtain ⟨u, hu, rfl⟩ := step_eq h
    cases hu
    rfl
  | changeThresholds th =>
    obtain ⟨u, hu, rfl⟩ := step_eq h
    cases hu
    rfl

/-- A QINFO is enqueued through the open gate, and closes it. -/
theorem step_closes (h : t.step kafka e = some t') (hr : t.released e = none) (hs : t'.sent ≠ t.sent) :
    t.vCanStartEvaluationTimer = true ∧ t'.vCanStartEvaluationTimer = false := by
  cases step_sends h with
  | congestion m _ h1 _ _ h4 _ => exact ⟨h1, h4⟩
  | release m h1 _ _ _ _ =>
    rw [h1] at hr
    cases hr
  | restart _ _ h2 _ _ => exact absurd h2 hs
  | quiet _ _ h2 _ _ _ => exact absurd h2 hs

end Gate
end Trigger

namespace Daemon

/-! ### Steps -/

section Steps

variable (gUseApacheKafka : Bool)

/-- What the Kafka handler does, with the gate as it is. -/
def kafkaActs (d : Daemon) (env : PacingEnv) (residualBandwidth : ℕ) : List Action :=
  d.source.acts (.kafka { env with vCanStartEvaluationTimer := d.trigger.vCanStartEvaluationTimer }
    residualBandwidth)

def step (d : Daemon) : DaemonEvent → Option Daemon
  | .trigger (.measurement _ _) => none
  | .trigger e => (d.trigger.step gUseApacheKafka e).map fun t => { d with trigger := t }
  -- the measurement thread does both
  | .measurement env tx rx =>
    (d.trigger.step gUseApacheKafka (.measurement tx rx)).bind fun t =>
      (d.source.step (.measurement env tx rx)).map fun s => { trigger := t, source := s }
  | .kafka env residualBandwidth =>
    let acts := d.kafkaActs env residualBandwidth
    some {
      trigger := if .fStartEvaluationTimer ∈ acts then d.trigger.fStartEvaluationTimer gUseApacheKafka else d.trigger
      source := d.source.performAll acts }
  | .message m => (d.source.step m.event).map fun s => { d with source := s }
  | .learningMode on => (d.source.step (.learningMode on)).map fun s => { d with source := s }

end Steps

/-- A congestion action: a trigger timer's handler enqueues a QINFO, or a Kafka
report runs a `tc` command. -/
def Acts (d d' : Daemon) : DaemonEvent → Prop
  | .trigger .qOCCHopTimer | .trigger .qOCCTimer => d'.trigger.sent ≠ d.trigger.sent
  | .kafka _ _ => d'.source.tcs ≠ d.source.tcs
  | _ => False

/-- The rates of the last measurement. -/
def lastMeasurement (es : List DaemonEvent) : Option (ℕ × ℕ) :=
  (es.filterMap fun
    | .measurement _ tx rx => some (tx, rx)
    | _ => none).getLast?

/-- `qEvaluation_TimerID` expires, or an idle measurement cancels it while the
measurement before was idle too. -/
def Reopens (es : List DaemonEvent) (d d' : Daemon) (e : DaemonEvent) : Prop :=
  e = .trigger .qEvaluationTimer ∨
    (∃ env, e = .measurement env 0 0) ∧ lastMeasurement es = some (0, 0) ∧
      d.trigger.qEvaluationTimerID.isSome = true ∧ d'.trigger.qEvaluationTimerID = none

/-- What a step does to the trigger logic: a step of it, a Kafka report that
starts the evaluation timer through the open gate, or nothing. -/
inductive GateStep (kafka : Bool) (d d' : Daemon) : DaemonEvent → Prop
  | trigger {e} : (∀ tx rx, e ≠ .measurement tx rx) → d.trigger.step kafka e = some d'.trigger →
      GateStep kafka d d' (.trigger e)
  | measurement {env tx rx} : d.trigger.step kafka (.measurement tx rx) = some d'.trigger →
      GateStep kafka d d' (.measurement env tx rx)
  | report {env residualBandwidth} : d.trigger.vCanStartEvaluationTimer = true →
      d'.trigger = d.trigger.fStartEvaluationTimer kafka → GateStep kafka d d' (.kafka env residualBandwidth)
  | quiet {e} : d'.trigger = d.trigger → (∀ env tx rx, e ≠ .measurement env tx rx) → ¬ d.Acts d' e →
      GateStep kafka d d' e

section Gate

variable {kafka : Bool} {d d' : Daemon} {e : DaemonEvent} {es : List DaemonEvent}

theorem step_gate (h : d.step kafka e = some d') : GateStep kafka d d' e := by
  cases e with
  | trigger e =>
    have hm : ∀ tx rx, e ≠ .measurement tx rx := by
      rintro tx rx rfl
      cases h
    have hs : (d.trigger.step kafka e).map (fun t => { d with trigger := t }) = some d' := by
      cases e <;> first | exact h | exact absurd rfl (hm _ _)
    obtain ⟨t, ht, rfl⟩ := Option.map_eq_some_iff.mp hs
    exact .trigger hm ht
  | measurement env tx rx =>
    rw [step] at h
    obtain ⟨t, ht, hs⟩ := Option.bind_eq_some_iff.mp h
    obtain ⟨s, _, rfl⟩ := Option.map_eq_some_iff.mp hs
    exact .measurement ht
  | kafka env residualBandwidth =>
    obtain rfl := Option.some.inj h
    have hgated : d.kafkaActs env residualBandwidth = [] ∨ d.trigger.vCanStartEvaluationTimer = true ∧
      .fStartEvaluationTimer ∈ d.kafkaActs env residualBandwidth := kafka_gated
    rcases hgated with hnil | ⟨hopen, hmem⟩
    · refine .quiet ?_ (by simp) ?_
      · dsimp only
        rw [hnil, if_neg (by simp)]
      · dsimp only [Acts]
        rw [hnil]
        exact not_not.mpr rfl
    · exact .report hopen (if_pos hmem)
  | message m =>
    obtain ⟨s, _, rfl⟩ := Option.map_eq_some_iff.mp h
    exact .quiet rfl (by simp) fun ha => ha
  | learningMode on =>
    rw [step] at h
    obtain ⟨s, _, rfl⟩ := Option.map_eq_some_iff.mp h
    exact .quiet rfl (by simp) fun ha => ha

/-- **An action closes the gate.** -/
theorem acts_closes (h : d.step kafka e = some d') (ha : d.Acts d' e) :
    d.trigger.vCanStartEvaluationTimer = true ∧ d'.trigger.vCanStartEvaluationTimer = false := by
  cases step_gate h with
  | @trigger e _ hs =>
    cases e with
    | qOCCHopTimer | qOCCTimer => exact Trigger.step_closes hs rfl ha
    | _ => exact absurd ha id
  | measurement hs => exact absurd ha id
  | report hopen ht =>
    rw [ht]
    exact ⟨hopen, rfl⟩
  | quiet _ _ hn => exact absurd ha hn

/-- What holds of the gate along a run. -/
structure Gated (es : List DaemonEvent) (d : Daemon) : Prop where
  armed : d.trigger.vCanStartEvaluationTimer = false → d.trigger.qEvaluationTimerID.isSome = true
  twice : d.trigger.vTwiceInaRow = true → lastMeasurement es = some (0, 0)

theorem lastMeasurement_other (h : ∀ env tx rx, e ≠ .measurement env tx rx) :
    lastMeasurement (es ++ [e]) = lastMeasurement es := by
  cases e with
  | measurement env tx rx => exact absurd rfl (h env tx rx)
  | _ => simp [lastMeasurement]

theorem gated_step (h : Gated es d) (hs : d.step kafka e = some d') : Gated (es ++ [e]) d' := by
  cases step_gate hs with
  | trigger hm ht =>
    refine ⟨Trigger.step_armed ht h.armed, fun htwice => ?_⟩
    rw [lastMeasurement_other (by simp)]
    exact h.twice ((Trigger.step_twice ht hm).symm.trans htwice)
  | measurement ht =>
    refine ⟨Trigger.step_armed ht h.armed, fun htwice => ?_⟩
    obtain ⟨rfl, rfl⟩ := Trigger.step_measurement_twice ht htwice
    simp [lastMeasurement]
  | report _ ht =>
    refine ⟨fun _ => by rw [ht]; rfl, fun htwice => ?_⟩
    rw [lastMeasurement_other (by simp)]
    rw [ht] at htwice
    exact h.twice htwice
  | quiet ht hm _ =>
    refine ⟨by rw [ht]; exact h.armed, fun htwice => ?_⟩
    rw [lastMeasurement_other hm]
    exact h.twice (ht ▸ htwice)

theorem run_gated (h : Runs.run (step kafka) {} es = some d) : Gated es d :=
  Runs.history_inv (P := Gated) ⟨fun hc => absurd hc (by decide), fun ht => absurd ht (by decide)⟩
    (fun _ _ _ _ _ hg hs => gated_step hg hs) h

/-- **What opens the gate.** -/
theorem gate_opens (hg : Gated es d) (h : d.step kafka e = some d')
    (hc : d.trigger.vCanStartEvaluationTimer = false) (ho : d'.trigger.vCanStartEvaluationTimer = true) :
    Reopens es d d' e := by
  cases step_gate h with
  | trigger hm hs =>
    rcases Trigger.step_opens hs hc ho with rfl | ⟨rfl, -, -⟩
    · exact Or.inl rfl
    · exact absurd rfl (hm 0 0)
  | @measurement env tx rx hs =>
    rcases Trigger.step_opens hs hc ho with he | ⟨he, htwice, hnone⟩
    · cases he
    · cases he
      exact Or.inr ⟨⟨env, rfl⟩, hg.twice htwice, hg.armed hc, hnone⟩
  | report hopen _ =>
    rw [hopen] at hc
    cases hc
  | quiet ht _ _ =>
    rw [ht, hc] at ho
    cases ho

end Gate

/-- **Actions are gated**: between two congestion actions of a run the
evaluation timer expires, or an idle measurement after another one cancels it. -/
theorem actions_gated {kafka : Bool} {pre mid : List DaemonEvent} {a b : DaemonEvent} {d₁ d₁' d₂ d₂' : Daemon}
    (hpre : Runs.run (step kafka) {} pre = some d₁) (ha : d₁.step kafka a = some d₁') (hacts : d₁.Acts d₁' a)
    (hmid : Runs.run (step kafka) d₁' mid = some d₂) (hb : d₂.step kafka b = some d₂') (hacts' : d₂.Acts d₂' b) :
    ∃ es e fs d d', mid = es ++ e :: fs ∧ Runs.run (step kafka) d₁' es = some d ∧
      d.step kafka e = some d' ∧ Reopens (pre ++ a :: es) d d' e := by
  obtain ⟨-, hclosed⟩ := acts_closes ha hacts
  obtain ⟨hopen, -⟩ := acts_closes hb hacts'
  obtain ⟨es, e, fs, d, d', hsplit, hes, hs, hd, hd'⟩ :=
    Runs.exists_change (P := fun d => d.trigger.vCanStartEvaluationTimer = true) hmid (by simp [hclosed]) hopen
  have hrun : Runs.run (step kafka) {} (pre ++ a :: es) = some d := by
    rw [Runs.run_append, hpre, Option.bind_some]
    exact Option.bind_eq_some_iff.mpr ⟨d₁', ha, hes⟩
  exact ⟨es, e, fs, d, d', hsplit, hes, hs, gate_opens (run_gated hrun) hs (by simpa using hd) hd'⟩

/-- A QINFO, and the sample that asks for another once the timer has expired. -/
def qinfoSent : List DaemonEvent := [.trigger (sampleFrom 1 1000 900000), .trigger .qOCCHopTimer]
def qinfoAgain : List DaemonEvent := [.trigger .qEvaluationTimer, .trigger (sampleFrom 1 1000 900000)]

theorem actions_gated_qinfo : ∃ s, Runs.run (step false) {} qinfoSent = some s ∧
    ∃ es e fs d d', qinfoAgain = es ++ e :: fs ∧ Runs.run (step false) s es = some d ∧
      d.step false e = some d' ∧ Reopens (qinfoSent ++ es) d d' e := by
  refine ⟨_, rfl, ?_⟩
  refine @actions_gated false [.trigger (sampleFrom 1 1000 900000)] qinfoAgain (.trigger .qOCCHopTimer)
    (.trigger .qOCCHopTimer) _ _ _ _ rfl rfl ?_ rfl rfl ?_
  · show (_ : List Produce) ≠ _
    decide +kernel
  · show (_ : List Produce) ≠ _
    decide +kernel

end Daemon
end TuningMod

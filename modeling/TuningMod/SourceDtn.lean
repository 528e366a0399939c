/-
# A source DTN

The pacing handlers and the measurement thread as one system: its state is the
mode, the shared pacing record, what the measurement thread keeps, and the
commands run so far. A step is one message, one measurement or one switch of
the mode, handled to completion; the rates and settings a handler reads come
with its event and are arbitrary.

Key definitions: `SourceDtn`, `SourceEvent`, `SourceDtn.acts`, `SourceDtn.step`, `SourceDtn.lastTc`.
Key theorems: `performAll_adjusts`, `performAll_leavesPacing`, `run_channels`.
-/
import TuningMod.Measurement
import TuningMod.Lib.Runs

namespace TuningMod

structure SourceDtn where
  gTuningMode : Bool := false
  shm : SResetPacingBack := {}
  tuner : Tuner := {}
  ran : List Cmd := []
  deriving DecidableEq

inductive SourceEvent where
  | qinfo (env : PacingEnv) (hopDelay destIpAddr : UInt32)
  | resetPacing (env : PacingEnv) (destIpAddr : UInt32)
  | cleanupResetPacing
  | kafka (env : PacingEnv) (residualBandwidth : ℕ)
  | measurement (env : MeasureEnv) (txKbitsPerSec rxKbitsPerSec : ℕ)
  /-- '-l on' or '-l off' -/
  | learningMode (on : Bool)

/-- The messages of a destination that adjust the pacing. -/
inductive PacingMsg where
  | qinfo (env : PacingEnv) (hopDelay destIpAddr : UInt32)
  | resetPacing (env : PacingEnv) (destIpAddr : UInt32)
  | cleanupResetPacing
  deriving DecidableEq

/-- The event of a source at which a message is handled. -/
def PacingMsg.event : PacingMsg → SourceEvent
  | .qinfo env hopDelay destIpAddr => .qinfo env hopDelay destIpAddr
  | .resetPacing env destIpAddr => .resetPacing env destIpAddr
  | .cleanupResetPacing => .cleanupResetPacing

/-- What the handler of a message does with the record it read. -/
def PacingMsg.acts (gTuningMode : Bool) (r : SResetPacingBack) : PacingMsg → List Action
  | .qinfo env hopDelay destIpAddr => fDoQinfoAssessment2 gTuningMode r env hopDelay destIpAddr
  | .resetPacing env destIpAddr => fDoResetPacing2 gTuningMode r env destIpAddr
  | .cleanupResetPacing => fDoCleanupResetPacing2 gTuningMode r

namespace SourceDtn

/-! ### Steps -/

def perform (s : SourceDtn) : Action → SourceDtn
  | .system c => { s with ran := s.ran ++ [c] }
  | .shmWrite r => { s with shm := r }
  | .fStartEvaluationTimer | .csvRow _ | .recordActivity _ => s

def performAll (s : SourceDtn) (acts : List Action) : SourceDtn := acts.foldl perform s

/-- What the handler of an event does. -/
def acts (s : SourceDtn) : SourceEvent → List Action
  | .qinfo env hopDelay destIpAddr => fDoQinfoAssessment2 s.gTuningMode s.shm env hopDelay destIpAddr
  | .resetPacing env destIpAddr => fDoResetPacing2 s.gTuningMode s.shm env destIpAddr
  | .cleanupResetPacing => fDoCleanupResetPacing2 s.gTuningMode s.shm
  | .kafka env residualBandwidth => fDoQinfoAssessmentKafka s.gTuningMode s.shm env residualBandwidth
  | .measurement env tx rx =>
    (if tx = 0 ∧ rx = 0 then idleReset s.gTuningMode s.shm else []) ++
      (s.tuner.measure s.gTuningMode env tx rx).2
  | .learningMode _ => []

def step (s : SourceDtn) (e : SourceEvent) : Option SourceDtn :=
  let s' := s.performAll (s.acts e)
  match e with
  | .measurement env tx rx => some { s' with tuner := (s.tuner.measure s.gTuningMode env tx rx).1 }
  | .learningMode on => some { s' with gTuningMode := !on }
  | _ => some s'

/-- The last `tc` command run. -/
def lastTc (s : SourceDtn) : Option TcCmd := (s.ran.filterMap Cmd.tc?).getLast?

/-! ### What a step does -/

section Step

variable {s s' : SourceDtn} {e : SourceEvent} {as : List Action}

theorem step_shm (h : s.step e = some s') : s'.shm = (s.performAll (s.acts e)).shm := by
  cases e <;> cases h <;> rfl

theorem step_ran (h : s.step e = some s') : s'.ran = (s.performAll (s.acts e)).ran := by
  cases e <;> cases h <;> rfl

theorem step_lastTc (h : s.step e = some s') : s'.lastTc = (s.performAll (s.acts e)).lastTc := by
  rw [lastTc, step_ran h, lastTc]

theorem performAll_append (bs : List Action) :
    s.performAll (as ++ bs) = (s.performAll as).performAll bs := by
  simp [performAll]

/-- A handler that adjusts the pacing leaves its command and its record. -/
theorem performAll_adjusts {c : TcCmd} {r : SResetPacingBack} (h : Adjusts c r as) :
    (s.performAll as).shm = r ∧ (s.performAll as).lastTc = some c := by
  cases h <;> simp [performAll, perform, lastTc, Cmd.tc?]

theorem step_adjusts {c : TcCmd} {r : SResetPacingBack} (h : Adjusts c r (s.acts e))
    (hs : s.step e = some s') : s'.shm = r ∧ s'.lastTc = some c := by
  rw [step_shm hs, step_lastTc hs]
  exact performAll_adjusts h

theorem perform_leavesPacing {a : Action} (h : (∀ c, a ≠ .system (.tc c)) ∧ ∀ r, a ≠ .shmWrite r) :
    (s.perform a).shm = s.shm ∧ (s.perform a).lastTc = s.lastTc := by
  cases a with
  | system c =>
    cases c with
    | tc c => exact absurd rfl (h.1 c)
    | _ => simp [perform, lastTc, Cmd.tc?]
  | shmWrite r => exact absurd rfl (h.2 r)
  | _ => exact ⟨rfl, rfl⟩

theorem performAll_leavesPacing (h : Tuner.LeavesPacing as) :
    (s.performAll as).shm = s.shm ∧ (s.performAll as).lastTc = s.lastTc := by
  induction as generalizing s with
  | nil => exact ⟨rfl, rfl⟩
  | cons a as ih =>
    obtain ⟨h1, h2⟩ := perform_leavesPacing (s := s) (h a List.mem_cons_self)
    obtain ⟨i1, i2⟩ := ih (s := s.perform a) fun b hb => h b (List.mem_cons_of_mem _ hb)
    exact ⟨i1.trans h1, i2.trans h2⟩

theorem performAll_tuner : (s.performAll as).tuner = s.tuner := by
  induction as generalizing s with
  | nil => rfl
  | cons a as ih => exact ih.trans (by cases a <;> rfl)

theorem performAll_gTuningMode : (s.performAll as).gTuningMode = s.gTuningMode := by
  induction as generalizing s with
  | nil => rfl
  | cons a as ih => exact ih.trans (by cases a <;> rfl)

theorem step_channels (h : s.tuner.vDidSetChannel = false) (hs : s.step e = some s') :
    s'.tuner.vDidSetChannel = false := by
  cases e with
  | measurement env tx rx =>
    cases hs
    exact Tuner.measure_vDidSetChannel h
  | _ =>
    cases hs
    exact (congrArg Tuner.vDidSetChannel performAll_tuner).trans h

/-- The channels are never set. -/
theorem run_channels {es : List SourceEvent} (h : Runs.run step {} es = some s) :
    s.tuner.vDidSetChannel = false :=
  Runs.history_inv (P := fun _ s => s.tuner.vDidSetChannel = false) rfl
    (fun _ _ _ _ _ hp hs => step_channels hp hs) h

end Step

/-- A destination 10.0.0.9, and a retransmission rate above the threshold. -/
def congestedEnv (vGlobalAverageTxGbitsPerSec : ℚ) : PacingEnv where
  netDeviceSpeed := 40000
  vGlobalAverageTxGbitsPerSec := vGlobalAverageTxGbitsPerSec
  vGlobalRetransmissionRate := 2
  vRetransmissionRateThreshold := 1
  aDestDtnIPs := [0x0900000a]

end SourceDtn
end TuningMod

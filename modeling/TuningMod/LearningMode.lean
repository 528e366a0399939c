/-
# Learning mode

While `gTuningMode` is 0 the handlers and the measurement thread change
nothing: the record stays as it is, and the only command they run is
`sysctl net.ipv4.tcp_wmem`, with which `check_if_bitrate_too_low` reads the
limits for its suggestion. The channel restore of the measurement thread does
not test the mode, but the channels are never set.

Key definitions: `Untouched`.
Key theorems: `acts_learning`, `learning_step`, `learning_mode`.
-/
import TuningMod.SourceDtn

namespace TuningMod
namespace SourceDtn

/-- From `s` to `s'` the record is kept and no command is run that changes a setting. -/
def Untouched (s s' : SourceDtn) : Prop :=
  s'.shm = s.shm ∧ ∃ reads, s'.ran = s.ran ++ reads ∧ ∀ c ∈ reads, c = .sysctlReadWmem

section Learning

variable {s s' s'' : SourceDtn} {e : SourceEvent} {as : List Action}

theorem Untouched.refl (s : SourceDtn) : Untouched s s := ⟨rfl, [], by simp, by simp⟩

theorem Untouched.trans (h : Untouched s s') (h' : Untouched s' s'') : Untouched s s'' := by
  obtain ⟨hshm, reads, hran, hall⟩ := h
  obtain ⟨hshm', reads', hran', hall'⟩ := h'
  have hboth : s''.ran = s.ran ++ (reads ++ reads') := by rw [hran', hran, List.append_assoc]
  refine ⟨hshm'.trans hshm, reads ++ reads', hboth, fun c hc => ?_⟩
  rcases List.mem_append.mp hc with hc | hc
  · exact hall c hc
  · exact hall' c hc

theorem performAll_onlyReads (h : Tuner.OnlyReads as) : Untouched s (s.performAll as) := by
  induction as generalizing s with
  | nil => exact .refl s
  | cons a as ih =>
    have ha : a = .system .sysctlReadWmem := h a List.mem_cons_self
    have hstep : Untouched s (s.perform a) := by
      rw [ha]
      exact ⟨rfl, [.sysctlReadWmem], rfl, fun c hc => List.mem_singleton.mp hc⟩
    exact hstep.trans (ih fun b hb => h b (List.mem_cons_of_mem _ hb))

/-- In learning mode an event's handler only reads. -/
theorem acts_learning (hl : s.gTuningMode = false) (hch : s.tuner.vDidSetChannel = false)
    (e : SourceEvent) : Tuner.OnlyReads (s.acts e) := by
  unfold acts
  rw [hl]
  cases e with
  | qinfo env hopDelay destIpAddr =>
    show Tuner.OnlyReads (fDoQinfoAssessment2 false s.shm env hopDelay destIpAddr)
    rw [qinfo_learning]
    exact Tuner.onlyReads_nil
  | resetPacing env destIpAddr =>
    show Tuner.OnlyReads (fDoResetPacing2 false s.shm env destIpAddr)
    rw [resetPacing_learning]
    exact Tuner.onlyReads_nil
  | cleanupResetPacing =>
    show Tuner.OnlyReads (giveUpPacing false s.shm)
    rw [giveUpPacing_learning]
    exact Tuner.onlyReads_nil
  | kafka env residualBandwidth =>
    show Tuner.OnlyReads (fDoQinfoAssessmentKafka false s.shm env residualBandwidth)
    rw [kafka_learning]
    exact Tuner.onlyReads_nil
  | measurement env tx rx =>
    show Tuner.OnlyReads ((if tx = 0 ∧ rx = 0 then giveUpPacing false s.shm else []) ++
      (s.tuner.measure false env tx rx).2)
    rw [giveUpPacing_learning, ite_self, List.nil_append]
    exact Tuner.measure_learning hch
  | learningMode on => exact Tuner.onlyReads_nil

theorem learning_step (hl : s.gTuningMode = false) (hch : s.tuner.vDidSetChannel = false)
    (hs : s.step e = some s') : Untouched s s' := by
  obtain ⟨hshm, reads, hran, hall⟩ := performAll_onlyReads (s := s) (acts_learning hl hch e)
  exact ⟨(step_shm hs).trans hshm, reads, (step_ran hs).trans hran, hall⟩

/-- Only '-l off' ends learning mode. -/
theorem learning_segment (hl : s.gTuningMode = false) {seg : List SourceEvent}
    (h : ∀ e ∈ seg, e ≠ .learningMode false) :
    Runs.Always step s (fun _ t => t.gTuningMode = false) seg := by
  refine Runs.always_of_steps (C := fun _ _ e => e ≠ .learningMode false) hl
    (fun _ t e t' _ ht he hs => ?_) (fun pre e suf _ _ hseg _ _ => h e (by rw [hseg]; simp))
  cases e with
  | learningMode on =>
    cases on
    · exact absurd rfl he
    · cases hs
      rfl
  | measurement env tx rx =>
    cases hs
    exact performAll_gTuningMode.trans ht
  | _ =>
    cases hs
    exact performAll_gTuningMode.trans ht

end Learning

/-- **Learning mode changes nothing.** Over every segment of a run in which
`gTuningMode` is 0 in every state, the record is kept and the only command run
is the one that reads `net.ipv4.tcp_wmem`. -/
theorem learning_mode {pre seg : List SourceEvent} {s s' : SourceDtn}
    (hpre : Runs.run step {} pre = some s)
    (hlearning : Runs.Always step s (fun _ t => t.gTuningMode = false) seg)
    (hseg : Runs.run step s seg = some s') : Untouched s s' := by
  have h0 : Untouched s s ∧ s.tuner.vDidSetChannel = false := ⟨.refl s, run_channels hpre⟩
  have hinv : Runs.Always step s (fun _ t => Untouched s t ∧ t.tuner.vDidSetChannel = false) seg := by
    refine Runs.always_of_steps h0 (fun _ t e t' _ h hl hs => ?_) hlearning.steps
    exact ⟨h.1.trans (learning_step hl h.2 hs), step_channels h.2 hs⟩
  exact (hinv.last hseg).1

/-- Pacing set up in tuning mode, then learning mode. -/
def pacedThenLearning : List SourceEvent :=
  [.learningMode false, .qinfo (congestedEnv 10) 5 0x0900000a, .learningMode true]

def slowEnv : MeasureEnv where
  netDeviceSpeed := 40000
  vGoodBitrateValue := 388 / 10
  myTuneMax := 67108864
  wmem := some { kminimum := 4096, kdefault := 16384, kmaximum := 4194304 }

/-- A QINFO, an idle link and a slow link in learning mode. -/
def learningEvents : List SourceEvent :=
  [.qinfo (congestedEnv 20) 5 0x0900000a, .measurement slowEnv 0 0, .measurement slowEnv 2000000 0]

theorem learning_mode_paced : ∃ s s', Runs.run step {} pacedThenLearning = some s ∧
    Runs.run step s learningEvents = some s' ∧ s.shm.set = regularPacingFlagSet ∧ Untouched s s' := by
  refine ⟨_, _, rfl, rfl, by decide +kernel, ?_⟩
  refine @learning_mode pacedThenLearning learningEvents _ _ rfl (learning_segment rfl ?_) rfl
  simp [learningEvents]

/-- On a slow link learning mode does run a `sysctl` command. -/
theorem learning_mode_reads : Runs.Always step {} (fun _ t => t.gTuningMode = false) [.measurement slowEnv 2000000 0] ∧
    ∃ s', Runs.run step {} [.measurement slowEnv 2000000 0] = some s' ∧ s'.ran = [.sysctlReadWmem] :=
  ⟨learning_segment rfl (by simp), _, rfl, by decide +kernel⟩

end SourceDtn
end TuningMod

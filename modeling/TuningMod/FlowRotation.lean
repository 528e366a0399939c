/-
# When a flow begins

A flow begins when a measurement has received traffic and the one before had
none. The test is at the end of the loop of `fDoRunGetThresholds`, on
`rx_traffic`, and a measurement in which the tuner waits jumps past it: what
begins then is not seen, and `rx_traffic` keeps what it was. The first traffic
only clears `vFirstTimeThru`.

Key definitions: `FlowThread.measured`, `FlowThread.step`, `Begins`, `Rotated`, `Counts`, `Missed`.
Key theorems: `measured_read`, `newTraffic_rotated`, `agrees_step`, `counts_iff`.
-/
import TuningMod.Activities
import TuningMod.Bitrate

namespace TuningMod

/-- A measurement: the mode, what it reads, and the rates of the last second. -/
structure RateMeasurement where
  gTuningMode : Bool
  env : MeasureEnv
  txKbitsPerSec : ℕ
  rxKbitsPerSec : ℕ

/-- The tuner, `rx_traffic`, and the flows. -/
structure FlowThread where
  tuner : Tuner := {}
  rxTraffic : Bool := false
  activities : Activities := {}

inductive FlowEvent where
  | measure (m : RateMeasurement)
  | record (a : Activity)

namespace FlowThread

/-- The measurement ends at `ck_stage`, in front of which traffic is looked at. -/
def jumps (s : FlowThread) (m : RateMeasurement) : Bool := s.tuner.jumps m.env m.txKbitsPerSec

/-- A measurement, with `rx_traffic` and the flows at its end. -/
def measured (s : FlowThread) (m : RateMeasurement) : FlowThread where
  tuner := (s.tuner.measure m.gTuningMode m.env m.txKbitsPerSec m.rxKbitsPerSec).1
  rxTraffic := if s.jumps m then s.rxTraffic else m.rxKbitsPerSec ≠ 0
  activities :=
    if s.jumps m = false ∧ m.rxKbitsPerSec ≠ 0 ∧ s.rxTraffic = false then s.activities.newTraffic else s.activities

/-- Activities are recorded by other threads, and by the tuner. -/
def step (s : FlowThread) : FlowEvent → Option FlowThread
  | .measure m => some (s.measured m)
  | .record a => (s.activities.recordActivity a).map fun activities => { s with activities := activities }

/-- The rates of a reading of the byte counters. -/
theorem measured_read (gTuningMode : Bool) (env : NicEnv) (s : BitrateThread) (r : ByteReading)
    (activities : Activities) :
    let t := measured ⟨s.tuner, s.rxTraffic, activities⟩
      ⟨gTuningMode, env.toMeasureEnv, r.txKbitsPerSec.toNat, r.rxKbitsPerSec.toNat⟩
    (s.read gTuningMode env r).tuner = t.tuner ∧ (s.read gTuningMode env r).rxTraffic = t.rxTraffic := by
  refine ⟨rfl, ?_⟩
  have hzero : r.rxKbitsPerSec ≠ 0 ↔ r.rxKbitsPerSec.toNat ≠ 0 := by
    rw [ne_eq, ← UInt64.toNat_inj]
    rfl
  unfold BitrateThread.read measured jumps
  dsimp only
  by_cases hjump : s.tuner.jumps env.toMeasureEnv r.txKbitsPerSec.toNat = true
  · rw [if_pos hjump, if_pos hjump]
  · rw [if_neg hjump, if_neg hjump]
    exact decide_eq_decide.mpr hzero

/-! ### What is to be counted -/

/-- The measurements among the events. -/
def measurements (es : List FlowEvent) : List RateMeasurement :=
  es.filterMap fun
    | .measure m => some m
    | .record _ => none

/-- The last measurement had received traffic. -/
def Receiving (es : List FlowEvent) : Prop := ∃ m ∈ (measurements es).getLast?, m.rxKbitsPerSec ≠ 0

/-- A flow begins that is not the first one. -/
def Begins (es : List FlowEvent) (m : RateMeasurement) : Prop :=
  m.rxKbitsPerSec ≠ 0 ∧ ¬ Receiving es ∧ ∃ earlier ∈ measurements es, earlier.rxKbitsPerSec ≠ 0

/-- The next slot's turn: it is cleared, and the others are as they were. -/
structure Rotated (a b : Activities) : Prop where
  count : b.vFlowCount = (a.vFlowCount + 1) % numOfFlowsToKeepTrackOf
  cleared : ∀ h : b.vFlowCount < numOfFlowsToKeepTrackOf,
    (b.sFlowCounters[b.vFlowCount]).numTuningActivities = 0 ∧ (b.sFlowCounters[b.vFlowCount]).gFlowCountUsed = false
  others : ∀ g (hg : g < numOfFlowsToKeepTrackOf), g ≠ b.vFlowCount → b.sFlowCounters[g] = a.sFlowCounters[g]

/-- A measurement takes the next slot if a flow begins, and changes no flow if
none does. -/
def Counts (es : List FlowEvent) (s : FlowThread) : FlowEvent → Prop
  | .measure m =>
    (Begins es m → Rotated s.activities (s.measured m).activities) ∧
      (¬ Begins es m → (s.measured m).activities.vFlowCount = s.activities.vFlowCount ∧
        (s.measured m).activities.sFlowCounters = s.activities.sFlowCounters)
  | .record _ => True

/-- A flow begins while the tuner waits, or `rx_traffic` or `vFirstTimeThru` is
still set because it waited before. -/
def Missed (es : List FlowEvent) (s : FlowThread) : FlowEvent → Prop
  | .measure m => Begins es m ∧ (s.jumps m = true ∨ s.rxTraffic = true ∨ s.activities.vFirstTimeThru = true)
  | .record _ => False

/-! ### The flows and the measurements -/

section Steps

variable {s t : FlowThread} {es : List FlowEvent} {m : RateMeasurement} {a : Activities}

theorem measurements_measure : measurements (es ++ [.measure m]) = measurements es ++ [m] := by
  simp [measurements]

theorem measurements_record {act : Activity} : measurements (es ++ [.record act]) = measurements es := by
  simp [measurements]

theorem receiving_measure : Receiving (es ++ [.measure m]) ↔ m.rxKbitsPerSec ≠ 0 := by
  unfold Receiving
  rw [measurements_measure, List.getLast?_concat]
  simp

/-- The slot whose turn it is, cleared. -/
theorem rotated_setFlow {t : Activities} (hcount : t.vFlowCount = (a.vFlowCount + 1) % numOfFlowsToKeepTrackOf)
    (hslots : t.sFlowCounters = a.sFlowCounters) :
    Rotated a (t.setFlow { t.flow with numTuningActivities := 0, gFlowCountUsed := false }) where
  count := hcount
  cleared h := by
    have hself : (t.setFlow { t.flow with numTuningActivities := 0, gFlowCountUsed := false }).sFlowCounters[
        t.vFlowCount] = { t.flow with numTuningActivities := 0, gFlowCountUsed := false } :=
      Vector.getElem_setIfInBounds_self h
    exact ⟨congrArg FlowCounters.numTuningActivities hself, congrArg FlowCounters.gFlowCountUsed hself⟩
  others g hg hne := by
    rw [← hslots]
    exact Vector.getElem_setIfInBounds_ne hg (Ne.symm hne)

/-- After the first traffic a new one takes the next slot. -/
theorem newTraffic_rotated (h : a.vFlowCount < numOfFlowsToKeepTrackOf) (hf : a.vFirstTimeThru = false) :
    Rotated a a.newTraffic := by
  unfold Activities.newTraffic
  rw [if_neg (by simp [hf])]
  by_cases hv : a.vFlowCount + 1 = numOfFlowsToKeepTrackOf
  · rw [if_pos hv]
    exact rotated_setFlow (by rw [hv, Nat.mod_self]) rfl
  · have hlt : a.vFlowCount + 1 < numOfFlowsToKeepTrackOf := by omega
    rw [if_neg hv]
    exact rotated_setFlow (Nat.mod_eq_of_lt hlt).symm rfl

/-- A slot's turn is not its own next. -/
theorem Rotated.moves {b : Activities} (h : Rotated a b) :
    b.vFlowCount ≠ a.vFlowCount ∧ b.vFlowCount < numOfFlowsToKeepTrackOf := by
  have hcount := h.count
  unfold numOfFlowsToKeepTrackOf at *
  omega

/-- What the flags say of the measurements so far, as long as no flow is missed. -/
structure Agrees (es : List FlowEvent) (s : FlowThread) : Prop where
  count_lt : s.activities.vFlowCount < numOfFlowsToKeepTrackOf
  first : s.activities.vFirstTimeThru = false → ∃ m ∈ measurements es, m.rxKbitsPerSec ≠ 0
  receiving : s.activities.vFirstTimeThru = false → Receiving es → s.rxTraffic = true

theorem agrees_initial : Agrees [] {} where
  count_lt := by decide
  first h := by cases h
  receiving h := by cases h

/-- The flows after a measurement: a new one, or those there were. -/
theorem measured_cases (s : FlowThread) (m : RateMeasurement) :
    ((s.jumps m = false ∧ m.rxKbitsPerSec ≠ 0 ∧ s.rxTraffic = false) ∧
        (s.measured m).activities = s.activities.newTraffic) ∨
      (¬ (s.jumps m = false ∧ m.rxKbitsPerSec ≠ 0 ∧ s.rxTraffic = false) ∧
        (s.measured m).activities = s.activities) := by
  unfold measured
  by_cases hnew : s.jumps m = false ∧ m.rxKbitsPerSec ≠ 0 ∧ s.rxTraffic = false
  · exact .inl ⟨hnew, if_pos hnew⟩
  · exact .inr ⟨hnew, if_neg hnew⟩

/-- The first traffic changes no flow. -/
theorem newTraffic_first (hf : a.vFirstTimeThru = true) : a.newTraffic = { a with vFirstTimeThru := false } := by
  rw [Activities.newTraffic, if_pos hf]

theorem newTraffic_flags (h : a.vFlowCount < numOfFlowsToKeepTrackOf) :
    a.newTraffic.vFlowCount < numOfFlowsToKeepTrackOf ∧ a.newTraffic.vFirstTimeThru = false := by
  by_cases hf : a.vFirstTimeThru = true
  · rw [newTraffic_first hf]
    exact ⟨h, rfl⟩
  · have hf' : a.vFirstTimeThru = false := by simpa using hf
    refine ⟨(newTraffic_rotated h hf').moves.2, ?_⟩
    unfold Activities.newTraffic
    rw [if_neg hf]
    dsimp only [Activities.setFlow]
    split_ifs <;> exact hf'

theorem agrees_record {act : Activity} (h : Agrees es s) (hs : s.step (.record act) = some t) :
    Agrees (es ++ [.record act]) t := by
  obtain ⟨u, hu, rfl⟩ := Option.map_eq_some_iff.mp hs
  obtain ⟨-, rfl⟩ := Activities.step_record.mp hu
  have hreceiving : Receiving (es ++ [.record act]) ↔ Receiving es := by
    unfold Receiving
    rw [measurements_record]
  refine ⟨h.count_lt, ?_, ?_⟩
  · rw [measurements_record]
    exact h.first
  · rw [hreceiving]
    exact h.receiving

/-- A measurement that misses no flow. -/
theorem agrees_measure (h : Agrees es s) (hm : ¬ Missed es s (.measure m)) :
    Agrees (es ++ [.measure m]) (s.measured m) := by
  have hmem : ∀ {x : RateMeasurement}, x ∈ measurements es → x ∈ measurements (es ++ [.measure m]) := by
    intro x hx
    rw [measurements_measure]
    exact List.mem_append_left _ hx
  rcases s.measured_cases m with ⟨⟨hjump, hrx, -⟩, hnew⟩ | ⟨hnot, hsame⟩
  · have hflags := newTraffic_flags h.count_lt
    refine ⟨by rw [hnew]; exact hflags.1, fun _ => ⟨m, ?_, hrx⟩, fun _ _ => ?_⟩
    · rw [measurements_measure]
      exact List.mem_append_right _ (List.mem_singleton_self m)
    · unfold measured
      simp [hjump, hrx]
  · refine ⟨by rw [hsame]; exact h.count_lt, fun hf => ?_, fun hf hr => ?_⟩
    · rw [hsame] at hf
      obtain ⟨x, hx, hne⟩ := h.first hf
      exact ⟨x, hmem hx, hne⟩
    · rw [hsame] at hf
      have hrx := receiving_measure.mp hr
      unfold measured
      dsimp only
      cases hjump : s.jumps m with
      | false => simpa using hrx
      | true =>
        -- the flag is what it was: the measurement is not the first of its flow
        refine h.receiving hf ?_
        by_contra hquiet
        exact hm ⟨⟨hrx, hquiet, h.first hf⟩, .inl hjump⟩

/-- **One event** that misses no flow. -/
theorem agrees_step {e : FlowEvent} (h : Agrees es s) (hm : ¬ Missed es s e) (hs : s.step e = some t) :
    Agrees (es ++ [e]) t := by
  cases e with
  | measure m =>
    obtain rfl := Option.some.inj hs
    exact agrees_measure h hm
  | record act => exact agrees_record h hs

theorem counts_of_agrees {e : FlowEvent} (h : Agrees es s) (hm : ¬ Missed es s e) : Counts es s e := by
  cases e with
  | record act => trivial
  | measure m =>
    rcases s.measured_cases m with ⟨⟨hjump, hrx, hflag⟩, hnew⟩ | ⟨hnot, hsame⟩
    · simp only [Counts, hnew]
      by_cases hf : s.activities.vFirstTimeThru = true
      · refine ⟨fun hb => absurd ⟨hb, .inr (.inr hf)⟩ hm, fun _ => ?_⟩
        rw [newTraffic_first hf]
        exact ⟨rfl, rfl⟩
      · have hf' : s.activities.vFirstTimeThru = false := by simpa using hf
        refine ⟨fun _ => newTraffic_rotated h.count_lt hf', fun hno => absurd ⟨hrx, fun hr => ?_, h.first hf'⟩ hno⟩
        rw [h.receiving hf' hr] at hflag
        cases hflag
    · refine ⟨fun hb => ?_, fun _ => by rw [hsame]; exact ⟨rfl, rfl⟩⟩
      refine absurd ⟨?_, hb.1, ?_⟩ hnot
      · by_contra hjump
        exact hm ⟨hb, .inl (by simpa using hjump)⟩
      · by_contra hflag
        exact hm ⟨hb, .inr (.inl (by simpa using hflag))⟩

/-- A flow that is missed is not counted. -/
theorem not_counts_of_missed {e : FlowEvent} (hm : Missed es s e) : ¬ Counts es s e := by
  cases e with
  | record act => exact absurd hm not_false
  | measure m =>
    intro hc
    obtain ⟨hbegins, hflags⟩ := hm
    refine (hc.1 hbegins).moves.1 ?_
    rcases s.measured_cases m with ⟨⟨hjump, -, hflag⟩, hnew⟩ | ⟨-, hsame⟩
    · rw [hjump, hflag] at hflags
      have hf : s.activities.vFirstTimeThru = true := by simpa using hflags
      rw [hnew, newTraffic_first hf]
    · rw [hsame]

end Steps

/-- **Flows are counted by transitions of the traffic** in exactly the runs in
which none is missed. -/
theorem counts_iff (es : List FlowEvent) :
    Runs.Steps step {} Counts es ↔ Runs.Steps step {} (fun es s e => ¬ Missed es s e) es :=
  Runs.steps_iff_steps agrees_initial (fun _ _ _ _ _ h hm hs => agrees_step h hm hs)
    (fun _ _ _ _ h hm _ => counts_of_agrees h hm)
    (fun _ _ _ _ _ hm _ => not_counts_of_missed (not_not.mp hm)) es

/-- A host whose limit is at the maximum, so that there is nothing to do. -/
def atMaximum (txKbitsPerSec rxKbitsPerSec : ℕ) : RateMeasurement where
  gTuningMode := true
  env := {
    netDeviceSpeed := 10000
    vGoodBitrateValue := 97 / 10
    myTuneMax := 1147483647
    wmem := some ⟨4096, 16384, 1147483647⟩ }
  txKbitsPerSec := txKbitsPerSec
  rxKbitsPerSec := rxKbitsPerSec

/-- A second without traffic, received traffic, and a second in which the host only sends. -/
def onceReceived : List FlowEvent :=
  [.measure (atMaximum 0 0), .measure (atMaximum 0 1), .measure (atMaximum 9000000 0)]

/-- The tuner waits through the second flow. -/
theorem counts_waiting : ¬ Runs.Steps step {} Counts (onceReceived ++ [.measure (atMaximum 9000000 1)]) := by
  intro h
  have hbegins : Begins onceReceived (atMaximum 9000000 1) := by
    refine ⟨by decide, ?_, atMaximum 0 1, List.mem_cons_of_mem _ List.mem_cons_self, by decide⟩
    simp [Receiving, measurements, onceReceived, atMaximum]
  have hrun : (Runs.run step {} onceReceived).any (fun s => s.activities.vFlowCount = 0 ∧
      (s.measured (atMaximum 9000000 1)).activities.vFlowCount = 0) = true := by decide +kernel
  cases hr : Runs.run step {} onceReceived with
  | none =>
    rw [hr] at hrun
    cases hrun
  | some s =>
    rw [hr, Option.any_some, decide_eq_true_eq] at hrun
    have hrotated := (h onceReceived (.measure (atMaximum 9000000 1)) [] s _ rfl hr rfl).1 hbegins
    exact hrotated.moves.1 (hrun.2.trans hrun.1.symm)

end FlowThread
end TuningMod

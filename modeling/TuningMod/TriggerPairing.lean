/-
# QINFO and RESET messages of a destination DTN

`vSentPacingOver` is one flag for all sources, and a RESET_PACING or CLEANUP
goes to the source of the last sample. Every release goes to a source with an
outstanding QINFO, and the flag is clear only when no QINFO is outstanding,
exactly if whenever a release is sent, every QINFO since the previous release
went to the source it is sent to.

Key definitions: `Produce.entry`, `SourcesPaired`, `ReleasesAll`.
Key theorems: `release_step`, `sources_paired`.
-/
import TuningMod.Lib.Pairing
import TuningMod.Lib.Runs
import TuningMod.TriggerSends

namespace TuningMod

/-- A QINFO asks a source to pace, a RESET_PACING or CLEANUP releases it. -/
def Produce.entry : Produce → Entry UInt32
  | .qOCCHopTimerIDHandler d => .request d.srcIpAddr
  | .qOCCTimerIDHandler d => .request d.srcIpAddr
  | .sendResetPacingMsg k => .release (ntohl k.flowKey.srcIp)
  | .sendResetCleanUpPacingMsg a => .release a
  | .startOfTraffic _ => .other

namespace Trigger

open Entry

/-- The requests and releases sent so far. -/
def log (t : Trigger) : List (Entry UInt32) := t.sent.map Produce.entry

/-- Releases go to sources with an outstanding QINFO, and with the flag clear
no QINFO is outstanding. -/
def SourcesPaired (t : Trigger) : Prop :=
  Paired t.log ∧ (t.vSentPacingOver = false → ∀ a, ¬ Outstanding t.log a)

/-- If the step sends a release, every QINFO since the previous release went to
the source it is sent to. -/
def ReleasesAll (t : Trigger) (e : TriggerEvent) : Prop :=
  ∀ m a, t.released e = some m → m.entry = .release a → ∀ b ∈ sinceRelease t.log, b = a

/-- The flag stands for the QINFOs since the last release, and no other is outstanding. -/
structure FlagStands (t : Trigger) : Prop where
  paired : Paired t.log
  since : ∀ a, Outstanding t.log a ↔ a ∈ sinceRelease t.log
  flag : t.vSentPacingOver = true ↔ sinceRelease t.log ≠ []

section Step

variable {t t' : Trigger} {e : TriggerEvent} {m : Produce}

theorem log_snoc (h : t'.sent = t.sent ++ [m]) : t'.log = t.log ++ [m.entry] := by
  rw [log, h, List.map_append]
  rfl

theorem congestionMsg_entry (h : t.congestionMsg e = some m) : ∃ a, m.entry = .request a := by
  cases e with
  | qOCCHopTimer =>
    obtain ⟨_, hm⟩ := Option.ite_none_right_eq_some.mp h
    obtain rfl := Option.some.inj hm
    exact ⟨_, rfl⟩
  | qOCCTimer =>
    obtain ⟨_, hm⟩ := Option.ite_none_right_eq_some.mp h
    obtain rfl := Option.some.inj hm
    exact ⟨_, rfl⟩
  | _ => cases h

theorem released_entry (h : t.released e = some m) : ∃ a, m.entry = .release a := by
  cases e with
  | sample k md =>
    obtain ⟨_, hm⟩ := Option.ite_none_right_eq_some.mp h
    obtain rfl := Option.some.inj hm
    exact ⟨_, rfl⟩
  | measurement tx rx =>
    obtain ⟨_, hm⟩ := Option.ite_none_right_eq_some.mp h
    obtain rfl := Option.some.inj hm
    exact ⟨_, rfl⟩
  | _ => cases h

theorem flagStands_initial : FlagStands {} where
  paired := paired_nil
  since a := by simpa [sinceRelease, log] using not_outstanding_nil a
  flag := by simp [sinceRelease, log]

theorem FlagStands.sourcesPaired (h : FlagStands t) : SourcesPaired t := by
  refine ⟨h.paired, fun hf a ha => ?_⟩
  have hne : sinceRelease t.log ≠ [] := List.ne_nil_of_mem ((h.since a).mp ha)
  rw [← h.flag, hf] at hne
  exact Bool.false_ne_true hne

/-- A step that sends nothing and leaves the flag keeps what the flag stands for. -/
theorem FlagStands.quiet (h : FlagStands t) (hs : t'.sent = t.sent)
    (hf : t'.vSentPacingOver = t.vSentPacingOver) : FlagStands t' := by
  have hl : t'.log = t.log := by rw [log, hs, log]
  have hflag : t'.vSentPacingOver = true ↔ sinceRelease t'.log ≠ [] := by
    rw [hf, hl]
    exact h.flag
  exact ⟨hl ▸ h.paired, hl ▸ h.since, hflag⟩

/-- A QINFO is one more address the flag stands for. -/
theorem FlagStands.request {a : UInt32} (h : FlagStands t) (hm : m.entry = .request a)
    (hs : t'.sent = t.sent ++ [m]) (hf : t'.vSentPacingOver = true) : FlagStands t' := by
  have hl := log_snoc hs
  rw [hm] at hl
  refine ⟨?_, fun b => ?_, ?_⟩
  · rw [hl, paired_snoc]
    exact ⟨h.paired, fun b hb => by cases hb⟩
  · rw [hl, outstanding_snoc, sinceRelease_snoc, List.mem_append, List.mem_singleton, h.since]
    constructor
    · rintro (hb | ⟨hb, _⟩)
      · cases hb
        exact Or.inr rfl
      · exact Or.inl hb
    · rintro (hb | rfl)
      · exact Or.inr ⟨hb, by simp⟩
      · exact Or.inl rfl
  · rw [hl, sinceRelease_snoc]
    simp [hf]

/-- A release to the only address the flag stands for. -/
theorem FlagStands.release {a : UInt32} (h : FlagStands t) (hm : m.entry = .release a)
    (hset : t.vSentPacingOver = true) (hall : ∀ b ∈ sinceRelease t.log, b = a)
    (hs : t'.sent = t.sent ++ [m]) (hf : t'.vSentPacingOver = false) : FlagStands t' := by
  have hl := log_snoc hs
  rw [hm] at hl
  refine ⟨?_, fun b => ?_, ?_⟩
  · rw [hl, paired_snoc]
    refine ⟨h.paired, fun b hb => ?_⟩
    cases hb
    obtain ⟨b, hb⟩ := List.exists_mem_of_ne_nil _ (h.flag.mp hset)
    rw [h.since]
    exact hall b hb ▸ hb
  · rw [hl, outstanding_snoc, sinceRelease_snoc]
    constructor
    · rintro (hb | ⟨hb, hne⟩)
      · cases hb
      · exact absurd (congrArg Entry.release (hall b ((h.since b).mp hb)).symm) hne
    · intro hb
      cases hb
  · rw [hl, sinceRelease_snoc]
    simp [hf]

theorem release_step (h : FlagStands t) (hc : ReleasesAll t e) (hs : t.step false e = some t') :
    FlagStands t' := by
  cases step_sends hs with
  | congestion m hm _ h3 h4 =>
    obtain ⟨a, ha⟩ := congestionMsg_entry hm
    exact h.request ha h3 h4
  | release m hm hset h3 h4 =>
    obtain ⟨a, ha⟩ := released_entry hm
    exact h.release ha hset (hc m a hm ha) h3 h4
  | restart _ _ h3 h4 => exact h.quiet h3 h4
  | quiet _ _ h3 h4 => exact h.quiet h3 h4

/-- A release to one source clears the flag under another's QINFO. -/
theorem not_paired_of_release (h : FlagStands t) (hc : ¬ ReleasesAll t e)
    (hs : t.step false e = some t') : ¬ SourcesPaired t' := by
  simp only [ReleasesAll, not_forall] at hc
  obtain ⟨m, a, hm, ha, b, hb, hne⟩ := hc
  intro hp
  cases step_sends hs with
  | congestion m' hm' =>
    cases e with
    | qOCCHopTimer | qOCCTimer => cases hm
    | _ => cases hm'
  | release m' hm' _ h3 h4 =>
    obtain rfl : m = m' := by
      rw [hm] at hm'
      exact Option.some.inj hm'
    refine hp.2 h4 b ?_
    rw [log_snoc h3, outstanding_snoc, ha]
    exact Or.inr ⟨(h.since b).mpr hb, fun he => hne (Entry.release.inj he).symm⟩
  | restart _ h2 => rw [hm] at h2; cases h2
  | quiet _ h2 => rw [hm] at h2; cases h2

end Step

/-- **Sources are paired.** With Kafka off, releases go to sources with an
outstanding QINFO and the flag stands for every outstanding QINFO, in every
state of a run, exactly if each release goes to the source of every QINFO since
the previous release. -/
theorem sources_paired (es : List TriggerEvent) :
    Runs.Always (step false) {} (fun _ => SourcesPaired) es ↔
      Runs.Steps (step false) {} (fun _ => ReleasesAll) es := by
  refine Runs.always_iff_steps (I := fun _ => FlagStands) flagStands_initial (fun pre t e t' _ h hc hs => ?_)
    (fun _ _ _ h => h.sourcesPaired) (fun pre t e t' _ h hc hs => ?_) es
  · exact release_step h hc hs
  · exact not_paired_of_release h hc hs

/-- 10.0.0.1 congests the hop and is sent a QINFO; the evaluation timer is over
when a sample of 10.0.0.2 finds the queue empty. -/
def otherFlow : List TriggerEvent :=
  [sampleFrom 1 1000 900000, .qOCCHopTimer, .qEvaluationTimer, sampleFrom 2 10 10]

/-- The RESET_PACING goes to 10.0.0.2, and 10.0.0.1 is never released. -/
theorem otherFlow_unpaired : ¬ Runs.Always (step false) {} (fun _ => SourcesPaired) otherFlow := by
  intro h
  have hrun : ∃ t, Runs.run (step false) {} otherFlow = some t ∧
      t.log = [.request 0x0a000001] ++ [.release 0x0a000002] := ⟨_, rfl, by decide⟩
  obtain ⟨t, ht, hl⟩ := hrun
  have hout := (h.last ht).1 [.request 0x0a000001] 0x0a000002 [] hl
  rw [← List.nil_append [Entry.request _], outstanding_snoc] at hout
  rcases hout with he | ⟨ho, _⟩
  · exact absurd he (by decide)
  · exact not_outstanding_nil _ ho

end Trigger
end TuningMod

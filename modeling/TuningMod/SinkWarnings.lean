/-
# The warnings of the INT sink

For a hop above a threshold `sample_func` writes a warning: that both values
are high, or which of the two is. Each of the three kinds has the time it was
last written, and is written again 20 or 25 seconds later; with a high debug
level it is written for every hop, and the time is left alone. The queue
occupancy alone has to wait for 20 seconds where the retransmission rate is
used, and for 25 otherwise.

The hops are those of all reports, in the order in which they are sampled, with
the settings as they are then. The clock does not go back, and is past 25.

Key definitions: `SinkHop.kind`, `SinkLog.warn`, `SinkLog.hop`, `SinkLog.Warned`.
Key theorems: `hop_eq`, `warn_inv`, `warn_heard`, `sink_warnings`.
-/
import TuningMod.Trigger
import TuningMod.Lib.RateLimit
import TuningMod.Lib.Runs
import Mathlib.Logic.Function.Basic

namespace TuningMod

/-- What is high: both values, `queue_occupancy` or `hop_delay`. -/
inductive SinkWarning where
  | both | queue | delay
  deriving DecidableEq

namespace SinkWarning

/-- Above this debug level a warning does not wait. -/
def level : SinkWarning → ℤ
  | both => 5
  | queue => 6
  | delay => 6

def secsToWaitQinfowarnMessage : ℤ := 20

def secsToWaitQinfowarnMessage5 : ℤ := 25

/-- The least time between two warnings. -/
def wait : SinkWarning → ℤ
  | both => secsToWaitQinfowarnMessage
  | queue => secsToWaitQinfowarnMessage
  | delay => secsToWaitQinfowarnMessage5

end SinkWarning

/-- A hop of a report, with what it is compared with and the time. -/
structure SinkHop where
  md : IntHopMetadata
  thresholds : Thresholds := {}
  vDebugLevel : ℤ := 1
  vUseRetransmissionRate : Bool := false
  clk : ℤ
  deriving DecidableEq

/-- The hop is above the latency threshold. -/
def Thresholds.overDelay (th : Thresholds) (md : IntHopMetadata) : Bool := th.vHOPLATENCYDELTA < md.hopLatencyThreshold

/-- The times, the warnings, each with the hop whose values are in it, and the
latest time the clock has shown. -/
structure SinkLog where
  last : SinkWarning → RateLimit := fun _ => {}
  written : List (SinkHop × SinkWarning) := []
  clock : ℤ := 26

namespace SinkLog

open SinkWarning

variable (s : SinkLog) (e : SinkHop)

/-- One of the five places. -/
def warn (w : SinkWarning) (wait : ℤ) : SinkLog :=
  if w.level < e.vDebugLevel then { s with written := s.written ++ [(e, w)] }
  else if (s.last w).Passes wait e.clk then
    { s with last := Function.update s.last w ((s.last w).pass e.clk), written := s.written ++ [(e, w)] }
  else s

/-- The part of `sample_func` that warns. -/
def hop : SinkLog :=
  if e.thresholds.overBoth e.md then
    if 0 < e.vDebugLevel then s.warn e .both secsToWaitQinfowarnMessage else s
  else if e.vUseRetransmissionRate && e.thresholds.overQueue e.md then
    if 0 < e.vDebugLevel then s.warn e .queue secsToWaitQinfowarnMessage else s
  else if 0 < e.vDebugLevel then
    let s := if e.thresholds.overQueue e.md then s.warn e .queue secsToWaitQinfowarnMessage5 else s
    if e.thresholds.overDelay e.md then s.warn e .delay secsToWaitQinfowarnMessage5 else s
  else s

def step : Option SinkLog := if s.clock ≤ e.clk then some { s.hop e with clock := e.clk } else none

end SinkLog

namespace SinkHop

variable (e : SinkHop)

/-- The warning that a hop calls for. -/
def kind : Option SinkWarning :=
  if e.thresholds.overBoth e.md then some .both
  else if e.thresholds.overQueue e.md then some .queue
  else if e.thresholds.overDelay e.md then some .delay
  else none

/-- How old a warning may be for a hop that gets none. -/
def wait (w : SinkWarning) : ℤ :=
  if w = .queue ∧ e.vUseRetransmissionRate = false then SinkWarning.secsToWaitQinfowarnMessage5 else w.wait

theorem wait_le (w : SinkWarning) : w.wait ≤ e.wait w ∧ e.wait w ≤ 25 ∧ 0 ≤ w.wait := by
  unfold wait
  split_ifs <;> cases w <;> simp_all [SinkWarning.wait, SinkWarning.secsToWaitQinfowarnMessage5,
    SinkWarning.secsToWaitQinfowarnMessage]

end SinkHop

namespace SinkLog

/-- A warning that had to wait. -/
def limited (w : SinkWarning) (x : SinkHop × SinkWarning) : Bool := x.2 = w && x.1.vDebugLevel ≤ w.level

/-- What the log is like after the hops `es`. -/
structure Warned (es : List SinkHop) (s : SinkLog) : Prop where
  right : ∀ x ∈ s.written, x.1 ∈ es ∧ 0 < x.1.vDebugLevel ∧ x.1.kind = some x.2
  spaced : ∀ w, (s.written.filter (limited w)).Pairwise fun x y => w.wait < y.1.clk - x.1.clk
  heard : ∀ e, es.getLast? = some e → 0 < e.vDebugLevel → ∀ w, e.kind = some w →
    ∃ x ∈ s.written, x.2 = w ∧ e.clk - e.wait w ≤ x.1.clk ∧ x.1.clk ≤ e.clk

/-- What holds when the clock has shown `now`. -/
structure Inv (now : ℤ) (es : List SinkHop) (s : SinkLog) : Prop where
  right : ∀ x ∈ s.written, x.1 ∈ es ∧ 0 < x.1.vDebugLevel ∧ x.1.kind = some x.2
  passed : ∀ w, (s.written.filter (limited w)).map (fun x => x.1.clk) = (s.last w).passed
  kept : ∀ w, (s.last w).Kept w.wait now
  clock : 26 ≤ now

section Steps

variable {es : List SinkHop} {s t : SinkLog} {e : SinkHop} {w : SinkWarning} {now : ℤ}

/-- **At most one warning for a hop.** -/
theorem hop_eq : s.hop e = if 0 < e.vDebugLevel then e.kind.elim s fun w => s.warn e w (e.wait w) else s := by
  have hboth : e.thresholds.overBoth e.md = (e.thresholds.overDelay e.md && e.thresholds.overQueue e.md) := rfl
  unfold hop SinkHop.kind SinkHop.wait
  rw [hboth]
  cases e.thresholds.overQueue e.md <;> cases e.thresholds.overDelay e.md <;> cases e.vUseRetransmissionRate <;>
    simp [SinkWarning.wait]

theorem inv_initial : Inv 26 [] {} where
  right _ hx := (List.not_mem_nil hx).elim
  passed _ := rfl
  kept w := RateLimit.kept_initial (by decide)
  clock := le_refl _

theorem Inv.later (h : Inv now es s) (hnow : now ≤ e.clk) : Inv e.clk (es ++ [e]) s where
  right x hx := ⟨List.mem_append_left _ (h.right x hx).1, (h.right x hx).2⟩
  passed := h.passed
  kept w := (h.kept w).later hnow
  clock := h.clock.trans hnow

/-- **A warning**, written or not. -/
theorem warn_inv (h : Inv now es s) (hnow : now ≤ e.clk) (hlevel : 0 < e.vDebugLevel) (hkind : e.kind = some w) :
    Inv e.clk (es ++ [e]) (s.warn e w (e.wait w)) := by
  have hright : ∀ x ∈ s.written ++ [(e, w)], x.1 ∈ es ++ [e] ∧ 0 < x.1.vDebugLevel ∧ x.1.kind = some x.2 := by
    rw [List.forall_mem_append, List.forall_mem_singleton]
    exact ⟨(h.later hnow).right, by simp, hlevel, hkind⟩
  unfold warn
  split_ifs with hhigh hpass
  · refine ⟨hright, fun v => ?_, (h.later hnow).kept, (h.later hnow).clock⟩
    have hnot : limited v (e, w) = false := by
      rw [limited]
      rcases eq_or_ne w v with rfl | hne
      · simpa using hhigh
      · simp [hne]
    rw [← h.passed v]
    simp [List.filter_append, hnot]
  · obtain ⟨hwait, -, hpos⟩ := e.wait_le w
    have hpasses : (s.last w).Passes w.wait e.clk := hwait.trans_lt hpass
    refine ⟨hright, fun v => ?_, fun v => ?_, (h.later hnow).clock⟩
    · rcases eq_or_ne v w with rfl | hne
      · have hlim : limited v (e, v) = true := by simpa [limited] using hhigh
        simp [List.filter_append, hlim, RateLimit.pass, ← h.passed v]
      · have hnot : limited v (e, w) = false := by simp [limited, Ne.symm hne]
        simp [List.filter_append, hnot, hne, ← h.passed v]
    · rcases eq_or_ne v w with rfl | hne
      · simpa using (h.kept v).pass hpos hpasses
      · simpa [hne] using (h.kept v).later hnow
  · exact h.later hnow

/-- A hop is heard of. -/
theorem warn_heard (h : Inv now es s) (hnow : now ≤ e.clk) : ∃ x ∈ (s.warn e w (e.wait w)).written,
    x.2 = w ∧ e.clk - e.wait w ≤ x.1.clk ∧ x.1.clk ≤ e.clk := by
  obtain ⟨hwait, hle, hpos⟩ := e.wait_le w
  have hown : ∃ x ∈ s.written ++ [(e, w)], x.2 = w ∧ e.clk - e.wait w ≤ x.1.clk ∧ x.1.clk ≤ e.clk :=
    ⟨(e, w), List.mem_append_right _ (List.mem_singleton_self _), rfl, Int.sub_le_self _ (hpos.trans hwait), le_refl _⟩
  unfold warn
  split_ifs with hhigh hpass
  · exact hown
  · exact hown
  · unfold RateLimit.Passes at hpass
    have hclock := h.clock
    rcases (h.kept w).last with hlast | ⟨-, hzero⟩
    · rw [← h.passed w] at hlast
      obtain ⟨x, hx, hclk⟩ := List.mem_map.mp hlast
      obtain ⟨hmem, hlim⟩ := List.mem_filter.mp hx
      simp only [limited, Bool.and_eq_true, decide_eq_true_eq] at hlim
      have hlate := (h.kept w).clock
      exact ⟨x, hmem, hlim.1, by omega, by omega⟩
    · omega

/-- **A hop.** -/
theorem step_inv (h : Inv s.clock es s) (hs : s.step e = some t) : Inv t.clock (es ++ [e]) t ∧
    (0 < e.vDebugLevel → ∀ w, e.kind = some w →
      ∃ x ∈ t.written, x.2 = w ∧ e.clk - e.wait w ≤ x.1.clk ∧ x.1.clk ≤ e.clk) := by
  unfold step at hs
  split_ifs at hs with hnow
  obtain rfl := Option.some.inj hs
  suffices hhop : Inv e.clk (es ++ [e]) (s.hop e) ∧ (0 < e.vDebugLevel → ∀ w, e.kind = some w →
      ∃ x ∈ (s.hop e).written, x.2 = w ∧ e.clk - e.wait w ≤ x.1.clk ∧ x.1.clk ≤ e.clk) from
    ⟨⟨hhop.1.right, hhop.1.passed, hhop.1.kept, hhop.1.clock⟩, hhop.2⟩
  rw [hop_eq]
  split_ifs with hlevel
  · cases hkind : e.kind with
    | none => exact ⟨h.later hnow, fun _ w hw => by cases hw⟩
    | some w =>
      refine ⟨warn_inv h hnow hlevel hkind, fun _ v hv => ?_⟩
      obtain rfl := Option.some.inj hv
      exact warn_heard h hnow
  · exact ⟨h.later hnow, fun hl => absurd hl hlevel⟩

theorem Inv.spaced (h : Inv now es s) (w : SinkWarning) :
    (s.written.filter (limited w)).Pairwise fun x y => w.wait < y.1.clk - x.1.clk := by
  have hspaced := (h.kept w).spaced
  rw [RateLimit.Spaced, ← h.passed w, List.pairwise_map] at hspaced
  exact hspaced

end Steps

/-- **The warnings of the sink.** In every run each of them is for a hop that is
above the thresholds it names, those of a kind that had to wait are more than 20
or 25 seconds apart, and there is none older than that for a hop that is above. -/
theorem sink_warnings (es : List SinkHop) : Runs.Always step {} Warned es := by
  intro pre suf t _ hr
  obtain ⟨hinv, hheard⟩ : Inv t.clock pre t ∧ ∀ e, pre.getLast? = some e → 0 < e.vDebugLevel → ∀ w, e.kind = some w →
      ∃ x ∈ t.written, x.2 = w ∧ e.clk - e.wait w ≤ x.1.clk ∧ x.1.clk ≤ e.clk := by
    refine Runs.history_inv (P := fun pre t => Inv t.clock pre t ∧ ∀ e, pre.getLast? = some e → 0 < e.vDebugLevel → ∀ w,
      e.kind = some w → ∃ x ∈ t.written, x.2 = w ∧ e.clk - e.wait w ≤ x.1.clk ∧ x.1.clk ≤ e.clk) ?_ ?_ hr
    · exact ⟨inv_initial, fun e he => by cases he⟩
    · rintro pre s e s' - ⟨h, -⟩ hs
      obtain ⟨hinv, hheard⟩ := step_inv h hs
      refine ⟨hinv, fun e' he' => ?_⟩
      rw [List.getLast?_append, List.getLast?_singleton] at he'
      obtain rfl := Option.some.inj he'
      exact hheard
  exact ⟨hinv.right, hinv.spaced, hheard⟩

end SinkLog
end TuningMod

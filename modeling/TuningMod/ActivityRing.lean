/-
# The ring of activities

Each of the four flows has ten entries, filled in turn by `record_activity`,
and the flows take turns themselves. Whatever strings are recorded and whenever
the flow changes, both indices stay in their arrays, and the entries of the
flow that is going on are the last ten of its activities, each at its number
modulo ten. A string that does not fit with what is added to it has no outcome.

Key definitions: `ActivityRing.step`, `ActivityRing.Tied`.
Key theorems: `ActivityRing.inv_step`, `ActivityRing.always_tied`.
-/
import TuningMod.Activities

namespace TuningMod

/-- The flows, and next to them the activities since the start of the one that
is going on. -/
structure ActivityRing where
  activities : Activities := {}
  texts : List Text := []

inductive RingEvent where
  | record (pActivity : Text) (isString : 0 ∉ pActivity)
  | newTraffic

namespace ActivityRing

open Activities

/-- What happens to the flows. -/
def flowsStep (s : Activities) : RingEvent → Option Activities
  | .record pActivity _ => s.recordText pActivity
  | .newTraffic => some s.newTraffic

/-- The first traffic goes on with the first flow. -/
def textsAfter (r : ActivityRing) : RingEvent → List Text
  | .record pActivity _ => r.texts ++ [pActivity ++ r.activities.addToActivity]
  | .newTraffic => if r.activities.vFirstTimeThru then r.texts else []

def step (r : ActivityRing) (e : RingEvent) : Option ActivityRing :=
  (flowsStep r.activities e).map fun activities => ⟨activities, r.textsAfter e⟩

/-- The indices, the flag and the entries agree with the activities. -/
structure Tied (r : ActivityRing) : Prop where
  vFlowCount_lt : r.activities.vFlowCount < numOfFlowsToKeepTrackOf
  index_lt : ∀ f ∈ r.activities.sFlowCounters, f.numTuningActivities < maxTuningActivitiesPerFlow
  index_eq : r.activities.flow.numTuningActivities = r.texts.length % maxTuningActivitiesPerFlow
  used_iff : r.activities.flow.gFlowCountUsed = true ↔ 1 ≤ r.texts.length
  entry : ∀ k (hk : k < r.texts.length), r.texts.length ≤ k + maxTuningActivitiesPerFlow →
    r.activities.flow.whatWasDone[k % maxTuningActivitiesPerFlow]? = some r.texts[k]

/-! ### One flow and its activities -/

/-- The entries of a flow are those of these texts. -/
structure FlowTied (f : FlowCounters) (texts : List Text) : Prop where
  used_iff : f.gFlowCountUsed = true ↔ 1 ≤ texts.length
  keeps : (rounds f).Keeps texts

section Flow

variable {f : FlowCounters} {texts : List Text} {text : Text} {s t : Activities}

theorem flowTied_cleared : FlowTied { f with numTuningActivities := 0, gFlowCountUsed := false } [] where
  used_iff := by simp
  keeps := Rounds.keeps_nil f.whatWasDone

theorem FlowTied.record (h : FlowTied f texts) : FlowTied (record f text) (texts ++ [text]) where
  used_iff := by simp [Activities.record]
  keeps := h.keeps.push maxTuningActivities_pos

theorem FlowTied.index_lt (h : FlowTied f texts) : f.numTuningActivities < maxTuningActivitiesPerFlow := by
  have hnext : f.numTuningActivities = texts.length % maxTuningActivitiesPerFlow := h.keeps.next_eq
  rw [hnext]
  exact Nat.mod_lt _ maxTuningActivities_pos

theorem flow_eq (h : s.vFlowCount < numOfFlowsToKeepTrackOf) : s.flow = s.sFlowCounters[s.vFlowCount] := by
  simp [flow, h]

end Flow

/-! ### All flows -/

/-- Every flow has its texts, the one that is going on those of `r`. -/
structure Inv (r : ActivityRing) : Prop where
  vFlowCount_lt : r.activities.vFlowCount < numOfFlowsToKeepTrackOf
  flow : FlowTied r.activities.flow r.texts
  slots : ∀ g (hg : g < numOfFlowsToKeepTrackOf), ∃ texts, FlowTied r.activities.sFlowCounters[g] texts

section Steps

variable {r t : ActivityRing} {s : Activities} {f : FlowCounters} {texts : List Text} {e : RingEvent}

theorem inv_initial : Inv {} where
  vFlowCount_lt := by decide
  flow := flowTied_cleared (f := {})
  slots g hg := by
    refine ⟨[], ?_⟩
    rw [Vector.getElem_replicate]
    exact flowTied_cleared (f := {})

/-- The flow whose turn it is gets the texts of the new one; the other flows are
as they were. -/
theorem inv_setFlow (hlt : s.vFlowCount < numOfFlowsToKeepTrackOf) (hf : FlowTied f texts)
    (hslots : ∀ g (hg : g < numOfFlowsToKeepTrackOf), ∃ texts, FlowTied s.sFlowCounters[g] texts) :
    Inv ⟨s.setFlow f, texts⟩ where
  vFlowCount_lt := hlt
  flow := by
    have hself : (s.setFlow f).flow = f := by
      rw [flow_eq (s := s.setFlow f) hlt]
      exact Vector.getElem_setIfInBounds_self hlt
    rwa [hself]
  slots g hg := by
    simp only [setFlow, Vector.getElem_setIfInBounds]
    split_ifs
    · exact ⟨texts, hf⟩
    · exact hslots g hg

theorem inv_record (h : r.Inv) {text : Text} {myCount : UInt32} :
    Inv ⟨{ r.activities.setFlow (record r.activities.flow text) with myCount := myCount }, r.texts ++ [text]⟩ := by
  have hflow : FlowTied (record r.activities.flow text) (r.texts ++ [text]) := h.flow.record
  have hset := inv_setFlow h.vFlowCount_lt hflow h.slots
  exact ⟨hset.vFlowCount_lt, hset.flow, hset.slots⟩

theorem inv_newTraffic (h : r.Inv) :
    Inv ⟨r.activities.newTraffic, if r.activities.vFirstTimeThru then r.texts else []⟩ := by
  have hlt := h.vFlowCount_lt
  unfold newTraffic
  by_cases hfirst : r.activities.vFirstTimeThru = true
  · rw [if_pos hfirst, if_pos hfirst]
    exact ⟨h.vFlowCount_lt, h.flow, h.slots⟩
  · rw [if_neg hfirst, if_neg hfirst]
    by_cases hv : r.activities.vFlowCount + 1 = numOfFlowsToKeepTrackOf
    · rw [if_pos hv]
      exact inv_setFlow (NeZero.pos numOfFlowsToKeepTrackOf) flowTied_cleared h.slots
    · have hnext : r.activities.vFlowCount + 1 < numOfFlowsToKeepTrackOf := by omega
      rw [if_neg hv]
      exact inv_setFlow hnext flowTied_cleared h.slots

theorem inv_step (h : r.Inv) (hs : r.step e = some t) : t.Inv := by
  obtain ⟨activities, hflows, rfl⟩ := Option.map_eq_some_iff.mp hs
  cases e with
  | record pActivity isString =>
    obtain ⟨-, rfl⟩ := recordText_iff.mp hflows
    exact inv_record h
  | newTraffic =>
    obtain rfl := Option.some.inj hflows
    exact inv_newTraffic h

theorem Inv.tied (h : r.Inv) : r.Tied where
  vFlowCount_lt := h.vFlowCount_lt
  index_lt f hf := by
    obtain ⟨g, hg, rfl⟩ := Vector.mem_iff_getElem.mp hf
    obtain ⟨texts, hslot⟩ := h.slots g hg
    exact hslot.index_lt
  index_eq := h.flow.keeps.next_eq
  used_iff := h.flow.used_iff
  entry k hk hle := by
    rw [← List.getElem?_eq_getElem hk]
    exact h.flow.keeps.slot k hk hle

end Steps

/-- **The indices stay in their arrays and the entries are the last ten**, in
every state of every run. -/
theorem always_tied (es : List RingEvent) : Runs.Always step {} (fun _ r => r.Tied) es := by
  intro pre suf r _ hr
  have hinv : r.Inv := Runs.history_inv (P := fun _ r => r.Inv) inv_initial (fun _ _ _ _ _ h hs => inv_step h hs) hr
  exact hinv.tied

end ActivityRing
end TuningMod

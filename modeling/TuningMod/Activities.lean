/-
# The activity report

`record_activity` keeps the last ten activities of each of the last four flows.
A flow's slots are filled in rounds, and a flow begins when received traffic is
first seen: the four flows take turns. The `-pc` request lists, flow by flow, the
slots that count: all ten when the index is 0 and the flow has been used, and
otherwise those below the index. That is the last round, so an eleventh
activity hides the ten before it.

Only the first flow is asked whether there has been any activity, and only
until the four have taken turns. The response's last byte is overwritten with
the NUL even if there is no byte. `vNoactivitySoFar`, which the log reads, is
left out.

Key definitions: `Activity`, `recordActivity`, `newTraffic`, `countersResponse`, `Complete`, `WellFormed`.
Key theorems: `tracks_step`, `tracks_run`, `holds_response`, `record_fits`, `report_complete`, `report_wellFormed`.
-/
import TuningMod.Addresses
import TuningMod.Lib.Region
import TuningMod.Lib.Rounds
import TuningMod.Lib.Runs
import TuningMod.Lib.Window
import TuningMod.Numerals
import TuningMod.RequestText
import Mathlib.Data.List.Forall2

namespace TuningMod

abbrev Text := List UInt8

def maxTuningActivitiesPerFlow : ℕ := 10

def maxSizeTuningString : ℕ := 1500

def numOfFlowsToKeepTrackOf : ℕ := 4

instance : NeZero numOfFlowsToKeepTrackOf := ⟨by decide⟩

def maxSizeOfTheResponse : ℕ :=
  maxTuningActivitiesPerFlow * maxSizeTuningString * numOfFlowsToKeepTrackOf + 2 * 4 * numOfFlowsToKeepTrackOf

/-- What `-pc` says when nothing has happened. -/
def noTuningActivity : Text := bytes "No tuning activity has happened so far"

/-- The line it says it with. -/
def noActivityLine : Text := bytes "***" ++ noTuningActivity ++ bytes "***"

/-- What a caller hands to `record_activity`: the time and the phase with a
hop's index or a `sysctl` command, a string that does not speak of no activity. -/
structure Activity where
  pActivity : Text
  isString : 0 ∉ pActivity
  happened : ¬ noTuningActivity <:+: pActivity

/-- `sFlowCounters_t`. -/
structure FlowCounters where
  numTuningActivities : ℕ := 0
  gFlowCountUsed : Bool := false
  whatWasDone : Vector Text maxTuningActivitiesPerFlow := .replicate _ []
  deriving DecidableEq

structure Activities where
  sFlowCounters : Vector FlowCounters numOfFlowsToKeepTrackOf := .replicate _ {}
  vFlowCount : ℕ := 0
  vFlowCountWrapped : Bool := false
  vFirstTimeThru : Bool := true
  myCount : UInt32 := 0
  deriving DecidableEq

namespace Activities

/-! ### Recording -/

/-- The flow that is going on. -/
def flow (s : Activities) : FlowCounters := s.sFlowCounters.toList.getD s.vFlowCount {}

def setFlow (s : Activities) (f : FlowCounters) : Activities :=
  { s with sFlowCounters := s.sFlowCounters.setIfInBounds s.vFlowCount f }

def addToActivity (s : Activities) : Text :=
  bytes ":::***vFlowcount = " ++ uText s.vFlowCount ++ bytes ", num_tuning_activty = " ++
    uText (s.flow.numTuningActivities + 1) ++ bytes ", myCount = " ++ uText s.myCount.toNat

/-- The text that is kept. -/
def kept (s : Activities) (a : Activity) : Text := a.pActivity ++ s.addToActivity

/-- What `record_activity` does to a flow. -/
def record (f : FlowCounters) (text : Text) : FlowCounters where
  numTuningActivities :=
    if f.numTuningActivities + 1 = maxTuningActivitiesPerFlow then 0 else f.numTuningActivities + 1
  gFlowCountUsed := true
  whatWasDone := f.whatWasDone.setIfInBounds f.numTuningActivities text

/-- `record_activity` of any string. The caller's array and the slot both have
room for `MAX_SIZE_TUNING_STRING` bytes: a longer text has no outcome. -/
def recordText (s : Activities) (pActivity : Text) : Option Activities :=
  if (pActivity ++ s.addToActivity).length < maxSizeTuningString then
    some { s.setFlow (record s.flow (pActivity ++ s.addToActivity)) with myCount := s.myCount + 1 }
  else none

def recordActivity (s : Activities) (a : Activity) : Option Activities := s.recordText a.pActivity

/-- Received traffic after a measurement without any. -/
def newTraffic (s : Activities) : Activities :=
  if s.vFirstTimeThru then { s with vFirstTimeThru := false }
  else
    let t : Activities :=
      if s.vFlowCount + 1 = numOfFlowsToKeepTrackOf then { s with vFlowCountWrapped := true, vFlowCount := 0 }
      else { s with vFlowCount := s.vFlowCount + 1 }
    t.setFlow { t.flow with numTuningActivities := 0, gFlowCountUsed := false }

inductive Event where
  | record (a : Activity)
  | newTraffic

def step (s : Activities) : Event → Option Activities
  | .record a => s.recordActivity a
  | .newTraffic => some s.newTraffic

/-! ### The response to `-pc` -/

/-- `aResp` and the local variable `start`. -/
structure Resp where
  aResp : Region UInt8
  start : ℤ := 0

/-- One activity: the text and an end of line. -/
def listActivity (r : Resp) (text : Text) : Resp where
  aResp := (r.aResp.copy r.start text).store (r.start + text.length) 10
  start := r.start + text.length + 1

/-- The slots of a flow that count. -/
def numActivities (f : FlowCounters) : ℕ :=
  if f.numTuningActivities = 0 ∧ f.gFlowCountUsed = true then maxTuningActivitiesPerFlow else f.numTuningActivities

/-- One flow, with its number `g`. -/
def listFlow (vFlowCountWrapped : Bool) (r : Resp) (fg : FlowCounters × ℕ) : Resp :=
  let (f, g) := fg
  if f.numTuningActivities = 0 ∧ f.gFlowCountUsed = false ∧ vFlowCountWrapped = false ∧ g = 0 then
    { aResp := r.aResp.copy 0 (noActivityLine ++ [10, 0]), start := noActivityLine.length + 1 }
  else (f.whatWasDone.toList.take (numActivities f)).foldl listActivity r

def vLoopMax (s : Activities) : ℕ :=
  if s.vFlowCountWrapped then numOfFlowsToKeepTrackOf else s.vFlowCount + 1

/-- `aResp`, which is not initialized, after the command. -/
def countersResponse (s : Activities) (aResp : ℤ → UInt8) : Region UInt8 :=
  let r := (s.sFlowCounters.toList.take s.vLoopMax).zipIdx.foldl (listFlow s.vFlowCountWrapped) { aResp := ⟨aResp, []⟩ }
  r.aResp.store (r.start - 1) 0

/-- The string in the response. -/
def responseText (m : Region UInt8) : Text := (m.read maxSizeOfTheResponse).takeWhile fun c => c ≠ 0

/-! ### What was recorded -/

/-- The texts recorded, flow by flow: those of the flows before and those of the
flow that is going on. -/
structure FlowLog where
  earlier : List (List Text) := []
  current : List Text := []
  deriving DecidableEq

def FlowLog.flows (log : FlowLog) : List (List Text) := log.earlier ++ [log.current]

/-- The last four flows. -/
def FlowLog.tracked (log : FlowLog) : List (List Text) := log.flows.rtake numOfFlowsToKeepTrackOf

/-- The last ten activities of each of them. -/
def FlowLog.expected (log : FlowLog) : List Text :=
  log.tracked.flatMap fun hist => hist.rtake maxTuningActivitiesPerFlow

def logged (s : Activities) (log : FlowLog) : Event → FlowLog
  | .record a => { log with current := log.current ++ [s.kept a] }
  | .newTraffic => if s.vFirstTimeThru then log else { earlier := log.earlier ++ [log.current] }

/-- The log of a run. -/
def history (s : Activities) (log : FlowLog) : List Event → FlowLog
  | [] => log
  | e :: es =>
    match step s e with
    | none => log
    | some t => history t (s.logged log e) es

/-- The response lists what was expected, whatever the memory held; a line that
says that there is nothing may stand in front. -/
def Complete (s : Activities) (log : FlowLog) : Prop :=
  ∀ aResp, ∃ front ∈ [[], [noActivityLine]], ∃ texts, texts.Perm log.expected ∧
    responseText (s.countersResponse aResp) = [10].intercalate (front ++ texts)

/-- The response stays in its array and ends in it, and says that nothing has
happened exactly if nothing has, whatever the memory held. -/
def WellFormed (s : Activities) (log : FlowLog) : Prop :=
  ∀ aResp, (∀ i ∈ (s.countersResponse aResp).written, 0 ≤ i ∧ i < maxSizeOfTheResponse) ∧
    (∃ i : ℤ, (0 ≤ i ∧ i < maxSizeOfTheResponse) ∧ (s.countersResponse aResp).cells i = 0) ∧
    (noTuningActivity <:+: responseText (s.countersResponse aResp) ↔ ∀ hist ∈ log.tracked, hist = [])

/-! ### The flows and the log -/

section Flows

variable {s t : Activities} {log : FlowLog} {f : FlowCounters} {hist : List Text} {text : Text} {e : Event}

/-- The slots of a flow and their index. -/
def rounds (f : FlowCounters) : Rounds Text maxTuningActivitiesPerFlow := ⟨f.whatWasDone, f.numTuningActivities⟩

/-- The flow's record of its texts. -/
structure Represents (f : FlowCounters) (hist : List Text) : Prop where
  used_iff : f.gFlowCountUsed = true ↔ hist ≠ []
  holds : (rounds f).Holds hist

theorem maxTuningActivities_pos : 0 < maxTuningActivitiesPerFlow := by decide

theorem represents_cleared : Represents { f with numTuningActivities := 0, gFlowCountUsed := false } [] where
  used_iff := by simp
  holds := Rounds.holds_nil f.whatWasDone

theorem Represents.record (h : Represents f hist) : Represents (record f text) (hist ++ [text]) where
  used_iff := by simp [Activities.record]
  holds := h.holds.push maxTuningActivities_pos

/-- The slots that count are the last round. -/
theorem Represents.slots_eq (h : Represents f hist) :
    f.whatWasDone.toList.take (numActivities f) = Rounds.lastRound maxTuningActivitiesPerFlow hist :=
  h.holds.contents_eq maxTuningActivities_pos h.used_iff

/-- The flows are a window of what was recorded. -/
structure Tracks (s : Activities) (log : FlowLog) (w : Window (List Text) numOfFlowsToKeepTrackOf) : Prop where
  holds : w.Holds log.flows
  count_eq : w.count = s.vFlowCount + 1
  full_eq : w.full = s.vFlowCountWrapped
  slots : ∀ g (hg : g < numOfFlowsToKeepTrackOf), Represents s.sFlowCounters[g] w.slots[g]
  wrapped_iff : s.vFlowCountWrapped = true ↔ numOfFlowsToKeepTrackOf < log.flows.length

theorem tracks_initial : Tracks {} {} ⟨.replicate _ [], 1, false⟩ where
  holds := (Window.holds_cleared (.replicate _ [])).push (x := [])
  count_eq := rfl
  full_eq := rfl
  slots g hg := by
    rw [Vector.getElem_replicate, Vector.getElem_replicate]
    exact represents_cleared (f := {})
  wrapped_iff := by simp [FlowLog.flows, numOfFlowsToKeepTrackOf]

variable {w : Window (List Text) numOfFlowsToKeepTrackOf}

theorem Tracks.vFlowCount_lt (h : Tracks s log w) : s.vFlowCount < numOfFlowsToKeepTrackOf := by
  have hle := h.holds.count_le
  have hcount := h.count_eq
  omega

/-- The flow that is going on is the last one of the log. -/
theorem Tracks.flow (h : Tracks s log w) : Represents s.flow log.current := by
  have hlt := h.vFlowCount_lt
  have hslot := h.slots s.vFlowCount hlt
  have hlast := h.holds.getElem_last (by rw [h.count_eq]; omega)
  rw [h.count_eq, Nat.add_sub_cancel] at hlast
  have hcur : w.slots[s.vFlowCount] = log.current := by simpa [hlt] using hlast
  have hflow : s.flow = s.sFlowCounters[s.vFlowCount] := by simp [Activities.flow, hlt]
  rwa [hflow, ← hcur]

theorem length_flows (log : FlowLog) : log.flows.length = log.earlier.length + 1 := by
  rw [FlowLog.flows, List.length_append, List.length_singleton]

theorem tracks_record (h : Tracks s log w) :
    Tracks { s.setFlow (record s.flow text) with myCount := s.myCount + 1 }
      { log with current := log.current ++ [text] } (w.setLast (log.current ++ [text])) where
  holds := h.holds.setLast (by rw [h.count_eq]; omega)
  count_eq := h.count_eq
  full_eq := h.full_eq
  slots g hg := by
    simp only [setFlow, Window.setLast, h.count_eq, Nat.add_sub_cancel, Vector.getElem_setIfInBounds]
    split_ifs
    · exact h.flow.record
    · exact h.slots g hg
  wrapped_iff := by
    rw [length_flows]
    exact length_flows log ▸ h.wrapped_iff

/-- How many flows there have been, by the flag of the window. -/
theorem Tracks.length_earlier (h : Tracks s log w) : (w.full = false → log.earlier.length + 1 = w.count) ∧
    (w.full = true → numOfFlowsToKeepTrackOf ≤ log.earlier.length + 1) := by
  have hlen := length_flows log
  constructor
  · intro hfull
    rw [h.holds.count_eq hfull, hlen]
  · intro hfull
    rw [← hlen]
    exact h.holds.le_length hfull

/-- A slot is cleared for the flow that begins. -/
theorem Tracks.slots_cleared (h : Tracks s log w) (i : ℕ) {f : FlowCounters} (g : ℕ)
    (hg : g < numOfFlowsToKeepTrackOf) :
    Represents (s.sFlowCounters.setIfInBounds i { f with numTuningActivities := 0, gFlowCountUsed := false })[g]
      (w.slots.setIfInBounds i [])[g] := by
  rw [Vector.getElem_setIfInBounds, Vector.getElem_setIfInBounds]
  split_ifs
  · exact represents_cleared
  · exact h.slots g hg

/-- The turn goes back to the first slot. -/
theorem tracks_wrapped (h : Tracks s log w) (hf : s.vFirstTimeThru = false)
    (hv : s.vFlowCount + 1 = numOfFlowsToKeepTrackOf) :
    Tracks s.newTraffic { earlier := log.earlier ++ [log.current] } (w.push []) := by
  have hcount := h.count_eq
  have hge : ¬ w.count < numOfFlowsToKeepTrackOf := by omega
  have hpush := h.holds.push (x := [])
  unfold Window.push at hpush ⊢
  unfold newTraffic
  rw [if_neg (by simp [hf]), if_pos hv]
  rw [if_neg hge] at hpush ⊢
  refine ⟨hpush, rfl, rfl, h.slots_cleared 0, ?_⟩
  have hle : numOfFlowsToKeepTrackOf ≤ log.earlier.length + 1 := by
    cases hw : w.full with
    | false => rw [h.length_earlier.1 hw, hcount, hv]
    | true => exact h.length_earlier.2 hw
  rw [length_flows, List.length_append, List.length_singleton]
  exact iff_of_true rfl (Nat.lt_succ_of_le hle)

/-- The flow that begins takes the next slot. -/
theorem tracks_next (h : Tracks s log w) (hf : s.vFirstTimeThru = false)
    (hv : s.vFlowCount + 1 ≠ numOfFlowsToKeepTrackOf) :
    Tracks s.newTraffic { earlier := log.earlier ++ [log.current] } (w.push []) := by
  have hcount := h.count_eq
  have hlt : w.count < numOfFlowsToKeepTrackOf := by
    have := h.vFlowCount_lt
    omega
  have hpush := h.holds.push (x := [])
  unfold Window.push at hpush ⊢
  unfold newTraffic
  rw [if_neg (by simp [hf]), if_neg hv]
  rw [if_pos hlt, hcount] at hpush ⊢
  refine ⟨hpush, rfl, h.full_eq, h.slots_cleared _, ?_⟩
  have hwrapped := h.wrapped_iff
  rw [← h.full_eq] at hwrapped
  have hiff : numOfFlowsToKeepTrackOf < log.flows.length ↔
      numOfFlowsToKeepTrackOf < log.earlier.length + 1 + 1 := by
    cases hw : w.full with
    | false =>
      have hlen := length_flows log
      have := h.length_earlier.1 hw
      omega
    | true =>
      have := hwrapped.mp hw
      have hlen := length_flows log
      omega
  rw [length_flows, List.length_append, List.length_singleton]
  exact h.wrapped_iff.trans hiff

theorem tracks_newTraffic (h : Tracks s log w) (hf : s.vFirstTimeThru = false) :
    Tracks s.newTraffic { earlier := log.earlier ++ [log.current] } (w.push []) := by
  by_cases hv : s.vFlowCount + 1 = numOfFlowsToKeepTrackOf
  · exact tracks_wrapped h hf hv
  · exact tracks_next h hf hv

/-- A text is recorded if it fits. -/
theorem recordText_iff {pActivity : Text} : s.recordText pActivity = some t ↔
    (pActivity ++ s.addToActivity).length < maxSizeTuningString ∧
      { s.setFlow (record s.flow (pActivity ++ s.addToActivity)) with myCount := s.myCount + 1 } = t := by
  rw [recordText, Option.ite_none_right_eq_some, Option.some.injEq]

theorem step_record {a : Activity} : step s (.record a) = some t ↔ (s.kept a).length < maxSizeTuningString ∧
    { s.setFlow (record s.flow (s.kept a)) with myCount := s.myCount + 1 } = t := recordText_iff

theorem tracks_step (h : Tracks s log w) (hs : step s e = some t) : ∃ w', Tracks t (s.logged log e) w' := by
  cases e with
  | record a =>
    obtain ⟨-, rfl⟩ := step_record.mp hs
    exact ⟨_, tracks_record h⟩
  | newTraffic =>
    obtain rfl := Option.some.inj hs
    unfold logged
    by_cases hf : s.vFirstTimeThru = true
    · -- the first traffic goes on with the first flow
      unfold newTraffic
      rw [if_pos hf, if_pos hf]
      exact ⟨w, h.holds, h.count_eq, h.full_eq, h.slots, h.wrapped_iff⟩
    · rw [if_neg hf]
      exact ⟨_, tracks_newTraffic h (by simpa using hf)⟩

end Flows

/-! ### The texts -/

section Texts

variable {s t : Activities} {log : FlowLog} {text : Text} {e : Event}

/-- What is known of a text that was recorded. -/
structure Kept (text : Text) : Prop where
  isString : 0 ∉ text
  length_lt : text.length < maxSizeTuningString
  ne_nil : text ≠ []
  happened : ¬ noTuningActivity <:+: text

/-- What is added starts with a colon and has neither a NUL nor an `N` in it. -/
theorem addToActivity_cons (s : Activities) : ∃ rest, s.addToActivity = 58 :: rest ∧ 0 ∉ rest ∧ 78 ∉ rest := by
  refine ⟨bytes "::***vFlowcount = " ++ uText s.vFlowCount ++ bytes ", num_tuning_activty = " ++
    uText (s.flow.numTuningActivities + 1) ++ bytes ", myCount = " ++ uText s.myCount.toNat, rfl, ?_, ?_⟩
  · simp only [List.mem_append, not_or]
    refine ⟨⟨⟨⟨⟨?_, notMem_uText rfl⟩, ?_⟩, notMem_uText rfl⟩, ?_⟩, notMem_uText rfl⟩ <;> decide
  · simp only [List.mem_append, not_or]
    refine ⟨⟨⟨⟨⟨?_, notMem_uText rfl⟩, ?_⟩, notMem_uText rfl⟩, ?_⟩, notMem_uText rfl⟩ <;> decide

theorem kept_of_step {a : Activity} (hs : step s (.record a) = some t) : Kept (s.kept a) := by
  obtain ⟨rest, hadd, hnul, hN⟩ := s.addToActivity_cons
  have hkept : s.kept a = a.pActivity ++ 58 :: rest := by rw [kept, hadd]
  constructor
  · rw [hkept]
    simp [a.isString, hnul]
  · exact (step_record.mp hs).1
  · simp [hkept]
  · rw [hkept, Search.infix_append_cons (by decide), not_or]
    refine ⟨a.happened, fun h => hN ?_⟩
    have hmem : 78 ∈ noTuningActivity := by decide
    exact h.subset hmem

/-- All texts of the log. -/
def AllKept (log : FlowLog) : Prop := ∀ hist ∈ log.flows, ∀ text ∈ hist, Kept text

theorem allKept_step (h : AllKept log) (hs : step s e = some t) : AllKept (s.logged log e) := by
  cases e with
  | record a =>
    have hkept := kept_of_step hs
    unfold AllKept FlowLog.flows logged at *
    simp only [List.forall_mem_append, List.forall_mem_singleton] at *
    exact ⟨h.1, h.2, hkept⟩
  | newTraffic =>
    unfold logged
    split_ifs
    · exact h
    · unfold AllKept FlowLog.flows
      rw [List.forall_mem_append]
      exact ⟨h, by simp⟩

theorem history_snoc {es : List Event} {s u t : Activities} (hr : Runs.run step s es = some u)
    (hs : step u e = some t) : history s log (es ++ [e]) = u.logged (history s log es) e := by
  induction es generalizing s log with
  | nil =>
    obtain rfl := Option.some.inj hr
    simp only [List.nil_append, history, hs]
  | cons a es ih =>
    obtain ⟨v, hv, hr'⟩ := Option.bind_eq_some_iff.mp hr
    simp only [List.cons_append, history, hv]
    exact ih hr'

/-- **The flows track a run.** -/
theorem tracks_run {es : List Event} (hr : Runs.run step {} es = some t) :
    (∃ w, Tracks t (history {} {} es) w) ∧ AllKept (history {} {} es) := by
  refine Runs.history_inv (P := fun es t => (∃ w, Tracks t (history {} {} es) w) ∧ AllKept (history {} {} es)) ?_ ?_ hr
  · exact ⟨⟨_, tracks_initial⟩, by simp [AllKept, FlowLog.flows, history]⟩
  · intro pre t e t' hrun ⟨⟨w, hw⟩, hkept⟩ hs
    rw [history_snoc hrun hs]
    exact ⟨tracks_step hw hs, allKept_step hkept hs⟩

/-- The comment at the callers: a text leaves room for what is added. -/
theorem record_fits {w : Window (List Text) numOfFlowsToKeepTrackOf} (h : Tracks s log w) {a : Activity}
    (ha : a.pActivity.length + 512 ≤ maxSizeTuningString) : ∃ t, step s (.record a) = some t := by
  refine ⟨_, step_record.mpr ⟨?_, rfl⟩⟩
  have hlt := h.vFlowCount_lt
  have hnext : s.flow.numTuningActivities = log.current.length % maxTuningActivitiesPerFlow := h.flow.holds.next_eq
  have hmod := Nat.mod_lt log.current.length maxTuningActivities_pos
  unfold numOfFlowsToKeepTrackOf at hlt
  unfold maxTuningActivitiesPerFlow at hmod hnext
  have hflow := length_uText_le (n := s.vFlowCount) (k := 1) (by decide) (by omega)
  have hnum := length_uText_le (n := s.flow.numTuningActivities + 1) (k := 2) (by decide) (by omega)
  have hcount := length_uText_le (n := s.myCount.toNat) (k := 10) (by decide) (by have := s.myCount.toNat_lt; omega)
  have h1 : (bytes ":::***vFlowcount = ").length = 19 := by decide
  have h2 : (bytes ", num_tuning_activty = ").length = 23 := by decide
  have h3 : (bytes ", myCount = ").length = 12 := by decide
  rw [kept, List.length_append]
  unfold addToActivity
  simp only [List.length_append]
  omega

/-- A flow takes any number of activities. -/
theorem run_records {w : Window (List Text) numOfFlowsToKeepTrackOf} {a : Activity} (n : ℕ) (h : Tracks s log w)
    (ha : a.pActivity.length + 512 ≤ maxSizeTuningString) :
    ∃ t, Runs.run step s (List.replicate n (.record a)) = some t ∧
      (history s log (List.replicate n (.record a))).earlier = log.earlier ∧
      (history s log (List.replicate n (.record a))).current.length = log.current.length + n := by
  induction n generalizing s log w with
  | zero => exact ⟨s, rfl, rfl, rfl⟩
  | succ n ih =>
    obtain ⟨u, hu⟩ := record_fits h ha
    obtain ⟨w', hw'⟩ := tracks_step h hu
    obtain ⟨t, hr, hearlier, hcurrent⟩ := ih hw'
    rw [List.replicate_succ, Runs.run, hu, Option.bind_some, history, hu]
    refine ⟨t, hr, hearlier, ?_⟩
    rw [hcurrent]
    simp [logged]
    omega

end Texts

/-! ### What the loops write -/

section Lines

/-- The texts, each with an end of line. -/
def lines (texts : List Text) : Text := texts.flatMap fun text => text ++ [10]

theorem lines_append (texts more : List Text) : lines (texts ++ more) = lines texts ++ lines more :=
  List.flatMap_append

theorem lines_concat {texts : List Text} (hne : texts ≠ []) : lines texts = (lines texts).dropLast ++ [10] := by
  obtain ⟨init, text, rfl⟩ := (List.eq_nil_or_concat' texts).resolve_left hne
  have hlast : lines (init ++ [text]) = (lines init ++ text) ++ [10] := by simp [lines]
  rw [hlast, List.dropLast_concat]

/-- Without the last end of line. -/
theorem dropLast_lines (texts : List Text) : (lines texts).dropLast = [10].intercalate texts := by
  induction texts with
  | nil => rfl
  | cons text texts ih =>
    cases texts with
    | nil => simp [lines, List.intercalate_singleton]
    | cons next texts =>
      have hne : lines (next :: texts) ≠ [] := by simp [lines]
      calc (lines (text :: next :: texts)).dropLast
          = (text ++ [10] ++ lines (next :: texts)).dropLast := by simp only [lines, List.flatMap_cons]
        _ = text ++ [10] ++ (lines (next :: texts)).dropLast := List.dropLast_append_of_ne_nil hne
        _ = [10].intercalate (text :: next :: texts) := by rw [ih, List.intercalate_cons_cons]

/-- The bytes from the start of the array to `start` are `out`; the indices
written go no further than that. -/
structure Resp.Holds (r : Resp) (out : Text) : Prop where
  start_eq : r.start = out.length
  read_eq : r.aResp.read out.length = out
  written : ∀ i ∈ r.aResp.written, 0 ≤ i ∧ i ≤ out.length

variable {r : Resp} {out text : Text} {w : Bool} {f : FlowCounters} {hist : List Text} {g : ℕ}

theorem holds_initial (aResp : ℤ → UInt8) : Resp.Holds { aResp := ⟨aResp, []⟩ } [] where
  start_eq := rfl
  read_eq := rfl
  written i hi := by cases hi

/-- A copy at `start`. -/
theorem Resp.Holds.copy (h : r.Holds out) (text : Text) :
    Resp.Holds ⟨r.aResp.copy r.start text, r.start + text.length⟩ (out ++ text) where
  start_eq := by
    dsimp only
    rw [h.start_eq, List.length_append, Nat.cast_add]
  read_eq := by rw [h.start_eq, List.length_append, Region.read_copy, h.read_eq]
  written i hi := by
    rw [h.start_eq, Region.mem_written_copy] at hi
    rw [List.length_append]
    rcases hi with hi | hi
    · have := h.written i hi
      omega
    · omega

theorem Resp.Holds.listActivity (h : r.Holds out) (text : Text) :
    (listActivity r text).Holds (out ++ (text ++ [10])) := by
  have hcopy := h.copy (text ++ [10])
  rw [Region.copy_append, List.length_append, Nat.cast_add, ← Int.add_assoc] at hcopy
  exact hcopy

theorem Resp.Holds.listActivities (h : r.Holds out) (texts : List Text) :
    (texts.foldl Activities.listActivity r).Holds (out ++ lines texts) := by
  induction texts generalizing r out with
  | nil => simpa [lines] using h
  | cons text texts ih =>
    have hrest := ih (h.listActivity text)
    rwa [List.append_assoc] at hrest

/-- The byte at `start` is not one of those before it. -/
theorem Resp.Holds.store (h : r.Holds out) (c : UInt8) :
    Resp.Holds { r with aResp := r.aResp.store r.start c } out where
  start_eq := h.start_eq
  read_eq := by rw [h.start_eq, Region.read_store, h.read_eq, List.set_eq_of_length_le (Nat.le_refl _)]
  written i hi := by
    rw [h.start_eq, Region.mem_written_store] at hi
    rcases hi with hi | hi
    · exact h.written i hi
    · omega

/-- A flow that is not asked, or has an activity. -/
theorem Resp.Holds.listFlow (h : r.Holds out) (hf : Represents f hist) (hg : g = 0 → w = false → hist ≠ []) :
    (listFlow w r (f, g)).Holds (out ++ lines (Rounds.lastRound maxTuningActivitiesPerFlow hist)) := by
  unfold Activities.listFlow
  dsimp only
  rw [if_neg ?_, hf.slots_eq]
  · exact h.listActivities _
  · rintro ⟨-, hused, hw, hg0⟩
    have := hf.used_iff.mpr (hg hg0 hw)
    rw [hused] at this
    cases this

/-- The first flow when nothing has happened in it. -/
theorem listFlow_none (aResp : ℤ → UInt8) (hf : Represents f []) :
    (Activities.listFlow false { aResp := ⟨aResp, []⟩ } (f, 0)).Holds (lines [noActivityLine]) := by
  have hused : f.gFlowCountUsed = false := by
    have := hf.used_iff
    simpa using this
  have hnum : f.numTuningActivities = 0 := hf.holds.next_eq
  unfold Activities.listFlow
  dsimp only
  rw [if_pos ⟨hnum, hused, rfl, rfl⟩]
  -- the line with its end, and the NUL at `start`
  have hline := ((holds_initial aResp).copy (noActivityLine ++ [10])).store 0
  exact hline

/-- The texts that are listed of flows with these texts. -/
def listed (hists : List (List Text)) : List Text :=
  hists.flatMap fun hist => Rounds.lastRound maxTuningActivitiesPerFlow hist

/-- The flows behind the first one, numbered from `g` on. -/
theorem Resp.Holds.listFlows (h : r.Holds out) {fs : List FlowCounters} {hists : List (List Text)}
    (hfs : List.Forall₂ Represents fs hists) (hg : 0 < g) :
    ((fs.zipIdx g).foldl (Activities.listFlow w) r).Holds (out ++ lines (listed hists)) := by
  induction hfs generalizing r out g with
  | nil => simpa [lines, listed] using h
  | cons hf hfs ih =>
    have hrest := ih (h.listFlow (w := w) (g := g) hf (fun h0 => absurd h0 (by omega))) (Nat.succ_pos g)
    rw [List.append_assoc, ← lines_append] at hrest
    exact hrest

/-- The line in front, if the first flow is asked and has no activity. -/
def front (w : Bool) (hists : List (List Text)) : List Text :=
  if w = false ∧ hists.head? = some [] then [noActivityLine] else []

/-- **What the loops leave.** -/
theorem holds_response (aResp : ℤ → UInt8) {fs : List FlowCounters} {hists : List (List Text)}
    (hfs : List.Forall₂ Represents fs hists) :
    (fs.zipIdx.foldl (Activities.listFlow w) { aResp := ⟨aResp, []⟩ }).Holds
      (lines (front w hists ++ listed hists)) := by
  cases hfs with
  | nil => simpa [lines, listed, front] using holds_initial aResp
  | @cons f hist fs hists hf hfs =>
    rw [List.zipIdx_cons, List.foldl_cons]
    by_cases hasked : w = false ∧ hist = []
    · obtain ⟨rfl, rfl⟩ := hasked
      have hfront : front false ([] :: hists) = [noActivityLine] := rfl
      have hnone : listed ([] :: hists) = listed hists := rfl
      rw [hfront, hnone, lines_append]
      exact (listFlow_none aResp hf).listFlows hfs Nat.one_pos
    · have hfront : front w (hist :: hists) = [] := if_neg (by simpa using hasked)
      rw [hfront, List.nil_append]
      have hfirst := (holds_initial aResp).listFlow (w := w) (g := 0) hf (fun _ hw hnil => hasked ⟨hw, hnil⟩)
      have hall := hfirst.listFlows (w := w) hfs Nat.one_pos
      rw [List.nil_append, ← lines_append] at hall
      exact hall

end Lines

/-! ### The response -/

section Response

variable {s : Activities} {log : FlowLog} {w : Window (List Text) numOfFlowsToKeepTrackOf}

theorem Tracks.contents (h : Tracks s log w) :
    List.Forall₂ Represents (s.sFlowCounters.toList.take s.vLoopMax) w.contents := by
  have hall : List.Forall₂ Represents s.sFlowCounters.toList w.slots.toList := by
    rw [List.forall₂_iff_get]
    refine ⟨by simp, fun g hg _ => ?_⟩
    have hslot := h.slots g (by simpa using hg)
    simpa using hslot
  have hmax : w.contents = w.slots.toList.take s.vLoopMax := by
    unfold Window.contents vLoopMax
    rw [h.full_eq, h.count_eq]
    split_ifs
    · exact (List.take_of_length_le (by simp)).symm
    · rfl
  rw [hmax]
  exact List.forall₂_take _ hall

/-- The line in front of the response, as the log decides it. -/
def FlowLog.opening (log : FlowLog) : List Text :=
  if log.flows.length ≤ numOfFlowsToKeepTrackOf ∧ log.flows.head? = some [] then [noActivityLine] else []

theorem Tracks.opening (h : Tracks s log w) : front s.vFlowCountWrapped w.contents = log.opening := by
  unfold front FlowLog.opening
  have hw := h.wrapped_iff
  cases hs : s.vFlowCountWrapped with
  | false =>
    have hle : log.flows.length ≤ numOfFlowsToKeepTrackOf := by simpa [hs] using hw
    rw [h.holds.contents_eq (by rw [h.full_eq, hs])]
    simp only [hle, true_and]
  | true =>
    have hlt := hw.mp hs
    rw [if_neg (by simp), if_neg (fun hc => absurd hc.1 (by omega))]

/-- What the loops leave, by the log. -/
theorem Tracks.response (h : Tracks s log w) (aResp : ℤ → UInt8) : ∃ r : Resp,
    r.Holds (lines (log.opening ++ listed w.contents)) ∧
      s.countersResponse aResp = r.aResp.store (r.start - 1) 0 := by
  have hr := holds_response (w := s.vFlowCountWrapped) aResp h.contents
  rw [h.opening] at hr
  exact ⟨_, hr, rfl⟩

variable {texts : List Text} {r : Resp}

theorem length_lines (h : ∀ text ∈ texts, Kept text) : (lines texts).length ≤ maxSizeTuningString * texts.length := by
  induction texts with
  | nil => simp [lines]
  | cons text texts ih =>
    rw [List.forall_mem_cons] at h
    have hlt := h.1.length_lt
    have hrest := ih h.2
    simp only [lines, List.flatMap_cons, List.length_append, List.length_cons, List.length_nil, Nat.mul_succ] at *
    omega

theorem mem_listed {hists : List (List Text)} {text : Text} (h : text ∈ listed hists) :
    ∃ hist ∈ hists, text ∈ hist := by
  obtain ⟨hist, hmem, hlast⟩ := List.mem_flatMap.mp h
  exact ⟨hist, hmem, List.mem_of_mem_drop hlast⟩

theorem length_listed (hists : List (List Text)) :
    (listed hists).length ≤ maxTuningActivitiesPerFlow * hists.length := by
  unfold listed
  induction hists with
  | nil => simp
  | cons hist hists ih =>
    have hle := Rounds.roundLength_le (n := hist.length) maxTuningActivities_pos
    have hlast : (Rounds.lastRound maxTuningActivitiesPerFlow hist).length ≤ maxTuningActivitiesPerFlow := by
      unfold Rounds.lastRound List.rtake
      rw [List.length_drop]
      omega
    simp only [List.flatMap_cons, List.length_append, List.length_cons, Nat.mul_succ] at *
    omega

theorem listed_perm {hists more : List (List Text)} (h : hists.Perm more) : (listed hists).Perm (listed more) :=
  h.flatMap_right _

theorem length_lines_perm {more : List Text} (h : texts.Perm more) : (lines texts).length = (lines more).length :=
  (h.flatMap_right _).length_eq

/-- The first NUL of the response is the one written at the end. -/
theorem responseText_eq (h : r.Holds (lines texts)) (hne : texts ≠ []) (hstr : ∀ text ∈ texts, 0 ∉ text)
    (hlt : (lines texts).length ≤ maxSizeOfTheResponse) :
    responseText (r.aResp.store (r.start - 1) 0) = [10].intercalate texts := by
  have hout : lines texts = (lines texts).dropLast ++ [10] := lines_concat hne
  have hpos : 0 < (lines texts).length := by
    rw [hout, List.length_append]
    exact Nat.succ_pos _
  have hstart : r.start - 1 = ((lines texts).dropLast.length : ℕ) := by
    rw [h.start_eq, List.length_dropLast]
    omega
  obtain ⟨rest, hread⟩ := Region.read_prefix (m := r.aResp) hlt
  rw [h.read_eq, hout, List.append_assoc, List.singleton_append] at hread
  have hchars : ∀ c ∈ (lines texts).dropLast, (decide (c ≠ 0)) = true := by
    intro c hc
    have hc' := List.dropLast_eq_take ▸ hc
    obtain ⟨text, htext, hmem⟩ : ∃ text ∈ texts, c ∈ text ++ [10] := List.mem_flatMap.mp (List.mem_of_mem_take hc')
    rcases List.mem_append.mp hmem with hmem | hmem
    · exact decide_eq_true fun h0 => hstr text htext (h0 ▸ hmem)
    · rw [List.mem_singleton.mp hmem]
      rfl
  unfold responseText
  rw [hstart, Region.read_store, hread, List.set_append_right _ _ (Nat.le_refl _), Nat.sub_self, List.set_cons_zero,
    List.takeWhile_append_of_pos hchars, dropLast_lines]
  simp

/-- The text occurs in the response if it occurs in one of its lines. -/
theorem noTuningActivity_infix :
    noTuningActivity <:+: [10].intercalate texts ↔ ∃ text ∈ texts, noTuningActivity <:+: text := by
  induction texts with
  | nil => simp [List.intercalate, noTuningActivity, bytes]
  | cons text texts ih =>
    cases texts with
    | nil => rw [List.intercalate_singleton]; simp
    | cons next texts =>
      rw [List.intercalate_cons_cons, List.append_assoc, List.singleton_append,
        Search.infix_append_cons (by decide), ih]
      simp

theorem noActivityLine_infix : noTuningActivity <:+: noActivityLine := ⟨bytes "***", bytes "***", rfl⟩

/-- No flow that is listed has had an activity. -/
def FlowLog.Silent (log : FlowLog) : Prop := ∀ hist ∈ log.tracked, hist = []

theorem expected_eq_nil : log.expected = [] ↔ log.Silent := by
  unfold FlowLog.expected FlowLog.Silent
  rw [List.flatMap_eq_nil_iff]
  refine forall₂_congr fun hist _ => ?_
  rw [List.rtake, List.drop_eq_nil_iff, ← List.length_eq_zero_iff]
  have hpos := maxTuningActivities_pos
  omega

theorem tracked_eq (hle : log.flows.length ≤ numOfFlowsToKeepTrackOf) : log.tracked = log.flows := by
  unfold FlowLog.tracked List.rtake
  rw [Nat.sub_eq_zero_of_le hle, List.drop_zero]

/-- Until four flows have been seen the first one is one of those listed. -/
theorem head_of_silent (hle : log.flows.length ≤ numOfFlowsToKeepTrackOf) (h : log.Silent) :
    log.flows.head? = some [] := by
  unfold FlowLog.Silent at h
  rw [tracked_eq hle] at h
  obtain ⟨first, rest, hflows⟩ : ∃ first rest, log.flows = first :: rest :=
    List.exists_cons_of_ne_nil (by simp [FlowLog.flows])
  rw [hflows, List.head?_cons, h first (by simp [hflows])]

theorem listed_eq_nil {hists : List (List Text)} : listed hists = [] ↔ ∀ hist ∈ hists, hist = [] := by
  simp only [listed, List.flatMap_eq_nil_iff, Rounds.lastRound_eq_nil]

theorem opening_cases (log : FlowLog) : log.opening = [] ∨ log.opening = [noActivityLine] := by
  unfold FlowLog.opening
  split_ifs
  · exact .inr rfl
  · exact .inl rfl

/-- Nothing is listed only when the four have taken turns and nothing has
happened since. -/
theorem opening_listed_eq_nil {hists : List (List Text)} (hp : hists.Perm log.tracked) :
    log.opening ++ listed hists = [] ↔ numOfFlowsToKeepTrackOf < log.flows.length ∧ log.Silent := by
  have hsilent : listed hists = [] ↔ log.Silent := by
    rw [listed_eq_nil, FlowLog.Silent]
    simp only [hp.mem_iff]
  rw [List.append_eq_nil_iff, hsilent]
  refine and_congr_left fun h => ?_
  unfold FlowLog.opening
  constructor
  · intro hnil
    by_contra hle
    rw [if_pos ⟨by omega, head_of_silent (by omega) h⟩] at hnil
    cases hnil
  · intro hlt
    exact if_neg fun hc => absurd hc.1 (by omega)

/-- Ten lines for a flow, of at most 1500 bytes. -/
theorem length_lines_listed (hk : AllKept log) (flows : List (List Text)) (hflows : ∀ hist ∈ flows, hist ∈ log.flows) :
    (lines (listed flows)).length ≤ 15000 * flows.length := by
  have hkept : ∀ text ∈ listed flows, Kept text := by
    intro text htext
    obtain ⟨hist, hmem, hin⟩ := mem_listed htext
    exact hk hist (hflows hist hmem) text hin
  have hlines := length_lines hkept
  have hlisted := length_listed flows
  unfold maxSizeTuningString at hlines
  unfold maxTuningActivitiesPerFlow at hlisted
  omega

/-- The response is shorter than its array. -/
theorem length_response (hk : AllKept log) {hists : List (List Text)} (hp : hists.Perm log.tracked) :
    (lines (log.opening ++ listed hists)).length < maxSizeOfTheResponse := by
  have hmax : maxSizeOfTheResponse = 60032 := by decide
  rw [lines_append, List.length_append, length_lines_perm (listed_perm hp)]
  unfold FlowLog.opening
  split_ifs with hopen
  · -- the first flow lists nothing
    obtain ⟨first, rest, hflows⟩ : ∃ first rest, log.flows = first :: rest :=
      List.exists_cons_of_ne_nil (by simp [FlowLog.flows])
    have hfirst : first = [] := by simpa [hflows] using hopen.2
    have hlisted : listed log.tracked = listed rest := by
      rw [tracked_eq hopen.1, hflows, hfirst]
      rfl
    have hrest := length_lines_listed hk rest (fun hist hmem => by simp [hflows, hmem])
    have hlen := hopen.1
    rw [hflows, List.length_cons, numOfFlowsToKeepTrackOf] at hlen
    have hline : (lines [noActivityLine]).length = 45 := by decide
    rw [hlisted]
    omega
  · have htracked := length_lines_listed hk log.tracked (fun hist hmem => List.mem_of_mem_drop hmem)
    have hlen : log.tracked.length ≤ 4 := by
      unfold FlowLog.tracked List.rtake
      rw [List.length_drop, numOfFlowsToKeepTrackOf]
      omega
    have hnone : (lines []).length = 0 := rfl
    omega

/-! What the response is: with a line, and without any. -/

variable {t : Activities} {front : List Text}

theorem responseText_lines (h : Tracks s log w) (hk : AllKept log)
    (hne : ¬ (numOfFlowsToKeepTrackOf < log.flows.length ∧ log.Silent)) (aResp : ℤ → UInt8) :
    responseText (s.countersResponse aResp) = [10].intercalate (log.opening ++ listed w.contents) := by
  obtain ⟨r, hr, hresp⟩ := h.response aResp
  have hp : w.contents.Perm log.tracked := h.holds.contents_perm
  rw [hresp]
  refine responseText_eq hr ?_ ?_ (length_response hk hp).le
  · rwa [Ne, opening_listed_eq_nil hp]
  · intro text htext
    rcases List.mem_append.mp htext with hopen | hlist
    · rcases opening_cases log with ho | ho
      · rw [ho] at hopen
        cases hopen
      · rw [ho, List.mem_singleton] at hopen
        rw [hopen]
        decide
    · obtain ⟨hist, hmem, hin⟩ := mem_listed hlist
      exact (hk hist (List.mem_of_mem_drop (hp.mem_iff.mp hmem)) text hin).isString

/-- Flows without an activity list nothing. -/
theorem listFlows_empty {fs : List FlowCounters} {hists : List (List Text)} {g : ℕ}
    (hfs : List.Forall₂ Represents fs hists) (hempty : ∀ hist ∈ hists, hist = []) :
    (fs.zipIdx g).foldl (listFlow true) r = r := by
  induction hfs generalizing g with
  | nil => rfl
  | @cons f hist fs hists hf hfs ih =>
    rw [List.forall_mem_cons] at hempty
    have hfirst : listFlow true r (f, g) = r := by
      unfold listFlow
      dsimp only
      rw [if_neg (by simp), hf.slots_eq, hempty.1]
      rfl
    rw [List.zipIdx_cons, List.foldl_cons, hfirst]
    exact ih hempty.2

/-- Of four flows without an activity nothing is written but a byte in front of
the array. -/
theorem response_silent (h : Tracks s log w) (hlt : numOfFlowsToKeepTrackOf < log.flows.length) (hs : log.Silent)
    (aResp : ℤ → UInt8) : s.countersResponse aResp = (⟨aResp, []⟩ : Region UInt8).store (-1) 0 := by
  have hempty : ∀ hist ∈ w.contents, hist = [] := fun hist hmem => hs hist (h.holds.contents_perm.mem_iff.mp hmem)
  unfold countersResponse
  rw [h.wrapped_iff.mpr hlt, listFlows_empty h.contents hempty]
  rfl

/-- A response that is not written can say anything. -/
theorem responseText_silent (h : Tracks s log w) (hlt : numOfFlowsToKeepTrackOf < log.flows.length)
    (hs : log.Silent) : ∃ rest, responseText (s.countersResponse fun _ => 88) = 88 :: rest := by
  have hone : 1 ≤ maxSizeOfTheResponse := by decide
  rw [response_silent h hlt hs]
  unfold responseText
  obtain ⟨rest, hread⟩ := Region.read_prefix (m := (⟨fun _ => 88, []⟩ : Region UInt8).store (-1) 0) hone
  have hfirst : ((⟨fun _ => 88, []⟩ : Region UInt8).store (-1) 0).read 1 = [88] := by decide
  rw [hread, hfirst, List.singleton_append]
  exact ⟨_, List.takeWhile_cons_of_pos (by decide)⟩

end Response

/-! ### The report -/

section Report

variable {s : Activities} {log : FlowLog} {w : Window (List Text) numOfFlowsToKeepTrackOf}

/-- After four flows there must have been an activity in the last four. -/
def FlowLog.Heard (log : FlowLog) : Prop := numOfFlowsToKeepTrackOf < log.flows.length → ¬ log.Silent

/-- Each flow has had at most ten activities, or a multiple of ten. -/
def FlowLog.Whole (log : FlowLog) : Prop :=
  ∀ hist ∈ log.tracked, hist.length ≤ maxTuningActivitiesPerFlow ∨ maxTuningActivitiesPerFlow ∣ hist.length

/-- The first flow, as long as it is asked, is silent only when all are. -/
def FlowLog.FirstSpeaks (log : FlowLog) : Prop :=
  log.flows.length ≤ numOfFlowsToKeepTrackOf → log.flows.head? = some [] → log.Silent

theorem length_le_lines (texts : List Text) : texts.length ≤ (lines texts).length := by
  induction texts with
  | nil => exact Nat.le_refl 0
  | cons text texts ih =>
    simp only [lines, List.flatMap_cons, List.length_append, List.length_cons] at *
    omega

/-- What is listed is no longer than what was expected, and as long only if
it is all there. -/
theorem lines_listed_le (hists : List (List Text)) :
    let expected := hists.flatMap fun hist => hist.rtake maxTuningActivitiesPerFlow
    (lines (listed hists)).length ≤ (lines expected).length ∧
      ((lines (listed hists)).length = (lines expected).length → ∀ hist ∈ hists,
        hist.length ≤ maxTuningActivitiesPerFlow ∨ maxTuningActivitiesPerFlow ∣ hist.length) := by
  induction hists with
  | nil => exact ⟨Nat.le_refl _, fun _ hist hmem => by cases hmem⟩
  | cons hist hists ih =>
    obtain ⟨hle, heq⟩ := ih
    obtain ⟨rest, hsplit, hrest⟩ := Rounds.lastRound_split maxTuningActivities_pos hist
    have hlen := length_le_lines rest
    simp only [listed, List.flatMap_cons, lines_append, List.length_append, hsplit] at *
    refine ⟨by omega, fun htotal => ?_⟩
    rw [List.forall_mem_cons]
    refine ⟨hrest.mp (List.eq_nil_of_length_eq_zero (by omega)), heq (by omega)⟩

theorem kept_of_expected (hk : AllKept log) {text : Text} (h : text ∈ log.expected) : Kept text := by
  obtain ⟨hist, hmem, hin⟩ := List.mem_flatMap.mp h
  exact hk hist (List.mem_of_mem_drop hmem) text (List.mem_of_mem_drop hin)

/-- Two lists of lines of the same text are as long. -/
theorem length_of_intercalate {xs ys : List Text} (hx : xs ≠ []) (hy : ys ≠ [])
    (h : [10].intercalate xs = [10].intercalate ys) : (lines xs).length = (lines ys).length := by
  rw [← dropLast_lines, ← dropLast_lines] at h
  rw [lines_concat hx, lines_concat hy, h]

/-- A complete response has all lines. -/
theorem whole_of_complete (h : Tracks s log w) (hk : AllKept log) (hs : ¬ log.Silent) (hc : Complete s log) :
    log.Whole := by
  obtain ⟨front, hfront, texts, hperm, hresp⟩ := hc fun _ => 0
  rw [responseText_lines h hk (fun hlt => hs hlt.2)] at hresp
  have hp : w.contents.Perm log.tracked := h.holds.contents_perm
  obtain ⟨hle, heq⟩ := lines_listed_le log.tracked
  have htexts : texts ≠ [] := by
    rintro rfl
    exact hs (expected_eq_nil.mp hperm.nil_eq.symm)
  have hlen := length_of_intercalate ?_ (List.append_ne_nil_of_right_ne_nil front htexts) hresp
  · rw [lines_append, lines_append, List.length_append, List.length_append, length_lines_perm (listed_perm hp),
      length_lines_perm hperm] at hlen
    simp only [List.mem_cons, List.not_mem_nil, or_false] at hfront
    rcases opening_cases log with ho | ho <;> rcases hfront with rfl | rfl
    · rw [ho] at hlen
      exact heq (Nat.add_left_cancel hlen)
    · rw [ho] at hlen
      have hpos : 0 < (lines [noActivityLine]).length := by decide
      have hnone : (lines []).length = 0 := rfl
      have hle' : (lines (listed log.tracked)).length ≤ (lines log.expected).length := hle
      omega
    · -- the line does not come from an activity
      have hin : noTuningActivity <:+: [10].intercalate texts := by
        rw [List.nil_append] at hresp
        rw [← hresp, ho, noTuningActivity_infix]
        exact ⟨noActivityLine, by simp, noActivityLine_infix⟩
      obtain ⟨text, hmem, htext⟩ := noTuningActivity_infix.mp hin
      exact absurd htext (kept_of_expected hk (hperm.mem_iff.mp hmem)).happened
    · rw [ho] at hlen
      exact heq (Nat.add_left_cancel hlen)
  · rw [Ne, opening_listed_eq_nil hp]
    exact fun hlt => hs hlt.2

theorem complete_iff (h : Tracks s log w) (hk : AllKept log) : Complete s log ↔ log.Whole ∧ log.Heard := by
  constructor
  · intro hc
    constructor
    · by_cases hs : log.Silent
      · intro hist hmem
        rw [hs hist hmem]
        exact .inl (Nat.zero_le _)
      · exact whole_of_complete h hk hs hc
    · intro hlt hs
      obtain ⟨rest, hrest⟩ := responseText_silent h hlt hs
      obtain ⟨front, hfront, texts, hperm, hresp⟩ := hc fun _ => 88
      rw [expected_eq_nil.mpr hs] at hperm
      rw [hrest, hperm.eq_nil, List.append_nil] at hresp
      simp only [List.mem_cons, List.not_mem_nil, or_false] at hfront
      rcases hfront with rfl | rfl
      · cases hresp
      · rw [List.intercalate_singleton] at hresp
        have hhead : some 88 = noActivityLine.head? := congrArg List.head? hresp
        exact absurd hhead (by decide)
  · intro ⟨hwhole, hheard⟩ aResp
    have hall : listed log.tracked = log.expected := by
      unfold listed FlowLog.expected
      refine List.flatMap_congr fun hist hmem => ?_
      obtain ⟨rest, hsplit, hrest⟩ := Rounds.lastRound_split maxTuningActivities_pos hist
      rw [hsplit, hrest.mpr (hwhole hist hmem), List.nil_append]
    refine ⟨log.opening, ?_, listed w.contents, ?_, responseText_lines h hk (fun hlt => hheard hlt.1 hlt.2) aResp⟩
    · simpa using opening_cases log
    · rw [← hall]
      exact listed_perm h.holds.contents_perm

/-- The line stands in front exactly when the text is in the response. -/
theorem noTuningActivity_response (h : Tracks s log w) (hk : AllKept log)
    (hne : ¬ (numOfFlowsToKeepTrackOf < log.flows.length ∧ log.Silent)) (aResp : ℤ → UInt8) :
    noTuningActivity <:+: responseText (s.countersResponse aResp) ↔ log.opening = [noActivityLine] := by
  rw [responseText_lines h hk hne, noTuningActivity_infix]
  constructor
  · intro ⟨text, hmem, htext⟩
    rcases List.mem_append.mp hmem with hopen | hlist
    · exact (opening_cases log).resolve_left (List.ne_nil_of_mem hopen)
    · obtain ⟨hist, hin, hlast⟩ := mem_listed hlist
      have hflow := List.mem_of_mem_drop (h.holds.contents_perm.mem_iff.mp hin)
      exact absurd htext (hk hist hflow text hlast).happened
  · intro ho
    exact ⟨noActivityLine, by simp [ho], noActivityLine_infix⟩

theorem opening_eq_line :
    log.opening = [noActivityLine] ↔ log.flows.length ≤ numOfFlowsToKeepTrackOf ∧ log.flows.head? = some [] := by
  unfold FlowLog.opening
  split_ifs with hopen <;> simp [hopen]

/-- What a response with a line writes, and the NUL at its end. -/
theorem response_inside (h : Tracks s log w) (hk : AllKept log)
    (hne : ¬ (numOfFlowsToKeepTrackOf < log.flows.length ∧ log.Silent)) (aResp : ℤ → UInt8) :
    (∀ i ∈ (s.countersResponse aResp).written, 0 ≤ i ∧ i < maxSizeOfTheResponse) ∧
      ∃ i : ℤ, (0 ≤ i ∧ i < maxSizeOfTheResponse) ∧ (s.countersResponse aResp).cells i = 0 := by
  obtain ⟨r, hr, hresp⟩ := h.response aResp
  have hp : w.contents.Perm log.tracked := h.holds.contents_perm
  have hlt := length_response hk hp
  have hsome : log.opening ++ listed w.contents ≠ [] := by rwa [Ne, opening_listed_eq_nil hp]
  have hout := lines_concat hsome
  have hpos : 0 < (lines (log.opening ++ listed w.contents)).length := by
    rw [hout, List.length_append]
    exact Nat.succ_pos _
  have hstart := hr.start_eq
  rw [hresp]
  constructor
  · intro i hi
    rw [Region.mem_written_store] at hi
    rcases hi with hi | hi
    · have := hr.written i hi
      omega
    · omega
  · exact ⟨r.start - 1, by omega, Function.update_self _ _ _⟩

theorem wellFormed_iff (h : Tracks s log w) (hk : AllKept log) : WellFormed s log ↔ log.Heard ∧ log.FirstSpeaks := by
  constructor
  · intro hwf
    have hheard : log.Heard := by
      intro hlt hs
      have hin := (hwf fun _ => 0).1 (-1) ?_
      · omega
      · rw [response_silent h hlt hs, Region.mem_written_store]
        exact .inr rfl
    refine ⟨hheard, fun hle hfirst => ?_⟩
    apply ((hwf fun _ => 0).2.2).mp
    rw [noTuningActivity_response h hk (fun hlt => hheard hlt.1 hlt.2), opening_eq_line]
    exact ⟨hle, hfirst⟩
  · intro ⟨hheard, hfirst⟩ aResp
    have hne : ¬ (numOfFlowsToKeepTrackOf < log.flows.length ∧ log.Silent) := fun hlt => hheard hlt.1 hlt.2
    obtain ⟨hinside, hend⟩ := response_inside h hk hne aResp
    refine ⟨hinside, hend, ?_⟩
    rw [noTuningActivity_response h hk hne, opening_eq_line]
    constructor
    · intro ⟨hle, hhead⟩
      exact hfirst hle hhead
    · intro hs
      have hle : log.flows.length ≤ numOfFlowsToKeepTrackOf := by
        by_contra hlt
        exact hheard (by omega) hs
      exact ⟨hle, head_of_silent hle hs⟩

end Report

/-- **The report is complete** in exactly the states in which each of the last
four flows has had at most ten activities, or a multiple of ten, and in which
there is one if the four have taken turns. -/
theorem report_complete (es : List Event) : Runs.Always step {}
    (fun es t => Complete t (history {} {} es) ↔ (history {} {} es).Whole ∧ (history {} {} es).Heard) es := by
  intro pre suf t _ hr
  obtain ⟨⟨w, hw⟩, hk⟩ := tracks_run hr
  exact complete_iff hw hk

/-- What the timers' handlers record. -/
def doingSomething : Activity where
  pActivity := bytes "Mon Jan  1 00:00:00. TUNING: ***hop_key.hop_index 1, Doing Something"
  isString := by decide
  happened h := absurd (h.subset (show 102 ∈ noTuningActivity by decide)) (by decide)

/-- Eleven activities in the first flow: the response has the last one only. -/
theorem eleventh_alone : ¬ Runs.Always step {} (fun es t => Complete t (history {} {} es))
    (List.replicate 11 (.record doingSomething)) := by
  intro h
  obtain ⟨t, hr, hearlier, hcurrent⟩ := run_records (a := doingSomething) 11 tracks_initial (by decide)
  obtain ⟨⟨w, hw⟩, hk⟩ := tracks_run hr
  have hwhole := ((complete_iff hw hk).mp (h.last hr)).1
  have hmem : (history {} {} (List.replicate 11 (.record doingSomething))).current ∈
      (history {} {} (List.replicate 11 (.record doingSomething))).tracked := by
    rw [FlowLog.tracked, FlowLog.flows, hearlier]
    exact List.mem_singleton_self _
  have hlen := hwhole _ hmem
  rw [hcurrent] at hlen
  revert hlen
  decide

/-- **The report is well formed** in exactly the states in which there is an
activity if the four flows have taken turns, and before that either the first
flow has one or no flow has. -/
theorem report_wellFormed (es : List Event) : Runs.Always step {}
    (fun es t => WellFormed t (history {} {} es) ↔ (history {} {} es).Heard ∧ (history {} {} es).FirstSpeaks) es := by
  intro pre suf t _ hr
  obtain ⟨⟨w, hw⟩, hk⟩ := tracks_run hr
  exact wellFormed_iff hw hk

/-- Four flows after the first, without an activity: the NUL goes in front of
the array. -/
theorem report_unwritten : ¬ Runs.Always step {} (fun es t => WellFormed t (history {} {} es))
    (List.replicate 5 .newTraffic) := by
  intro h
  have hr : Runs.run step {} (List.replicate 5 .newTraffic) = some _ := rfl
  obtain ⟨⟨w, hw⟩, hk⟩ := tracks_run hr
  have hheard := ((wellFormed_iff hw hk).mp (h.last hr)).1
  revert hheard
  unfold FlowLog.Heard FlowLog.Silent
  decide

end Activities
end TuningMod

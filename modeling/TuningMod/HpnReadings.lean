/-
# Whether a reading is one hop record of the last window

A reading is whole when all it says was taken from one hop record. The second
reading of a publication loses that when `sample_func` writes the buffer that
`pts` points to before the reading is taken, and a window of one hop record
with the greatest queue occupancy there is is published as a reading of no
record. A second reading is out of date when a publication with one reading
leaves the pointer of an earlier one set. These are all: a run without them,
however clients read after it, delivers whole readings of the last window only.

Key definitions: `OneSample`, `BelongsTo`, `Overwrites`, `LoneMaximum`, `LeavesSecond`.
Key theorems: `inv_step`, `whole_readings`, `fresh_readings`.
-/
import TuningMod.Hpn
import Mathlib.Data.Fintype.EquivFin
import Mathlib.Tactic.Common

namespace TuningMod

/-! ### Readings and hop records -/

/-- The reading is one hop record of window `w`. -/
def OneOf (records : List (ℕ × HopRecord)) (w : ℕ) (r : Reading) : Prop :=
  ∃ (n : ℕ) (hop : HopRecord), records[n]? = some (w, hop) ∧ r = hop.reading n

/-- The reading is one hop record. -/
def OneSample (records : List (ℕ × HopRecord)) (r : Reading) : Prop := ∃ w, OneOf records w r

/-- The hop records that what the reading says was taken from. -/
def Reading.origins (r : Reading) : List (Option ℕ) :=
  [r.timestamp.origin, r.values.hopLatency.origin, r.values.queueOccupancy.origin, r.values.switchId.origin]

/-- All of the reading was taken from hop records of window `w`. -/
def BelongsTo (records : List (ℕ × HopRecord)) (w : ℕ) (r : Reading) : Prop :=
  ∀ o ∈ r.origins, ∃ (n : ℕ) (hop : HopRecord), o = some n ∧ records[n]? = some (w, hop)

section Readings

variable {records : List (ℕ × HopRecord)} {r : Reading} {w w' n : ℕ} {hop : HopRecord}

theorem origins_reading (hop : HopRecord) (n : ℕ) : (hop.reading n).origins = List.replicate 4 (some n) := rfl

theorem OneOf.oneSample (h : OneOf records w r) : OneSample records r := ⟨w, h⟩

theorem OneOf.belongsTo (h : OneOf records w r) : BelongsTo records w r := by
  obtain ⟨n, hop, hn, rfl⟩ := h
  intro o ho
  rw [origins_reading] at ho
  exact ⟨n, hop, List.eq_of_mem_replicate ho, hn⟩

/-- A reading belongs to one window at most. -/
theorem BelongsTo.unique (h : BelongsTo records w r) (h' : BelongsTo records w' r) : w = w' := by
  have hmem : r.timestamp.origin ∈ r.origins := List.mem_cons_self ..
  obtain ⟨n, hop, hn, hrec⟩ := h _ hmem
  obtain ⟨n', hop', hn', hrec'⟩ := h' _ hmem
  obtain rfl := Option.some.inj (hn.symm.trans hn')
  exact (Prod.mk.inj (Option.some.inj (hrec.symm.trans hrec'))).1

variable {x : ℕ × HopRecord}

theorem getElem?_log (h : records[n]? = some x) (y : ℕ × HopRecord) : (records ++ [y])[n]? = some x := by
  rw [List.getElem?_append_left (List.getElem?_eq_some_iff.mp h).1, h]

theorem OneOf.log (h : OneOf records w r) : OneOf (records ++ [x]) w r := by
  obtain ⟨n, hop, hn, hr⟩ := h
  exact ⟨n, hop, getElem?_log hn x, hr⟩

theorem OneSample.log (h : OneSample records r) : OneSample (records ++ [x]) r := by
  obtain ⟨w, hone⟩ := h
  exact ⟨w, hone.log⟩

theorem BelongsTo.log (h : BelongsTo records w r) : BelongsTo (records ++ [x]) w r := by
  intro o ho
  obtain ⟨n, hop, hn, hrec⟩ := h o ho
  exact ⟨n, hop, hn, getElem?_log hrec x⟩

end Readings

namespace Hpn

/-! ### The steps that go wrong -/

/-- A hop record's time is written to the buffer of a second reading that is
not taken yet. -/
def Overwrites (s : Hpn) (e : HpnEvent) : Prop :=
  ∃ md clk msCtimeBuf side, e = .hop md clk msCtimeBuf ∧ s.pts = some side ∧
    s.isExtreme (.ofMetadata md clk msCtimeBuf) side = true

/-- A window is published whose only hop record has the queue occupancy
`QINFO_START_MIN_VALUE`. -/
def LoneMaximum (s : Hpn) (e : HpnEvent) : Prop :=
  e = .pollReturns true ∧ s.Single .max ∧ s.max.value.val = 0

/-- One reading is published while the second of an earlier publication is not
taken yet. -/
def LeavesSecond (s : Hpn) (e : HpnEvent) : Prop :=
  e = .pollReturns true ∧ (∃ side, s.Single side) ∧ s.pts ≠ none

/-! ### The invariant -/

/-- The extreme of a window is one of its records, once there is one. -/
def ExtremeOk (s : Hpn) (side : Side) : Prop :=
  (s.extreme side).value = ⟨start side, none⟩ ∨ OneOf s.records s.window (s.extreme side).reading

structure Inv (s : Hpn) : Prop where
  extremes : ∀ side, s.ExtremeOk side
  maximum : s.max.value.origin ≠ none → s.max.value.val ≠ 0
  first : s.hpnretcdone = true → OneOf s.records s.publishedWindow s.sHpnRetMsg
  second : ∀ side, s.pts = some side → OneSample s.records (s.second side)
  done : s.pts ≠ none → s.hpnretcdone = true
  delivered : ∀ d ∈ s.delivered, ∀ r ∈ d.readings, OneSample s.records r

section Steps

variable {s s' : Hpn} {e : HpnEvent} {r : HopRecord} {client : ℕ} {all : Bool} {side : Side}

theorem inv_initial : Inv {} where
  extremes side := by
    cases side with
    | min => exact Or.inl rfl
    | max => exact Or.inl rfl
  maximum h := absurd rfl h
  first h := by cases h
  second _ h := by cases h
  done h := absurd rfl h
  delivered _ h := by simp at h

theorem Inv.sampleHop (h : Inv s) (hw : ∀ side, s.pts = some side → s.isExtreme r side = false) :
    Inv (s.sampleHop r) where
  extremes side := by
    unfold ExtremeOk
    rw [extreme_sampleHop]
    by_cases hx : s.isExtreme r side = true
    · rw [if_pos hx]
      exact Or.inr ⟨s.records.length, r, by simp [Hpn.sampleHop], rfl⟩
    · rw [if_neg hx]
      exact (h.extremes side).imp_right OneOf.log
  maximum := by
    show ((s.sampleHop r).extreme .max).value.origin ≠ none → ((s.sampleHop r).extreme .max).value.val ≠ 0
    rw [extreme_sampleHop]
    by_cases hx : s.isExtreme r .max = true
    · rw [if_pos hx]
      have hgt : s.max.value.val < r.qinfo := by
        simp only [isExtreme, Bool.and_eq_true, decide_eq_true_eq] at hx
        exact hx.1
      intro _ hz
      have hq : r.qinfo = 0 := hz
      rw [hq] at hgt
      exact absurd hgt UInt32.not_lt_zero
    · rw [if_neg hx]
      exact h.maximum
  first hd := (h.first hd).log
  second side hpts := by
    rw [second_sampleHop (hw side hpts)]
    exact (h.second side hpts).log
  done := h.done
  delivered d hd r' hr' := (h.delivered d hd r' hr').log

/-- An extreme that is set is one record of the window. -/
theorem Inv.of_set (h : Inv s) (hne : (s.extreme side).value.val ≠ start side) :
    OneOf s.records s.window (s.extreme side).reading := by
  rcases h.extremes side with hstart | hone
  · rw [hstart] at hne
    exact absurd rfl hne
  · exact hone

theorem Inv.publishOne (h : Inv s) {first : Extreme} (hone : OneOf s.records s.window first.reading) :
    Inv (s.publishOne first) where
  extremes side := by
    unfold ExtremeOk
    rw [extreme_publishOne]
    exact h.extremes side
  maximum := h.maximum
  first _ := hone
  second side hpts := by
    rw [second_publishOne]
    exact h.second side hpts
  done _ := rfl
  delivered := h.delivered

theorem Inv.publishTwo (h : Inv s) {first : Extreme} (hone : OneOf s.records s.window first.reading)
    (htwo : OneOf s.records s.window (s.extreme side).reading) :
    Inv (s.publishTwo first (s.extreme side) side) where
  extremes side' := by
    unfold ExtremeOk
    rw [extreme_publishTwo]
    exact h.extremes side'
  maximum := h.maximum
  first _ := hone
  second side' hpts := by
    obtain rfl := Option.some.inj hpts
    rw [second_publishTwo]
    exact htwo.oneSample
  done _ := rfl
  delivered := h.delivered

/-- What a publication is made of is set, if it is not a lone maximum. -/
theorem set_of_single (hs : s.Single side) (hl : ¬ s.LoneMaximum (.pollReturns true)) :
    (s.extreme side).value.val ≠ start side := by
  cases side with
  | min => exact hs.2.1
  | max => exact fun hz => hl ⟨rfl, hs, hz⟩

theorem Inv.publish (h : Inv s) (hl : ¬ s.LoneMaximum (.pollReturns true)) : Inv s.publish := by
  rcases publish_cases s with ⟨-, heq⟩ | ⟨hset, first, side, heq⟩ | ⟨side, hs, heq⟩
  · rw [heq]
    exact h
  · rw [heq]
    exact h.publishTwo (h.of_set (hset first)) (h.of_set (hset side))
  · rw [heq]
    exact h.publishOne (h.of_set (set_of_single hs hl))

theorem Inv.startPoll (h : Inv s) : Inv s.startPoll where
  extremes side := by
    cases side with
    | min => exact Or.inl rfl
    | max => exact Or.inl rfl
  maximum h := absurd rfl h
  first := h.first
  second side hpts := by
    rw [second_startPoll]
    exact h.second side hpts
  done := h.done
  delivered := h.delivered

/-- Either function delivers the first reading or the second one. -/
theorem mem_readings {rd : Reading} (hr : rd ∈ s.fDoHpnReadReadings ∨ rd ∈ s.fDoHpnReadAllReadings) :
    rd = s.sHpnRetMsg ∨ ∃ side, s.pts = some side ∧ rd = s.second side := by
  unfold fDoHpnReadReadings fDoHpnReadAllReadings at hr
  cases hpts : s.pts with
  | none =>
    rw [hpts] at hr
    exact Or.inl (hr.elim List.mem_singleton.mp List.mem_singleton.mp)
  | some side =>
    rw [hpts] at hr
    rcases hr with hr | hr
    · exact Or.inr ⟨side, rfl, List.mem_singleton.mp hr⟩
    · rcases List.mem_cons.mp hr with hfirst | hr
      · exact Or.inl hfirst
      · exact Or.inr ⟨side, rfl, List.mem_singleton.mp hr⟩

theorem Inv.readings (h : Inv s) (hd : s.hpnretcdone = true) {rd : Reading}
    (hr : rd ∈ s.fDoHpnReadReadings ∨ rd ∈ s.fDoHpnReadAllReadings) : OneSample s.records rd := by
  rcases mem_readings hr with rfl | ⟨side, hpts, rfl⟩
  · exact (h.first hd).oneSample
  · exact h.second side hpts

theorem Inv.deliver (h : Inv s) {readings : List Reading} (hr : ∀ r ∈ readings, OneSample s.records r) :
    Inv (s.deliver client all readings) where
  extremes side := by
    unfold ExtremeOk
    rw [extreme_deliver]
    exact h.extremes side
  maximum := h.maximum
  first hd := by cases hd
  second _ hpts := by cases hpts
  done hpts := absurd rfl hpts
  delivered d hd := by
    rcases List.mem_append.mp hd with hd | hd
    · exact h.delivered d hd
    · rw [List.mem_singleton.mp hd]
      exact hr

/-- A hop record that overwrites no time is no extreme of the side pointed to. -/
theorem not_extreme {md : IntHopMetadata} {clk : ℤ} {msCtimeBuf : List UInt8}
    (hw : ¬ s.Overwrites (.hop md clk msCtimeBuf)) (side : Side) (hpts : s.pts = some side) :
    s.isExtreme (.ofMetadata md clk msCtimeBuf) side = false := by
  rw [← Bool.not_eq_true]
  exact fun hx => hw ⟨md, clk, msCtimeBuf, side, rfl, hpts, hx⟩

theorem inv_step (h : Inv s) (hw : ¬ s.Overwrites e) (hl : ¬ s.LoneMaximum e) (hs : s.step e = some s') :
    Inv s' := by
  cases e with
  | hop md clk msCtimeBuf =>
    obtain rfl := Option.some.inj hs
    exact h.sampleHop (not_extreme hw)
  | pollReturns ok =>
    obtain rfl := Option.some.inj hs
    cases ok with
    | true => exact (h.publish hl).startPoll
    | false => exact h.startPoll
  | read client =>
    obtain ⟨hd, rfl⟩ := step_read hs
    exact h.deliver fun r hr => h.readings hd (Or.inl hr)
  | readAll client =>
    obtain ⟨hd, -, rfl⟩ := step_readAll hs
    exact h.deliver fun r hr => h.readings hd (Or.inr hr)
  | connect client =>
    obtain rfl := step_connect hs
    exact ⟨h.extremes, h.maximum, h.first, h.second, h.done, h.delivered⟩
  | disconnect client =>
    obtain rfl := step_disconnect hs
    exact ⟨h.extremes, h.maximum, h.first, h.second, h.done, h.delivered⟩

end Steps

/-! ### Reading on -/

/-- A client that comes, or reads. -/
def isRead : HpnEvent → Bool
  | .read _ | .readAll _ | .connect _ => true
  | _ => false

/-- However clients go on reading, what has been delivered then is as `P` says. -/
def ReadsOn (P : Hpn → Prop) (s : Hpn) : Prop :=
  ∀ reads s', (∀ e ∈ reads, isRead e = true) → Runs.run step s reads = some s' → P s'

section ReadingOn

variable {s s' : Hpn} {e : HpnEvent} {side : Side} {rd : Reading}

/-- What is kept by the readers' steps and gives `P` gives it however clients read. -/
theorem readsOn_of {I P : Hpn → Prop} (hP : ∀ s, I s → P s)
    (hI : ∀ s s' e, I s → isRead e = true → s.step e = some s' → I s') (h : I s) : ReadsOn P s := by
  intro reads s' hreads hr
  have hsteps : Runs.Steps step s (fun _ _ e => isRead e = true) reads := by
    intro pre e suf t t' he _ _
    exact hreads e (by rw [he]; simp)
  exact hP s' ((Runs.always_of_steps (I := fun _ t => I t) h
    (fun _ t e t' _ hi hc hs => hI t t' e hi hc hs) hsteps).last hr)

theorem not_bad_of_isRead (h : isRead e = true) :
    ¬ s.Overwrites e ∧ ¬ s.LoneMaximum e ∧ ¬ s.LeavesSecond e := by
  refine ⟨?_, ?_, ?_⟩
  · rintro ⟨md, clk, msCtimeBuf, side, rfl, -⟩
    cases h
  · rintro ⟨rfl, -⟩
    cases h
  · rintro ⟨rfl, -⟩
    cases h

/-- Whatever waits to be read, a client that comes for all readings gets it. -/
theorem exists_read (hd : s.hpnretcdone = true) (hr : rd ∈ s.fDoHpnReadAllReadings) :
    ∃ reads s' d, (∀ e ∈ reads, isRead e = true) ∧ Runs.run step s reads = some s' ∧
      d ∈ s'.delivered ∧ rd ∈ d.readings ∧ d.window = s.publishedWindow ∧ s'.records = s.records := by
  obtain ⟨c, hc⟩ := Infinite.exists_notMem_finset s.clients.toFinset
  rw [List.mem_toFinset] at hc
  have hconnect : s.step (.connect c) = some { s with clients := s.clients ++ [c] } := if_pos hc
  have hread : Hpn.step { s with clients := s.clients ++ [c] } (.readAll c) =
      some (Hpn.deliver { s with clients := s.clients ++ [c] } c true s.fDoHpnReadAllReadings) :=
    if_pos ⟨hd, by simp⟩
  have hrun : Runs.run step s [.connect c, .readAll c] =
      some (Hpn.deliver { s with clients := s.clients ++ [c] } c true s.fDoHpnReadAllReadings) := by
    rw [Runs.run, hconnect, Option.bind_some, Runs.run, hread]
    rfl
  refine ⟨_, _, ⟨c, true, s.publications, s.publishedWindow, s.fDoHpnReadAllReadings⟩, by simp [isRead], hrun,
    ?_, hr, rfl, rfl⟩
  exact List.mem_append_right _ (List.mem_singleton.mpr rfl)

theorem first_mem_readAll (s : Hpn) : s.sHpnRetMsg ∈ s.fDoHpnReadAllReadings := by
  unfold fDoHpnReadAllReadings
  split <;> simp

theorem second_mem_readAll (h : s.pts = some side) : s.second side ∈ s.fDoHpnReadAllReadings := by
  simp [fDoHpnReadAllReadings, h]

theorem Overwrites.done (h : Inv s) (hw : s.Overwrites e) : s.hpnretcdone = true := by
  obtain ⟨md, clk, msCtimeBuf, side, -, hpts, -⟩ := hw
  exact h.done (by simp [hpts])

/-- After an overwriting hop record the second reading has the time of that record. -/
theorem Overwrites.spoils (h : Inv s) (hw : s.Overwrites e) (hs : s.step e = some s') :
    ∃ side r, s'.pts = some side ∧ s'.hpnretcdone = true ∧ s'.records = s.records ++ [(s.window, r)] ∧
      s'.publishedWindow = s.publishedWindow ∧ (s'.second side).timestamp.origin = some s.records.length ∧
      ∃ n < s.records.length, (s'.second side).values.hopLatency.origin = some n := by
  obtain ⟨md, clk, msCtimeBuf, side, rfl, hpts, hx⟩ := hw
  obtain rfl := Option.some.inj hs
  refine ⟨side, .ofMetadata md clk msCtimeBuf, hpts, h.done (by simp [hpts]), rfl, rfl, ?_, ?_⟩
  · rw [Hpn.second, extreme_sampleHop, if_pos hx]
    rfl
  · obtain ⟨w, n, hop, hn, hr⟩ := h.second side hpts
    refine ⟨n, (List.getElem?_eq_some_iff.mp hn).1, ?_⟩
    exact congrArg (fun r => Traced.origin (Values.hopLatency (Reading.values r))) hr

/-- A lone maximum is published as a reading whose queue occupancy is no record's. -/
theorem LoneMaximum.spoils (h : Inv s) (hl : s.LoneMaximum e) (hs : s.step e = some s') :
    s'.hpnretcdone = true ∧ s'.sHpnRetMsg.values.queueOccupancy.origin = none := by
  obtain ⟨rfl, hsingle, hz⟩ := hl
  obtain rfl := Option.some.inj hs
  have hnone : s.max.value.origin = none := by
    by_contra hne
    exact h.maximum hne hz
  have hpublish : s.publish = s.publishOne s.max := publish_single hsingle
  rw [if_pos rfl, hpublish]
  exact ⟨rfl, hnone⟩

end ReadingOn

/-! ### Whole readings -/

/-- Every reading delivered is one hop record. -/
def WholeReadings (s : Hpn) : Prop := ∀ d ∈ s.delivered, ∀ r ∈ d.readings, OneSample s.records r

/-- **When every reading is one hop record.** In a run, however clients read
after any part of it, every reading delivered is one hop record if and only if
no hop record is noted over the time of a second reading not yet taken, and no
window of one hop record with the queue occupancy `QINFO_START_MIN_VALUE` is
published. -/
theorem whole_readings (es : List HpnEvent) :
    Runs.Always step {} (fun _ => ReadsOn WholeReadings) es ↔
      Runs.Steps step {} (fun _ s e => ¬ s.Overwrites e ∧ ¬ s.LoneMaximum e) es := by
  refine Runs.always_iff_steps (I := fun _ => Inv) inv_initial
    (fun _ _ _ _ _ hi hc hs => inv_step hi hc.1 hc.2 hs) (fun _ s _ hi => ?_) (fun _ s e s' _ hi hc hs hq => ?_) es
  · refine readsOn_of (fun s hi => hi.delivered) (fun s s' e hi he hs => ?_) hi
    obtain ⟨hw, hl, -⟩ := @not_bad_of_isRead s e he
    exact inv_step hi hw hl hs
  · rw [not_and_or, not_not, not_not] at hc
    rcases hc with hw | hl
    · obtain ⟨side, r, hpts, hd, -, -, htime, n, hn, hlate⟩ := hw.spoils hi hs
      obtain ⟨reads, u, d, hreads, hr, hmem, hrd, -, hrec⟩ := exists_read hd (second_mem_readAll hpts)
      obtain ⟨w, m, hop, -, hone⟩ := hq reads u hreads hr d hmem _ hrd
      rw [hone] at htime hlate
      have htime' : m = s.records.length := Option.some.inj htime
      have hlate' : m = n := Option.some.inj hlate
      omega
    · obtain ⟨hd, hnone⟩ := hl.spoils hi hs
      obtain ⟨reads, u, d, hreads, hr, hmem, hrd, -, hrec⟩ := exists_read hd (first_mem_readAll s')
      obtain ⟨w, m, hop, -, hone⟩ := hq reads u hreads hr d hmem _ hrd
      rw [hone] at hnone
      cases hnone

/-- A hop record as it is on the wire. -/
def hopOf (queueInfo egressTime : UInt32) : IntHopMetadata :=
  { switchId := htonl 7, queueInfo := htonl queueInfo, ingressTime := 0, egressTime := htonl egressTime }

/-- A window with two readings, the second the least record, and the first record of the next
window, which is its least so far, before a client reads. -/
def overwritten : List HpnEvent :=
  [.hop (hopOf 9 1) 2 [1], .hop (hopOf 5 1) 2 [2], .hop (hopOf 8 2) 1 [3], .pollReturns true,
    .hop (hopOf 6 3) 3 [4], .connect 0, .readAll 0]

/-- The second reading delivered is the second record with the time of the fourth. -/
theorem overwritten_mixed : ¬ Runs.Always step {} (fun _ => WholeReadings) overwritten := by
  intro h
  have hrun : (Runs.run step {} overwritten).map (fun s => s.delivered.map fun d => d.readings.map Reading.origins) =
      some [[[some 2, some 2, some 2, some 2], [some 3, some 1, some 1, some 1]]] := by decide
  obtain ⟨s, hs, hread⟩ := Option.map_eq_some_iff.mp hrun
  have hmem : [some 3, some 1, some 1, some 1] ∈ s.delivered.flatMap fun d => d.readings.map Reading.origins := by
    rw [List.flatMap_def, hread]
    decide
  obtain ⟨d, hd, hin⟩ := List.mem_flatMap.mp hmem
  obtain ⟨r, hr, horigins⟩ := List.mem_map.mp hin
  obtain ⟨w, n, hop, -, rfl⟩ := h.last hs d hd r hr
  rw [origins_reading] at horigins
  simp at horigins
  omega

/-! ### Readings of the last window -/

/-- What has been delivered is of the window last published, and never of an
earlier window than what was delivered before it. -/
structure FreshReadings (s : Hpn) : Prop where
  belong : ∀ d ∈ s.delivered, ∀ r ∈ d.readings, BelongsTo s.records d.window r
  order : (s.delivered.flatMap fun d => d.readings).Pairwise fun r r' =>
    ∀ w w', BelongsTo s.records w r → BelongsTo s.records w' r' → w ≤ w'

structure FreshInv (s : Hpn) : Prop where
  inv : Inv s
  window : s.publishedWindow ≤ s.window
  earlier : s.hpnretcdone = true → s.publishedWindow < s.window
  second : ∀ side, s.pts = some side → OneOf s.records s.publishedWindow (s.second side)
  belong : ∀ d ∈ s.delivered, ∀ r ∈ d.readings, BelongsTo s.records d.window r
  past : ∀ d ∈ s.delivered, d.window ≤ s.publishedWindow
  sorted : s.delivered.Pairwise fun d d' => d.window ≤ d'.window

section Fresh

variable {s s' : Hpn} {e : HpnEvent} {side : Side} {client : ℕ} {all : Bool} {r : HopRecord}

theorem freshInv_initial : FreshInv {} where
  inv := inv_initial
  window := Nat.le_refl _
  earlier h := by cases h
  second _ h := by cases h
  belong _ h := by simp at h
  past _ h := by simp at h
  sorted := .nil

/-- Readings of the windows of their passes are in order when the passes are. -/
theorem FreshInv.fresh (h : FreshInv s) : FreshReadings s where
  belong := h.belong
  order := by
    rw [List.pairwise_flatMap]
    constructor
    · intro d hd
      refine List.pairwise_of_forall_mem_list fun r hr r' hr' w w' hw hw' => ?_
      rw [hw.unique (h.belong d hd r hr), hw'.unique (h.belong d hd r' hr')]
    · refine (List.Pairwise.and_mem.mp h.sorted).imp ?_
      rintro d d' ⟨hd, hd', hle⟩ r hr r' hr' w w' hw hw'
      rw [hw.unique (h.belong d hd r hr), hw'.unique (h.belong d' hd' r' hr')]
      exact hle

theorem FreshInv.sampleHop (h : FreshInv s) (hw : ∀ side, s.pts = some side → s.isExtreme r side = false) :
    FreshInv (s.sampleHop r) where
  inv := h.inv.sampleHop hw
  window := h.window
  earlier := h.earlier
  second side hpts := by
    rw [second_sampleHop (hw side hpts)]
    exact (h.second side hpts).log
  belong d hd r' hr' := (h.belong d hd r' hr').log
  past := h.past
  sorted := h.sorted

/-- A poll that ends without a publication. -/
theorem FreshInv.startPoll (h : FreshInv s) : FreshInv s.startPoll where
  inv := h.inv.startPoll
  window := Nat.le_succ_of_le h.window
  earlier _ := Nat.lt_succ_of_le h.window
  second side hpts := by
    rw [second_startPoll]
    exact h.second side hpts
  belong := h.belong
  past := h.past
  sorted := h.sorted

/-- A poll that ends with a publication of this window. -/
theorem FreshInv.published (h : FreshInv s) {u : Hpn} (hinv : Inv u) (hwindow : u.window = s.window)
    (hpub : u.publishedWindow = s.window) (hrec : u.records = s.records) (hdel : u.delivered = s.delivered)
    (hsecond : ∀ side, u.pts = some side → OneOf s.records s.window (u.second side)) :
    FreshInv u.startPoll where
  inv := hinv.startPoll
  window := by
    show u.publishedWindow ≤ u.window + 1
    omega
  earlier _ := by
    show u.publishedWindow < u.window + 1
    omega
  second side hpts := by
    show OneOf u.records u.publishedWindow _
    rw [hrec, hpub, second_startPoll]
    exact hsecond side hpts
  belong := by
    show ∀ d ∈ u.delivered, _
    rw [hdel]
    intro d hd r hr
    show BelongsTo u.records d.window r
    rw [hrec]
    exact h.belong d hd r hr
  past := by
    show ∀ d ∈ u.delivered, d.window ≤ u.publishedWindow
    rw [hdel, hpub]
    exact fun d hd => (h.past d hd).trans h.window
  sorted := by
    show u.delivered.Pairwise _
    rw [hdel]
    exact h.sorted

theorem FreshInv.publish (h : FreshInv s) (hl : ¬ s.LoneMaximum (.pollReturns true))
    (hsec : ¬ s.LeavesSecond (.pollReturns true)) : FreshInv s.publish.startPoll := by
  have hinv := h.inv.publish hl
  rcases publish_cases s with ⟨-, heq⟩ | ⟨hset, first, side, heq⟩ | ⟨side, hs, heq⟩
  · rw [heq]
    exact h.startPoll
  · rw [heq] at hinv ⊢
    refine h.published hinv rfl rfl rfl rfl fun side' hpts => ?_
    obtain rfl := Option.some.inj hpts
    rw [second_publishTwo]
    exact h.inv.of_set (hset side)
  · rw [heq] at hinv ⊢
    refine h.published hinv rfl rfl rfl rfl fun side' hpts => ?_
    exact absurd ⟨rfl, ⟨side, hs⟩, by rw [show s.pts = some side' from hpts]; simp⟩ hsec

/-- The readings that either function would deliver are of the window last published. -/
theorem FreshInv.readings (h : FreshInv s) (hd : s.hpnretcdone = true) {rd : Reading}
    (hr : rd ∈ s.fDoHpnReadReadings ∨ rd ∈ s.fDoHpnReadAllReadings) : BelongsTo s.records s.publishedWindow rd := by
  rcases mem_readings hr with rfl | ⟨side, hpts, rfl⟩
  · exact (h.inv.first hd).belongsTo
  · exact (h.second side hpts).belongsTo

theorem FreshInv.deliver (h : FreshInv s) {readings : List Reading} (hinv : Inv (s.deliver client all readings))
    (hr : ∀ r ∈ readings, BelongsTo s.records s.publishedWindow r) : FreshInv (s.deliver client all readings) where
  inv := hinv
  window := h.window
  earlier hd := by cases hd
  second _ hpts := by cases hpts
  belong d hd := by
    rcases List.mem_append.mp hd with hd | hd
    · exact h.belong d hd
    · rw [List.mem_singleton.mp hd]
      exact hr
  past d hd := by
    rcases List.mem_append.mp hd with hd | hd
    · exact h.past d hd
    · rw [List.mem_singleton.mp hd]
      exact Nat.le_refl _
  sorted := by
    refine List.pairwise_append.mpr ⟨h.sorted, List.pairwise_singleton _ _, fun d hd d' hd' => ?_⟩
    rw [List.mem_singleton.mp hd']
    exact h.past d hd

theorem freshInv_step (h : FreshInv s) (hw : ¬ s.Overwrites e) (hl : ¬ s.LoneMaximum e)
    (hsec : ¬ s.LeavesSecond e) (hs : s.step e = some s') : FreshInv s' := by
  have hinv := inv_step h.inv hw hl hs
  cases e with
  | hop md clk msCtimeBuf =>
    obtain rfl := Option.some.inj hs
    exact h.sampleHop (not_extreme hw)
  | pollReturns ok =>
    obtain rfl := Option.some.inj hs
    cases ok with
    | true => exact h.publish hl hsec
    | false => exact h.startPoll
  | read client =>
    obtain ⟨hd, rfl⟩ := step_read hs
    exact h.deliver hinv fun r hr => h.readings hd (Or.inl hr)
  | readAll client =>
    obtain ⟨hd, -, rfl⟩ := step_readAll hs
    exact h.deliver hinv fun r hr => h.readings hd (Or.inr hr)
  | connect client =>
    obtain rfl := step_connect hs
    exact ⟨hinv, h.window, h.earlier, h.second, h.belong, h.past, h.sorted⟩
  | disconnect client =>
    obtain rfl := step_disconnect hs
    exact ⟨hinv, h.window, h.earlier, h.second, h.belong, h.past, h.sorted⟩

/-- A second reading left over is of an earlier window than the one published last. -/
theorem LeavesSecond.spoils (h : FreshInv s) (hsec : s.LeavesSecond e) (hs : s.step e = some s') :
    ∃ side w, s'.pts = some side ∧ s'.hpnretcdone = true ∧ BelongsTo s'.records w (s'.second side) ∧
      w < s'.publishedWindow := by
  obtain ⟨rfl, ⟨single, hsingle⟩, hne⟩ := hsec
  obtain rfl := Option.some.inj hs
  obtain ⟨side, hpts⟩ := Option.ne_none_iff_exists'.mp hne
  have hearlier := h.earlier (h.inv.done hne)
  rw [if_pos rfl, publish_single hsingle]
  refine ⟨side, s.publishedWindow, hpts, rfl, ?_, hearlier⟩
  rw [second_startPoll, second_publishOne]
  exact (h.second side hpts).belongsTo

/-- **When every reading is of the last window.** In a run, however clients read
after any part of it, all readings delivered are of the window last published,
and none is of an earlier window than one delivered before, if and only if no
hop record is noted over the time of a second reading not yet taken, no window
of one hop record with the queue occupancy `QINFO_START_MIN_VALUE` is published,
and no publication with one reading follows one whose second reading is not yet
taken. -/
theorem fresh_readings (es : List HpnEvent) :
    Runs.Always step {} (fun _ => ReadsOn FreshReadings) es ↔
      Runs.Steps step {} (fun _ s e => ¬ s.Overwrites e ∧ ¬ s.LoneMaximum e ∧ ¬ s.LeavesSecond e) es := by
  refine Runs.always_iff_steps (I := fun _ => FreshInv) freshInv_initial
    (fun _ _ _ _ _ hi hc hs => freshInv_step hi hc.1 hc.2.1 hc.2.2 hs) (fun _ s _ hi => ?_)
    (fun _ s e s' _ hi hc hs hq => ?_) es
  · refine readsOn_of (fun s hi => hi.fresh) (fun s s' e hi he hs => ?_) hi
    obtain ⟨hw, hl, hsec⟩ := @not_bad_of_isRead s e he
    exact freshInv_step hi hw hl hsec hs
  · have hbad : ∀ rd ∈ s'.fDoHpnReadAllReadings, s'.hpnretcdone = true →
        BelongsTo s'.records s'.publishedWindow rd := by
      intro rd hrd hd
      obtain ⟨reads, u, d, hreads, hr, hmem, hin, hwin, hrec⟩ := exists_read hd hrd
      have hbelong := (hq reads u hreads hr).belong d hmem rd hin
      rwa [hwin, hrec] at hbelong
    by_cases hw : s.Overwrites e
    · obtain ⟨side, r, hpts, hd, hrec, hpub, htime, -⟩ := hw.spoils hi.inv hs
      obtain ⟨n, hop, hn, hwindow⟩ := hbad _ (second_mem_readAll hpts) hd _ (List.mem_cons_self ..)
      obtain rfl : s.records.length = n := Option.some.inj (htime.symm.trans hn)
      rw [hrec, hpub, List.getElem?_concat_length] at hwindow
      have hsame : s.window = s.publishedWindow := (Prod.mk.inj (Option.some.inj hwindow)).1
      have hearlier := hi.earlier (hw.done hi.inv)
      omega
    · by_cases hl : s.LoneMaximum e
      · obtain ⟨hd, hnone⟩ := hl.spoils hi.inv hs
        obtain ⟨n, hop, hn, -⟩ := hbad _ (first_mem_readAll s') hd
          s'.sHpnRetMsg.values.queueOccupancy.origin (by simp [Reading.origins])
        rw [hnone] at hn
        cases hn
      · have hsec : s.LeavesSecond e := by
          by_contra hno
          exact hc ⟨hw, hl, hno⟩
        obtain ⟨side, w, hpts, hd, hbelong, hlt⟩ := hsec.spoils hi hs
        have hsame := hbelong.unique (hbad _ (second_mem_readAll hpts) hd)
        omega

end Fresh

/-- A window with two readings, and one with one reading, before a client reads. -/
def secondLeft : List HpnEvent :=
  [.hop (hopOf 5 1) 1 [1], .hop (hopOf 8 2) 2 [2], .pollReturns true, .hop (hopOf 6 3) 3 [3],
    .pollReturns true, .connect 0, .readAll 0]

/-- The second reading of the first window is delivered with that of the second window. -/
theorem secondLeft_stale : ¬ Runs.Always step {} (fun _ => FreshReadings) secondLeft := by
  intro h
  have hrun : (Runs.run step {} secondLeft).map (fun s => (s.records.map Prod.fst,
      s.delivered.map fun d => (d.window, d.readings.map Reading.origins))) =
      some ([0, 0, 1], [(1, [[some 2, some 2, some 2, some 2], [some 1, some 1, some 1, some 1]])]) := by decide
  obtain ⟨s, hs, hread⟩ := Option.map_eq_some_iff.mp hrun
  obtain ⟨hwindows, hdelivered⟩ := Prod.mk.inj hread
  obtain ⟨d, hd, hd'⟩ := List.mem_map.mp (hdelivered ▸ List.mem_singleton.mpr rfl)
  obtain ⟨hwindow, hreadings⟩ := Prod.mk.inj hd'
  have hmem : [some 1, some 1, some 1, some 1] ∈ d.readings.map Reading.origins := by
    rw [hreadings]
    decide
  obtain ⟨r, hr, horigins⟩ := List.mem_map.mp hmem
  obtain ⟨n, hop, hn, hrec⟩ := (h.last hs).belong d hd r hr (some 1) (by rw [horigins]; decide)
  obtain rfl : 1 = n := Option.some.inj hn
  have hone : (s.records.map Prod.fst)[1]? = some d.window := by rw [List.getElem?_map, hrec]; rfl
  rw [hwindows, hwindow] at hone
  cases hone

end Hpn
end TuningMod

/-
# The readings of one poll window

`sample_func` keeps the first record with the least queue occupancy of a poll
window, if that is below 0xffffff, and the first with the greatest among the
records behind the first one, if that is above 0. When the poll returns these
two are published, in the order of their clocks, which count seconds, or the
one of them that there is.

The published readings are those of the publication itself: a reader that is
late, or that still finds the second reading of an earlier publication, is
not part of a window.

Key definitions: `least`, `greatestBehindFirst`, `afterWindow`, `published`, `TrueExtremes`, `Publishable`.
Key theorems: `extreme_afterWindow`, `published_eq`, `trueExtremes_iff`.
-/
import TuningMod.Hpn
import TuningMod.Lib.Runs
import Mathlib.Data.List.MinMax

namespace TuningMod

/-- A hop record as it comes to `sample_func`, with the time it is processed. -/
structure HopSample where
  md : IntHopMetadata
  clk : ℤ
  msCtimeBuf : List UInt8
  deriving DecidableEq

namespace HopSample

def record (x : HopSample) : HopRecord := .ofMetadata x.md x.clk x.msCtimeBuf

def event (x : HopSample) : HpnEvent := .hop x.md x.clk x.msCtimeBuf

/-- A queue occupancy has 24 bits. -/
theorem qinfo_le (x : HopSample) : x.record.qinfo.toNat ≤ 16777215 := by
  have hle : (x.record.qinfo).toNat ≤ (0xffffff : UInt32).toNat := by
    show (ntohl x.md.queueInfo &&& 0xffffff : UInt32).toNat ≤ _
    rw [UInt32.toNat_and]
    exact Nat.and_le_right
  exact hle

end HopSample
namespace Hpn

/-! ### The extremes of a window -/

/-- A record of the window and its place in it. -/
abbrev Placed := HopRecord × ℕ

def occupancy (p : Placed) : ℕ := p.1.qinfo.toNat

/-- The first record with the least occupancy. -/
def least (rs : List HopRecord) : Option Placed := rs.zipIdx.argmin occupancy

/-- The first record with the greatest occupancy, the first of the window left out. -/
def greatestBehindFirst (rs : List HopRecord) : Option Placed := rs.zipIdx.tail.argmax occupancy

/-- The state after the records of a window. -/
def afterWindow (s : Hpn) (rs : List HopRecord) : Hpn := rs.foldl sampleHop s.startPoll

/-- The readings that a publication consists of. -/
def published (s : Hpn) : List Reading := ({ s with pts := none } : Hpn).publish.fDoHpnReadAllReadings

/-- The reading of a record of a window that starts behind `n` records. -/
def Placed.reading (n : ℕ) (p : Placed) : Reading := p.1.reading (n + p.2)

/-- A record is in the window, and no occupancy in it is less. -/
structure IsLeast (rs : List HopRecord) (p : Placed) : Prop where
  mem : p ∈ rs.zipIdx
  le : ∀ q ∈ rs.zipIdx, occupancy p ≤ occupancy q

structure IsGreatest (rs : List HopRecord) (p : Placed) : Prop where
  mem : p ∈ rs.zipIdx
  le : ∀ q ∈ rs.zipIdx, occupancy q ≤ occupancy p

/-- The readings are a least and a greatest record of the window in the order
in which they occurred, or one record if all occupancies are equal. -/
def TrueExtremes (n : ℕ) (rs : List HopRecord) (readings : List Reading) : Prop :=
  (∃ p, IsLeast rs p ∧ IsGreatest rs p ∧ readings = [p.reading n]) ∨
    ∃ p q, p.2 < q.2 ∧ occupancy p ≠ occupancy q ∧
      (IsLeast rs p ∧ IsGreatest rs q ∨ IsGreatest rs p ∧ IsLeast rs q) ∧ readings = [p.reading n, q.reading n]

def AllEqual (rs : List HopRecord) : Prop := ∀ p ∈ rs.zipIdx, ∀ q ∈ rs.zipIdx, occupancy p = occupancy q

/-- With equal occupancies: 0, or a single record below 0xffffff, or several
at 0xffffff. Otherwise: the first record is not above all others, and the
clocks tell the first least from the first greatest of the others. -/
def Publishable (rs : List HopRecord) : Prop :=
  (AllEqual rs ∧ ∀ p ∈ rs.zipIdx, occupancy p = 0 ∨ (rs.length = 1 ↔ occupancy p ≠ 16777215)) ∨
    ¬ AllEqual rs ∧ ∃ a ∈ least rs, ∃ b ∈ greatestBehindFirst rs,
      (∀ p ∈ rs.zipIdx.head?, occupancy p ≤ occupancy b) ∧ (a.2 < b.2 ↔ a.1.clk ≤ b.1.clk)

/-! ### What the variables hold -/

section Window

variable {s : Hpn} {rs : List HopRecord} {r : HopRecord} {a b p : Placed}

theorem zipIdx_snoc : (rs ++ [r]).zipIdx = rs.zipIdx ++ [(r, rs.length)] := by
  rw [List.zipIdx_append, Nat.zero_add]
  rfl

theorem least_snoc : least (rs ++ [r]) = (least rs).elim (some (r, rs.length)) fun c =>
    if occupancy (r, rs.length) < occupancy c then some (r, rs.length) else some c := by
  unfold least
  rw [zipIdx_snoc, List.argmin_concat]
  cases rs.zipIdx.argmin occupancy <;> rfl

theorem greatestBehindFirst_snoc (h : rs ≠ []) : greatestBehindFirst (rs ++ [r]) =
    (greatestBehindFirst rs).elim (some (r, rs.length)) fun c =>
      if occupancy c < occupancy (r, rs.length) then some (r, rs.length) else some c := by
  have hne : rs.zipIdx ≠ [] := by simpa using h
  unfold greatestBehindFirst
  rw [zipIdx_snoc, List.tail_append_of_ne_nil hne, List.argmax_concat]
  cases rs.zipIdx.tail.argmax occupancy <;> rfl

theorem afterWindow_snoc : s.afterWindow (rs ++ [r]) = (s.afterWindow rs).sampleHop r := by
  unfold afterWindow
  rw [List.foldl_append]
  rfl

theorem afterWindow_records : (s.afterWindow rs).records.length = s.records.length + rs.length := by
  induction rs using List.reverseRecOn with
  | nil => rfl
  | append_singleton rs r ih =>
    rw [afterWindow_snoc, List.length_append, ← Nat.add_assoc, ← ih]
    show ((s.afterWindow rs).records ++ [_]).length = _
    rw [List.length_append]
    rfl

theorem afterWindow_pollStart : (s.afterWindow rs).perfBufferPollStart = rs.isEmpty := by
  induction rs using List.reverseRecOn with
  | nil => rfl
  | append_singleton rs r ih =>
    rw [afterWindow_snoc]
    simp [sampleHop]

/-- The record that the variables of a side are taken from. -/
def noted (rs : List HopRecord) : Side → Option Placed
  | .min => (least rs).filter fun p => occupancy p < 16777215
  | .max => (greatestBehindFirst rs).filter fun p => 0 < occupancy p

theorem noted_min_snoc : noted (rs ++ [r]) .min =
    if occupancy (r, rs.length) < (noted rs .min).elim 16777215 occupancy then some (r, rs.length)
    else noted rs .min := by
  unfold noted
  rw [least_snoc]
  generalize (r, rs.length) = new
  cases least rs with
  | none => by_cases hr : occupancy new < 16777215 <;> simp [hr, Option.filter_some]
  | some c =>
    by_cases hc : occupancy c < 16777215
    · by_cases hlt : occupancy new < occupancy c
      · have hr : occupancy new < 16777215 := by omega
        simp [hc, hlt, hr, Option.filter_some]
      · simp [hc, hlt, Option.filter_some]
    · by_cases hr : occupancy new < 16777215
      · have hlt : occupancy new < occupancy c := by omega
        simp [hc, hlt, hr, Option.filter_some]
      · by_cases hlt : occupancy new < occupancy c <;> simp [hc, hlt, hr, Option.filter_some]

theorem noted_max_snoc (h : rs ≠ []) : noted (rs ++ [r]) .max =
    if (noted rs .max).elim 0 occupancy < occupancy (r, rs.length) then some (r, rs.length)
    else noted rs .max := by
  unfold noted
  rw [greatestBehindFirst_snoc h]
  generalize (r, rs.length) = new
  cases greatestBehindFirst rs with
  | none => by_cases hr : 0 < occupancy new <;> simp [hr, Option.filter_some]
  | some c =>
    by_cases hc : 0 < occupancy c
    · by_cases hlt : occupancy c < occupancy new
      · have hr : 0 < occupancy new := by omega
        simp [hc, hlt, hr, Option.filter_some]
      · simp [hc, hlt, Option.filter_some]
    · have hzero : occupancy c = 0 := by omega
      by_cases hr : 0 < occupancy new <;> simp [hzero, hr, Option.filter_some]

/-- The variables of a side after the window: a record's, or those before it. -/
def seen (s : Hpn) (rs : List HopRecord) (side : Side) : Extreme :=
  (noted rs side).elim (s.startPoll.extreme side) fun p => .ofRecord (s.records.length + p.2) p.1

/-- The value a record has to beat. -/
theorem seen_value (s : Hpn) (rs : List HopRecord) (side : Side) : (s.seen rs side).value.val.toNat =
    (noted rs side).elim (match side with | .min => 16777215 | .max => 0) occupancy := by
  unfold seen
  cases noted rs side with
  | none => cases side <;> rfl
  | some p => rfl

theorem extreme_afterWindow_snoc (side : Side) : (s.afterWindow (rs ++ [r])).extreme side =
    if (s.afterWindow rs).isExtreme r side then .ofRecord (s.records.length + rs.length) r
    else (s.afterWindow rs).extreme side := by
  rw [afterWindow_snoc, extreme_sampleHop, afterWindow_records]

/-- **The variables after a window.** -/
theorem extreme_afterWindow (side : Side) : (s.afterWindow rs).extreme side = s.seen rs side := by
  induction rs using List.reverseRecOn with
  | nil => cases side <;> rfl
  | append_singleton rs r ih =>
    have hbeat := seen_value s rs side
    rw [← ih] at hbeat
    rw [extreme_afterWindow_snoc]
    cases side with
    | min =>
      have hextreme : (s.afterWindow rs).isExtreme r .min = true ↔
          occupancy (r, rs.length) < (noted rs .min).elim 16777215 occupancy := by
        rw [← hbeat, isExtreme, decide_eq_true_iff, UInt32.lt_iff_toNat_lt]
        rfl
      unfold seen
      rw [noted_min_snoc]
      by_cases hlt : occupancy (r, rs.length) < (noted rs .min).elim 16777215 occupancy
      · rw [if_pos (hextreme.mpr hlt), if_pos hlt]
        rfl
      · rw [if_neg fun h => hlt (hextreme.mp h), if_neg hlt, ih]
        rfl
    | max =>
      have hextreme : (s.afterWindow rs).isExtreme r .max = true ↔
          (noted rs .max).elim 0 occupancy < occupancy (r, rs.length) ∧ rs ≠ [] := by
        rw [← hbeat, isExtreme, Bool.and_eq_true, decide_eq_true_iff, gt_iff_lt, UInt32.lt_iff_toNat_lt,
          afterWindow_pollStart, Bool.not_eq_true', List.isEmpty_eq_false_iff]
        rfl
      unfold seen
      by_cases hne : rs = []
      · -- the first record is not the greatest
        subst hne
        rw [if_neg fun h => (hextreme.mp h).2 rfl, ih]
        rfl
      · rw [noted_max_snoc hne]
        by_cases hlt : (noted rs .max).elim 0 occupancy < occupancy (r, rs.length)
        · rw [if_pos (hextreme.mpr ⟨hlt, hne⟩), if_pos hlt]
          rfl
        · rw [if_neg fun h => hlt (hextreme.mp h).1, if_neg hlt, ih]
          rfl

theorem noted_min (h : noted rs .min = some a) : least rs = some a ∧ occupancy a < 16777215 := by
  simpa [noted, Option.filter_eq_some_iff] using h

theorem noted_max (h : noted rs .max = some b) : greatestBehindFirst rs = some b ∧ 0 < occupancy b := by
  simpa [noted, Option.filter_eq_some_iff] using h

/-- A side has a value if a record of the window was noted for it. -/
theorem seen_ne_start (side : Side) : (s.seen rs side).value.val ≠ start side ↔ (noted rs side).isSome = true := by
  have hval := seen_value s rs side
  cases hn : noted rs side with
  | none =>
    have heq : (s.seen rs side).value.val = start side := by
      rw [hn] at hval
      apply UInt32.toNat_inj.mp
      rw [hval]
      cases side <;> rfl
    simp [heq]
  | some p =>
    have hne : (s.seen rs side).value.val.toNat ≠ (start side).toNat := by
      rw [hval, hn]
      cases side with
      | min => exact Nat.ne_of_lt (noted_min hn).2
      | max => exact Nat.ne_of_gt (noted_max hn).2
    simp only [Option.isSome_some, iff_true]
    intro heq
    exact hne (by rw [heq])

/-- What is published, from the records that were noted. -/
def windowReadings (s : Hpn) (rs : List HopRecord) : List Reading :=
  match noted rs .min, noted rs .max with
  | some a, some b =>
    if a.1.clk ≤ b.1.clk then [a.reading s.records.length, b.reading s.records.length]
    else [b.reading s.records.length, a.reading s.records.length]
  | some a, none => [a.reading s.records.length]
  | none, some b => [b.reading s.records.length]
  | none, none => [s.startPoll.max.reading]

/-- **What a window publishes.** -/
theorem published_eq (h : rs ≠ []) : published (s.afterWindow rs) = s.windowReadings rs := by
  have hpoll : (s.afterWindow rs).perfBufferPollStart = false := by
    rw [afterWindow_pollStart, List.isEmpty_eq_false_iff]
    exact h
  have hmin : (s.afterWindow rs).min = s.seen rs .min := extreme_afterWindow .min
  have hmax : (s.afterWindow rs).max = s.seen rs .max := extreme_afterWindow .max
  have hminset : (s.seen rs .min).value.val ≠ qinfoStartMinValue ↔ _ := seen_ne_start .min
  have hmaxset : (s.seen rs .max).value.val ≠ 0 ↔ _ := seen_ne_start .max
  unfold published publish windowReadings
  simp only [hpoll, hmin, hmax, hminset, hmaxset, Bool.not_false, if_true]
  cases ha : noted rs .min with
  | none =>
    cases hb : noted rs .max with
    | none => simp [seen, hb, publishOne, fDoHpnReadAllReadings, extreme]
    | some b => simp [seen, hb, publishOne, fDoHpnReadAllReadings, Placed.reading, HopRecord.reading]
  | some a =>
    cases hb : noted rs .max with
    | none => simp [seen, ha, publishOne, fDoHpnReadAllReadings, Placed.reading, HopRecord.reading]
    | some b =>
      have hclk : (s.seen rs .min).clk = a.1.clk ∧ (s.seen rs .max).clk = b.1.clk := by
        simp [seen, ha, hb, Extreme.ofRecord]
      have hra : (s.seen rs .min).reading = a.reading s.records.length := by
        simp [seen, ha, Placed.reading, HopRecord.reading]
      have hrb : (s.seen rs .max).reading = b.reading s.records.length := by
        simp [seen, hb, Placed.reading, HopRecord.reading]
      simp only [Option.isSome_some, and_self, if_true, hclk.1, hclk.2]
      by_cases hle : a.1.clk ≤ b.1.clk
      · rw [if_pos hle, if_pos hle, ← hra, ← hrb, ← hmax]
        rfl
      · rw [if_neg hle, if_neg hle, ← hra, ← hrb, ← hmin]
        rfl

end Window

/-! ### Which windows publish their extremes -/

section Extremes

variable {s : Hpn} {rs : List HopRecord} {a b p q : Placed} {n : ℕ} {readings : List Reading}

theorem least_isLeast (h : least rs = some a) : IsLeast rs a where
  mem := List.argmin_mem h
  le _ hq := List.le_of_mem_argmin hq h

theorem exists_least (h : rs ≠ []) : ∃ a, least rs = some a := by
  refine Option.ne_none_iff_exists'.mp fun hnone => h ?_
  simpa [least, List.argmin_eq_none] using hnone

theorem greatestBehindFirst_eq_none : greatestBehindFirst rs = none ↔ rs.length ≤ 1 := by
  unfold greatestBehindFirst
  rw [List.argmax_eq_none, ← List.length_eq_zero_iff, List.length_tail, List.length_zipIdx]
  omega

/-- The greatest record behind the first is the greatest of the window unless
the first is above it. -/
theorem isGreatest_iff (h : greatestBehindFirst rs = some b) :
    IsGreatest rs b ↔ ∀ p ∈ rs.zipIdx.head?, occupancy p ≤ occupancy b := by
  have hmem : b ∈ rs.zipIdx.tail := List.argmax_mem h
  constructor
  · intro hg p hp
    exact hg.le p (List.mem_of_mem_head? hp)
  · intro hfirst
    refine ⟨List.mem_of_mem_tail hmem, fun q hq => ?_⟩
    obtain ⟨x, l, hl⟩ := List.exists_cons_of_ne_nil (List.ne_nil_of_mem hq)
    rw [hl] at hq
    rcases List.mem_cons.mp hq with rfl | hq
    · exact hfirst q (by rw [hl]; rfl)
    · exact List.le_of_mem_argmax (by rw [hl]; exact hq) h

/-- A place has one record. -/
theorem placed_eq (hp : p ∈ rs.zipIdx) (hq : q ∈ rs.zipIdx) (h : p.2 = q.2) : p = q := by
  have hp' := List.mem_zipIdx_iff_getElem?.mp hp
  have hq' := List.mem_zipIdx_iff_getElem?.mp hq
  rw [h] at hp'
  exact Prod.ext (Option.some.inj (hp'.symm.trans hq')) h

/-- A reading says which record of the window it is. -/
theorem placed_of_reading (hp : p ∈ rs.zipIdx) (hq : q ∈ rs.zipIdx) (h : p.reading n = q.reading n) : p = q := by
  have horigin : some (n + p.2) = some (n + q.2) := congrArg (fun r : Reading => r.timestamp.origin) h
  refine placed_eq hp hq ?_
  have := Option.some.inj horigin
  omega

/-- With equal occupancies one record is to be published. -/
theorem trueExtremes_equal (h : AllEqual rs) :
    TrueExtremes n rs readings ↔ ∃ p ∈ rs.zipIdx, readings = [Placed.reading n p] := by
  constructor
  · rintro (⟨p, hp, -, hr⟩ | ⟨p, q, -, hne, hpq, -⟩)
    · exact ⟨p, hp.mem, hr⟩
    · refine absurd ?_ hne
      rcases hpq with ⟨hp, hq⟩ | ⟨hp, hq⟩
      · exact h p hp.mem q hq.mem
      · exact h p hp.mem q hq.mem
  · rintro ⟨p, hp, hr⟩
    exact Or.inl ⟨p, ⟨hp, fun q hq => (h p hp q hq).le⟩, ⟨hp, fun q hq => (h q hq p hp).le⟩, hr⟩

theorem allEqual_of_extremes (hl : IsLeast rs p) (hg : IsGreatest rs q) (h : occupancy q ≤ occupancy p) :
    AllEqual rs := by
  intro x hx y hy
  have h1 := hl.le x hx
  have h2 := hl.le y hy
  have h3 := hg.le x hx
  have h4 := hg.le y hy
  omega

/-- The readings are a least and a greatest record, in the order in which they occurred. -/
def ExtremePair (n : ℕ) (rs : List HopRecord) (readings : List Reading) : Prop :=
  ∃ p q, p.2 < q.2 ∧ (IsLeast rs p ∧ IsGreatest rs q ∨ IsGreatest rs p ∧ IsLeast rs q) ∧
    readings = [p.reading n, q.reading n]

/-- Otherwise two records are, a least and a greatest. -/
theorem trueExtremes_differ (h : ¬ AllEqual rs) : TrueExtremes n rs readings ↔ ExtremePair n rs readings := by
  constructor
  · rintro (⟨p, hl, hg, -⟩ | ⟨p, q, hlt, -, hpq, hr⟩)
    · exact absurd (allEqual_of_extremes hl hg le_rfl) h
    · exact ⟨p, q, hlt, hpq, hr⟩
  · rintro ⟨p, q, hlt, hpq, hr⟩
    refine Or.inr ⟨p, q, hlt, fun heq => h ?_, hpq, hr⟩
    rcases hpq with ⟨hl, hg⟩ | ⟨hg, hl⟩
    · exact allEqual_of_extremes hl hg heq.ge
    · exact allEqual_of_extremes hl hg heq.le

theorem exists_above (h : ¬ AllEqual rs) (ha : IsLeast rs a) : ∃ x ∈ rs.zipIdx, occupancy a < occupancy x := by
  by_contra hnone
  push Not at hnone
  refine h fun p hp q hq => ?_
  have h1 := ha.le p hp
  have h2 := ha.le q hq
  have h3 := hnone p hp
  have h4 := hnone q hq
  omega

theorem not_extremePair_singleton (reading : Reading) : ¬ ExtremePair n rs [reading] := by
  rintro ⟨p, q, -, -, hr⟩
  exact absurd (congrArg List.length hr) (by simp)

theorem extremePair_pair (hp : p ∈ rs.zipIdx) (hq : q ∈ rs.zipIdx) : ExtremePair n rs [p.reading n, q.reading n] ↔
    p.2 < q.2 ∧ (IsLeast rs p ∧ IsGreatest rs q ∨ IsGreatest rs p ∧ IsLeast rs q) := by
  constructor
  · rintro ⟨p', q', hlt, hext, hr⟩
    obtain ⟨hrp, hrq⟩ := List.cons.inj hr
    have hmem : p' ∈ rs.zipIdx ∧ q' ∈ rs.zipIdx := by
      rcases hext with ⟨hl, hg⟩ | ⟨hg, hl⟩
      · exact ⟨hl.mem, hg.mem⟩
      · exact ⟨hg.mem, hl.mem⟩
    obtain rfl := placed_of_reading hp hmem.1 hrp
    obtain rfl := placed_of_reading hq hmem.2 (List.cons.inj hrq).1
    exact ⟨hlt, hext⟩
  · rintro ⟨hlt, hext⟩
    exact ⟨p, q, hlt, hext, rfl⟩

/-- A least record and another one, published in the order of their clocks. -/
theorem extremePair_clocks (h : ¬ AllEqual rs) (ha : IsLeast rs a) (hb : b ∈ rs.zipIdx) :
    ExtremePair n rs (if a.1.clk ≤ b.1.clk then [a.reading n, b.reading n] else [b.reading n, a.reading n]) ↔
      IsGreatest rs b ∧ (a.2 < b.2 ↔ a.1.clk ≤ b.1.clk) := by
  have hnot : ¬ IsGreatest rs a := fun hg => h (allEqual_of_extremes ha hg le_rfl)
  have hne : IsGreatest rs b → a.2 ≠ b.2 := by
    intro hg heq
    obtain rfl := placed_eq ha.mem hb heq
    exact hnot hg
  by_cases hle : a.1.clk ≤ b.1.clk
  · rw [if_pos hle, extremePair_pair ha.mem hb]
    simp only [ha, hnot, hle, true_and, false_and, or_false, iff_true]
    exact and_comm
  · rw [if_neg hle, extremePair_pair hb ha.mem]
    simp only [ha, hnot, hle, and_true, and_false, false_or, iff_false]
    constructor
    · rintro ⟨hlt, hg⟩
      exact ⟨hg, by omega⟩
    · rintro ⟨hg, hlt⟩
      have := hne hg
      exact ⟨by omega, hg⟩

/-- A reading of no record of the window. -/
theorem stale_ne (p : Placed) : s.startPoll.max.reading ≠ p.reading n := by
  intro h
  have horigin : none = some (n + p.2) := congrArg (fun r : Reading => r.values.queueOccupancy.origin) h
  exact absurd horigin (by simp)

theorem noted_min_of_lt (h : least rs = some a) (hlt : occupancy a < 16777215) : noted rs .min = some a := by
  simp [noted, h, hlt, Option.filter_some]

theorem noted_min_of_ge (h : least rs = some a) (hge : ¬ occupancy a < 16777215) : noted rs .min = none := by
  simp [noted, h, hge, Option.filter_some]

theorem noted_max_of_pos (h : greatestBehindFirst rs = some b) (hpos : 0 < occupancy b) :
    noted rs .max = some b := by
  simp [noted, h, hpos, Option.filter_some]

theorem noted_max_of_zero (h : greatestBehindFirst rs = some b) (hzero : occupancy b = 0) : noted rs .max = none := by
  simp [noted, h, hzero, Option.filter_some]

variable (h24 : ∀ p ∈ rs.zipIdx, occupancy p ≤ 16777215)
include h24

/-- A single record is not the greatest: it is published as the least. -/
theorem windowReadings_single (ha : least rs = some a) (hlen : rs.length = 1) :
    (∃ p ∈ rs.zipIdx, s.windowReadings rs = [Placed.reading s.records.length p]) ↔ occupancy a ≠ 16777215 := by
  have hamem := (least_isLeast ha).mem
  have hle := h24 a hamem
  have hb : noted rs .max = none := by
    rw [noted, greatestBehindFirst_eq_none.mpr (by omega), Option.filter_none]
  unfold windowReadings
  by_cases hlt : occupancy a < 16777215
  · rw [noted_min_of_lt ha hlt, hb]
    exact iff_of_true ⟨a, hamem, rfl⟩ (by omega)
  · rw [noted_min_of_ge ha hlt, hb]
    refine iff_of_false ?_ (by omega)
    rintro ⟨p, -, hp⟩
    exact stale_ne p (List.cons.inj hp).1

/-- Of several records with the same occupancy one is published if only one of
the two sides has noted it. -/
theorem windowReadings_several (h : AllEqual rs) (ha : least rs = some a) (hb : greatestBehindFirst rs = some b) :
    (∃ p ∈ rs.zipIdx, s.windowReadings rs = [Placed.reading s.records.length p]) ↔
      occupancy a = 0 ∨ occupancy a = 16777215 := by
  have hamem := (least_isLeast ha).mem
  have hbmem : b ∈ rs.zipIdx := List.mem_of_mem_tail (List.argmax_mem hb)
  have hle := h24 a hamem
  have hba := h b hbmem a hamem
  unfold windowReadings
  by_cases hlt : occupancy a < 16777215
  · rw [noted_min_of_lt ha hlt]
    by_cases hzero : occupancy a = 0
    · rw [noted_max_of_zero hb (by omega)]
      exact iff_of_true ⟨a, hamem, rfl⟩ (Or.inl hzero)
    · -- the same occupancy is published twice
      rw [noted_max_of_pos hb (by omega)]
      refine iff_of_false ?_ (by omega)
      rintro ⟨p, -, hp⟩
      dsimp only at hp
      split_ifs at hp <;> exact absurd (congrArg List.length hp) (by simp)
  · rw [noted_min_of_ge ha hlt, noted_max_of_pos hb (by omega)]
    exact iff_of_true ⟨b, hbmem, rfl⟩ (Or.inr (by omega))

/-- With equal occupancies. -/
theorem windowReadings_equal (hne : rs ≠ []) (h : AllEqual rs) :
    (∃ p ∈ rs.zipIdx, s.windowReadings rs = [Placed.reading s.records.length p]) ↔
      ∀ p ∈ rs.zipIdx, occupancy p = 0 ∨ (rs.length = 1 ↔ occupancy p ≠ 16777215) := by
  obtain ⟨a, ha⟩ := exists_least hne
  have hamem := (least_isLeast ha).mem
  have hall : (∀ p ∈ rs.zipIdx, occupancy p = 0 ∨ (rs.length = 1 ↔ occupancy p ≠ 16777215)) ↔
      (occupancy a = 0 ∨ (rs.length = 1 ↔ occupancy a ≠ 16777215)) := by
    constructor
    · exact fun hp => hp a hamem
    · intro hva p hp
      rwa [h p hp a hamem]
  rw [hall]
  by_cases hlen : rs.length = 1
  · rw [windowReadings_single h24 ha hlen]
    simp only [hlen, true_iff]
    omega
  · obtain ⟨b, hb⟩ : ∃ b, greatestBehindFirst rs = some b := by
      refine Option.ne_none_iff_exists'.mp fun hnone => ?_
      have hshort := greatestBehindFirst_eq_none.mp hnone
      have hpos := List.length_pos_of_ne_nil hne
      omega
    rw [windowReadings_several h24 h ha hb]
    simp only [hlen, false_iff, not_not]

/-- With different occupancies. -/
theorem windowReadings_differ (hne : rs ≠ []) (h : ¬ AllEqual rs) :
    ExtremePair s.records.length rs (s.windowReadings rs) ↔ ∃ a ∈ least rs, ∃ b ∈ greatestBehindFirst rs,
      (∀ p ∈ rs.zipIdx.head?, occupancy p ≤ occupancy b) ∧ (a.2 < b.2 ↔ a.1.clk ≤ b.1.clk) := by
  obtain ⟨a, ha⟩ := exists_least hne
  have hleast := least_isLeast ha
  obtain ⟨x, hx, hax⟩ := exists_above h hleast
  unfold windowReadings
  rw [noted_min_of_lt ha (lt_of_lt_of_le hax (h24 x hx)), ha]
  cases hb : greatestBehindFirst rs with
  | none =>
    have hnone : noted rs .max = none := by rw [noted, hb, Option.filter_none]
    rw [hnone]
    refine iff_of_false (not_extremePair_singleton _) ?_
    rintro ⟨-, -, b, hb', -⟩
    cases hb'
  | some b =>
    have hbmem : b ∈ rs.zipIdx := List.mem_of_mem_tail (List.argmax_mem hb)
    have hgreatest := isGreatest_iff hb
    by_cases hpos : 0 < occupancy b
    · rw [noted_max_of_pos hb hpos]
      simp only [Option.mem_some_iff, exists_eq_left', ← hgreatest]
      exact extremePair_clocks h hleast hbmem
    · -- all records behind the first are at 0, and it is not published
      rw [noted_max_of_zero hb (by omega)]
      refine iff_of_false (not_extremePair_singleton _) ?_
      rintro ⟨-, -, b', hb', hfirst, -⟩
      obtain rfl : b = b' := Option.some.inj hb'
      have hg := (hgreatest.mpr hfirst).le x hx
      omega

end Extremes

/-- The records of the samples of one window. -/
def windowRecords (samples : List HopSample) : List HopRecord := samples.map HopSample.record

theorem occupancy_le (samples : List HopSample) : ∀ p ∈ (windowRecords samples).zipIdx, occupancy p ≤ 16777215 := by
  intro p hp
  obtain ⟨x, -, hx⟩ := List.mem_map.mp (List.fst_mem_of_mem_zipIdx hp)
  rw [occupancy, ← hx]
  exact x.qinfo_le

/-- The samples of a window are events of the collector. -/
theorem run_samples (s : Hpn) (samples : List HopSample) :
    Runs.run step s.startPoll (samples.map HopSample.event) = some (s.afterWindow (windowRecords samples)) := by
  have hrun : ∀ t : Hpn, Runs.run step t (samples.map HopSample.event) =
      some ((windowRecords samples).foldl sampleHop t) := by
    induction samples with
    | nil => exact fun t => rfl
    | cons x samples ih => exact fun t => ih (t.sampleHop x.record)
  exact hrun s.startPoll

/-- **Exactly which windows publish their extremes.** -/
theorem trueExtremes_iff (s : Hpn) (x : HopSample) (xs : List HopSample) :
    TrueExtremes s.records.length (windowRecords (x :: xs)) (published (s.afterWindow (windowRecords (x :: xs)))) ↔
      Publishable (windowRecords (x :: xs)) := by
  have hne : windowRecords (x :: xs) ≠ [] := List.cons_ne_nil _ _
  have h24 := occupancy_le (x :: xs)
  rw [published_eq hne]
  unfold Publishable
  by_cases h : AllEqual (windowRecords (x :: xs))
  · rw [trueExtremes_equal h, windowReadings_equal h24 hne h]
    simp only [h, true_and, not_true, false_and, or_false]
  · rw [trueExtremes_differ h, windowReadings_differ h24 hne h]
    simp only [h, false_and, not_false_eq_true, true_and, false_or]

/-- A hop record with the queue occupancy 9, and one with 5 in the same second. -/
def nine : HopSample where
  md := { queueInfo := htonl 9, ingressTime := 0, egressTime := 0 }
  clk := 100
  msCtimeBuf := []

def five : HopSample := { nine with md := { nine.md with queueInfo := htonl 5 } }

/-- The first record is the greatest, and the other one is published twice. -/
theorem firstGreatest_lost : ¬ TrueExtremes 0 (windowRecords [nine, five])
    (published (({} : Hpn).afterWindow (windowRecords [nine, five]))) := by
  have hpublished : published (({} : Hpn).afterWindow (windowRecords [nine, five])) =
      [five.record.reading 1, five.record.reading 1] := by decide
  rw [hpublished]
  rintro (⟨p, -, -, hr⟩ | ⟨p, q, hlt, -, -, hr⟩)
  · exact absurd (congrArg List.length hr) (by simp)
  · obtain ⟨hp, hq⟩ := List.cons.inj hr
    have horigin : some (0 + p.2) = some (0 + q.2) :=
      congrArg (fun r : Reading => r.timestamp.origin) (hp.symm.trans (List.cons.inj hq).1)
    have := Option.some.inj horigin
    omega

end Hpn
end TuningMod

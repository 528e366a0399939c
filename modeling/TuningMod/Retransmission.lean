/-
# The published retransmission rate

`doRunFindRetransmissionRate` reads the totals of the connections to the
destination every round, takes the difference to the round before, keeps the
last ten differences and publishes in `vGlobalRetransmissionRate` what the
pacing decisions compare with their threshold. The sum of the retransmissions
over the sum of the packets is a rate already, but it is divided once more by
the number of differences; and a round that finds no connection clears the
window and leaves the published rate standing.

What only goes to the log (`aSaveRates`, `vAvgRetransmissionRate`,
`vTransferRetransmissionRate`) is left out. A round that finds nothing has
totals 0, which it does not use.

Key definitions: `Snapshot`, `doRunFindRetransmissionRate`, `windowRate`, `PublishesRight`.
Key theorems: `windowHeld_step`, `published_eq`, `published_rate`.
-/
import TuningMod.Lib.Runs
import TuningMod.Lib.Window
import Mathlib.Algebra.Order.BigOperators.Group.List
import Mathlib.Algebra.Order.Field.Rat
import Mathlib.Data.List.Chain
import Mathlib.Tactic.FieldSimp
import Mathlib.Tactic.Ring

namespace TuningMod

def numRatesToUse : ℕ := 10

/-- What one round reads from `tcp4`, summed over the connections to the destination. -/
structure Totals where
  totalRetrans : UInt64 := 0
  packetsSent : UInt64 := 0
deriving DecidableEq, Repr

/-- One round: `found` connections to the destination or not. -/
inductive Snapshot where
  | notFound
  | found (now : Totals)
deriving DecidableEq, Repr

/-- The thread's variables that last from round to round. -/
structure RetransmissionThread where
  intTotalRetrans : UInt64 := 0
  intPacketsSent : UInt64 := 0
  aSaveIntRetrans : Vector UInt64 numRatesToUse
  aSaveIntPackets : Vector UInt64 numRatesToUse
  vRateCount : ℕ := 0
  fRateArrayDone : Bool := false
  vGlobalRetransmissionRate : ℚ := 0

namespace RetransmissionThread

/-- The thread at its start; the arrays are not initialized. -/
def initial (retrans packets : Vector UInt64 numRatesToUse) : RetransmissionThread where
  aSaveIntRetrans := retrans
  aSaveIntPackets := packets

/-! ### One round -/

/-- The entries of an array that are summed up. -/
def summed (s : RetransmissionThread) (a : Vector UInt64 numRatesToUse) : List UInt64 :=
  if s.fRateArrayDone then a.toList else a.toList.take s.vRateCount

def sum64 (l : List UInt64) : UInt64 := l.foldl (fun acc x => acc + x) 0

def save (s : RetransmissionThread) (retrans packets : UInt64) : RetransmissionThread :=
  if s.vRateCount < numRatesToUse then
    { s with
      aSaveIntRetrans := s.aSaveIntRetrans.setIfInBounds s.vRateCount retrans
      aSaveIntPackets := s.aSaveIntPackets.setIfInBounds s.vRateCount packets
      vRateCount := s.vRateCount + 1 }
  else
    { s with
      fRateArrayDone := true
      aSaveIntRetrans := s.aSaveIntRetrans.setIfInBounds 0 retrans
      aSaveIntPackets := s.aSaveIntPackets.setIfInBounds 0 packets
      vRateCount := 1 }

def vSomeIntTran (s : RetransmissionThread) : ℚ :=
  let vSomeIntRetranTran := sum64 (s.summed s.aSaveIntRetrans)
  let vSomeIntPacketsTran := sum64 (s.summed s.aSaveIntPackets)
  let rate : ℚ := vSomeIntRetranTran.toNat / vSomeIntPacketsTran.toNat * 100
  if s.fRateArrayDone then
    if vSomeIntPacketsTran ≠ 0 then rate / numRatesToUse else 0
  else if s.vRateCount > 0 then
    if vSomeIntPacketsTran ≠ 0 then rate / s.vRateCount else 0
  else 0

/-- The differences to the round before; without a new packet both count as 0. -/
def interval (s : RetransmissionThread) (now : Totals) : UInt64 × UInt64 :=
  if now.packetsSent > s.intPacketsSent then
    (now.totalRetrans - s.intTotalRetrans, now.packetsSent - s.intPacketsSent)
  else (0, 0)

def doRunFindRetransmissionRate (s : RetransmissionThread) : Snapshot → RetransmissionThread
  | .found now =>
    let s' := s.save (s.interval now).1 (s.interval now).2
    { s' with
      vGlobalRetransmissionRate := s'.vSomeIntTran
      intPacketsSent := now.packetsSent
      intTotalRetrans := now.totalRetrans }
  | .notFound =>
    -- the published rate is not among what is cleared
    { s with intTotalRetrans := 0, intPacketsSent := 0, vRateCount := 0, fRateArrayDone := false }

def step (s : RetransmissionThread) (e : Snapshot) : Option RetransmissionThread :=
  some (s.doRunFindRetransmissionRate e)

/-! ### The rate over the window -/

end RetransmissionThread

namespace Snapshot

/-- The totals read since a round last found nothing. -/
def totalsSince (es : List Snapshot) : List Totals :=
  es.foldl (fun ts e => match e with
    | notFound => []
    | found now => ts ++ [now]) []

/-- What was sent between two rounds. -/
structure Interval where
  retrans : ℕ
  packets : ℕ
deriving DecidableEq, Repr

def intervals (before : Totals) : List Totals → List Interval
  | [] => []
  | now :: ts =>
    { retrans := now.totalRetrans.toNat - before.totalRetrans.toNat
      packets := now.packetsSent.toNat - before.packetsSent.toNat } :: intervals now ts

/-- The last intervals since a round last found nothing, ten at most. -/
def window (es : List Snapshot) : List Interval :=
  (intervals {} (totalsSince es)).rtake numRatesToUse

def windowRetrans (es : List Snapshot) : ℕ := ((window es).map Interval.retrans).sum

def windowPackets (es : List Snapshot) : ℕ := ((window es).map Interval.packets).sum

/-- The retransmission rate over the window, in percent. -/
def windowRate (es : List Snapshot) : ℚ :=
  if windowPackets es = 0 then 0 else 100 * windowRetrans es / windowPackets es

/-- Between two rounds that both find connections the totals do not decrease. -/
def Follows : Snapshot → Snapshot → Prop
  | found a, found b => a.totalRetrans ≤ b.totalRetrans ∧ a.packetsSent ≤ b.packetsSent
  | _, _ => True

instance : DecidableRel Follows := fun a b => by
  cases a <;> cases b <;> unfold Follows <;> infer_instance

/-- While connections are found their totals do not decrease. -/
def NonDecreasing (es : List Snapshot) : Prop := es.IsChain Follows

instance : DecidablePred NonDecreasing := fun es => inferInstanceAs (Decidable (es.IsChain Follows))

/-- A round publishes the rate over the window: on the first interval, on a
window without packets or without retransmissions, and where the window is
cleared if the rate over it was 0. -/
def PublishesRight (pre : List Snapshot) : Snapshot → Prop
  | .notFound => windowRetrans pre = 0 ∨ windowPackets pre = 0
  | .found now => totalsSince pre = [] ∨
      windowRetrans (pre ++ [found now]) = 0 ∨ windowPackets (pre ++ [found now]) = 0

/-! ### Intervals and the window -/

variable {es pre : List Snapshot} {now before : Totals} {ts : List Totals}

@[simp] theorem totalsSince_found : totalsSince (es ++ [found now]) = totalsSince es ++ [now] := by
  simp [totalsSince]

@[simp] theorem totalsSince_notFound : totalsSince (es ++ [notFound]) = [] := by
  simp [totalsSince]

theorem intervals_concat : intervals before (ts ++ [now]) = intervals before ts ++
    [{ retrans := now.totalRetrans.toNat - (ts.getLastD before).totalRetrans.toNat
       packets := now.packetsSent.toNat - (ts.getLastD before).packetsSent.toNat }] := by
  induction ts generalizing before with
  | nil => rfl
  | cons t ts ih => rw [List.cons_append, intervals, ih, intervals, List.getLastD_cons, List.cons_append]

@[simp] theorem length_intervals : (intervals before ts).length = ts.length := by
  induction ts generalizing before with
  | nil => rfl
  | cons t ts ih => rw [intervals, List.length_cons, List.length_cons, ih]

theorem NonDecreasing.of_append {suf : List Snapshot} (h : NonDecreasing (es ++ suf)) :
    NonDecreasing es := (List.isChain_append.mp h).1

/-- The totals do not fall below those of the round before. -/
theorem NonDecreasing.last_le (h : NonDecreasing (es ++ [found now])) :
    ((totalsSince es).getLastD {}).totalRetrans ≤ now.totalRetrans ∧
      ((totalsSince es).getLastD {}).packetsSent ≤ now.packetsSent := by
  rcases List.eq_nil_or_concat' es with rfl | ⟨pre, e, rfl⟩
  · exact ⟨UInt64.zero_le, UInt64.zero_le⟩
  · cases e with
    | notFound => exact ⟨by simp, by simp⟩
    | found a =>
      have hlink := (List.isChain_append.mp h).2.2
      have hfollows : Follows (found a) (found now) := hlink (found a) (by simp) (found now) (by simp)
      simpa [Follows] using hfollows

theorem windowRate_eq_zero (h : windowRetrans es = 0 ∨ windowPackets es = 0) : windowRate es = 0 := by
  unfold windowRate
  by_cases hp : windowPackets es = 0
  · rw [if_pos hp]
  · rw [if_neg hp, h.resolve_right hp]
    simp

theorem windowRate_pos (hr : windowRetrans es ≠ 0) (hp : windowPackets es ≠ 0) : 0 < windowRate es := by
  unfold windowRate
  rw [if_neg hp]
  have hr' : (0 : ℚ) < windowRetrans es := by exact_mod_cast Nat.pos_of_ne_zero hr
  have hp' : (0 : ℚ) < windowPackets es := by exact_mod_cast Nat.pos_of_ne_zero hp
  exact div_pos (mul_pos (by norm_num) hr') hp'

end Snapshot

namespace RetransmissionThread

open Snapshot

variable {s : RetransmissionThread} {es : List Snapshot} {now : Totals}

/-! ### What the thread holds after any rounds -/

def retransWindow (s : RetransmissionThread) : Window UInt64 numRatesToUse :=
  ⟨s.aSaveIntRetrans, s.vRateCount, s.fRateArrayDone⟩

def packetsWindow (s : RetransmissionThread) : Window UInt64 numRatesToUse :=
  ⟨s.aSaveIntPackets, s.vRateCount, s.fRateArrayDone⟩

/-- The retransmissions of an interval that are saved. -/
def counted (i : Interval) : ℕ := if i.packets = 0 then 0 else i.retrans

/-- The arrays hold the intervals since a round last found nothing, whose sums
are the totals of the last round. -/
structure WindowHeld (es : List Snapshot) (s : RetransmissionThread) : Prop where
  lastRetrans : s.intTotalRetrans = ((totalsSince es).getLastD {}).totalRetrans
  lastPackets : s.intPacketsSent = ((totalsSince es).getLastD {}).packetsSent
  retrans : ∃ hist, s.retransWindow.Holds hist ∧
    hist.map UInt64.toNat = (intervals {} (totalsSince es)).map counted
  packets : ∃ hist, s.packetsWindow.Holds hist ∧
    hist.map UInt64.toNat = (intervals {} (totalsSince es)).map Interval.packets
  sumRetrans : ((intervals {} (totalsSince es)).map Interval.retrans).sum = s.intTotalRetrans.toNat
  sumPackets : ((intervals {} (totalsSince es)).map Interval.packets).sum = s.intPacketsSent.toNat

/-- Both arrays take the interval at the same slot. -/
theorem save_windows (r p : UInt64) : (s.save r p).retransWindow = s.retransWindow.push r ∧
    (s.save r p).packetsWindow = s.packetsWindow.push p := by
  unfold save Window.push
  by_cases h : s.vRateCount < numRatesToUse
  · have hr : s.retransWindow.count < numRatesToUse := h
    have hp : s.packetsWindow.count < numRatesToUse := h
    rw [if_pos h, if_pos hr, if_pos hp]
    exact ⟨rfl, rfl⟩
  · have hr : ¬ s.retransWindow.count < numRatesToUse := h
    have hp : ¬ s.packetsWindow.count < numRatesToUse := h
    rw [if_neg h, if_neg hr, if_neg hp]
    exact ⟨rfl, rfl⟩

theorem interval_packets (hp : s.intPacketsSent ≤ now.packetsSent) :
    (s.interval now).2.toNat = now.packetsSent.toNat - s.intPacketsSent.toNat := by
  unfold interval
  rw [UInt64.le_iff_toNat_le] at hp
  by_cases h : now.packetsSent > s.intPacketsSent
  · rw [if_pos h]
    exact UInt64.toNat_sub_of_le _ _ (UInt64.le_iff_toNat_le.mpr hp)
  · rw [if_neg h]
    rw [gt_iff_lt, UInt64.lt_iff_toNat_lt] at h
    show 0 = _
    omega

theorem interval_retrans (hr : s.intTotalRetrans ≤ now.totalRetrans) :
    (s.interval now).1.toNat = if now.packetsSent.toNat - s.intPacketsSent.toNat = 0 then 0
      else now.totalRetrans.toNat - s.intTotalRetrans.toNat := by
  unfold interval
  by_cases h : now.packetsSent > s.intPacketsSent
  · rw [if_pos h, if_neg]
    · exact UInt64.toNat_sub_of_le _ _ hr
    · rw [gt_iff_lt, UInt64.lt_iff_toNat_lt] at h
      omega
  · rw [if_neg h, if_pos]
    · rfl
    · rw [gt_iff_lt, UInt64.lt_iff_toNat_lt] at h
      omega

/-- At the start and after a round that finds nothing the window is empty. -/
theorem windowHeld_cleared (hnone : totalsSince es = []) : WindowHeld es
    { s with intTotalRetrans := 0, intPacketsSent := 0, vRateCount := 0, fRateArrayDone := false } := by
  refine ⟨?_, ?_, ⟨[], Window.holds_cleared _, ?_⟩, ⟨[], Window.holds_cleared _, ?_⟩, ?_, ?_⟩ <;>
    rw [hnone] <;> rfl

theorem windowHeld_found (h : WindowHeld es s) (hle : NonDecreasing (es ++ [.found now])) :
    WindowHeld (es ++ [.found now]) (s.doRunFindRetransmissionRate (.found now)) := by
  obtain ⟨hr, hp⟩ := hle.last_le
  rw [← h.lastRetrans] at hr
  rw [← h.lastPackets] at hp
  have hrNat := UInt64.le_iff_toNat_le.mp hr
  have hpNat := UInt64.le_iff_toNat_le.mp hp
  have hints := @intervals_concat now {} (totalsSince es)
  rw [← h.lastRetrans, ← h.lastPackets, ← totalsSince_found] at hints
  have : NeZero numRatesToUse := ⟨by decide⟩
  refine ⟨by simp [doRunFindRetransmissionRate], by simp [doRunFindRetransmissionRate], ?_, ?_, ?_, ?_⟩
  · obtain ⟨hist, hholds, hmap⟩ := h.retrans
    refine ⟨hist ++ [(s.interval now).1], ?_, ?_⟩
    · exact (save_windows (s.interval now).1 (s.interval now).2).1 ▸ hholds.push
    · rw [hints, List.map_append, List.map_append, hmap, List.map_singleton, List.map_singleton,
        interval_retrans hr]
      rfl
  · obtain ⟨hist, hholds, hmap⟩ := h.packets
    refine ⟨hist ++ [(s.interval now).2], ?_, ?_⟩
    · exact (save_windows (s.interval now).1 (s.interval now).2).2 ▸ hholds.push
    · rw [hints, List.map_append, List.map_append, hmap, List.map_singleton, List.map_singleton,
        interval_packets hp]
  · rw [hints, List.map_append, List.sum_append, h.sumRetrans]
    simp only [List.map_singleton, List.sum_singleton, doRunFindRetransmissionRate]
    omega
  · rw [hints, List.map_append, List.sum_append, h.sumPackets]
    simp only [List.map_singleton, List.sum_singleton, doRunFindRetransmissionRate]
    omega

/-! ### The published value -/

/-- The retransmissions of the window that are saved. -/
def windowCounted (es : List Snapshot) : ℕ := ((window es).map counted).sum

theorem sum64_toNat {l : List UInt64} (h : (l.map UInt64.toNat).sum < 2 ^ 64) :
    (sum64 l).toNat = (l.map UInt64.toNat).sum := by
  have hfold : ∀ (l : List UInt64) (acc : UInt64), acc.toNat + (l.map UInt64.toNat).sum < 2 ^ 64 →
      (l.foldl (fun acc x => acc + x) acc).toNat = acc.toNat + (l.map UInt64.toNat).sum := by
    intro l
    induction l with
    | nil => simp
    | cons x l ih =>
      intro acc hlt
      rw [List.map_cons, List.sum_cons] at hlt
      have hadd : (acc + x).toNat = acc.toNat + x.toNat := by
        rw [UInt64.toNat_add]
        omega
      rw [List.foldl_cons, ih _ (by omega), hadd, List.map_cons, List.sum_cons]
      omega
  have := hfold l 0 (by simpa using h)
  simpa [sum64] using this

/-- The sum the code takes over the window does not wrap. -/
theorem sum_contents {w : Window UInt64 numRatesToUse} {hist : List UInt64} {L : List ℕ} (h : w.Holds hist)
    (hmap : hist.map UInt64.toNat = L) (hlt : L.sum < 2 ^ 64) :
    (sum64 w.contents).toNat = (L.rtake numRatesToUse).sum := by
  have hperm : (w.contents.map UInt64.toNat).sum = (L.rtake numRatesToUse).sum :=
    calc (w.contents.map UInt64.toNat).sum
        = ((hist.rtake numRatesToUse).map UInt64.toNat).sum := (h.contents_perm.map UInt64.toNat).sum_eq
      _ = ((hist.map UInt64.toNat).rtake numRatesToUse).sum := by
          rw [List.rtake, List.rtake, List.map_drop, List.length_map]
      _ = (L.rtake numRatesToUse).sum := by rw [hmap]
  have hle : (L.rtake numRatesToUse).sum ≤ L.sum := (List.drop_sublist _ _).sum_le_sum (by simp)
  rw [sum64_toNat (by omega), hperm]

theorem counted_le (i : Interval) : counted i ≤ i.retrans := by
  unfold counted
  split
  · exact Nat.zero_le _
  · exact le_refl _

theorem sum_counted_le (l : List Interval) : (l.map counted).sum ≤ (l.map Interval.retrans).sum :=
  List.sum_le_sum fun i _ => counted_le i

theorem WindowHeld.retransTran (h : WindowHeld es s) :
    (sum64 (s.summed s.aSaveIntRetrans)).toNat = windowCounted es := by
  obtain ⟨hist, hholds, hmap⟩ := h.retrans
  have hlt : s.intTotalRetrans.toNat < 2 ^ 64 := s.intTotalRetrans.toNat_lt
  have hle := sum_counted_le (intervals {} (totalsSince es))
  rw [h.sumRetrans] at hle
  have hsum := sum_contents hholds hmap (by omega)
  rw [windowCounted, window, List.rtake, List.map_drop, ← List.length_map counted]
  exact hsum

theorem WindowHeld.packetsTran (h : WindowHeld es s) :
    (sum64 (s.summed s.aSaveIntPackets)).toNat = windowPackets es := by
  obtain ⟨hist, hholds, hmap⟩ := h.packets
  have hlt : s.intPacketsSent.toNat < 2 ^ 64 := s.intPacketsSent.toNat_lt
  rw [← h.sumPackets] at hlt
  have hsum := sum_contents hholds hmap hlt
  rw [windowPackets, window, List.rtake, List.map_drop, ← List.length_map Interval.packets]
  exact hsum

/-- The number the code divides by is the length of the window. -/
theorem WindowHeld.divisor (h : WindowHeld es s) :
    (if s.fRateArrayDone then numRatesToUse else s.vRateCount) = min (totalsSince es).length numRatesToUse := by
  obtain ⟨hist, hholds, hmap⟩ := h.packets
  have hlen : hist.length = (totalsSince es).length := by
    rw [← List.length_map UInt64.toNat, hmap, List.length_map, length_intervals]
  by_cases hf : s.fRateArrayDone = true
  · have := hholds.le_length hf
    rw [if_pos hf]
    omega
  · rw [Bool.not_eq_true] at hf
    have hcount : s.vRateCount = hist.length := hholds.count_eq hf
    have hle : s.vRateCount ≤ numRatesToUse := hholds.count_le
    rw [if_neg (by simp [hf])]
    omega

/-- What a round publishes: the rate over the window, divided by its length. -/
theorem published_eq (h : WindowHeld es s) (hne : totalsSince es ≠ []) :
    s.vSomeIntTran = if windowPackets es = 0 then 0 else
      (windowCounted es : ℚ) / windowPackets es * 100 / (min (totalsSince es).length numRatesToUse : ℕ) := by
  have hpos : 0 < (totalsSince es).length := List.length_pos_iff.mpr hne
  have hzero : sum64 (s.summed s.aSaveIntPackets) = 0 ↔ windowPackets es = 0 := by
    rw [← h.packetsTran, ← UInt64.toNat_inj]
    rfl
  rw [← h.divisor, vSomeIntTran, h.retransTran, h.packetsTran]
  by_cases hp : windowPackets es = 0
  · simp [hzero.mpr hp, hp]
  · have hp' : sum64 (s.summed s.aSaveIntPackets) ≠ 0 := fun hc => hp (hzero.mp hc)
    rw [if_neg hp, if_pos hp']
    by_cases hf : s.fRateArrayDone = true
    · rw [if_pos hf, if_pos hf]
    · have hcount := h.divisor
      rw [if_neg hf] at hcount
      have hgt : s.vRateCount > 0 := by
        have : 0 < numRatesToUse := by decide
        omega
      rw [if_neg hf, if_neg hf, if_pos hgt, if_pos hp']

/-- The first interval is saved whole. -/
theorem windowCounted_first (hfirst : totalsSince es = [now]) (hp : windowPackets es ≠ 0) :
    windowCounted es = windowRetrans es := by
  have hw : window es = intervals {} [now] := by
    unfold window
    rw [hfirst]
    rfl
  rw [windowPackets, hw] at hp
  rw [windowCounted, windowRetrans, hw]
  simp only [intervals, List.map_singleton, List.sum_singleton] at hp ⊢
  rw [counted, if_neg hp]

/-- The rate of `c` in `p` divided by `n` is the rate of `r` just if `c` is `n` times `r`. -/
theorem percent_eq_iff {c r p n : ℕ} (hp : p ≠ 0) (hn : n ≠ 0) :
    (c : ℚ) / p * 100 / n = 100 * r / p ↔ c = n * r := by
  have hpq : (p : ℚ) ≠ 0 := Nat.cast_ne_zero.mpr hp
  have hnq : (n : ℚ) ≠ 0 := Nat.cast_ne_zero.mpr hn
  rw [← Nat.cast_inj (R := ℚ), Nat.cast_mul]
  field_simp

theorem vSomeIntTran_right_iff (h : WindowHeld (es ++ [.found now]) s) :
    s.vSomeIntTran = windowRate (es ++ [.found now]) ↔ PublishesRight es (.found now) := by
  rw [published_eq h (by simp), windowRate, PublishesRight]
  have hcounted : windowCounted (es ++ [.found now]) ≤ windowRetrans (es ++ [.found now]) :=
    sum_counted_le _
  by_cases hp : windowPackets (es ++ [.found now]) = 0
  · simp [hp]
  rw [if_neg hp, if_neg hp]
  by_cases hfirst : totalsSince es = []
  · -- a single interval is divided by 1
    have hone : totalsSince (es ++ [.found now]) = [now] := by rw [totalsSince_found, hfirst]; rfl
    rw [windowCounted_first hone hp, hone]
    simp only [List.length_singleton, hfirst, true_or, iff_true]
    rw [show min 1 numRatesToUse = 1 from rfl, Nat.cast_one]
    ring
  · have hlen : 2 ≤ min (totalsSince (es ++ [.found now])).length numRatesToUse := by
      have hpos : 0 < (totalsSince es).length := List.length_pos_iff.mpr hfirst
      have hten : numRatesToUse = 10 := rfl
      rw [totalsSince_found, List.length_append, List.length_singleton]
      omega
    generalize min (totalsSince (es ++ [.found now])).length numRatesToUse = n at hlen
    have hn : n ≠ 0 := by omega
    rw [percent_eq_iff hp hn]
    constructor
    · intro heq
      -- the saved retransmissions cannot make up for a divisor of 2 or more
      have : 2 * windowRetrans (es ++ [.found now]) ≤ n * windowRetrans (es ++ [.found now]) :=
        Nat.mul_le_mul_right _ hlen
      exact Or.inr (Or.inl (by omega))
    · intro hright
      have hr : windowRetrans (es ++ [.found now]) = 0 :=
        (hright.resolve_left hfirst).resolve_right hp
      rw [hr, Nat.mul_zero]
      omega

/-! ### All rounds -/

variable {s' : RetransmissionThread} {e : Snapshot}

theorem windowHeld_step (h : WindowHeld es s) (hmono : NonDecreasing (es ++ [e])) (hs : s.step e = some s') :
    WindowHeld (es ++ [e]) s' := by
  cases hs
  cases e with
  | notFound => exact windowHeld_cleared totalsSince_notFound
  | found now => exact windowHeld_found h hmono

theorem published_found : (s.doRunFindRetransmissionRate (.found now)).vGlobalRetransmissionRate =
    (s.doRunFindRetransmissionRate (.found now)).vSomeIntTran := rfl

/-- After a round the rate is right just if the round publishes it right. -/
theorem right_iff (h : WindowHeld es s) (hright : s.vGlobalRetransmissionRate = windowRate es)
    (hmono : NonDecreasing (es ++ [e])) (hs : s.step e = some s') :
    s'.vGlobalRetransmissionRate = windowRate (es ++ [e]) ↔ PublishesRight es e := by
  have hheld := windowHeld_step h hmono hs
  cases hs
  cases e with
  | found now =>
    rw [published_found]
    exact vSomeIntTran_right_iff hheld
  | notFound =>
    -- the rate of the window before is still published
    have hzero : windowRate (es ++ [.notFound]) = 0 :=
      windowRate_eq_zero (Or.inl (by simp [windowRetrans, window, intervals]))
    show s.vGlobalRetransmissionRate = _ ↔ _
    rw [hright, hzero, PublishesRight]
    refine ⟨fun heq => ?_, windowRate_eq_zero⟩
    by_contra hc
    rw [not_or] at hc
    exact (windowRate_pos hc.1 hc.2).ne' heq

/-- **Which rounds publish the rate over the window.** Over all rounds whose
totals do not decrease while connections are found, the published rate is the
rate over the window after every round if and only if every round is one that
publishes it right. -/
theorem published_rate (retrans packets : Vector UInt64 numRatesToUse) {es : List Snapshot}
    (hmono : NonDecreasing es) :
    Runs.Always step (initial retrans packets)
        (fun pre t => t.vGlobalRetransmissionRate = windowRate pre) es ↔
      Runs.Steps step (initial retrans packets) (fun pre _ e => PublishesRight pre e) es := by
  -- the prefix of a run whose totals do not decrease is such a run
  have hiff : Runs.Always step (initial retrans packets)
      (fun pre t => NonDecreasing pre → t.vGlobalRetransmissionRate = windowRate pre) es ↔
      Runs.Steps step (initial retrans packets)
        (fun pre _ e => NonDecreasing (pre ++ [e]) → PublishesRight pre e) es := by
    refine Runs.always_iff_steps
      (I := fun pre t => NonDecreasing pre → WindowHeld pre t ∧ t.vGlobalRetransmissionRate = windowRate pre)
      (fun _ => ⟨@windowHeld_cleared (initial retrans packets) [] rfl, rfl⟩) (fun pre t e t' _ h hc hs hm => ?_)
      (fun pre t _ h hm => (h hm).2) (fun pre t e t' _ h hc hs hq => hc fun hm => ?_) es
    · obtain ⟨hheld, hright⟩ := h hm.of_append
      exact ⟨windowHeld_step hheld hm hs, (right_iff hheld hright hm hs).mpr (hc hm)⟩
    · obtain ⟨hheld, hright⟩ := h hm.of_append
      exact (right_iff hheld hright hm hs).mp (hq hm)
  constructor
  · intro h pre e suf t t' he hr hs
    refine hiff.mp (h.imp fun pre t _ hq _ => hq) pre e suf t t' he hr hs ?_
    rw [he, List.append_cons] at hmono
    exact hmono.of_append
  · intro h pre suf t he hr
    refine hiff.mpr (fun pre e suf t t' he hr hs _ => h pre e suf t t' he hr hs) pre suf t he hr ?_
    rw [he] at hmono
    exact hmono.of_append

/-- A round that finds nothing between rounds without retransmissions. -/
def quietRounds : List Snapshot := [.found ⟨0, 1000⟩, .notFound, .found ⟨10, 1000⟩]

theorem published_rate_quiet :
    Runs.Always step (initial (.replicate _ 7) (.replicate _ 7))
      (fun pre t => t.vGlobalRetransmissionRate = windowRate pre) quietRounds := by
  refine (published_rate _ _ (by decide)).mpr fun pre e suf _ _ he _ _ => ?_
  rcases pre with _ | ⟨_, _ | ⟨_, _ | ⟨_, pre⟩⟩⟩ <;> simp [quietRounds] at he
  · obtain ⟨rfl, -⟩ := he
    exact Or.inl rfl
  · obtain ⟨rfl, rfl, -⟩ := he
    exact Or.inl rfl
  · obtain ⟨rfl, rfl, rfl, -⟩ := he
    exact Or.inl rfl

/-- Two rounds with 1 % each publish 0.5 %, and a round that finds nothing leaves 1 % published. -/
theorem secondRound_halved :
    (NonDecreasing [.found ⟨10, 1000⟩, .found ⟨20, 2000⟩] ∧
      ¬ Runs.Always step (initial (.replicate _ 0) (.replicate _ 0))
        (fun pre t => t.vGlobalRetransmissionRate = windowRate pre)
        [.found ⟨10, 1000⟩, .found ⟨20, 2000⟩]) ∧
    (NonDecreasing [.found ⟨10, 1000⟩, .notFound] ∧
      ¬ Runs.Always step (initial (.replicate _ 0) (.replicate _ 0))
        (fun pre t => t.vGlobalRetransmissionRate = windowRate pre)
        [.found ⟨10, 1000⟩, .notFound]) := by
  refine ⟨⟨by decide, fun h => ?_⟩, by decide, fun h => ?_⟩
  · have hlast := h.last rfl
    revert hlast
    decide +kernel
  · have hlast := h.last rfl
    revert hlast
    decide +kernel

end RetransmissionThread
end TuningMod

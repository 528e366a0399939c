/-
# The retransmission rates as percentages

The totals of a round are sums over the sockets that are open to the
destination in it. A round whose packets have grown subtracts the totals of
the round before from both of its own: sockets that have closed in between
take their retransmissions with them, and those that have opened can bring
packets enough for the test to pass. All arithmetic is that of 64-bit unsigned
numbers.

Key definitions: `Socket`, `Round`, `RateThread`, `GrowsWithin`, `Percentages`.
Key theorems: `vSomeIntTran_percent`, `percent_step`, `grows_of_percent`, `percentages`.
-/
import TuningMod.Retransmission
import Mathlib.Data.Nat.Cast.Order.Field
import Mathlib.Tactic.Linarith
import Mathlib.Tactic.Positivity

namespace TuningMod
namespace RetransmissionThread

/-- A socket to the destination, with what is read of it from `tcp4`. -/
structure Socket where
  id : ℕ
  totalRetrans : UInt64
  segsOut : UInt64
  le : totalRetrans ≤ segsOut := by decide
  deriving DecidableEq

/-- The sockets a round finds. -/
abbrev Round := List Socket

namespace Round

/-- The sums over the sockets. -/
def totals (r : Round) : Totals where
  totalRetrans := sum64 (r.map Socket.totalRetrans)
  packetsSent := sum64 (r.map Socket.segsOut)

def snapshot (r : Round) : Snapshot := if r = [] then .notFound else .found r.totals

/-- The counters of a socket that stays open only grow. -/
def Follows (r r' : Round) : Prop :=
  ∀ s ∈ r, ∀ s' ∈ r', s.id = s'.id → s.totalRetrans ≤ s'.totalRetrans ∧ s.segsOut ≤ s'.segsOut

instance (r r' : Round) : Decidable (Follows r r') := by
  unfold Follows
  infer_instance

/-- A sequence of snapshots of sockets that open, grow and close. -/
def Sockets (rs : List Round) : Prop := (∀ r ∈ rs, (r.map Socket.id).Nodup) ∧ rs.IsChain Follows

instance (rs : List Round) : Decidable (Sockets rs) := by
  unfold Sockets
  infer_instance

/-- So few packets that no sum of ten rounds wraps. -/
def Few (r : Round) : Prop := (r.map fun s => s.segsOut.toNat).sum < 2 ^ 60

end Round

/-- The thread with `vIntRetransmissionRate`, the rate of the last round that
found a socket. -/
structure RateThread where
  thread : RetransmissionThread
  vIntRetransmissionRate : ℚ := 0

namespace RateThread

def intRate (interval : UInt64 × UInt64) : ℚ :=
  if interval.2 ≠ 0 then interval.1.toNat / interval.2.toNat * 100 else 0

def round (t : RateThread) (r : Round) : RateThread where
  thread := t.thread.doRunFindRetransmissionRate r.snapshot
  vIntRetransmissionRate := match r.snapshot with
    | .found now => intRate (t.thread.interval now)
    | .notFound => t.vIntRetransmissionRate

def step (t : RateThread) (r : Round) : Option RateThread := some (t.round r)

def initial (retrans packets : Vector UInt64 numRatesToUse) : RateThread where
  thread := .initial retrans packets

/-- Where the packets have grown, the retransmissions have grown too, by no
more than the packets. -/
def GrowsWithin (t : RateThread) (r : Round) : Prop :=
  r ≠ [] → t.thread.intPacketsSent < r.totals.packetsSent →
    t.thread.intTotalRetrans.toNat ≤ r.totals.totalRetrans.toNat ∧
    r.totals.totalRetrans.toNat - t.thread.intTotalRetrans.toNat ≤
      r.totals.packetsSent.toNat - t.thread.intPacketsSent.toNat

/-- The subtraction of the retransmissions wraps. -/
def Wraps (t : RateThread) (r : Round) : Prop :=
  r ≠ [] ∧ t.thread.intPacketsSent < r.totals.packetsSent ∧
    r.totals.totalRetrans.toNat < t.thread.intTotalRetrans.toNat

instance (t : RateThread) (r : Round) : Decidable (t.Wraps r) := by
  unfold Wraps
  infer_instance

/-- Both rates lie between 0 and 100. -/
def InRange (t : RateThread) : Prop :=
  (0 ≤ t.vIntRetransmissionRate ∧ t.vIntRetransmissionRate ≤ 100) ∧
    0 ≤ t.thread.vGlobalRetransmissionRate ∧ t.thread.vGlobalRetransmissionRate ≤ 100

/-- The rates are percentages after every round, and no subtraction wraps. -/
def Percentages (t : RateThread) (rs : List Round) : Prop :=
  Runs.Always step t (fun _ t => t.InRange) rs ∧ Runs.Steps step t (fun _ t r => ¬ t.Wraps r) rs

/-! ### The rates -/

section Rates

variable {s : RetransmissionThread} {a b : ℕ}

theorem percent_nonneg (a b : ℕ) : (0 : ℚ) ≤ a / b * 100 := by positivity

theorem percent_le (h : a ≤ b) : (a : ℚ) / b * 100 ≤ 100 := by
  have hle : (a : ℚ) / b ≤ 1 := div_le_one_of_le₀ (by exact_mod_cast h) (by positivity)
  linarith

theorem le_of_percent_le (hb : b ≠ 0) (h : (a : ℚ) / b * 100 ≤ 100) : a ≤ b := by
  have hpos : (0 : ℚ) < b := by exact_mod_cast Nat.pos_of_ne_zero hb
  have hle : (a : ℚ) / b ≤ 1 := by linarith
  rw [div_le_one hpos] at hle
  exact_mod_cast hle

theorem intRate_nonneg (i : UInt64 × UInt64) : 0 ≤ intRate i := by
  unfold intRate
  split_ifs
  · exact percent_nonneg _ _
  · exact le_refl 0

theorem intRate_le {i : UInt64 × UInt64} (h : i.1.toNat ≤ i.2.toNat) : intRate i ≤ 100 := by
  unfold intRate
  split_ifs
  · exact percent_le h
  · norm_num

/-- The sum over a window of numbers below 2 ^ 60. -/
theorem sum_window {w : Window UInt64 numRatesToUse} {hist : List UInt64} (h : w.Holds hist)
    (hlt : ∀ x ∈ hist, x.toNat < 2 ^ 60) :
    (sum64 w.contents).toNat = ((hist.rtake numRatesToUse).map UInt64.toNat).sum := by
  have hperm := (h.contents_perm.map UInt64.toNat).sum_eq
  have hlen : (hist.rtake numRatesToUse).length ≤ 10 := by
    rw [List.rtake, List.length_drop]
    show _ ≤ numRatesToUse
    omega
  have hsum : ((hist.rtake numRatesToUse).map UInt64.toNat).sum ≤ (hist.rtake numRatesToUse).length * 2 ^ 60 := by
    have hbound := List.sum_le_card_nsmul ((hist.rtake numRatesToUse).map UInt64.toNat) (2 ^ 60) ?_
    · simpa using hbound
    · intro n hn
      obtain ⟨x, hx, rfl⟩ := List.mem_map.mp hn
      exact (hlt x ((List.drop_suffix _ _).mem hx)).le
  rw [sum64_toNat (by omega), hperm]

/-- A window of intervals that are in order publishes a percentage. -/
theorem vSomeIntTran_percent {hist : List (UInt64 × UInt64)} (hr : s.retransWindow.Holds (hist.map Prod.fst))
    (hp : s.packetsWindow.Holds (hist.map Prod.snd))
    (hle : ∀ x ∈ hist, x.1.toNat ≤ x.2.toNat ∧ x.2.toNat < 2 ^ 60) : 0 ≤ s.vSomeIntTran ∧ s.vSomeIntTran ≤ 100 := by
  have hretrans : (sum64 (s.summed s.aSaveIntRetrans)).toNat = _ := sum_window hr fun x hx => by
    obtain ⟨y, hy, rfl⟩ := List.mem_map.mp hx
    have := hle y hy
    omega
  have hpackets : (sum64 (s.summed s.aSaveIntPackets)).toNat = _ := sum_window hp fun x hx => by
    obtain ⟨y, hy, rfl⟩ := List.mem_map.mp hx
    exact (hle y hy).2
  have hsums : (sum64 (s.summed s.aSaveIntRetrans)).toNat ≤ (sum64 (s.summed s.aSaveIntPackets)).toNat := by
    rw [hretrans, hpackets]
    simp only [List.rtake, List.length_map, ← List.map_drop, List.map_map]
    exact List.sum_le_sum fun x hx => (hle x ((List.drop_suffix _ _).mem hx)).1
  have hrate := percent_le hsums
  have hpos := percent_nonneg (sum64 (s.summed s.aSaveIntRetrans)).toNat (sum64 (s.summed s.aSaveIntPackets)).toNat
  -- the rate is divided by a number that is at least 1
  have hdiv : ∀ n : ℕ, 0 < n → ∀ x : ℚ, 0 ≤ x → x ≤ 100 → 0 ≤ x / n ∧ x / n ≤ 100 := by
    intro n hn x h0 h100
    have hn' : (1 : ℚ) ≤ n := by exact_mod_cast hn
    exact ⟨by positivity, (div_le_self h0 hn').trans h100⟩
  unfold vSomeIntTran
  dsimp only
  split_ifs with h1 h2 h3 h4
  · exact hdiv numRatesToUse (by decide) _ hpos hrate
  · norm_num
  · exact hdiv s.vRateCount h3 _ hpos hrate
  · norm_num
  · norm_num

end Rates

/-! ### One round -/

section Round

variable {t t' : RateThread} {r : Round} {rs : List Round}

/-- What a round of few packets reads is in order. -/
theorem totals_le (h : r.Few) : r.totals.totalRetrans.toNat ≤ r.totals.packetsSent.toNat ∧
    r.totals.packetsSent.toNat < 2 ^ 60 := by
  have hle : (r.map fun s => s.totalRetrans.toNat).sum ≤ (r.map fun s => s.segsOut.toNat).sum :=
    List.sum_le_sum fun s _ => UInt64.le_iff_toNat_le.mp s.le
  have hlt : (r.map fun s => s.segsOut.toNat).sum < 2 ^ 60 := h
  have hretrans : r.totals.totalRetrans.toNat = (r.map fun s => s.totalRetrans.toNat).sum := by
    rw [Round.totals, sum64_toNat, List.map_map]
    · rfl
    · rw [List.map_map]
      exact lt_of_le_of_lt hle (hlt.trans (by decide))
  have hpackets : r.totals.packetsSent.toNat = (r.map fun s => s.segsOut.toNat).sum := by
    rw [Round.totals, sum64_toNat, List.map_map]
    · rfl
    · rw [List.map_map]
      exact hlt.trans (by decide)
  omega

/-- The totals kept from the round before are in order, and 60 bits hold them. -/
def KeptInOrder (t : RateThread) : Prop :=
  t.thread.intTotalRetrans.toNat ≤ t.thread.intPacketsSent.toNat ∧ t.thread.intPacketsSent.toNat < 2 ^ 60

theorem keptInOrder_step (h : r.Few) (hs : t.step r = some t') : t'.KeptInOrder := by
  obtain rfl := Option.some.inj hs
  unfold KeptInOrder round Round.snapshot
  by_cases hr : r = []
  · rw [if_pos hr]
    exact ⟨Nat.le_refl _, (by decide : (0 : UInt64).toNat < 2 ^ 60)⟩
  · rw [if_neg hr]
    exact totals_le h

/-- The interval of a round that grows within its packets. -/
theorem interval_le (hg : t.GrowsWithin r) (hr : r ≠ []) :
    (t.thread.interval r.totals).1.toNat ≤ (t.thread.interval r.totals).2.toNat ∧
      (t.thread.interval r.totals).2.toNat ≤ r.totals.packetsSent.toNat := by
  unfold interval
  by_cases hgrown : r.totals.packetsSent > t.thread.intPacketsSent
  · obtain ⟨hle, hwithin⟩ := hg hr hgrown
    have hpackets := UInt64.le_iff_toNat_le.mp (UInt64.le_of_lt hgrown)
    rw [if_pos hgrown]
    simp only [UInt64.toNat_sub_of_le _ _ (UInt64.le_iff_toNat_le.mpr hle),
      UInt64.toNat_sub_of_le _ _ (UInt64.le_iff_toNat_le.mpr hpackets)]
    omega
  · rw [if_neg hgrown]
    exact ⟨Nat.le_refl _, Nat.zero_le _⟩

/-- The intervals in the window are in order, and the rates are percentages. -/
structure Percent (t : RateThread) : Prop where
  window : ∃ hist : List (UInt64 × UInt64), t.thread.retransWindow.Holds (hist.map Prod.fst) ∧
    t.thread.packetsWindow.Holds (hist.map Prod.snd) ∧ ∀ x ∈ hist, x.1.toNat ≤ x.2.toNat ∧ x.2.toNat < 2 ^ 60
  inRange : t.InRange

theorem percent_initial (retrans packets : Vector UInt64 numRatesToUse) : (initial retrans packets).Percent where
  window := ⟨[], Window.holds_cleared _, Window.holds_cleared _, by simp⟩
  inRange := by
    refine ⟨⟨le_refl 0, ?_⟩, le_refl 0, ?_⟩ <;> exact (by norm_num : (0 : ℚ) ≤ 100)

/-- **One round.** -/
theorem percent_step (h : t.Percent) (hg : t.GrowsWithin r) (hf : r.Few) (hs : t.step r = some t') : t'.Percent := by
  obtain rfl := Option.some.inj hs
  obtain ⟨⟨hist, hretrans, hpackets, hle⟩, hint, hglobal⟩ := h
  by_cases hr : r = []
  · -- nothing is found: the window is cleared, and both rates stand
    subst hr
    exact ⟨⟨[], Window.holds_cleared _, Window.holds_cleared _, by simp⟩, hint, hglobal⟩
  · have hfound : r.snapshot = .found r.totals := if_neg hr
    obtain ⟨hwithin, hlast⟩ := interval_le hg hr
    have htotals := (totals_le hf).2
    obtain ⟨hsaveRetrans, hsavePackets⟩ := save_windows (s := t.thread) (t.thread.interval r.totals).1
      (t.thread.interval r.totals).2
    have : NeZero numRatesToUse := ⟨by decide⟩
    have hretrans' := hretrans.push (x := (t.thread.interval r.totals).1)
    have hpackets' := hpackets.push (x := (t.thread.interval r.totals).2)
    rw [← hsaveRetrans, ← List.map_singleton, ← List.map_append] at hretrans'
    rw [← hsavePackets, ← List.map_singleton, ← List.map_append] at hpackets'
    have hle' : ∀ x ∈ hist ++ [t.thread.interval r.totals], x.1.toNat ≤ x.2.toNat ∧ x.2.toNat < 2 ^ 60 := by
      intro x hx
      rcases List.mem_append.mp hx with hx | hx
      · exact hle x hx
      · rw [List.mem_singleton.mp hx]
        exact ⟨hwithin, by omega⟩
    have hpublished := vSomeIntTran_percent hretrans' hpackets' hle'
    refine ⟨⟨_, ?_, ?_, hle'⟩, ?_, ?_⟩
    · rw [round, hfound]
      exact hretrans'
    · rw [round, hfound]
      exact hpackets'
    · rw [round, hfound]
      exact ⟨intRate_nonneg _, intRate_le hwithin⟩
    · rw [round, hfound]
      exact hpublished

theorem not_wraps (hg : t.GrowsWithin r) : ¬ t.Wraps r := by
  rintro ⟨hr, hgrown, hfell⟩
  have := (hg hr hgrown).1
  omega

/-- A percentage is published only by a round that grows within its packets:
what wraps around is more than any packets. -/
theorem grows_of_percent (h : t.KeptInOrder) (hf : r.Few) (hin : (t.round r).InRange) : t.GrowsWithin r := by
  intro hr hgrown
  have hfound : r.snapshot = .found r.totals := if_neg hr
  have hrate : intRate (t.thread.interval r.totals) ≤ 100 := by
    have hle := hin.1.2
    rwa [round, hfound] at hle
  have hpackets := UInt64.le_of_lt hgrown
  have hlt := UInt64.lt_iff_toNat_lt.mp hgrown
  have hsub := UInt64.toNat_sub_of_le _ _ hpackets
  have htotals := totals_le hf
  have hne : (r.totals.packetsSent - t.thread.intPacketsSent).toNat ≠ 0 := by omega
  have hne' : r.totals.packetsSent - t.thread.intPacketsSent ≠ 0 := fun hz => hne (by rw [hz]; rfl)
  unfold interval intRate at hrate
  rw [if_pos hgrown] at hrate
  dsimp only at hrate
  rw [if_pos hne'] at hrate
  have hle := le_of_percent_le hne hrate
  have hkept := h
  unfold KeptInOrder at hkept
  have hfell : t.thread.intTotalRetrans.toNat ≤ r.totals.totalRetrans.toNat := by
    by_contra hnot
    have hwrap : (r.totals.totalRetrans - t.thread.intTotalRetrans).toNat =
        2 ^ 64 - t.thread.intTotalRetrans.toNat + r.totals.totalRetrans.toNat := by
      rw [UInt64.toNat_sub]
      omega
    omega
  rw [UInt64.toNat_sub_of_le _ _ (UInt64.le_iff_toNat_le.mpr hfell), hsub] at hle
  exact ⟨hfell, hle⟩

end Round

/-! ### Runs -/

/-- **When the rates are percentages.** They are in every run whose rounds,
where the packets have grown, have their retransmissions grow by no more;
and with few packets in no other run. -/
theorem percentages (retrans packets : Vector UInt64 numRatesToUse) (rs : List Round) :
    (Runs.Steps step (initial retrans packets) (fun _ t r => t.GrowsWithin r ∧ r.Few) rs →
      Percentages (initial retrans packets) rs) ∧
    ((∀ r ∈ rs, r.Few) → Percentages (initial retrans packets) rs →
      Runs.Steps step (initial retrans packets) (fun _ t r => t.GrowsWithin r) rs) := by
  constructor
  · intro h
    have hpercent : Runs.Always step (initial retrans packets) (fun _ t => t.Percent) rs :=
      Runs.always_of_steps (percent_initial retrans packets)
        (fun _ _ _ _ _ hi hc hs => percent_step hi hc.1 hc.2 hs) h
    exact ⟨hpercent.imp fun _ _ _ hi => hi.inRange,
      fun pre r suf t t' he hr hs => not_wraps (h pre r suf t t' he hr hs).1⟩
  · rintro hfew ⟨hrange, -⟩ pre r suf t t' he hr hs
    have hsteps : Runs.Steps step (initial retrans packets) (fun _ _ r => r.Few) rs :=
      fun pre r suf _ _ he _ _ => hfew r (by rw [he]; simp)
    have hfirst : (initial retrans packets).KeptInOrder :=
      ⟨Nat.le_refl _, (by decide : (0 : UInt64).toNat < 2 ^ 60)⟩
    have hkept : Runs.Always step (initial retrans packets) (fun _ t => t.KeptInOrder) rs :=
      Runs.always_of_steps (C := fun _ _ r => r.Few) hfirst
        (fun _ _ _ _ _ _ hc hs => keptInOrder_step hc hs) hsteps
    have hin : t'.InRange := by
      refine hrange (pre ++ [r]) suf t' (by simpa using he) ?_
      exact (Runs.run_snoc_iff step).mpr ⟨t, hr, hs⟩
    obtain rfl := Option.some.inj hs
    exact grows_of_percent (hkept pre (r :: suf) t he hr) (hfew r (by rw [he]; simp)) hin

/-- A socket with 50 retransmissions in 100 segments closes, and one with none
in 200 opens. -/
def closeAndOpen : List Round := [[{ id := 1, totalRetrans := 50, segsOut := 100 }],
  [{ id := 2, totalRetrans := 0, segsOut := 200 }]]

theorem not_percentages_closeAndOpen : Round.Sockets closeAndOpen ∧
    ¬ Percentages (initial (.replicate _ 0) (.replicate _ 0)) closeAndOpen := by
  refine ⟨by decide, fun h => ?_⟩
  have hwraps := h.2 [[{ id := 1, totalRetrans := 50, segsOut := 100 }]]
    [{ id := 2, totalRetrans := 0, segsOut := 200 }] [] _ _ rfl rfl rfl
  exact hwraps (by decide)

end RateThread
end RetransmissionThread
end TuningMod

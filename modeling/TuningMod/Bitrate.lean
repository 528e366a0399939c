/-
# The published bitrate

A measurement reads a first pair of byte counters and then, for a second, as
many later ones as come, of which it keeps the last whose transmit counter is
not 0. The differences in kbits decide whether the link counts as idle, go to
the average, which is published with the jitter, and start or end the received
traffic. A rate above the NIC's speed is not published, but the speed is taken
in whole Gb/s; and without a later pair the differences are those to 0, which
wrap.

The pacing that an idle link resets, the flows that received traffic begins
and the log are left out. When the tuner waits, the jump to `ck_stage` passes
over the received traffic.

Key definitions: `ByteReading`, `lastBytes`, `kbits`, `BitrateThread.read`, `Measured`, `Publishable`.
Key theorems: `toNat_kbits`, `read_published`, `measured_iff`.
-/
import TuningMod.Measurement
import Mathlib.Data.List.Induction
import Mathlib.Data.Rat.Floor

namespace TuningMod

/-- The counters of a line that `bpftrace` prints. -/
structure ByteCounters where
  tx : UInt64 := 0
  rx : UInt64 := 0
  deriving DecidableEq

/-- The lines of a measurement. -/
structure ByteReading where
  before : ByteCounters
  later : List ByteCounters
  grow : ∀ now ∈ later, before.tx ≤ now.tx ∧ before.rx ≤ now.rx

/-- `last_tx_bytes` and `last_rx_bytes` after the loop over the later lines. -/
def lastBytes (later : List ByteCounters) : ByteCounters :=
  later.foldl (fun last now => if now.tx ≠ 0 then now else last) {}

/-- From the bytes of a second to kbits per second, in `unsigned long`. -/
def kbits (last before : UInt64) : UInt64 := 8 * (last - before) / 1000

def ByteReading.txKbitsPerSec (r : ByteReading) : UInt64 := kbits (lastBytes r.later).tx r.before.tx

def ByteReading.rxKbitsPerSec (r : ByteReading) : UInt64 := kbits (lastBytes r.later).rx r.before.rx

/-- `netDeviceSpeed` is an `int`. -/
structure NicEnv extends MeasureEnv where
  isInt : netDeviceSpeed < 2 ^ 31

/-- What lasts from one measurement to the next. -/
structure BitrateThread where
  tuner : Tuner
  vTwiceInaRow : Bool := false
  rxTraffic : Bool := false
  averaged : tuner.averageTxKbitsPerSec = 0 ∧ tuner.averageRxKbitsPerSec = 0

namespace Tuner

/-- Whether the measurement ends at `ck_stage`: the tuner was reached and waits. -/
def jumps (env : MeasureEnv) (txKbitsPerSec : ℕ) (t : Tuner) : Bool :=
  let tx := (t.averageTxKbitsPerSec + txKbitsPerSec) / 1000000
  if tx ≠ 0 ∧ tx > (env.netDeviceSpeed.tdiv 1000 : ℤ) then false
  else (t.aim (if tx ≠ 0 then tx + 30 / 100 else tx)).waits.2

/-! ### What a measurement publishes -/

/-- The rates are the same. -/
structure SameRates (t u : Tuner) : Prop where
  averageTx : t.averageTxKbitsPerSec = u.averageTxKbitsPerSec
  averageRx : t.averageRxKbitsPerSec = u.averageRxKbitsPerSec
  globalTx : t.vGlobalAverageTxGbitsPerSec = u.vGlobalAverageTxGbitsPerSec
  globalRx : t.vGlobalAverageRxGbitsPerSec = u.vGlobalAverageRxGbitsPerSec

section Rates

variable {t u v : Tuner} {gTuningMode : Bool} {env : MeasureEnv} {avg : ℚ}

theorem SameRates.refl (t : Tuner) : SameRates t t := ⟨rfl, rfl, rfl, rfl⟩

theorem SameRates.trans (h : SameRates t u) (h' : SameRates u v) : SameRates t v :=
  ⟨h.1.trans h'.1, h.2.trans h'.2, h.3.trans h'.3, h.4.trans h'.4⟩

theorem checkIfBitrateTooLow_rates : SameRates (t.checkIfBitrateTooLow gTuningMode env avg).1 t := by
  unfold checkIfBitrateTooLow applyTuning
  cases env.wmem <;> dsimp only <;> split_ifs <;> exact ⟨rfl, rfl, rfl, rfl⟩

theorem aim_rates : SameRates (t.aim avg) t := by
  unfold aim
  dsimp only
  split_ifs <;> exact ⟨rfl, rfl, rfl, rfl⟩

theorem waits_rates : SameRates t.waits.1 t := by
  unfold waits
  split_ifs <;> exact ⟨rfl, rfl, rfl, rfl⟩

theorem restoreChannels_rates {txKbitsPerSec : ℕ} : SameRates (t.restoreChannels env txKbitsPerSec).1 t := by
  unfold restoreChannels
  split_ifs <;> exact ⟨rfl, rfl, rfl, rfl⟩

theorem climb_rates : SameRates (t.climb gTuningMode env avg).1 t := by
  have hwaits : SameRates (t.aim avg).waits.1 t := waits_rates.trans aim_rates
  unfold climb
  dsimp only
  split_ifs
  · exact hwaits
  · exact checkIfBitrateTooLow_rates.trans ⟨hwaits.1, hwaits.2, hwaits.3, hwaits.4⟩
  · exact ⟨hwaits.1, hwaits.2, hwaits.3, hwaits.4⟩

/-- The rates after a measurement. -/
theorem measure_rates (t : Tuner) (gTuningMode : Bool) (env : MeasureEnv) (txKbitsPerSec rxKbitsPerSec : ℕ) :
    let tx := (t.averageTxKbitsPerSec + txKbitsPerSec) / 1000000
    let rx := (t.averageRxKbitsPerSec + rxKbitsPerSec) / 1000000
    let skipped := tx ≠ 0 ∧ tx > (env.netDeviceSpeed.tdiv 1000 : ℤ)
    let u := (t.measure gTuningMode env txKbitsPerSec rxKbitsPerSec).1
    (u.averageTxKbitsPerSec = 0 ∧ u.averageRxKbitsPerSec = 0) ∧
      u.vGlobalAverageTxGbitsPerSec =
        (if skipped then t.vGlobalAverageTxGbitsPerSec else if tx ≠ 0 then tx + 30 / 100 else tx) ∧
      u.vGlobalAverageRxGbitsPerSec =
        (if skipped then t.vGlobalAverageRxGbitsPerSec else if tx ≠ 0 then rx + 30 / 100 else rx) := by
  intro tx rx skipped u
  by_cases hs : skipped
  · have hu : u = { t with averageTxKbitsPerSec := 0, averageRxKbitsPerSec := 0 } := by
      simp only [u, measure]
      rw [if_pos hs]
    rw [hu, if_pos hs, if_pos hs]
    exact ⟨⟨rfl, rfl⟩, rfl, rfl⟩
  · rw [if_neg hs, if_neg hs]
    have hrates : SameRates u { t with
        averageTxKbitsPerSec := 0
        averageRxKbitsPerSec := 0
        vGlobalAverageTxGbitsPerSec := if tx ≠ 0 then tx + 30 / 100 else tx
        vGlobalAverageRxGbitsPerSec := if tx ≠ 0 then rx + 30 / 100 else rx } := by
      simp only [u, measure]
      rw [if_neg hs]
      exact climb_rates.trans restoreChannels_rates
    exact ⟨⟨hrates.averageTx, hrates.averageRx⟩, hrates.globalTx, hrates.globalRx⟩

end Rates
end Tuner

namespace BitrateThread

/-- A measurement, from the counters to the received traffic. -/
def read (gTuningMode : Bool) (env : NicEnv) (s : BitrateThread) (r : ByteReading) : BitrateThread where
  tuner := (s.tuner.measure gTuningMode env.toMeasureEnv r.txKbitsPerSec.toNat r.rxKbitsPerSec.toNat).1
  -- neither transmit nor receive bits
  vTwiceInaRow := r.txKbitsPerSec = 0 ∧ r.rxKbitsPerSec = 0
  rxTraffic :=
    if s.tuner.jumps env.toMeasureEnv r.txKbitsPerSec.toNat then s.rxTraffic
    else r.rxKbitsPerSec ≠ 0
  averaged := (Tuner.measure_rates _ _ _ _ _).1

end BitrateThread

/-! ### The counters -/

/-- The last transmit counter that is not 0. -/
def lastTx (later : List ByteCounters) : UInt64 :=
  ((later.map fun now => now.tx).filter fun tx => tx ≠ 0).getLast?.getD 0

/-- The bytes transmitted during the measurement. -/
def ByteReading.txBytes (r : ByteReading) : ℕ := (lastTx r.later).toNat - r.before.tx.toNat

/-- The bitrate of that many bytes in a second, in Gb/s, with the jitter. -/
def bitrate (bytes : ℕ) : ℚ :=
  let gbits : ℚ := ⌊(8 * bytes : ℚ) / 1000⌋ / 10 ^ 6
  if gbits ≠ 0 then gbits + 3 / 10 else gbits

section Counters

variable {r : ByteReading} {last before : UInt64}

theorem lastBytes_tx (later : List ByteCounters) : (lastBytes later).tx = lastTx later := by
  induction later using List.reverseRecOn with
  | nil => rfl
  | append_singleton later now ih =>
    unfold lastBytes lastTx at *
    rw [List.foldl_append, List.map_append, List.filter_append]
    by_cases h : now.tx = 0
    · simpa [h] using ih
    · simp [h]

/-- Once a later pair has a counter that is not 0, nothing wraps. -/
theorem before_le_lastTx (h : ∃ now ∈ r.later, now ≠ {}) : r.before.tx ≤ lastTx r.later := by
  unfold lastTx
  cases hlast : ((r.later.map fun now => now.tx).filter fun tx => tx ≠ 0).getLast? with
  | some tx =>
    have hmem := List.mem_of_getLast? hlast
    obtain ⟨now, hnow, rfl⟩ := List.mem_map.mp (List.mem_of_mem_filter hmem)
    exact (r.grow now hnow).1
  | none =>
    obtain ⟨now, hnow, -⟩ := h
    have hnil := List.getLast?_eq_none_iff.mp hlast
    have hzero := List.filter_eq_nil_iff.mp hnil now.tx (List.mem_map_of_mem hnow)
    have htx : now.tx = 0 := by simpa using hzero
    exact htx ▸ (r.grow now hnow).1

/-- Without a wrap the kbits are those of the bytes in between. -/
theorem toNat_kbits (hle : before ≤ last) (hlt : 8 * (last.toNat - before.toNat) < 2 ^ 64) :
    (kbits last before).toNat = 8 * (last.toNat - before.toNat) / 1000 := by
  have h8 : (8 : UInt64).toNat = 8 := rfl
  have h1000 : (1000 : UInt64).toNat = 1000 := rfl
  unfold kbits
  rw [UInt64.toNat_div, UInt64.toNat_mul, UInt64.toNat_sub_of_le _ _ hle, h8, h1000, Nat.mod_eq_of_lt hlt]

/-- The difference to 0, which wraps, can be less than a kbit. -/
theorem kbits_zero : kbits 0 before = 0 ↔ 8 * (2 ^ 64 - before.toNat) % 2 ^ 64 < 1000 := by
  have h8 : (8 : UInt64).toNat = 8 := rfl
  have h1000 : (1000 : UInt64).toNat = 1000 := rfl
  have hlt := before.toNat_lt
  unfold kbits
  rw [← UInt64.toNat_inj, UInt64.toNat_div, UInt64.toNat_mul, UInt64.toNat_sub, h8, h1000, UInt64.toNat_zero,
    Nat.add_zero, Nat.mul_mod_mod, Nat.div_eq_zero_iff]
  omega

/-- The bitrate by the kbits. -/
theorem bitrate_eq (bytes : ℕ) : bitrate bytes =
    let gbits : ℚ := (8 * bytes / 1000 : ℕ) / 1000000
    if gbits ≠ 0 then gbits + 30 / 100 else gbits := by
  have hfloor : ⌊(8 * bytes : ℚ) / 1000⌋ = ((8 * bytes / 1000 : ℕ) : ℤ) := by
    have h := Rat.floor_natCast_div_natCast (8 * bytes) 1000
    push_cast at h ⊢
    exact h
  have hjitter : (3 / 10 : ℚ) = 30 / 100 := by norm_num
  have hmega : (10 ^ 6 : ℚ) = 1000000 := by norm_num
  unfold bitrate
  rw [hfloor, hjitter, hmega, Int.cast_natCast]

end Counters

/-! ### What is published -/

namespace BitrateThread

/-- With a later pair the transmit rate is published, if the NIC can have it;
without one the link is idle, no received traffic begins, and what is published
is 0. -/
structure Measured (env : NicEnv) (s t : BitrateThread) (r : ByteReading) : Prop where
  published : (∃ now ∈ r.later, now ≠ {}) → (8 * r.txBytes : ℚ) ≤ env.netDeviceSpeed * 10 ^ 6 →
    t.tuner.vGlobalAverageTxGbitsPerSec = bitrate r.txBytes
  idle : r.later = [] → t.vTwiceInaRow = true ∧ (t.rxTraffic = true → s.rxTraffic = true)
  nothing : r.later = [] →
    (t.tuner.vGlobalAverageTxGbitsPerSec ≠ s.tuner.vGlobalAverageTxGbitsPerSec →
      t.tuner.vGlobalAverageTxGbitsPerSec = 0) ∧
    (t.tuner.vGlobalAverageRxGbitsPerSec ≠ s.tuner.vGlobalAverageRxGbitsPerSec →
      t.tuner.vGlobalAverageRxGbitsPerSec = 0)

/-- With a later pair: the rate is 0, or not above the whole Gb/s of the NIC, or
the one that is published already. Without one: the counters of the first pair
wrap to less than a kbit. -/
structure Publishable (env : NicEnv) (s : BitrateThread) (r : ByteReading) : Prop where
  below : (∃ now ∈ r.later, now ≠ {}) → (8 * r.txBytes : ℚ) ≤ env.netDeviceSpeed * 10 ^ 6 →
    8 * r.txBytes < 1000 ∨ ((8 * r.txBytes / 1000 : ℕ) : ℤ) ≤ 1000000 * env.netDeviceSpeed.tdiv 1000 ∨
      s.tuner.vGlobalAverageTxGbitsPerSec = bitrate r.txBytes
  wraps : r.later = [] →
    8 * (2 ^ 64 - r.before.tx.toNat) % 2 ^ 64 < 1000 ∧ 8 * (2 ^ 64 - r.before.rx.toNat) % 2 ^ 64 < 1000

section Read

variable {gTuningMode : Bool} {env : NicEnv} {s : BitrateThread} {r : ByteReading}

/-- A rate that the NIC can have does not wrap. -/
theorem toNat_txKbitsPerSec (hl : ∃ now ∈ r.later, now ≠ {})
    (hr : (8 * r.txBytes : ℚ) ≤ env.netDeviceSpeed * 10 ^ 6) :
    r.txKbitsPerSec.toNat = 8 * r.txBytes / 1000 := by
  have hint : ((8 * r.txBytes : ℕ) : ℤ) ≤ env.netDeviceSpeed * 10 ^ 6 := by
    exact_mod_cast hr
  have hspeed := env.isInt
  unfold ByteReading.txKbitsPerSec ByteReading.txBytes at *
  rw [lastBytes_tx]
  exact toNat_kbits (before_le_lastTx hl) (by omega)

/-- What is published with these kbits. -/
theorem read_published {k : ℕ} (hk : r.txKbitsPerSec.toNat = k) :
    (s.read gTuningMode env r).tuner.vGlobalAverageTxGbitsPerSec =
      if k ≠ 0 ∧ 1000000 * env.netDeviceSpeed.tdiv 1000 < (k : ℤ) then s.tuner.vGlobalAverageTxGbitsPerSec
      else
        let gbits : ℚ := k / 1000000
        if gbits ≠ 0 then gbits + 30 / 100 else gbits := by
  have hrates := (Tuner.measure_rates s.tuner gTuningMode env.toMeasureEnv r.txKbitsPerSec.toNat
    r.rxKbitsPerSec.toNat).2.1
  rw [hk, s.averaged.1, zero_add] at hrates
  have hskip : ((k : ℚ) / 1000000 ≠ 0 ∧ (k : ℚ) / 1000000 > (env.netDeviceSpeed.tdiv 1000 : ℤ)) ↔
      (k ≠ 0 ∧ 1000000 * env.netDeviceSpeed.tdiv 1000 < (k : ℤ)) := by
    refine and_congr (by simp) ?_
    rw [gt_iff_lt, lt_div_iff₀ (by norm_num), mul_comm]
    exact_mod_cast Iff.rfl
  have hread : (s.read gTuningMode env r).tuner =
      (s.tuner.measure gTuningMode env.toMeasureEnv k r.rxKbitsPerSec.toNat).1 := by simp only [read, hk]
  rw [hread, hrates]
  by_cases h : k ≠ 0 ∧ 1000000 * env.netDeviceSpeed.tdiv 1000 < (k : ℤ)
  · rw [if_pos (hskip.mpr h), if_pos h]
  · rw [if_neg (fun h' => h (hskip.mp h')), if_neg h]

theorem published_iff (hl : ∃ now ∈ r.later, now ≠ {}) (hr : (8 * r.txBytes : ℚ) ≤ env.netDeviceSpeed * 10 ^ 6) :
    (s.read gTuningMode env r).tuner.vGlobalAverageTxGbitsPerSec = bitrate r.txBytes ↔
      8 * r.txBytes < 1000 ∨ ((8 * r.txBytes / 1000 : ℕ) : ℤ) ≤ 1000000 * env.netDeviceSpeed.tdiv 1000 ∨
        s.tuner.vGlobalAverageTxGbitsPerSec = bitrate r.txBytes := by
  rw [read_published (toNat_txKbitsPerSec hl hr)]
  by_cases hskip : 8 * r.txBytes / 1000 ≠ 0 ∧
      1000000 * env.netDeviceSpeed.tdiv 1000 < ((8 * r.txBytes / 1000 : ℕ) : ℤ)
  · -- the value before stays
    rw [if_pos hskip]
    constructor
    · exact fun h => .inr (.inr h)
    · intro h
      refine (h.resolve_left ?_).resolve_left ?_ <;> omega
  · rw [if_neg hskip]
    refine iff_of_true (bitrate_eq r.txBytes).symm ?_
    omega

/-- Without a later pair the link is idle if both differences wrap to less than a kbit. -/
theorem read_nothing (hl : r.later = []) : (s.read gTuningMode env r).vTwiceInaRow = true ↔
    8 * (2 ^ 64 - r.before.tx.toNat) % 2 ^ 64 < 1000 ∧ 8 * (2 ^ 64 - r.before.rx.toNat) % 2 ^ 64 < 1000 := by
  have htx : r.txKbitsPerSec = kbits 0 r.before.tx := by rw [ByteReading.txKbitsPerSec, hl]; rfl
  have hrx : r.rxKbitsPerSec = kbits 0 r.before.rx := by rw [ByteReading.rxKbitsPerSec, hl]; rfl
  simp only [read, htx, hrx, kbits_zero, decide_eq_true_eq]

/-- An idle link: no received traffic, and 0 is published. -/
theorem read_idle (h : (s.read gTuningMode env r).vTwiceInaRow = true) :
    ((s.read gTuningMode env r).rxTraffic = true → s.rxTraffic = true) ∧
      (s.read gTuningMode env r).tuner.vGlobalAverageTxGbitsPerSec = 0 ∧
      (s.read gTuningMode env r).tuner.vGlobalAverageRxGbitsPerSec = 0 := by
  obtain ⟨htx, hrx⟩ : r.txKbitsPerSec = 0 ∧ r.rxKbitsPerSec = 0 := by simpa [read] using h
  obtain ⟨-, hpubtx, hpubrx⟩ := Tuner.measure_rates s.tuner gTuningMode env.toMeasureEnv 0 0
  have hread : (s.read gTuningMode env r).tuner = (s.tuner.measure gTuningMode env.toMeasureEnv 0 0).1 := by
    simp only [read, htx, hrx, UInt64.toNat_zero]
  refine ⟨fun htraffic => ?_, ?_, ?_⟩
  · simp only [read, hrx] at htraffic
    split_ifs at htraffic with hjump
    · exact htraffic
    · cases htraffic
  · rw [hread, hpubtx, s.averaged.1]
    simp
  · rw [hread, hpubrx, s.averaged.1, s.averaged.2]
    simp

end Read

/-- **The bitrate is published as measured** exactly when the rate can be told
from one above the NIC's speed, and without a later pair only if the wrapped
differences are less than a kbit. -/
theorem measured_iff (gTuningMode : Bool) (env : NicEnv) (s : BitrateThread) (r : ByteReading) :
    Measured env s (s.read gTuningMode env r) r ↔ Publishable env s r := by
  constructor
  · intro h
    refine ⟨fun hl hr => (published_iff hl hr).mp (h.published hl hr), fun hl => ?_⟩
    exact (read_nothing hl).mp (h.idle hl).1
  · intro h
    have hidle : r.later = [] → (s.read gTuningMode env r).vTwiceInaRow = true :=
      fun hl => (read_nothing hl).mpr (h.wraps hl)
    refine ⟨fun hl hr => (published_iff hl hr).mpr (h.below hl hr), fun hl => ?_, fun hl => ?_⟩
    · exact ⟨hidle hl, (read_idle (hidle hl)).1⟩
    · obtain ⟨-, htx, hrx⟩ := read_idle (hidle hl)
      exact ⟨fun _ => htx, fun _ => hrx⟩

def nic2500 : NicEnv where
  netDeviceSpeed := 2500
  vGoodBitrateValue := 2425 / 1000
  myTuneMax := 4194304
  wmem := none
  isInt := by decide

def atStart : BitrateThread := { tuner := {}, averaged := ⟨rfl, rfl⟩ }

/-- 2.3 Gb/s. -/
def sending : ByteReading where
  before := {}
  later := [{ tx := 287500000 }]
  grow := by decide

/-- One line, of a host that has received a byte since it was started. -/
def loneLine : ByteReading where
  before := { rx := 1 }
  later := []
  grow := by decide

/-- A NIC of 2500 Mb/s that sends at 2.3 Gb/s is above its two whole Gb/s; and a
line alone starts received traffic. -/
theorem not_measured_nic2500 : ¬ Measured nic2500 atStart (atStart.read true nic2500 sending) sending ∧
    ¬ Measured nic2500 atStart (atStart.read true nic2500 loneLine) loneLine := by
  constructor
  · intro h
    have hl : ∃ now ∈ sending.later, now ≠ {} := by decide
    have hbytes : sending.txBytes = 287500000 := rfl
    have hspeed : nic2500.netDeviceSpeed = 2500 := rfl
    have hr : (8 * sending.txBytes : ℚ) ≤ nic2500.netDeviceSpeed * 10 ^ 6 := by
      rw [hbytes, hspeed]
      norm_num
    have hold : atStart.tuner.vGlobalAverageTxGbitsPerSec = 0 := rfl
    have hpub := (published_iff hl hr).mp (h.published hl hr)
    rw [bitrate_eq, hbytes, hspeed, hold] at hpub
    revert hpub
    norm_num
    decide
  · intro h
    have hidle := (read_nothing rfl).mp (h.idle rfl).1
    revert hidle
    decide

end BitrateThread
end TuningMod

/-
# The times of the timers

`makeTimer` takes microseconds as an `int`, widens them to `long` and splits
them into seconds and nanoseconds. The trigger timers get the interval from the
user's file, the evaluation timer ten times as much, and that product is taken
in `int`: from 214748365 microseconds on it wraps.

Key definitions: `makeTimer`, `TimerSpecs.ofInterval`, `Denotes`, `Accepted`.
Key theorems: `makeTimer_value`, `denotes_makeTimer`, `accepted_iff`, `timers_exact_iff`.
-/
import TuningMod.ConfigValues
import TuningMod.Numerals

namespace TuningMod

structure Timespec where
  tvSec : Int64 := 0
  tvNsec : Int64 := 0
  deriving DecidableEq

structure Itimerspec where
  itInterval : Timespec := {}
  itValue : Timespec := {}
  deriving DecidableEq

/-- `makeTimer`, which writes `startTmr`. -/
def makeTimer (expiresUsecs : Int32) (startTmr : Itimerspec) (interval : Bool) : Itimerspec :=
  let sec := expiresUsecs.toInt64 * 1000 / 1000000000
  let nsec := expiresUsecs.toInt64 * 1000 % 1000000000
  { itInterval := if interval then ⟨sec, nsec⟩ else startTmr.itInterval
    itValue := ⟨sec, nsec⟩ }

/-- `sStartTimer`, for both trigger timers, and `sStartEvaluationTimer`. -/
structure TimerSpecs where
  sStartTimer : Itimerspec := {}
  sStartEvaluationTimer : Itimerspec := {}

/-- The three calls with `gInterval`. -/
def TimerSpecs.ofInterval (gInterval : Int32) : TimerSpecs where
  sStartTimer := makeTimer gInterval (makeTimer gInterval {} false) false
  sStartEvaluationTimer := makeTimer (gInterval * 10) {} false

/-- A valid time of so many microseconds, once. -/
structure Denotes (t : Itimerspec) (usecs : ℤ) : Prop where
  tvSec_nonneg : 0 ≤ t.itValue.tvSec.toInt
  tvNsec_nonneg : 0 ≤ t.itValue.tvNsec.toInt
  tvNsec_lt : t.itValue.tvNsec.toInt < 1000000000
  usecs_eq : t.itValue.tvSec.toInt * 1000000000 + t.itValue.tvNsec.toInt = usecs * 1000
  once : t.itInterval = {}

/-- The interval that `fDoGetUserCfgValues` makes of some texts. -/
def Accepted (gInterval : Int32) : Prop := ∃ cfg, (UserValues.ofCfg cfg).gInterval = gInterval.toInt

section Times

variable {e g : Int32} {t : Itimerspec} {interval : Bool}

/-- The product is taken in `long`, and the quotient and the remainder make it up. -/
theorem makeTimer_value : (makeTimer e t interval).itValue.tvSec.toInt = (e.toInt * 1000).tdiv 1000000000 ∧
    (makeTimer e t interval).itValue.tvNsec.toInt = (e.toInt * 1000).tmod 1000000000 := by
  have hlt := e.toInt_lt
  have hle := e.le_toInt
  have hprod : (e.toInt64 * 1000).toInt = e.toInt * 1000 := by
    have h1000 : (1000 : Int64).toInt = 1000 := rfl
    rw [Int64.toInt_mul, Int32.toInt_toInt64, h1000, Int.bmod_def]
    omega
  have hbillion : (1000000000 : Int64).toInt = 1000000000 := rfl
  constructor
  · show (e.toInt64 * 1000 / 1000000000).toInt = _
    rw [Int64.toInt_div_of_ne_right _ _ (by decide), hprod, hbillion]
  · show (e.toInt64 * 1000 % 1000000000).toInt = _
    rw [Int64.toInt_mod, hprod, hbillion]

/-- **What a timer is programmed to**: the argument, if it is not negative. -/
theorem denotes_makeTimer {usecs : ℤ} (ht : t.itInterval = {}) :
    Denotes (makeTimer e t false) usecs ↔ 0 ≤ e.toInt ∧ e.toInt = usecs := by
  obtain ⟨hsec, hnsec⟩ := @makeTimer_value e t false
  have hsplit := Int.tmod_add_mul_tdiv (e.toInt * 1000) 1000000000
  constructor
  · rintro ⟨h0, h1, -, hsum, -⟩
    rw [hsec] at h0 hsum
    rw [hnsec] at h1 hsum
    omega
  · rintro ⟨h0, rfl⟩
    have hpos : 0 ≤ e.toInt * 1000 := by omega
    rw [Int.tdiv_eq_ediv_of_nonneg hpos] at hsec
    rw [Int.tmod_eq_emod_of_nonneg hpos] at hnsec
    refine ⟨?_, ?_, ?_, ?_, ht⟩ <;> omega

/-- **The accepted intervals.** -/
theorem accepted_iff : Accepted g ↔ 1000 ≤ g.toInt := by
  constructor
  · rintro ⟨cfg, hcfg⟩
    have hdefault : atoiText (bytes Param.evaluationTimer.defaultVal) = 500000 := by decide +kernel
    rw [← hcfg]
    simp only [UserValues.ofCfg, hdefault]
    split_ifs <;> omega
  · intro h
    have hlt := g.toInt_lt
    have hread : atoiText (uText g.toInt.toNat) = g.toInt := by
      have hdecimal := decimal_uText g.toInt.toNat
      rw [atoi_numeral (numeral_uText _) (by omega), hdecimal]
      omega
    refine ⟨fun _ => uText g.toInt.toNat, ?_⟩
    simp only [UserValues.ofCfg, hread]
    rw [if_neg (by omega), if_pos (by omega)]

theorem denotes_trigger (hg : 1000 ≤ g.toInt) : Denotes (TimerSpecs.ofInterval g).sStartTimer g.toInt :=
  (denotes_makeTimer rfl).mpr ⟨by omega, rfl⟩

/-- The product by ten does not wrap. -/
theorem denotes_evaluation (hg : 1000 ≤ g.toInt) :
    Denotes (TimerSpecs.ofInterval g).sStartEvaluationTimer (10 * g.toInt) ↔ g.toInt ≤ 214748364 := by
  have hlt := g.toInt_lt
  have hten : (g * 10).toInt = (g.toInt * 10).bmod (2 ^ 32) := Int32.toInt_mul g 10
  refine (denotes_makeTimer rfl).trans ⟨?_, fun hle => ?_⟩
  · rintro ⟨-, hexact⟩
    have := (g * 10).toInt_lt
    omega
  · have hexact : (g * 10).toInt = g.toInt * 10 := by
      rw [hten, Int.bmod_def]
      omega
    omega

end Times

/-- **When the timers are exact.** For every interval that is accepted: up to
214748364 microseconds, which is where ten times as many are an `int`. -/
theorem timers_exact_iff (gInterval : Int32) (h : Accepted gInterval) :
    (Denotes (TimerSpecs.ofInterval gInterval).sStartTimer gInterval.toInt ∧
        Denotes (TimerSpecs.ofInterval gInterval).sStartEvaluationTimer (10 * gInterval.toInt)) ↔
      gInterval.toInt ≤ 214748364 := by
  have hg := accepted_iff.mp h
  rw [and_iff_right (denotes_trigger hg), denotes_evaluation hg]

/-- The default of half a second. -/
theorem timers_exact_default :
    (Denotes (TimerSpecs.ofInterval 500000).sStartTimer (500000 : Int32).toInt ∧
        Denotes (TimerSpecs.ofInterval 500000).sStartEvaluationTimer (10 * (500000 : Int32).toInt)) ↔
      (500000 : Int32).toInt ≤ 214748364 :=
  timers_exact_iff 500000 (accepted_iff.mpr (by decide))

/-- 500 seconds are accepted, and the evaluation timer is set to 705 seconds. -/
theorem timers_wrap : Accepted 500000000 ∧
    (TimerSpecs.ofInterval 500000000).sStartEvaluationTimer.itValue = ⟨705, 32704000⟩ ∧
    ¬ Denotes (TimerSpecs.ofInterval 500000000).sStartEvaluationTimer (10 * (500000000 : Int32).toInt) := by
  refine ⟨accepted_iff.mpr (by decide), by decide, fun h => ?_⟩
  exact absurd h.usecs_eq (by decide)

end TuningMod

/-
# A message at most every so often

A message that would be written too often is let pass only when more than
`wait` seconds have gone by since it last was; the time of the last one is 0
before the first. On a clock that does not go back, and that is past `wait` from
the start, two messages are always more than `wait` apart, and whenever the
message is due, one was written at most `wait` ago.

Key definitions: `RateLimit`, `RateLimit.ask`, `RateLimit.Kept`.
Key theorems: `Kept.ask`, `Kept.recent`.
-/
import Mathlib.Algebra.Order.Ring.Int
import Mathlib.Tactic.Common

namespace TuningMod

/-- The time of the last message, and of all of them. -/
structure RateLimit where
  last : ℤ := 0
  passed : List ℤ := []
  deriving DecidableEq

namespace RateLimit

variable (wait : ℤ) (r : RateLimit) (t : ℤ)

def Passes : Prop := wait < t - r.last

instance : Decidable (r.Passes wait t) := inferInstanceAs (Decidable (_ < _))

def pass : RateLimit := ⟨t, r.passed ++ [t]⟩

def ask : RateLimit := if r.Passes wait t then r.pass t else r

/-- Two messages are more than `wait` apart. -/
def Spaced : Prop := r.passed.Pairwise fun p q => wait < q - p

/-- `now` is the latest time the clock has shown. -/
structure Kept (now : ℤ) : Prop where
  spaced : r.Spaced wait
  past : ∀ p ∈ r.passed, p ≤ r.last
  last : r.last ∈ r.passed ∨ r.passed = [] ∧ r.last = 0
  clock : r.last ≤ now

variable {wait r t} {now : ℤ}

theorem kept_initial (hnow : 0 ≤ now) : Kept wait {} now where
  spaced := .nil
  past _ hp := (List.not_mem_nil hp).elim
  last := .inr ⟨rfl, rfl⟩
  clock := hnow

theorem Kept.later (h : r.Kept wait now) (hnow : now ≤ t) : r.Kept wait t :=
  ⟨h.spaced, h.past, h.last, h.clock.trans hnow⟩

/-- A message is let pass. -/
theorem Kept.pass (h : r.Kept wait now) (hwait : 0 ≤ wait) (ht : r.Passes wait t) : (r.pass t).Kept wait t where
  spaced := by
    rw [Spaced, RateLimit.pass, List.pairwise_append]
    refine ⟨h.spaced, List.pairwise_singleton _ _, fun p hp q hq => ?_⟩
    rw [List.mem_singleton.mp hq]
    have hlast := h.past p hp
    unfold Passes at ht
    omega
  past p hp := by
    change p ≤ t
    rcases List.mem_append.mp hp with hp | hp
    · have hlast := h.past p hp
      unfold Passes at ht
      omega
    · rw [List.mem_singleton.mp hp]
  last := .inl (List.mem_append_right _ (List.mem_singleton_self t))
  clock := le_refl t

/-- **A message that is due** passes or not. -/
theorem Kept.ask (h : r.Kept wait now) (hwait : 0 ≤ wait) (hnow : now ≤ t) : (r.ask wait t).Kept wait t := by
  unfold RateLimit.ask
  split_ifs with ht
  · exact h.pass hwait ht
  · exact h.later hnow

/-- **None is held back for long.** -/
theorem Kept.recent (h : r.Kept wait now) (hwait : 0 ≤ wait) (hnow : now ≤ t) (ht : wait < t) :
    ∃ p ∈ (r.ask wait t).passed, t - wait ≤ p ∧ p ≤ t := by
  unfold RateLimit.ask
  split_ifs with hpass
  · exact ⟨t, List.mem_append_right _ (List.mem_singleton_self t), by omega, le_refl t⟩
  · unfold Passes at hpass
    rcases h.last with hlast | ⟨-, hzero⟩
    · exact ⟨r.last, hlast, by omega, h.clock.trans hnow⟩
    · omega

end RateLimit
end TuningMod

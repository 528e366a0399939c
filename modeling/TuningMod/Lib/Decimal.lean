/-
# Decimal rounding

The value that `printf` prints for a rational with a fixed number of decimals:
the nearest multiple of the last place, the even one of two that are as near.

Key definitions: `nearest`, `printed`.
Key theorems: `nearest_mono`, `printed_mono`, `printed_natCast`, `printed_le`.
-/
import Mathlib.Data.Rat.Floor
import Mathlib.Tactic.Linarith
import Mathlib.Tactic.Positivity
import Mathlib.Tactic.FieldSimp

namespace TuningMod
namespace Decimal

/-- The nearest integer, the even one of two. -/
def nearest (x : ℚ) : ℤ :=
  let n := ⌊x⌋
  if x - n < 1 / 2 then n
  else if x - n > 1 / 2 then n + 1
  else if n % 2 = 0 then n else n + 1

theorem nearest_cases (x : ℚ) : nearest x = ⌊x⌋ ∨ nearest x = ⌊x⌋ + 1 := by
  unfold nearest
  dsimp only
  split_ifs <;> simp

theorem nearest_intCast (n : ℤ) : nearest n = n := by
  unfold nearest
  rw [Int.floor_intCast, if_pos (by rw [sub_self]; norm_num)]

theorem nearest_mono {x y : ℚ} (h : x ≤ y) : nearest x ≤ nearest y := by
  have hfloor : ⌊x⌋ ≤ ⌊y⌋ := Int.floor_le_floor h
  rcases hfloor.eq_or_lt with heq | hlt
  · -- the fractional parts are in the order of `x` and `y`
    unfold nearest
    dsimp only
    rw [heq]
    split_ifs <;> linarith
  · have hx := nearest_cases x
    have hy := nearest_cases y
    omega

/-- Rounding moves a number by one half at most. -/
theorem nearest_le (x : ℚ) : (nearest x : ℚ) ≤ x + 1 / 2 := by
  have hfloor : (⌊x⌋ : ℚ) ≤ x := Int.floor_le x
  unfold nearest
  dsimp only
  split_ifs
  · linarith
  · push_cast
    linarith
  · linarith
  · push_cast
    linarith

/-- The value of `x` with `places` decimals. -/
def printed (places : ℕ) (x : ℚ) : ℚ := nearest (x * 10 ^ places) / 10 ^ places

variable {places : ℕ} {x y : ℚ}

theorem printed_mono (h : x ≤ y) : printed places x ≤ printed places y := by
  unfold printed
  have hscaled : x * 10 ^ places ≤ y * 10 ^ places := mul_le_mul_of_nonneg_right h (by positivity)
  exact div_le_div_of_nonneg_right (by exact_mod_cast nearest_mono hscaled) (by positivity)

/-- A multiple of the last place is printed as it is. -/
theorem printed_eq {n : ℤ} (h : x * 10 ^ places = n) : printed places x = x := by
  unfold printed
  rw [h, nearest_intCast, ← h]
  exact mul_div_cancel_right₀ x (by positivity)

theorem printed_natCast (places n : ℕ) : printed places n = n :=
  printed_eq (n := n * 10 ^ places) (by push_cast; rfl)

theorem printed_le (x : ℚ) : printed places x ≤ x + 1 / 2 / 10 ^ places := by
  have hpos : (0 : ℚ) < 10 ^ places := by positivity
  unfold printed
  rw [div_le_iff₀ hpos, add_mul, div_mul_cancel₀ _ hpos.ne']
  exact nearest_le _

end Decimal
end TuningMod

/-
# Records of a fixed size in a stream

The complete records of `k` elements that a list contains, from its head on;
what is left at the end is shorter than a record.

Key definitions: `records`.
Key theorems: `records_of_lt`, `records_of_le`.
-/
import Mathlib.Data.List.Basic

namespace TuningMod

variable {α : Type*}

/-- The complete records of `k` elements in `l`. -/
def records (k : ℕ) (l : List α) : List (List α) :=
  (List.range (l.length / k)).map fun i => (l.drop (i * k)).take k

namespace Records

variable {k : ℕ} {l : List α}

theorem records_of_lt (h : l.length < k) : records k l = [] := by
  rw [records, Nat.div_eq_of_lt h]
  rfl

/-- The first record, and those of the rest. -/
theorem records_of_le (hk : 0 < k) (h : k ≤ l.length) :
    records k l = l.take k :: records k (l.drop k) := by
  have hcount : l.length / k = (l.length - k) / k + 1 := Nat.div_eq_sub_div hk h
  rw [records, hcount, List.range_succ_eq_map, List.map_cons, List.map_map, records, List.length_drop]
  congr 1
  · rw [Nat.zero_mul, List.drop_zero]
  · refine List.map_congr_left fun i _ => ?_
    rw [Function.comp_apply, List.drop_drop, Nat.succ_mul, Nat.add_comm]

end Records
end TuningMod

/-
# Lines of keys and values

A scanner takes the elements of a buffer as long as they pass a test; it must
meet one that does not before the buffer ends. What it finds is a list of keys
with values, entered into a table one after the other: the last value of a key
counts, so that only the order of the entries with the same key matters.

Key definitions: `scanWhile`, `assign`, `lastValue`.
Key theorems: `scanWhile_stop`, `scanWhile_to`, `scanWhile_to_none`, `assign_apply`, `assign_congr`.
-/
import Mathlib.Data.List.Induction
import Mathlib.Data.List.TakeWhile
import Mathlib.Logic.Function.Basic

namespace TuningMod
namespace KeyValues

variable {α κ β : Type*}

/-! ### Scanning -/

/-- The elements before the first that does not pass the test, and the rest
from it on; nothing if there is none. -/
def scanWhile (f : α → Bool) : List α → Option (List α × List α)
  | [] => none
  | c :: p => if f c then (scanWhile f p).map fun (l, rest) => (c :: l, rest) else some ([], c :: p)

/-- A scan stops at the first element that does not pass, at the latest at `c`. -/
theorem scanWhile_stop {f : α → Bool} {c : α} (hc : f c = false) (l rest : List α) :
    scanWhile f (l ++ c :: rest) = some (l.takeWhile f, l.dropWhile f ++ c :: rest) := by
  induction l with
  | nil =>
    rw [List.nil_append, scanWhile, hc, if_neg Bool.false_ne_true]
    rfl
  | cons x l ih =>
    rw [List.cons_append, scanWhile, List.takeWhile_cons, List.dropWhile_cons]
    by_cases hx : f x = true
    · rw [if_pos hx, if_pos hx, if_pos hx, ih]
      rfl
    · rw [if_neg hx, if_neg hx, if_neg hx]
      rfl

theorem scanWhile_append {f : α → Bool} {l : List α} {c : α} (hl : ∀ x ∈ l, f x = true) (hc : f c = false)
    (rest : List α) : scanWhile f (l ++ c :: rest) = some (l, c :: rest) := by
  rw [scanWhile_stop hc, List.takeWhile_eq_self_iff.mpr hl, List.dropWhile_eq_nil_iff.mpr hl]
  rfl

/-- A scan that stops does not read further. -/
theorem scanWhile_of_exists {f : α → Bool} {l : List α} (h : ∃ c ∈ l, f c = false) (rest : List α) :
    scanWhile f (l ++ rest) = some (l.takeWhile f, l.dropWhile f ++ rest) := by
  induction l with
  | nil => simp at h
  | cons x l ih =>
    rw [List.cons_append, scanWhile, List.takeWhile_cons, List.dropWhile_cons]
    by_cases hx : f x = true
    · obtain ⟨c, hc, hf⟩ := h
      have hmem : c ∈ l := by
        rcases List.mem_cons.mp hc with rfl | hmem
        · rw [hf] at hx
          cases hx
        · exact hmem
      rw [if_pos hx, if_pos hx, if_pos hx, ih ⟨c, hmem, hf⟩]
      rfl
    · rw [if_neg hx, if_neg hx, if_neg hx]
      rfl

theorem scanWhile_eq_none {f : α → Bool} {l : List α} (h : ∀ c ∈ l, f c = true) : scanWhile f l = none := by
  induction l with
  | nil => rfl
  | cons x l ih =>
    rw [List.forall_mem_cons] at h
    rw [scanWhile, if_pos h.1, ih h.2]
    rfl

/-- A scan for the first element that passes. -/
theorem scanWhile_to {f : α → Bool} {l : List α} (h : ∃ c ∈ l, f c = true) (rest : List α) :
    scanWhile (fun c => !f c) (l ++ rest) =
      some (l.takeWhile fun c => !f c, (l.dropWhile fun c => !f c) ++ rest) := by
  obtain ⟨c, hc, hf⟩ := h
  exact scanWhile_of_exists ⟨c, hc, by rw [hf]; rfl⟩ rest

/-- There is none, and the text's end is none either. -/
theorem scanWhile_to_none {f : α → Bool} {l : List α} {z : α} (h : ¬ ∃ c ∈ l, f c = true) (hz : f z = false) :
    scanWhile (fun c => !f c) (l ++ [z]) = none := by
  refine scanWhile_eq_none fun c hc => ?_
  rcases List.mem_append.mp hc with hc | hc
  · simpa using fun hf => h ⟨c, hc, hf⟩
  · obtain rfl := List.mem_singleton.mp hc
    rw [hz]
    rfl

/-! ### The last value of a key -/

variable [DecidableEq κ]

/-- Enter the values one after the other. -/
def assign (table : κ → β) (kvs : List (κ × β)) : κ → β :=
  kvs.foldl (fun t kv => Function.update t kv.1 kv.2) table

/-- The value of the last entry with this key. -/
def lastValue (k : κ) (kvs : List (κ × β)) : Option β := ((kvs.filter fun kv => kv.1 = k).getLast?).map Prod.snd

variable {table : κ → β} {k : κ} {kvs kvs' : List (κ × β)}

/-- **The last value counts**, and without one the table is as it was. -/
theorem assign_apply : assign table kvs k = (lastValue k kvs).getD (table k) := by
  induction kvs using List.reverseRecOn with
  | nil => rfl
  | append_singleton kvs kv ih =>
    rw [assign, List.foldl_append, lastValue, List.filter_append]
    show Function.update (assign table kvs) kv.1 kv.2 k = _
    by_cases hk : kv.1 = k
    · rw [← hk, Function.update_self, List.filter_cons_of_pos (by simp)]
      simp
    · rw [Function.update_of_ne (Ne.symm hk), ih, List.filter_cons_of_neg (by simp [hk]), lastValue]
      simp

/-- Entries with different keys can change places. -/
theorem assign_congr (h : ∀ k, (kvs.filter fun kv => kv.1 = k) = kvs'.filter fun kv => kv.1 = k) :
    assign table kvs = assign table kvs' := by
  funext k
  rw [assign_apply, assign_apply, lastValue, lastValue, h k]

end KeyValues
end TuningMod

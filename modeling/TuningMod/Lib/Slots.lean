/-
# Slots with a free value

A table is a list of slots; a slot that holds the value `free` is empty. One
pass over the table looks for a value and remembers the first free slot, as
its index plus one (`scan`). The values of the occupied slots should be
distinct, and their number is what a separate counter counts.

Key definitions: `scan`, `occupied`, `Distinct`.
Key theorems: `scan_found`, `scan_first`, `occupied_set_free`, `distinct_set`, `distinct_of_cleared`.
-/
import Mathlib.Data.List.Basic

namespace TuningMod
namespace Slots

variable {α : Type*} [DecidableEq α] (free : α)

/-- Look for `x` from index `i` on: the index found, if any, and the first free
slot's index plus one (0 if there is none). -/
def scan (x : α) : List α → ℕ → ℕ → Option ℕ × ℕ
  | [], _, first => (none, first)
  | a :: l, i, first =>
    if a = x then (some i, first)
    else scan x l (i + 1) (if a = free ∧ first = 0 then i + 1 else first)

/-- The number of slots that are not free. -/
def occupied (l : List α) : ℕ := l.countP fun a => a ≠ free

/-- No value stands in two occupied slots. -/
def Distinct (l : List α) : Prop :=
  ∀ (i j : ℕ) a, l[i]? = some a → l[j]? = some a → a ≠ free → i = j

variable {free} {x : α} {l : List α}

/-! ### The scan -/

theorem scan_none_iff {i first : ℕ} : (scan free x l i first).1 = none ↔ x ∉ l := by
  induction l generalizing i first with
  | nil => simp [scan]
  | cons a l ih =>
    by_cases h : a = x
    · simp [scan, h]
    · rw [scan, if_neg h, ih, List.mem_cons, not_or]
      exact ⟨fun hl => ⟨fun he => h he.symm, hl⟩, And.right⟩

/-- A value that is found is in its slot. -/
theorem scan_found {i first j : ℕ} (h : (scan free x l i first).1 = some j) :
    ∃ k, j = i + k ∧ l[k]? = some x := by
  induction l generalizing i first with
  | nil => cases h
  | cons a l ih =>
    by_cases ha : a = x
    · rw [scan, if_pos ha] at h
      cases h
      exact ⟨0, rfl, by rw [ha]; rfl⟩
    · rw [scan, if_neg ha] at h
      obtain ⟨k, hj, hk⟩ := ih h
      exact ⟨k + 1, by omega, hk⟩

/-- A free slot that was remembered stays remembered. -/
theorem scan_first_of_pos {i first : ℕ} (hf : first ≠ 0) (h : x ∉ l) :
    (scan free x l i first).2 = first := by
  induction l generalizing i with
  | nil => rfl
  | cons a l ih =>
    rw [List.mem_cons, not_or] at h
    rw [scan, if_neg fun he => h.1 he.symm, if_neg fun hc => hf hc.2]
    exact ih h.2

/-- Without the value, the scan remembers a free slot, or 0 if there is none. -/
theorem scan_first {i : ℕ} (h : x ∉ l) :
    (free ∉ l ∧ (scan free x l i 0).2 = 0) ∨
      ∃ k, (scan free x l i 0).2 = i + k + 1 ∧ l[k]? = some free := by
  induction l generalizing i with
  | nil => exact Or.inl ⟨by simp, rfl⟩
  | cons a l ih =>
    rw [List.mem_cons, not_or] at h
    rw [scan, if_neg fun he => h.1 he.symm]
    by_cases ha : a = free
    · rw [if_pos ⟨ha, rfl⟩, scan_first_of_pos (Nat.succ_ne_zero i) h.2]
      exact Or.inr ⟨0, rfl, by rw [ha]; rfl⟩
    · rw [if_neg fun hc => ha hc.1]
      rcases ih (i := i + 1) h.2 with ⟨hl, h0⟩ | ⟨k, hk, hlk⟩
      · refine Or.inl ⟨?_, h0⟩
        rw [List.mem_cons, not_or]
        exact ⟨fun he => ha he.symm, hl⟩
      · exact Or.inr ⟨k + 1, by rw [hk]; omega, hlk⟩

/-! ### Filling and clearing slots -/

theorem occupied_le : occupied free l ≤ l.length := List.countP_le_length

theorem occupied_cons (a : α) (l : List α) : occupied free (a :: l) = occupied free l + if a ≠ free then 1 else 0 := by
  simp [occupied, List.countP_cons]

theorem occupied_pos_of_mem (hx : x ∈ l) (h : x ≠ free) : 0 < occupied free l :=
  List.countP_pos_iff.mpr ⟨x, hx, by simpa using h⟩

theorem occupied_set_free {k : ℕ} (hk : l[k]? = some free) (hx : x ≠ free) :
    occupied free (l.set k x) = occupied free l + 1 := by
  obtain ⟨hlt, hget⟩ := List.getElem?_eq_some_iff.mp hk
  unfold occupied
  rw [List.countP_set hlt, hget]
  simp [hx]

omit [DecidableEq α] in
theorem distinct_set {k : ℕ} (h : Distinct free l) (hx : x ∉ l) : Distinct free (l.set k x) := by
  intro i j a hi hj ha
  rw [List.getElem?_set] at hi hj
  have hnot : ∀ m : ℕ, l[m]? = some x → False := fun m hm => hx (List.mem_of_getElem? hm)
  split at hi
  · rename_i hki
    split at hj
    · rename_i hkj
      omega
    · split at hi
      · cases hi
        exact (hnot j hj).elim
      · cases hi
  · split at hj
    · split at hj
      · cases hj
        exact (hnot i hi).elim
      · cases hj
    · exact h i j a hi hj ha

omit [DecidableEq α] in
/-- Clearing slots keeps the others distinct. -/
theorem distinct_of_cleared {l' : List α} (h : Distinct free l)
    (hc : ∀ (i : ℕ) a, l'[i]? = some a → a ≠ free → l[i]? = some a) : Distinct free l' :=
  fun i j a hi hj ha => h i j a (hc i a hi ha) (hc j a hj ha) ha

end Slots
end TuningMod

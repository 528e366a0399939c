/-
# Copying a run into a fixed buffer

A loop copies the elements at the head of a list into a buffer of `n` cells,
one after the other, as long as its condition holds; the condition sees what
has been copied. The buffer is cleared before, so that it ends with a
terminator as long as the run is shorter than the buffer.

Key definitions: `run`, `CopyBuffer`, `put`, `Filled`.
Key theorems: `le_length_run`, `Filled.put`, `Filled.inBounds_iff`, `Filled.terminated_iff`.
-/
import Mathlib.Data.List.Basic

namespace TuningMod

/-- The cells, how many elements have been copied, and the indices written. -/
structure CopyBuffer (α : Type*) (n : ℕ) where
  cells : Vector α n
  count : ℕ := 0
  writes : List ℕ := []

namespace CopyBuffer

variable {α : Type*} {n : ℕ}

/-- Write the next element. An index outside changes none of the cells. -/
def put (b : CopyBuffer α n) (x : α) : CopyBuffer α n where
  cells := b.cells.setIfInBounds b.count x
  count := b.count + 1
  writes := b.writes ++ [b.count]

/-! ### The run that is copied -/

/-- The elements at the head of a list that are copied after `done`. -/
def run (continues : List α → α → Bool) : List α → List α → List α
  | _, [] => []
  | done, x :: rest => if continues done x then x :: run continues (done ++ [x]) rest else []

/-- Which lists have a run of `m` elements: each of the first `m` is copied
after those before it. -/
theorem le_length_run {continues : List α → α → Bool} {done rest : List α} {m : ℕ} :
    m ≤ (run continues done rest).length ↔
      ∀ i < m, ∃ x, rest[i]? = some x ∧ continues (done ++ rest.take i) x = true := by
  induction rest generalizing done m with
  | nil =>
    rw [run, List.length_nil]
    refine ⟨fun h i hi => absurd hi (by omega), fun h => ?_⟩
    by_contra hm
    obtain ⟨x, hx, -⟩ := h 0 (by omega)
    cases hx
  | cons y rest ih =>
    rw [run]
    by_cases hy : continues done y = true
    · rw [if_pos hy, List.length_cons]
      cases m with
      | zero => simp
      | succ m =>
        rw [Nat.add_le_add_iff_right, ih]
        constructor
        · intro h i hi
          cases i with
          | zero => exact ⟨y, rfl, by simpa using hy⟩
          | succ i =>
            obtain ⟨x, hx, hc⟩ := h i (by omega)
            exact ⟨x, hx, by simpa using hc⟩
        · intro h i hi
          obtain ⟨x, hx, hc⟩ := h (i + 1) (by omega)
          exact ⟨x, hx, by simpa using hc⟩
    · rw [if_neg hy, List.length_nil]
      refine ⟨fun h i hi => absurd hi (by omega), fun h => ?_⟩
      by_contra hm
      obtain ⟨x, hx, hc⟩ := h 0 (by omega)
      cases hx
      exact hy (by simpa using hc)

/-- What is copied meets the condition. -/
theorem mem_run {continues : List α → α → Bool} {done rest : List α} {x : α}
    (h : x ∈ run continues done rest) : ∃ d, continues d x = true := by
  induction rest generalizing done with
  | nil => cases h
  | cons y rest ih =>
    rw [run] at h
    by_cases hy : continues done y = true
    · rw [if_pos hy] at h
      rcases List.mem_cons.mp h with rfl | h
      · exact ⟨done, hy⟩
      · exact ih h
    · rw [if_neg hy] at h
      cases h

/-! ### What the buffer holds -/

/-- The elements `l` have been copied into a buffer that held `zero` everywhere. -/
structure Filled (zero : α) (b : CopyBuffer α n) (l : List α) : Prop where
  count : b.count = l.length
  writes : b.writes = List.range l.length
  cells : b.cells.toList = (l ++ List.replicate n zero).take n

variable {zero x : α} {b : CopyBuffer α n} {l : List α}

theorem filled_nil : Filled zero ⟨Vector.replicate n zero, 0, []⟩ [] where
  count := rfl
  writes := rfl
  cells := by simp

theorem set_filled (zero x : α) (l : List α) :
    ((l ++ List.replicate n zero).take n).set l.length x =
      ((l ++ [x]) ++ List.replicate n zero).take n := by
  rcases Nat.lt_or_ge l.length n with hlt | hge
  · obtain ⟨k, hk⟩ : ∃ k, n - l.length = k + 1 := ⟨n - l.length - 1, by omega⟩
    have hleft : (l ++ List.replicate n zero).take n = l ++ zero :: List.replicate k zero := by
      rw [List.take_append, List.take_of_length_le (Nat.le_of_lt hlt), hk, List.take_replicate,
        show min (k + 1) n = k + 1 by omega, List.replicate_succ]
    have hright : ((l ++ [x]) ++ List.replicate n zero).take n = l ++ x :: List.replicate k zero := by
      have hlen : (l ++ [x]).length = l.length + 1 := by simp
      rw [List.take_append, List.take_of_length_le (by omega), List.take_replicate, hlen,
        show min (n - (l.length + 1)) n = k by omega]
      simp
    rw [hleft, hright, List.set_append_right _ _ (Nat.le_refl _), Nat.sub_self, List.set_cons_zero]
  · -- the buffer is full: the write lands outside
    have hleft : (l ++ List.replicate n zero).take n = l.take n := List.take_append_of_le_length hge
    have hright : ((l ++ [x]) ++ List.replicate n zero).take n = l.take n := by
      rw [List.append_assoc, List.take_append_of_le_length hge]
    rw [hleft, hright, List.set_eq_of_length_le (by rw [List.length_take]; omega)]

theorem Filled.put (h : Filled zero b l) : Filled zero (b.put x) (l ++ [x]) where
  count := by simp [CopyBuffer.put, h.count]
  writes := by simp [CopyBuffer.put, h.count, h.writes, List.range_succ]
  cells := by
    rw [CopyBuffer.put, Vector.toList_setIfInBounds, h.cells, h.count]
    exact set_filled zero x l

theorem Filled.inBounds_iff (h : Filled zero b l) : (∀ i ∈ b.writes, i < n) ↔ l.length ≤ n := by
  rw [h.writes]
  constructor
  · intro hall
    by_contra hc
    exact absurd (hall n (List.mem_range.mpr (by omega))) (Nat.lt_irrefl n)
  · intro hle i hi
    exact Nat.lt_of_lt_of_le (List.mem_range.mp hi) hle

/-- The buffer is terminated if a cell is left. -/
theorem Filled.terminated_iff (h : Filled zero b l) (hl : zero ∉ l) :
    zero ∈ b.cells.toList ↔ l.length < n := by
  rw [h.cells, List.take_append]
  constructor
  · intro hmem
    by_contra hc
    rw [show n - l.length = 0 by omega, List.take_zero, List.append_nil] at hmem
    exact hl (List.mem_of_mem_take hmem)
  · intro hlt
    refine List.mem_append_right _ ?_
    rw [List.take_replicate]
    exact List.mem_replicate.mpr ⟨by omega, rfl⟩

end CopyBuffer
end TuningMod

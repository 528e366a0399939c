/-
# Memory from an address on

A function that is given the address of a buffer writes at indices from that
address on, before it or behind the buffer too when it goes wrong. The indices
written are kept beside the cells; what is not written stays what it was.

Key definitions: `Region`, `store`, `copy`, `read`.
Key theorems: `read_copy`, `read_store`, `mem_written_copy`.
-/
import Mathlib.Algebra.Order.Ring.Int
import Mathlib.Data.List.Basic
import Mathlib.Logic.Function.Basic

namespace TuningMod

/-- The cells by their index, and the indices written. -/
structure Region (α : Type*) where
  cells : ℤ → α
  written : List ℤ := []

namespace Region

variable {α : Type*}

def store (m : Region α) (i : ℤ) (x : α) : Region α where
  cells := Function.update m.cells i x
  written := m.written ++ [i]

/-- The elements at `i` and the indices behind it. -/
def copy (m : Region α) (i : ℤ) : List α → Region α
  | [] => m
  | x :: xs => copy (m.store i x) (i + 1) xs

/-- The first `n` cells. -/
def read (m : Region α) (n : ℕ) : List α := (List.range n).map fun (k : ℕ) => m.cells k

variable {m : Region α} {x : α} {xs : List α} {n k : ℕ} {i j : ℤ}

@[simp] theorem length_read : (m.read n).length = n := by simp [read]

theorem read_succ : m.read (n + 1) = m.read n ++ [m.cells n] := by
  rw [read, List.range_succ, List.map_append]
  rfl

/-- Fewer cells are the first of more. -/
theorem read_prefix (h : n ≤ k) : ∃ rest, m.read k = m.read n ++ rest := by
  obtain ⟨d, rfl⟩ := Nat.exists_eq_add_of_le h
  refine ⟨(List.range d).map fun (j : ℕ) => m.cells (n + j : ℕ), ?_⟩
  rw [read, List.range_add, List.map_append, List.map_map]
  rfl

theorem read_store : (m.store k x).read n = (m.read n).set k x := by
  refine List.ext_getElem (by simp) fun j h1 h2 => ?_
  rw [List.getElem_set]
  simp only [read, store, List.getElem_map, List.getElem_range, Function.update_apply]
  simp only [Int.natCast_inj, eq_comm]

/-- **A copy behind what is there goes on with it.** -/
theorem read_copy : (m.copy n xs).read (n + xs.length) = m.read n ++ xs := by
  induction xs generalizing m n with
  | nil => simp [copy]
  | cons x xs ih =>
    have hlen : n + (x :: xs).length = n + 1 + xs.length := by
      rw [List.length_cons]
      omega
    have hset : (m.store n x).read (n + 1) = m.read n ++ [x] := by
      rw [read_store, read_succ, List.set_append_right _ _ (by simp)]
      simp
    rw [copy, hlen, ← Nat.cast_succ, ih, hset, List.append_assoc, List.singleton_append]

theorem copy_append {ys : List α} : m.copy i (xs ++ ys) = (m.copy i xs).copy (i + xs.length) ys := by
  induction xs generalizing m i with
  | nil => simp [copy]
  | cons x xs ih =>
    rw [List.cons_append, copy, copy, ih, List.length_cons]
    congr 1
    omega

theorem mem_written_store : j ∈ (m.store i x).written ↔ j ∈ m.written ∨ j = i := by simp [store]

/-- What a copy writes. -/
theorem mem_written_copy : j ∈ (m.copy i xs).written ↔ j ∈ m.written ∨ i ≤ j ∧ j < i + xs.length := by
  induction xs generalizing m i with
  | nil =>
    rw [copy, List.length_nil]
    refine ⟨.inl, fun h => h.resolve_right ?_⟩
    omega
  | cons x xs ih =>
    rw [copy, ih, mem_written_store, List.length_cons, or_assoc]
    apply or_congr_right
    omega

end Region
end TuningMod

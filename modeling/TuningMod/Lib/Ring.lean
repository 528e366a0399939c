/-
# A ring buffer is a bounded queue

A ring of `n` cells with a write index and a read index, both taken modulo
`n`: it is empty when the indices are equal and full when the write index is
one behind the read index, so one cell always stays free. Read from the read
index on, the used cells are the queue (`pending`): a write appends to it
(`pending_put`), a read takes its head (`pending_take`), and a write never
touches a used cell (`put_fresh`). So what was read is what was written, in
order, without the part still in the ring (`Fifo`).

Key definitions: `Ring`, `Ring.pending`, `Ring.Fifo`.
Key theorems: `Ring.pending_put`, `Ring.pending_take`, `Ring.put_fresh`,
`Ring.used_le`, `Ring.Fifo.isPrefix`.
-/
import Mathlib.Data.List.Basic
import Mathlib.Logic.Function.Basic
import Mathlib.Tactic.SplitIfs

namespace TuningMod

/-- The cells of a ring, the index of the next write and of the next read. -/
structure Ring (α : Type*) where
  cells : ℕ → α
  wr : ℕ
  rd : ℕ

namespace Ring

variable {α : Type*} (n : ℕ)

/-- A number below `2 n` modulo `n`. -/
theorem mod_wrap {n x : ℕ} (h : x < 2 * n) : x % n = if x < n then x else x - n := by
  split_ifs with hx
  · exact Nat.mod_eq_of_lt hx
  · rw [Nat.mod_eq_sub_mod (by omega), Nat.mod_eq_of_lt (by omega)]

/-- Both indices are cells of the ring. -/
structure Ok (r : Ring α) : Prop where
  wr_lt : r.wr < n
  rd_lt : r.rd < n

def Full (r : Ring α) : Prop := (r.wr + 1) % n = r.rd

def Empty (r : Ring α) : Prop := r.wr = r.rd

instance (r : Ring α) : Decidable (Full n r) := inferInstanceAs (Decidable (_ = _))

instance (r : Ring α) : Decidable (Empty r) := inferInstanceAs (Decidable (_ = _))

/-- The number of cells written and not yet read. -/
def used (r : Ring α) : ℕ := (r.wr + n - r.rd) % n

/-- The `i`-th used cell, counted from the read index. -/
def cellAt (r : Ring α) (i : ℕ) : ℕ := (r.rd + i) % n

/-- The contents of the used cells, the oldest first. -/
def pending (r : Ring α) : List α := (List.range (used n r)).map fun i => r.cells (cellAt n r i)

/-- Write at the write index and move on. -/
def put (r : Ring α) (x : α) : Ring α :=
  { r with cells := Function.update r.cells r.wr x, wr := (r.wr + 1) % n }

/-- Move the read index on. -/
def take (r : Ring α) : Ring α := { r with rd := (r.rd + 1) % n }

variable {n} {r : Ring α}

theorem used_eq (h : Ok n r) : used n r = if r.rd ≤ r.wr then r.wr - r.rd else r.wr + n - r.rd := by
  obtain ⟨hw, hr⟩ := h
  rw [used, mod_wrap (by omega)]
  split_ifs <;> omega

theorem cellAt_eq (h : Ok n r) {i : ℕ} (hi : i < n) :
    cellAt n r i = if r.rd + i < n then r.rd + i else r.rd + i - n := by
  obtain ⟨_, hr⟩ := h
  exact mod_wrap (by omega)

theorem succ_mod {i : ℕ} (hi : i < n) : (i + 1) % n = if i + 1 < n then i + 1 else 0 := by
  rw [mod_wrap (by omega)]
  split_ifs <;> omega

theorem length_pending : (pending n r).length = used n r := by simp [pending]

/-- At most `n - 1` cells are used. -/
theorem used_le (h : Ok n r) : used n r ≤ n - 1 := by
  have := used_eq h
  obtain ⟨hw, hr⟩ := h
  split_ifs at this <;> omega

theorem full_iff (h : Ok n r) : Full n r ↔ used n r = n - 1 := by
  have h2 := succ_mod h.wr_lt
  rw [used_eq h, Full]
  obtain ⟨hw, hr⟩ := h
  split_ifs at h2 ⊢ <;> omega

/-- The next write goes to the cell after the used ones. -/
theorem cellAt_used (h : Ok n r) : cellAt n r (used n r) = r.wr := by
  have hu := used_le h
  rw [cellAt_eq h (by have := h.wr_lt; omega), used_eq h]
  obtain ⟨hw, hr⟩ := h
  split_ifs <;> omega

theorem cellAt_inj (h : Ok n r) {i j : ℕ} (hi : i < n) (hj : j < n) :
    cellAt n r i = cellAt n r j ↔ i = j := by
  rw [cellAt_eq h hi, cellAt_eq h hj]
  obtain ⟨hw, hr⟩ := h
  split_ifs <;> omega

/-- **A write never overwrites a used cell.** -/
theorem put_fresh (h : Ok n r) {i : ℕ} (hi : i < used n r) : cellAt n r i ≠ r.wr := by
  have hu := used_le h
  have hw := h.wr_lt
  rw [← cellAt_used h, Ne, cellAt_inj h (by omega) (by omega)]
  omega

theorem put_ok (h : Ok n r) (x : α) : Ok n (put n r x) :=
  ⟨Nat.mod_lt _ (by have := h.wr_lt; omega), h.rd_lt⟩

theorem take_ok (h : Ok n r) : Ok n (take n r) :=
  ⟨h.wr_lt, Nat.mod_lt _ (by have := h.rd_lt; omega)⟩

theorem used_put (h : Ok n r) (hf : ¬ Full n r) (x : α) : used n (put n r x) = used n r + 1 := by
  have hput : used n (put n r x) = _ := used_eq (put_ok h x)
  rw [full_iff h] at hf
  have hs := succ_mod h.wr_lt
  rw [hput, used_eq h] at *
  obtain ⟨hw, hr⟩ := h
  simp only [put, hs] at *
  split_ifs at * <;> omega

theorem used_take (h : Ok n r) (he : ¬ Empty r) : used n r = used n (take n r) + 1 := by
  have htake : used n (take n r) = _ := used_eq (take_ok h)
  have hs := succ_mod h.rd_lt
  rw [htake, used_eq h]
  obtain ⟨hw, hr⟩ := h
  simp only [take, hs, Empty] at *
  split_ifs at * <;> omega

/-- **A write appends to the queue.** -/
theorem pending_put (h : Ok n r) (hf : ¬ Full n r) (x : α) :
    pending n (put n r x) = pending n r ++ [x] := by
  have hcell : ∀ i, cellAt n (put n r x) i = cellAt n r i := fun _ => rfl
  rw [pending, used_put h hf, List.range_succ, List.map_append, List.map_singleton]
  simp only [hcell]
  congr 1
  · refine List.map_congr_left fun i hi => ?_
    rw [List.mem_range] at hi
    exact Function.update_of_ne (put_fresh h hi) _ _
  · simp [cellAt_used h, put]

/-- **A read takes the head of the queue.** -/
theorem pending_take (h : Ok n r) (he : ¬ Empty r) :
    pending n r = r.cells r.rd :: pending n (take n r) := by
  have hn : 0 < n := Nat.lt_of_le_of_lt (Nat.zero_le _) h.rd_lt
  have hcell : ∀ i, cellAt n (take n r) i = cellAt n r (i + 1) := by
    intro i
    simp only [cellAt, take, Nat.mod_add_mod]
    congr 1
    omega
  have h0 : cellAt n r 0 = r.rd := by simp [cellAt, Nat.mod_eq_of_lt h.rd_lt]
  rw [pending, used_take h he, List.range_succ_eq_map, List.map_cons, List.map_map, h0, pending]
  congr 1
  refine List.map_congr_left fun i _ => ?_
  rw [hcell]
  rfl

/-- What was read so far followed by what is pending is what was written. -/
def Fifo (n : ℕ) (r : Ring α) (written got : List α) : Prop := written = got ++ pending n r

namespace Fifo

variable {written got : List α}

theorem put (h : Fifo n r written got) (hok : Ok n r) (hf : ¬ Full n r) (x : α) :
    Fifo n (put n r x) (written ++ [x]) got := by
  unfold Fifo at *
  rw [pending_put hok hf, h, List.append_assoc]

theorem take (h : Fifo n r written got) (hok : Ok n r) (he : ¬ Empty r) :
    Fifo n (take n r) written (got ++ [r.cells r.rd]) := by
  unfold Fifo at *
  rw [h, pending_take hok he, List.append_assoc, List.singleton_append]

/-- What was read is a prefix of what was written. -/
theorem isPrefix (h : Fifo n r written got) : got <+: written := ⟨_, h.symm⟩

end Fifo
end Ring
end TuningMod

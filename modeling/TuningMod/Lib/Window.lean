/-
# A circular window of the last samples

`m` slots hold the last samples of a stream. A sample goes to slot `count`;
when all slots have been used it goes to slot 0 again, and from then on the
whole array counts (`full`). Clearing the window leaves the slots as they are
and sets `count` and `full` back.

Key definitions: `Window`, `push`, `setLast`, `contents`, `Holds`.
Key theorems: `Holds.push`, `Holds.setLast`, `Holds.contents_perm`.
-/
import Mathlib.Algebra.Ring.Nat
import Mathlib.Data.List.DropRight

namespace TuningMod

/-- `m` slots, the number used since slot 0 was last written, and whether all have been used. -/
structure Window (α : Type*) (m : ℕ) where
  slots : Vector α m
  count : ℕ
  full : Bool

namespace Window

variable {α : Type*} {m : ℕ}

def push (w : Window α m) (x : α) : Window α m :=
  if w.count < m then { w with slots := w.slots.setIfInBounds w.count x, count := w.count + 1 }
  else { slots := w.slots.setIfInBounds 0 x, count := 1, full := true }

/-- The samples that count. -/
def contents (w : Window α m) : List α :=
  if w.full then w.slots.toList else w.slots.toList.take w.count

/-- The window holds the last samples of the stream `hist`: the new ones in
front, since slot 0 was last written, and the old ones behind them. -/
def Holds (w : Window α m) (hist : List α) : Prop :=
  ∃ new old, w.slots.toList = new ++ old ∧ w.count = new.length ∧
    (w.full = false → new = hist) ∧ (w.full = true → old ++ new <:+ hist)

variable {w : Window α m} {hist : List α} {x : α}

theorem holds_cleared (slots : Vector α m) : Holds ⟨slots, 0, false⟩ [] :=
  ⟨[], slots.toList, rfl, rfl, fun _ => rfl, fun h => by cases h⟩

theorem Holds.count_le (h : w.Holds hist) : w.count ≤ m := by
  obtain ⟨new, old, hslots, hcount, -, -⟩ := h
  have hlen : (new ++ old).length = m := by rw [← hslots]; simp
  rw [List.length_append] at hlen
  omega

/-- Until the window is full it holds the whole stream. -/
theorem Holds.count_eq (h : w.Holds hist) (hf : w.full = false) : w.count = hist.length := by
  obtain ⟨new, old, -, hcount, hnew, -⟩ := h
  rw [hcount, hnew hf]

/-- A full window has seen at least `m` samples. -/
theorem Holds.le_length (h : w.Holds hist) (hf : w.full = true) : m ≤ hist.length := by
  obtain ⟨new, old, hslots, -, -, hsuf⟩ := h
  have hlen : (new ++ old).length = m := by rw [← hslots]; simp
  have hle := (hsuf hf).length_le
  simp only [List.length_append] at hlen hle
  omega

theorem Holds.push [NeZero m] (h : w.Holds hist) : (w.push x).Holds (hist ++ [x]) := by
  obtain ⟨new, old, hslots, hcount, hnew, hsuf⟩ := h
  have hlen : new.length + old.length = m := by
    rw [← List.length_append, ← hslots]
    simp
  have hm : 0 < m := Nat.pos_of_ne_zero (NeZero.ne m)
  unfold Window.push
  by_cases hlt : w.count < m
  · -- the oldest sample, in front of the old ones, makes room
    rw [if_pos hlt]
    obtain ⟨a, rest, rfl⟩ := List.exists_cons_of_length_pos (l := old) (by omega)
    have hset : (w.slots.setIfInBounds w.count x).toList = (new ++ [x]) ++ rest := by simp [hslots, hcount]
    refine ⟨new ++ [x], rest, hset, by simp [hcount], fun hf => by rw [hnew hf], fun hf => ?_⟩
    have hrest : rest ++ new <:+ hist := (List.suffix_cons a (rest ++ new)).trans (hsuf hf)
    obtain ⟨pre, hpre⟩ := hrest
    refine ⟨pre, ?_⟩
    rw [← hpre]
    simp
  · -- all slots are new: from here on the one after slot 0 is the oldest
    rw [if_neg hlt]
    have hold : old = [] := List.eq_nil_of_length_eq_zero (by omega)
    obtain ⟨b, rest, rfl⟩ := List.exists_cons_of_length_pos (l := new) (by omega)
    have hin : b :: rest <:+ hist := by
      cases hf : w.full with
      | false => exact hnew hf ▸ List.suffix_rfl
      | true => simpa [hold] using hsuf hf
    have hset : (w.slots.setIfInBounds 0 x).toList = [x] ++ rest := by simp [hslots, hold]
    refine ⟨[x], rest, hset, rfl, (by simp), fun _ => ?_⟩
    obtain ⟨pre, hpre⟩ := (List.suffix_cons b rest).trans hin
    refine ⟨pre, ?_⟩
    rw [← hpre]
    simp

/-- Write another sample over the last one. -/
def setLast (w : Window α m) (x : α) : Window α m :=
  { w with slots := w.slots.setIfInBounds (w.count - 1) x }

/-- The last sample is in front of the next slot. -/
theorem Holds.getElem_last {last : α} (h : w.Holds (hist ++ [last])) (hpos : 0 < w.count) :
    w.slots.toList[w.count - 1]? = some last := by
  obtain ⟨new, old, hslots, hcount, hnew, hsuf⟩ := h
  obtain ⟨init, c, rfl⟩ := List.eq_nil_or_concat' new |>.resolve_left (by rintro rfl; simp [hcount] at hpos)
  have hc : c = last := by
    cases hf : w.full with
    | false => simpa using (List.append_inj' (hnew hf) rfl).2
    | true =>
      obtain ⟨pre, hpre⟩ := hsuf hf
      rw [← List.append_assoc, ← List.append_assoc] at hpre
      simpa using (List.append_inj' hpre rfl).2
  simp [hslots, hcount, hc]

theorem Holds.setLast {last : α} (h : w.Holds (hist ++ [last])) (hpos : 0 < w.count) :
    (w.setLast x).Holds (hist ++ [x]) := by
  obtain ⟨new, old, hslots, hcount, hnew, hsuf⟩ := h
  obtain ⟨init, c, rfl⟩ := List.eq_nil_or_concat' new |>.resolve_left (by rintro rfl; simp [hcount] at hpos)
  have hset : (w.setLast x).slots.toList = (init ++ [x]) ++ old := by simp [Window.setLast, hslots, hcount]
  refine ⟨init ++ [x], old, hset, by simp [Window.setLast, hcount], fun hf => ?_, fun hf => ?_⟩
  · rw [(List.append_inj' (hnew hf) rfl).1]
  · obtain ⟨pre, hpre⟩ := hsuf hf
    rw [← List.append_assoc, ← List.append_assoc] at hpre
    exact ⟨pre, by rw [← (List.append_inj' hpre rfl).1]; simp⟩

/-- Until the window is full the stream lies in it in order. -/
theorem Holds.contents_eq (h : w.Holds hist) (hf : w.full = false) : w.contents = hist := by
  obtain ⟨new, old, hslots, hcount, hnew, -⟩ := h
  unfold contents
  rw [hf, if_neg Bool.false_ne_true, hslots, hcount, List.take_left, hnew hf]

/-- **The window is the end of the stream.** What counts in the window is, up
to its order, the last `m` samples, or all of them if there are fewer. -/
theorem Holds.contents_perm (h : w.Holds hist) : w.contents.Perm (hist.rtake m) := by
  obtain ⟨new, old, hslots, hcount, hnew, hsuf⟩ := h
  have hlen : new.length + old.length = m := by
    rw [← List.length_append, ← hslots]
    simp
  unfold contents
  cases hf : w.full with
  | false =>
    have hall : hist.rtake m = hist := by
      rw [← hnew hf, List.rtake, show new.length - m = 0 by omega, List.drop_zero]
    rw [hall, hslots, hcount, ← hnew hf]
    simp
  | true =>
    have hend : hist.rtake m = old ++ new := by
      rw [List.rtake, List.suffix_iff_eq_drop.mp (hsuf hf), List.length_append, Nat.add_comm, hlen]
    rw [hend, hslots]
    exact List.perm_append_comm

end Window
end TuningMod

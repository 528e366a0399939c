/-
# A circular array filled in rounds

`m` slots are filled one after the other. With the last slot the index goes
back to 0, and the next round overwrites them from there. The index does not
tell how many slots are in use: it is 0 before the first element and after
every full round. What it gives is the last round, which is all of the last
`m` elements only if there are no more than `m`, or if the round is full.

The slots themselves, read modulo `m`, always hold the last `m` elements.

Key definitions: `Rounds`, `push`, `roundLength`, `lastRound`, `Holds`, `Keeps`.
Key theorems: `Holds.push`, `Holds.contents_eq`, `lastRound_split`, `Keeps.push`.
-/
import Mathlib.Algebra.Ring.Nat
import Mathlib.Data.List.DropRight
import Mathlib.Tactic.SplitIfs

namespace TuningMod

/-- `m` slots and the index of the next one to write. -/
structure Rounds (α : Type*) (m : ℕ) where
  slots : Vector α m
  next : ℕ

namespace Rounds

variable {α : Type*} {m : ℕ}

def push (r : Rounds α m) (x : α) : Rounds α m where
  slots := r.slots.setIfInBounds r.next x
  next := if r.next + 1 = m then 0 else r.next + 1

/-- The slots of the last round, if there was any. -/
def contents (r : Rounds α m) (used : Bool) : List α :=
  r.slots.toList.take (if r.next = 0 ∧ used = true then m else r.next)

/-- The length of the last of the rounds of `n` elements. -/
def roundLength (m n : ℕ) : ℕ := if n = 0 then 0 else (n - 1) % m + 1

/-- The elements of the last round. -/
def lastRound (m : ℕ) (hist : List α) : List α := hist.rtake (roundLength m hist.length)

/-- The first slots hold the last round. -/
structure Holds (r : Rounds α m) (hist : List α) : Prop where
  next_eq : r.next = hist.length % m
  slots_take : r.slots.toList.take (roundLength m hist.length) = lastRound m hist

variable {r : Rounds α m} {hist : List α} {x : α} {n : ℕ}

theorem holds_nil (slots : Vector α m) : Holds ⟨slots, 0⟩ [] where
  next_eq := (Nat.zero_mod m).symm
  slots_take := by simp [roundLength, lastRound]

/-! ### The length of the last round -/

theorem succ_mod (hm : 0 < m) (n : ℕ) : (n + 1) % m = if n % m + 1 = m then 0 else n % m + 1 := by
  have hlt := Nat.mod_lt n hm
  rw [← Nat.mod_add_mod]
  split_ifs with h
  · rw [h, Nat.mod_self]
  · exact Nat.mod_eq_of_lt (by omega)

theorem roundLength_succ (m n : ℕ) : roundLength m (n + 1) = n % m + 1 := by simp [roundLength]

theorem roundLength_le (hm : 0 < m) : roundLength m n ≤ min n m := by
  have hlt := Nat.mod_lt (n - 1) hm
  have hle := Nat.mod_le (n - 1) m
  unfold roundLength
  split_ifs <;> omega

/-- A round that is not full ends in front of the index. -/
theorem roundLength_mod (hm : 0 < m) (hn : n % m ≠ 0) : roundLength m n = n % m := by
  have h0 : n ≠ 0 := by
    rintro rfl
    exact hn (Nat.zero_mod m)
  obtain ⟨k, rfl⟩ : ∃ k, n = k + 1 := ⟨n - 1, by omega⟩
  have hk := succ_mod hm k
  rw [roundLength_succ]
  split_ifs at hk <;> omega

theorem roundLength_full (hm : 0 < m) (h0 : n ≠ 0) (hn : n % m = 0) : roundLength m n = m := by
  obtain ⟨k, rfl⟩ : ∃ k, n = k + 1 := ⟨n - 1, by omega⟩
  have hk := succ_mod hm k
  rw [roundLength_succ]
  split_ifs at hk <;> omega

/-- When the last round is all there is, of at most `m` elements. -/
theorem roundLength_eq_iff (hm : 0 < m) : roundLength m n = min n m ↔ n ≤ m ∨ m ∣ n := by
  by_cases h0 : n = 0
  · subst h0
    simp [roundLength]
  rw [Nat.dvd_iff_mod_eq_zero]
  by_cases hn : n % m = 0
  · have hle := Nat.le_of_dvd (Nat.pos_of_ne_zero h0) (Nat.dvd_of_mod_eq_zero hn)
    rw [roundLength_full hm h0 hn]
    omega
  · rw [roundLength_mod hm hn]
    have hlt := Nat.mod_lt n hm
    constructor
    · intro h
      left
      have := Nat.mod_le n m
      omega
    · intro h
      have hnm : n < m := by
        refine lt_of_le_of_ne (by omega) ?_
        rintro rfl
        exact hn (Nat.mod_self n)
      rw [Nat.mod_eq_of_lt hnm]
      omega

/-! ### The array and the stream -/

theorem Holds.push (hm : 0 < m) (h : r.Holds hist) : (r.push x).Holds (hist ++ [x]) := by
  have hlt : r.next < m := by
    rw [h.next_eq]
    exact Nat.mod_lt _ hm
  -- the slots below the index are of the last round, or there are none
  have htake : r.slots.toList.take r.next = hist.rtake r.next := by
    by_cases h0 : r.next = 0
    · simp [h0]
    · have hr := roundLength_mod (n := hist.length) hm (by rwa [← h.next_eq])
      have hs := h.slots_take
      unfold lastRound at hs
      rwa [hr, ← h.next_eq] at hs
  constructor
  · unfold Rounds.push
    rw [List.length_append, List.length_singleton, succ_mod hm, ← h.next_eq]
  · have hlen : r.next < r.slots.toList.length := by simpa using hlt
    unfold Rounds.push lastRound
    rw [List.length_append, List.length_singleton, roundLength_succ, ← h.next_eq, List.rtake_concat_succ, ← htake,
      Vector.toList_setIfInBounds, List.take_succ_eq_append_getElem (by simpa using hlt),
      List.take_set_of_le (Nat.le_refl _)]
    simp

/-- **What the index gives is the last round.** -/
theorem Holds.contents_eq (hm : 0 < m) (h : r.Holds hist) {used : Bool} (hu : used = true ↔ hist ≠ []) :
    r.contents used = lastRound m hist := by
  unfold contents
  rw [← h.slots_take, h.next_eq]
  simp only [hu]
  congr 1
  by_cases hn : hist.length % m = 0
  · by_cases h0 : hist = []
    · simp [h0, roundLength]
    · rw [if_pos ⟨hn, h0⟩, roundLength_full hm (by simpa using h0) hn]
  · rw [if_neg (fun hc => hn hc.1), roundLength_mod hm hn]

/-- The last `m` elements are a rest of earlier rounds and the last round; there
is no rest if there are at most `m`, or if the last round is full. -/
theorem lastRound_split (hm : 0 < m) (hist : List α) :
    ∃ rest, hist.rtake m = rest ++ lastRound m hist ∧ (rest = [] ↔ hist.length ≤ m ∨ m ∣ hist.length) := by
  have hle := roundLength_le (n := hist.length) hm
  refine ⟨(hist.rtake m).take (min hist.length m - roundLength m hist.length), ?_, ?_⟩
  · have hdrop : lastRound m hist = (hist.rtake m).drop (min hist.length m - roundLength m hist.length) := by
      unfold lastRound List.rtake
      rw [List.drop_drop]
      congr 1
      omega
    rw [hdrop, List.take_append_drop]
  · rw [← roundLength_eq_iff hm, ← List.length_eq_zero_iff, List.length_take, List.rtake, List.length_drop]
    omega

theorem lastRound_eq_nil : lastRound m hist = [] ↔ hist = [] := by
  unfold lastRound List.rtake roundLength
  rw [← List.length_eq_zero_iff, List.length_drop, ← List.length_eq_zero_iff]
  have hle := Nat.mod_le (hist.length - 1) m
  split_ifs <;> omega

/-! ### The last elements, slot by slot -/

/-- Each of the last `m` elements is in the slot of its number modulo `m`. -/
structure Keeps (r : Rounds α m) (hist : List α) : Prop where
  next_eq : r.next = hist.length % m
  slot : ∀ k, k < hist.length → hist.length ≤ k + m → r.slots[k % m]? = hist[k]?

theorem keeps_nil (slots : Vector α m) : Keeps ⟨slots, 0⟩ [] where
  next_eq := (Nat.zero_mod m).symm
  slot k hk := by simp at hk

/-- Fewer than `m` steps behind, the number is another one modulo `m`. -/
theorem mod_ne {k : ℕ} (hk : k < n) (hkm : n < k + m) : n % m ≠ k % m := by
  intro h
  have hdvd : m ∣ n - k := Nat.dvd_of_mod_eq_zero (Nat.sub_mod_eq_zero_of_mod_eq h)
  have := Nat.le_of_dvd (by omega) hdvd
  omega

theorem Keeps.push (hm : 0 < m) (h : r.Keeps hist) : (r.push x).Keeps (hist ++ [x]) := by
  have hlt : r.next < m := by
    rw [h.next_eq]
    exact Nat.mod_lt _ hm
  constructor
  · unfold Rounds.push
    rw [List.length_append, List.length_singleton, succ_mod hm, ← h.next_eq]
  · intro k hk hkm
    rw [List.length_append, List.length_singleton] at hk hkm
    unfold Rounds.push
    by_cases hlast : k = hist.length
    · rw [hlast, ← h.next_eq, Vector.getElem?_setIfInBounds_self_of_lt hlt, List.getElem?_concat_length]
    · have hne : r.next ≠ k % m := by
        rw [h.next_eq]
        exact mod_ne (by omega) (by omega)
      rw [Vector.getElem?_setIfInBounds_ne hne, List.getElem?_append_left (by omega)]
      exact h.slot k (by omega) (by omega)

end Rounds
end TuningMod

/-
# Reading a stream piece by piece

A reader with room for `n` elements stops behind the end of a line, or when it
is full. A line with fewer than `n` elements in front of its end is one piece;
a longer one comes in several, each but the last full.

Key definitions: `pieces`.
Key theorems: `pieces_line`, `pieces_full`, `pieces_append`, `flatten_pieces`, `length_le`.
-/
import Mathlib.Data.List.Basic

namespace TuningMod
namespace Fgets

variable {α : Type*} [DecidableEq α] (nl : α) (n : ℕ)

/-- The pieces of a stream, when `cur` has been read of the first one. -/
def piecesFrom (cur : List α) : List α → List (List α)
  | [] => if cur = [] then [] else [cur]
  | c :: l =>
    if c = nl ∨ cur.length + 1 = n then (cur ++ [c]) :: piecesFrom [] l else piecesFrom (cur ++ [c]) l

/-- What one call after the other gives. -/
def pieces (l : List α) : List (List α) := piecesFrom nl n [] l

variable {nl n} {cur l rest : List α}

theorem piecesFrom_line (hl : nl ∉ l) (hlen : cur.length + l.length < n) :
    piecesFrom nl n cur (l ++ nl :: rest) = (cur ++ l ++ [nl]) :: pieces nl n rest := by
  induction l generalizing cur with
  | nil =>
    rw [List.nil_append, piecesFrom, if_pos (.inl rfl), List.append_nil]
    rfl
  | cons c l ih =>
    rw [List.mem_cons, not_or] at hl
    rw [List.length_cons] at hlen
    have hgo : ¬ (c = nl ∨ cur.length + 1 = n) := by
      rintro (rfl | hfull)
      · exact hl.1 rfl
      · omega
    rw [List.cons_append, piecesFrom, if_neg hgo, ih hl.2 (by simp; omega)]
    simp

/-- A line that fits. -/
theorem pieces_line (hl : nl ∉ l) (hlen : l.length < n) :
    pieces nl n (l ++ nl :: rest) = (l ++ [nl]) :: pieces nl n rest :=
  @piecesFrom_line _ _ nl n [] l rest hl (by simpa using hlen)

/-- Lines that fit are read one by one. -/
theorem pieces_lines {ls : List (List α)} (h : ∀ l ∈ ls, nl ∉ l ∧ l.length < n) :
    pieces nl n (ls.flatMap (· ++ [nl])) = ls.map (· ++ [nl]) := by
  induction ls with
  | nil => rfl
  | cons l ls ih =>
    rw [List.forall_mem_cons] at h
    rw [List.flatMap_cons, List.append_assoc, List.singleton_append, pieces_line h.1.1 h.1.2, ih h.2, List.map_cons]

theorem piecesFrom_full (hl : nl ∉ l) (hcur : cur.length < n) (hlen : n ≤ cur.length + l.length) :
    piecesFrom nl n cur (l ++ rest) =
      (cur ++ l.take (n - cur.length)) :: pieces nl n (l.drop (n - cur.length) ++ rest) := by
  induction l generalizing cur with
  | nil =>
    rw [List.length_nil] at hlen
    omega
  | cons c l ih =>
    rw [List.mem_cons, not_or] at hl
    rw [List.length_cons] at hlen
    rw [List.cons_append, piecesFrom]
    by_cases hfull : cur.length + 1 = n
    · have hone : n - cur.length = 1 := by omega
      rw [if_pos (.inr hfull), hone]
      rfl
    · have hgo : ¬ (c = nl ∨ cur.length + 1 = n) := by
        rintro (rfl | h)
        · exact hl.1 rfl
        · exact hfull h
      have hnext : n - cur.length = n - (cur ++ [c]).length + 1 := by
        rw [List.length_append, List.length_singleton]
        omega
      rw [if_neg hgo, ih hl.2 (by simp; omega) (by simp; omega), hnext, List.take_succ_cons, List.drop_succ_cons,
        List.append_assoc, List.singleton_append]

/-- The first piece of a line that does not fit. -/
theorem pieces_full (hl : nl ∉ l) (hn : 0 < n) (hlen : n ≤ l.length) :
    pieces nl n (l ++ rest) = l.take n :: pieces nl n (l.drop n ++ rest) :=
  @piecesFrom_full _ _ nl n [] l rest hl hn (by simpa using hlen)

/-- **A line is read on its own.** -/
theorem pieces_append (hn : 0 < n) (hl : nl ∉ l) :
    pieces nl n (l ++ nl :: rest) = pieces nl n (l ++ [nl]) ++ pieces nl n rest := by
  induction hk : l.length using Nat.strongRecOn generalizing l with
  | ind k ih =>
    subst hk
    by_cases hlen : l.length < n
    · rw [pieces_line hl hlen, pieces_line hl hlen]
      rfl
    · have hdrop : nl ∉ l.drop n := fun h => hl (List.mem_of_mem_drop h)
      have hlt : (l.drop n).length < l.length := by
        rw [List.length_drop]
        omega
      rw [pieces_full hl hn (by omega), pieces_full hl hn (by omega), ih _ hlt hdrop rfl]
      rfl

theorem flatten_piecesFrom : (piecesFrom nl n cur l).flatten = cur ++ l := by
  induction l generalizing cur with
  | nil =>
    unfold piecesFrom
    by_cases hcur : cur = []
    · simp [hcur]
    · simp [hcur]
  | cons c l ih =>
    unfold piecesFrom
    split_ifs
    · rw [List.flatten_cons, ih]
      simp
    · rw [ih]
      simp

/-- Nothing is lost. -/
theorem flatten_pieces : (pieces nl n l).flatten = l := by
  rw [pieces, flatten_piecesFrom, List.nil_append]

theorem length_piecesFrom_le (hcur : cur.length < n) : ∀ p ∈ piecesFrom nl n cur l, p.length ≤ n := by
  induction l generalizing cur with
  | nil =>
    unfold piecesFrom
    intro p hp
    by_cases hnil : cur = []
    · simp [hnil] at hp
    · rw [if_neg hnil, List.mem_singleton] at hp
      rw [hp]
      exact Nat.le_of_lt hcur
  | cons c l ih =>
    unfold piecesFrom
    split_ifs with hstop
    · rw [List.forall_mem_cons]
      refine ⟨?_, ih (by rw [List.length_nil]; omega)⟩
      rw [List.length_append, List.length_singleton]
      omega
    · rw [not_or] at hstop
      refine ih ?_
      rw [List.length_append, List.length_singleton]
      omega

/-- A piece has room for its elements. -/
theorem length_le (hn : 0 < n) : ∀ p ∈ pieces nl n l, p.length ≤ n := length_piecesFrom_le hn

end Fgets
end TuningMod

/-
# Turns at a circular table

A scanner goes round a table of `n` slots and looks at one slot after the
other. It stops behind the first one that is occupied, or when it has looked at
all of them, and the next scan goes on from there. The table may change between
two looks, so that a scan says nothing about the table as a whole.

What carries the fairness is that a scanner never jumps: its looks go round the
table (`Cyclic`), so in any stretch of them two slots are looked at equally
often, up to one. A slot that is occupied whenever it is looked at is then
served as often as any other slot, up to one.

Key definitions: `Scan`, `Scan.start`, `Scan.look`, `Scan.served`, `Cyclic`.
Key theorems: `count_cyclic`, `Scan.look_looked`, `Scan.served_fair`.
-/
import Mathlib.Algebra.Order.Group.Nat
import Mathlib.Data.List.Basic
import Mathlib.Tactic.Common

namespace TuningMod
namespace Turns

/-- The index after `i`. -/
def next (n i : ℕ) : ℕ := if i + 1 = n then 0 else i + 1

/-- The slots `looks` go round a table of `n` slots, from slot 0 on, and `last` is the next one. -/
structure Cyclic (n : ℕ) (looks : List ℕ) (last : ℕ) : Prop where
  inOrder : looks = (List.range looks.length).map (· % n)
  isNext : last = looks.length % n

variable {n : ℕ} {looks more : List ℕ} {last last' i j p : ℕ}

theorem next_mod (hn : 0 < n) (p : ℕ) : next n (p % n) = (p + 1) % n := by
  have hlt : p % n < n := Nat.mod_lt p hn
  unfold next
  rw [← Nat.mod_add_mod p n 1]
  by_cases h : p % n + 1 = n
  · rw [if_pos h, h, Nat.mod_self]
  · rw [if_neg h, Nat.mod_eq_of_lt (show p % n + 1 < n by omega)]

theorem cyclic_nil : Cyclic n [] 0 where
  inOrder := rfl
  isNext := (Nat.zero_mod n).symm

theorem Cyclic.snoc (h : Cyclic n looks last) (hn : 0 < n) : Cyclic n (looks ++ [last]) (next n last) where
  inOrder := by
    rw [List.length_append, List.length_singleton, List.range_succ, List.map_append, ← h.inOrder, h.isNext]
    rfl
  isNext := by
    rw [List.length_append, List.length_singleton, h.isNext, next_mod hn]

/-- How often slot `i` comes up in the first `p` looks. -/
theorem count_range (hi : i < n) : ∀ p, ((List.range p).map (· % n)).count i = (p + (n - 1 - i)) / n
  | 0 => by
    rw [Nat.div_eq_of_lt (by omega)]
    rfl
  | p + 1 => by
    rw [List.range_succ, List.map_append, List.count_append, count_range hi p, List.map_singleton,
      List.count_singleton]
    have hn : 0 < n := by omega
    have hdiv : (p + 1 + (n - 1 - i)) / n = (p + (n - 1 - i)) / n + if n ∣ p + (n - 1 - i) + 1 then 1 else 0 := by
      rw [show p + 1 + (n - 1 - i) = p + (n - 1 - i) + 1 by omega, Nat.succ_div]
    rw [hdiv]
    congr 1
    -- the quotient goes up just where the look is at slot `i`
    have hiff : n ∣ p + (n - 1 - i) + 1 ↔ p % n = i := by
      rw [show p + (n - 1 - i) + 1 = p + (n - i) by omega]
      constructor
      · intro hd
        have hmod : (p % n + (n - i)) % n = 0 := by
          rw [Nat.mod_add_mod]
          exact Nat.mod_eq_zero_of_dvd hd
        have hlt : p % n < n := Nat.mod_lt p hn
        by_contra hne
        rcases Nat.lt_or_gt_of_ne hne with hless | hmore
        · rw [Nat.mod_eq_of_lt (by omega)] at hmod
          omega
        · rw [show p % n + (n - i) = n + (p % n - i) by omega, Nat.add_mod_left,
            Nat.mod_eq_of_lt (by omega)] at hmod
          omega
      · intro he
        have hp := Nat.div_add_mod p n
        rw [show p + (n - i) = n * (p / n + 1) by rw [Nat.mul_add]; omega]
        exact Nat.dvd_mul_right n _
    by_cases h : p % n = i
    · rw [if_pos (hiff.mpr h), if_pos (by simpa using h)]
    · rw [if_neg (fun hd => h (hiff.mp hd)), if_neg (by simpa using h)]

/-- **Looks are shared out.** In a stretch of looks a slot comes up once in `n`, up to one. -/
theorem count_cyclic (h : Cyclic n looks last) (h' : Cyclic n (looks ++ more) last') (hi : i < n) :
    more.length / n ≤ more.count i ∧ more.count i ≤ more.length / n + 1 := by
  have hn : 0 < n := by omega
  have hbefore : looks.count i = (looks.length + (n - 1 - i)) / n := by
    rw [← count_range hi looks.length, ← h.inOrder]
  have hafter : looks.count i + more.count i = (looks.length + more.length + (n - 1 - i)) / n := by
    rw [← List.count_append, ← List.length_append, ← count_range hi, ← h'.inOrder]
  have hsplit := Nat.add_div (a := looks.length + (n - 1 - i)) (b := more.length) hn
  rw [show looks.length + (n - 1 - i) + more.length = looks.length + more.length + (n - 1 - i) by omega] at hsplit
  split at hsplit
  · omega
  · omega

/-! ### A scanner -/

/-- Where a scanner stands: the slot it looks at next, how many looks the scan
that is going on has left, and the looks so far with what was found. -/
structure Scan where
  last : ℕ := 0
  count : Option ℕ := none
  looks : List (ℕ × Bool) := []
  deriving DecidableEq, Repr

namespace Scan

variable {s s' t : Scan} {occupied : Bool} {new : List (ℕ × Bool)}

/-- A scan begins, with `n` looks. -/
def start (n : ℕ) (s : Scan) : Option Scan :=
  match s.count with
  | none => some { s with count := some n }
  | some _ => none

/-- One pass of the loop. With no look left the scan ends, whatever the slot holds. -/
def look (n : ℕ) (s : Scan) (occupied : Bool) : Option Scan :=
  match s.count with
  | none => none
  | some 0 => some { s with count := none }
  | some (count + 1) =>
    some
      { last := next n s.last
        count := if occupied then none else some count
        looks := s.looks ++ [(s.last, occupied)] }

/-- The slots of the looks that found them occupied. -/
def occupiedOf (looks : List (ℕ × Bool)) : List ℕ := (looks.filter Prod.snd).map Prod.fst

/-- The slots that scans have ended at. -/
def served (s : Scan) : List ℕ := occupiedOf s.looks

/-- The looks go round the table. -/
def Turning (n : ℕ) (s : Scan) : Prop := Cyclic n (s.looks.map Prod.fst) s.last

theorem turning_initial : Turning n {} := cyclic_nil

/-- What a step does to the looks: nothing, or one more at `last`. -/
inductive Looked (n : ℕ) (s : Scan) (occupied : Bool) (s' : Scan) : Prop
  | none : s'.looks = s.looks → s'.last = s.last → Looked n s occupied s'
  | one : s'.looks = s.looks ++ [(s.last, occupied)] → s'.last = next n s.last → Looked n s occupied s'

theorem start_looked (h : s.start n = some s') : Looked n s occupied s' := by
  unfold start at h
  split at h
  · cases h
    exact .none rfl rfl
  · cases h

theorem look_looked (h : s.look n occupied = some s') : Looked n s occupied s' := by
  unfold look at h
  split at h
  · cases h
  · cases h
    exact .none rfl rfl
  · cases h
    exact .one rfl rfl

theorem Looked.turning (h : Looked n s occupied s') (hn : 0 < n) (ht : s.Turning n) : s'.Turning n := by
  unfold Turning at ht ⊢
  cases h with
  | none hlooks hlast => rwa [hlooks, hlast]
  | one hlooks hlast =>
    rw [hlooks, hlast, List.map_append]
    exact ht.snoc hn

theorem count_occupiedOf_le (looks : List (ℕ × Bool)) (j : ℕ) :
    (occupiedOf looks).count j ≤ (looks.map Prod.fst).count j :=
  ((List.filter_sublist (l := looks)).map Prod.fst).count_le j

/-- A slot found occupied at every look is served at every look. -/
theorem count_occupiedOf {looks : List (ℕ × Bool)} (h : ∀ l ∈ looks, l.1 = i → l.2 = true) :
    (occupiedOf looks).count i = (looks.map Prod.fst).count i := by
  induction looks with
  | nil => rfl
  | cons l looks ih =>
    have ih := ih fun l' hl' => h l' (List.mem_cons_of_mem _ hl')
    unfold occupiedOf at ih ⊢
    rw [List.map_cons, List.count_cons, ← ih, List.filter_cons]
    by_cases hl : l.1 = i
    · rw [if_pos (h l List.mem_cons_self hl), List.map_cons, List.count_cons]
    · by_cases hb : l.2 = true
      · rw [if_pos hb, List.map_cons, List.count_cons]
      · rw [if_neg hb, if_neg (by simpa using hl), Nat.add_zero]

/-- **Turns are fair.** In a stretch in which slot `i` is found occupied at every
look, no slot is served more than once more than `i`, and `n` looks are not made
without serving `i`. -/
theorem served_fair (hs : s.Turning n) (ht : t.Turning n) (hnew : t.looks = s.looks ++ new) (hi : i < n)
    (hocc : ∀ l ∈ new, l.1 = i → l.2 = true) :
    (∀ j < n, (occupiedOf new).count j ≤ (occupiedOf new).count i + 1) ∧
      new.length < n * ((occupiedOf new).count i + 1) := by
  have hcyclic : Cyclic n (s.looks.map Prod.fst ++ new.map Prod.fst) t.last := by
    rw [← List.map_append, ← hnew]
    exact ht
  have hcount : ∀ j < n, _ := fun j hj => count_cyclic hs hcyclic hj
  have hi' := hcount i hi
  rw [← count_occupiedOf hocc] at hi'
  constructor
  · intro j hj
    have hle := count_occupiedOf_le new j
    have hj' := hcount j hj
    omega
  · rw [List.length_map] at hi'
    calc new.length < n * (new.length / n + 1) := Nat.lt_mul_div_succ _ (by omega)
      _ ≤ n * ((occupiedOf new).count i + 1) := Nat.mul_le_mul_left n (by omega)

end Scan
end Turns
end TuningMod

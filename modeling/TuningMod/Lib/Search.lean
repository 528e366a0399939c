/-
# Searching a text

The first occurrence of a pattern, with the text from it on. An element that a
pattern does not have cannot lie inside an occurrence, so that in a text divided
into columns by such elements the pattern occurs only within a column.

Key definitions: `find`, `Column`, `columnsText`.
Key theorems: `infix_append_cons`, `find_eq_none_iff`, `bind_find_eq_none`, `find_append_cons`, `find_first`,
`infix_columnsText`.
-/
import Mathlib.Data.List.Infix

namespace TuningMod
namespace Search

variable {α : Type*} {pat p a b s : List α} {x : α}

/-! ### Occurrences -/

/-- What occurs in `a ++ x :: b` and does not contain `x` occurs in `a` or in `b`. -/
theorem infix_append_cons (hx : x ∉ p) :
    p <:+: a ++ x :: b ↔ p <:+: a ∨ p <:+: b := by
  constructor
  · intro ⟨u, v, h⟩
    rw [List.append_assoc] at h
    rcases List.append_eq_append_iff.mp h with ⟨w, rfl, hw⟩ | ⟨w, rfl, hw⟩
    · -- it starts in `a`: it ends there, or `x` is in it
      rcases List.append_eq_append_iff.mp hw with ⟨w', rfl, -⟩ | ⟨w', rfl, hw'⟩
      · exact .inl ⟨u, w', by rw [List.append_assoc]⟩
      · rcases List.cons_eq_append_iff.mp hw' with ⟨rfl, -⟩ | ⟨w'', rfl, -⟩
        · exact .inl ⟨u, [], by simp⟩
        · exact absurd (List.mem_append_right w List.mem_cons_self) hx
    · -- it starts behind `a`
      rcases List.cons_eq_append_iff.mp hw with ⟨rfl, hp⟩ | ⟨w', rfl, hb⟩
      · rcases List.append_eq_cons_iff.mp hp with ⟨rfl, -⟩ | ⟨w'', rfl, -⟩
        · exact .inl (List.nil_infix)
        · exact absurd List.mem_cons_self hx
      · exact .inr ⟨w', v, by rw [hb, List.append_assoc]⟩
  · rintro (h | h)
    · exact h.trans (List.prefix_append a _).isInfix
    · exact h.trans ((List.suffix_cons x b).trans (List.suffix_append a _)).isInfix

theorem prefix_append_cons (hx : x ∉ p) : p <+: a ++ x :: b ↔ p <+: a := by
  refine ⟨fun ⟨v, h⟩ => ?_, fun h => h.trans (List.prefix_append a _)⟩
  rcases List.append_eq_append_iff.mp h with ⟨w, rfl, -⟩ | ⟨w, rfl, hw⟩
  · exact List.prefix_append p w
  · rcases List.cons_eq_append_iff.mp hw with ⟨rfl, -⟩ | ⟨w', rfl, -⟩
    · rw [List.append_nil]
    · exact absurd (List.mem_append_right a List.mem_cons_self) hx

/-! ### The first occurrence -/

section Find

variable [DecidableEq α]

/-- The text from the first occurrence of the pattern on. -/
def find (pat : List α) : List α → Option (List α)
  | [] => if pat = [] then some [] else none
  | c :: s => if pat <+: c :: s then some (c :: s) else find pat s

theorem find_eq_none_iff : find pat s = none ↔ ¬ pat <:+: s := by
  induction s with
  | nil => simp [find, List.infix_nil]
  | cons c s ih =>
    rw [find, List.infix_cons_iff, not_or, ← ih]
    split_ifs with hp <;> simp [hp]

theorem suffix_of_find (h : find pat s = some p) : p <:+ s := by
  induction s with
  | nil =>
    rw [find] at h
    split_ifs at h
    rw [← Option.some.inj h]
  | cons c s ih =>
    rw [find] at h
    split_ifs at h
    · rw [← Option.some.inj h]
    · exact (ih h).trans (List.suffix_cons c s)

/-- A second pattern is not found behind the first in a text that lacks an element of it. -/
theorem bind_find_eq_none {q : List α} (hq : x ∈ q) (hs : x ∉ s) : (find pat s).bind (find q) = none := by
  rw [Option.bind_eq_none_iff]
  intro t ht
  refine find_eq_none_iff.mpr fun hoccurs => ?_
  exact hs ((suffix_of_find ht).isInfix.mem (hoccurs.mem hq))

/-- **A pattern is looked for on each side of an element it does not have.** -/
theorem find_append_cons (hx : x ∉ pat) (hpat : pat ≠ []) :
    find pat (a ++ x :: b) = ((find pat a).map (· ++ x :: b)).or (find pat b) := by
  induction a with
  | nil =>
    have hnot : ¬ pat <+: x :: b := by
      intro h
      exact hpat (List.prefix_nil.mp ((prefix_append_cons (a := []) hx).mp h))
    have hnil : find pat [] = none := if_neg hpat
    have hcons : find pat (x :: b) = find pat b := if_neg hnot
    rw [List.nil_append, hcons, hnil]
    rfl
  | cons c a ih =>
    have hiff : pat <+: c :: (a ++ x :: b) ↔ pat <+: c :: a := prefix_append_cons (a := c :: a) hx
    rw [List.cons_append, find, find]
    by_cases hp : pat <+: c :: a
    · rw [if_pos hp, if_pos (hiff.mpr hp)]
      rfl
    · rw [if_neg hp, if_neg (mt hiff.mp hp), ih]

/-- Elements that the pattern does not have are passed over. -/
theorem find_skip (ha : ∀ y ∈ a, y ∉ pat) (hpat : pat ≠ []) : find pat (a ++ b) = find pat b := by
  induction a with
  | nil => rfl
  | cons y a ih =>
    rw [List.forall_mem_cons] at ha
    have hcons := find_append_cons (a := []) (b := a ++ b) ha.1 hpat
    have hnil : find pat [] = none := if_neg hpat
    rw [List.nil_append, hnil] at hcons
    exact hcons.trans (ih ha.2)

/-- The first occurrence is the first place where it can start. -/
theorem find_first (hx : x ∉ a) : find (x :: p) (a ++ (x :: p ++ b)) = some (x :: p ++ b) := by
  induction a with
  | nil => rw [List.nil_append, List.cons_append, find, if_pos ⟨b, rfl⟩]
  | cons c a ih =>
    rw [List.mem_cons, not_or] at hx
    rw [List.cons_append, find, if_neg fun h => hx.1 (List.cons_prefix_cons.mp h).1, ih hx.2]

end Find

/-! ### Columns -/

/-- A text and the element behind it. -/
structure Column (α : Type*) where
  text : List α
  sep : α

def columnsText (cs : List (Column α)) : List α := cs.flatMap fun c => c.text ++ [c.sep]

variable {cs : List (Column α)}

theorem columnsText_cons (c : Column α) (cs : List (Column α)) :
    columnsText (c :: cs) = c.text ++ c.sep :: columnsText cs := by
  rw [columnsText, List.flatMap_cons, List.append_assoc, List.singleton_append]
  rfl

theorem columnsText_append (cs cs' : List (Column α)) :
    columnsText (cs ++ cs') = columnsText cs ++ columnsText cs' :=
  List.flatMap_append

theorem mem_columnsText : x ∈ columnsText cs ↔ ∃ c ∈ cs, x ∈ c.text ∨ x = c.sep := by
  simp [columnsText]

/-- **An occurrence lies within a column.** -/
theorem infix_columnsText (hpat : pat ≠ []) (hsep : ∀ c ∈ cs, c.sep ∉ pat) :
    pat <:+: columnsText cs ↔ ∃ c ∈ cs, pat <:+: c.text := by
  induction cs with
  | nil => simp [columnsText, hpat]
  | cons c cs ih =>
    rw [List.forall_mem_cons] at hsep
    rw [columnsText_cons, infix_append_cons hsep.1, ih hsep.2, List.exists_mem_cons_iff]

end Search
end TuningMod

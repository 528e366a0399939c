/-
# Logs of requests and releases

A log of requests and releases, each to an address. An address is outstanding
if a request to it has no later release to it; a log is paired if every release
goes to an outstanding address. `sinceRelease` is what one flag can stand for:
the requests since the last release, whoever that was to.

Key definitions: `Entry`, `Outstanding`, `Paired`, `sinceRelease`.
Key theorems: `outstanding_snoc`, `paired_snoc`, `sinceRelease_snoc`.
-/
import Mathlib.Data.List.Basic

namespace TuningMod

inductive Entry (α : Type*) where
  | request (a : α)
  | release (a : α)
  | other
  deriving DecidableEq

namespace Entry

variable {α : Type*}

/-- A request to `a` that no release of `a` follows. -/
def Outstanding (log : List (Entry α)) (a : α) : Prop :=
  ∃ before after, log = before ++ .request a :: after ∧ .release a ∉ after

/-- Every release goes to an address that is outstanding when it is made. -/
def Paired (log : List (Entry α)) : Prop :=
  ∀ before a after, log = before ++ .release a :: after → Outstanding before a

/-- The addresses of the requests since the last release. -/
def sinceRelease (log : List (Entry α)) : List α :=
  log.foldl (fun as x => match x with
    | .request a => as ++ [a]
    | .release _ => []
    | .other => as) []

theorem not_outstanding_nil (a : α) : ¬ Outstanding [] a := by
  rintro ⟨before, after, h, _⟩
  simp at h

theorem outstanding_snoc (log : List (Entry α)) (x : Entry α) (a : α) :
    Outstanding (log ++ [x]) a ↔ x = .request a ∨ Outstanding log a ∧ x ≠ .release a := by
  constructor
  · rintro ⟨before, after, h, hrel⟩
    rcases List.eq_nil_or_concat' after with rfl | ⟨after, y, rfl⟩
    · exact Or.inl (List.append_inj' h rfl |>.2 |> List.singleton_inj.mp)
    · rw [← List.cons_append, ← List.append_assoc] at h
      obtain ⟨hlog, hx⟩ := List.append_inj' h rfl
      obtain rfl := List.singleton_inj.mp hx
      rw [List.mem_append, List.mem_singleton, not_or] at hrel
      exact Or.inr ⟨⟨before, after, hlog, hrel.1⟩, fun he => hrel.2 he.symm⟩
  · rintro (rfl | ⟨⟨before, after, rfl, hrel⟩, hx⟩)
    · exact ⟨log, [], rfl, by simp⟩
    · refine ⟨before, after ++ [x], by simp, ?_⟩
      rw [List.mem_append, List.mem_singleton, not_or]
      exact ⟨hrel, fun he => hx he.symm⟩

theorem paired_nil : Paired ([] : List (Entry α)) := by
  intro before a after h
  simp at h

theorem paired_snoc (log : List (Entry α)) (x : Entry α) :
    Paired (log ++ [x]) ↔ Paired log ∧ ∀ a, x = .release a → Outstanding log a := by
  constructor
  · intro h
    refine ⟨fun before a after hl => h before a (after ++ [x]) (by rw [hl]; simp), fun a hx => ?_⟩
    exact h log a [] (by rw [hx])
  · rintro ⟨h, hx⟩ before a after hl
    rcases List.eq_nil_or_concat' after with rfl | ⟨after, y, rfl⟩
    · obtain ⟨rfl, he⟩ := List.append_inj' hl rfl
      exact hx a (List.singleton_inj.mp he)
    · rw [← List.cons_append, ← List.append_assoc] at hl
      exact h before a after (List.append_inj' hl rfl).1

theorem sinceRelease_snoc (log : List (Entry α)) (x : Entry α) :
    sinceRelease (log ++ [x]) = match x with
      | .request a => sinceRelease log ++ [a]
      | .release _ => []
      | .other => sinceRelease log := by
  rw [sinceRelease, List.foldl_append]
  cases x <;> rfl

end Entry
end TuningMod

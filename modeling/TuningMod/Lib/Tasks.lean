/-
# Tasks over a shared state

A pool of tasks that share one state: each task is the list of the actions it
has left, and a step is the next action of any one task. The rules say what a
step does to a property of all tasks or of some task, and that a schedule can
run one task, or all tasks but some, to the end, or one between two parts of
another.

Key definitions: `Pool`, `act`, `Quiet`.
Key theorems: `forall_act`, `exists_of_act`, `exists_act`, `run_task`,
`finish_others`, `run_around`.
-/
import TuningMod.Lib.Runs

namespace TuningMod
namespace Tasks

structure Pool (σ α : Type*) where
  shared : σ
  tasks : List (List α)

variable {σ α : Type*}

/-- No task has anything left. -/
def Pool.Quiet (p : Pool σ α) : Prop := ∀ t ∈ p.tasks, t = []

variable (perform : σ → α → σ)

/-- Task `i` does its next action. -/
def act (p : Pool σ α) (i : ℕ) : Option (Pool σ α) :=
  match p.tasks[i]? with
  | some (a :: as) => some { shared := perform p.shared a, tasks := p.tasks.set i as }
  | _ => none

variable {perform}

theorem act_of_cons {p : Pool σ α} {i : ℕ} {a : α} {as : List α} (h : p.tasks[i]? = some (a :: as)) :
    act perform p i = some { shared := perform p.shared a, tasks := p.tasks.set i as } := by
  rw [act, h]

theorem act_eq_some {p p' : Pool σ α} {i : ℕ} (h : act perform p i = some p') :
    ∃ a as, p.tasks[i]? = some (a :: as) ∧ p' = { shared := perform p.shared a, tasks := p.tasks.set i as } := by
  unfold act at h
  split at h
  · rename_i a as heq
    exact ⟨a, as, heq, (Option.some.inj h).symm⟩
  · cases h

section Step

variable {l : List (List α)} {i : ℕ} {a : α} {as : List α} {P : List α → Prop}

theorem forall_act (h : l[i]? = some (a :: as)) (hall : ∀ t ∈ l, P t) (hstep : P (a :: as) → P as) :
    ∀ t ∈ l.set i as, P t := by
  intro t ht
  rcases List.mem_or_eq_of_mem_set ht with ht | rfl
  · exact hall t ht
  · exact hstep (hall _ (List.mem_of_getElem? h))

/-- What holds of some task after a step held of some task before it. -/
theorem exists_of_act (h : l[i]? = some (a :: as)) (hsome : ∃ t ∈ l.set i as, P t)
    (hstep : P as → P (a :: as)) : ∃ t ∈ l, P t := by
  obtain ⟨t, ht, hp⟩ := hsome
  rcases List.mem_or_eq_of_mem_set ht with ht | rfl
  · exact ⟨t, ht, hp⟩
  · exact ⟨_, List.mem_of_getElem? h, hstep hp⟩

theorem lt_of_task (h : l[i]? = some (a :: as)) : i < l.length := (List.getElem?_eq_some_iff.mp h).1

theorem mem_act (h : l[i]? = some (a :: as)) : as ∈ l.set i as := List.mem_set (lt_of_task h) as

/-- What holds of some task before a step holds of some task after it. -/
theorem exists_act (h : l[i]? = some (a :: as)) (hsome : ∃ t ∈ l, P t) (hstep : P (a :: as) → P as) :
    ∃ t ∈ l.set i as, P t := by
  obtain ⟨t, ht, hp⟩ := hsome
  obtain ⟨k, hk⟩ := List.mem_iff_getElem?.mp ht
  by_cases hki : i = k
  · subst hki
    obtain rfl : a :: as = t := Option.some.inj (h.symm.trans hk)
    exact ⟨as, mem_act h, hstep hp⟩
  · refine ⟨t, List.mem_of_getElem? (i := k) ?_, hp⟩
    rw [List.getElem?_set_ne hki]
    exact hk

end Step

/-! ### Schedules -/

/-- A task does the first part of what it has left. -/
theorem run_task (perform : σ → α → σ) (p : Pool σ α) (i : ℕ) (as bs : List α)
    (h : p.tasks[i]? = some (as ++ bs)) : Runs.run (act perform) p (List.replicate as.length i) =
      some { shared := as.foldl perform p.shared, tasks := p.tasks.set i bs } := by
  induction as generalizing p with
  | nil =>
    have hset : p.tasks.set i bs = p.tasks := by
      obtain ⟨hi, hbs⟩ := List.getElem?_eq_some_iff.mp h
      rw [← show p.tasks[i] = bs from hbs, List.set_getElem_self]
    rw [hset]
    rfl
  | cons a as ih =>
    have hi : i < p.tasks.length := (List.getElem?_eq_some_iff.mp h).1
    have hnext := ih { shared := perform p.shared a, tasks := p.tasks.set i (as ++ bs) }
      (List.getElem?_set_self hi)
    rw [List.set_set] at hnext
    rw [List.length_cons, List.replicate_succ, Runs.run, act_of_cons h, Option.bind_some]
    exact hnext

/-- Every task but those of `keep` can be run to the end. -/
theorem finish_others (perform : σ → α → σ) (keep : List ℕ) (p : Pool σ α) : ∃ is p',
    Runs.run (act perform) p is = some p' ∧ p'.tasks.length = p.tasks.length ∧
      (∀ k t, k ∉ keep → p'.tasks[k]? = some t → t = []) ∧ ∀ k ∈ keep, p'.tasks[k]? = p.tasks[k]? := by
  suffices h : ∀ n, ∃ is p', Runs.run (act perform) p is = some p' ∧ p'.tasks.length = p.tasks.length ∧
      (∀ k t, k < n → k ∉ keep → p'.tasks[k]? = some t → t = []) ∧ ∀ k ∈ keep, p'.tasks[k]? = p.tasks[k]? by
    obtain ⟨is, p', hr, hlen, hdone, hkeep⟩ := h p.tasks.length
    refine ⟨is, p', hr, hlen, fun k t hk ht => hdone k t ?_ hk ht, hkeep⟩
    rw [← hlen]
    exact (List.getElem?_eq_some_iff.mp ht).1
  intro n
  induction n with
  | zero => exact ⟨[], p, rfl, rfl, fun k t hk => absurd hk (Nat.not_lt_zero k), fun _ _ => rfl⟩
  | succ n ih =>
    obtain ⟨is, q, hr, hlen, hdone, hkeep⟩ := ih
    have hlast : ∀ {q' : Pool σ α}, (∀ k, k ≠ n → q'.tasks[k]? = q.tasks[k]?) →
        (∀ t, n ∉ keep → q'.tasks[n]? = some t → t = []) →
        ∀ k t, k < n + 1 → k ∉ keep → q'.tasks[k]? = some t → t = [] := by
      intro q' hne hn k t hk hkk ht
      by_cases hkn : k = n
      · subst hkn
        exact hn t hkk ht
      · exact hdone k t (by omega) hkk ((hne k hkn).symm.trans ht)
    by_cases hn : n ∈ keep
    · exact ⟨is, q, hr, hlen, hlast (fun _ _ => rfl) (fun _ h => absurd hn h), hkeep⟩
    cases ht : q.tasks[n]? with
    | none => exact ⟨is, q, hr, hlen, hlast (fun _ _ => rfl) (fun t _ h => by rw [ht] at h; cases h), hkeep⟩
    | some t =>
      -- run task `n` to the end
      have hn' : n < q.tasks.length := (List.getElem?_eq_some_iff.mp ht).1
      have hrun := run_task perform q n t [] (by rw [List.append_nil, ht])
      refine ⟨is ++ List.replicate t.length n, { shared := t.foldl perform q.shared, tasks := q.tasks.set n [] },
        ?_, ?_, hlast (fun k hk => ?_) (fun t' _ h => ?_), fun k hk => ?_⟩
      · rw [Runs.run_append, hr, Option.bind_some]
        exact hrun
      · rw [List.length_set, hlen]
      · exact List.getElem?_set_ne (Ne.symm hk)
      · rw [List.getElem?_set_self hn'] at h
        exact (Option.some.inj h).symm
      · rw [← hkeep k hk]
        have hkn : n ≠ k := fun hnk => hn (by rw [hnk]; exact hk)
        exact List.getElem?_set_ne hkn

/-- **All of one task between two parts of another**: everyone else first, then
the first part of task `i`, all of task `j`, and the rest of task `i`. -/
theorem run_around (perform : σ → α → σ) {p : Pool σ α} {i j : ℕ} {xs ys ds : List α} (hij : i ≠ j)
    (hx : p.tasks[i]? = some (xs ++ ys)) (hd : p.tasks[j]? = some ds) : ∃ is p' s,
    Runs.run (act perform) p is = some p' ∧ p'.Quiet ∧ p'.shared = ys.foldl perform (ds.foldl perform s) := by
  obtain ⟨is, q, hq, hlen, hdone, hkeep⟩ := finish_others perform [i, j] p
  have hxq : q.tasks[i]? = some (xs ++ ys) := by rw [hkeep i (by simp), hx]
  have hdq : q.tasks[j]? = some ds := by rw [hkeep j (by simp), hd]
  have hi : i < q.tasks.length := (List.getElem?_eq_some_iff.mp hxq).1
  have hj : j < q.tasks.length := (List.getElem?_eq_some_iff.mp hdq).1
  have hrun₁ := run_task perform q i xs ys hxq
  have hrun₂ := run_task perform ⟨xs.foldl perform q.shared, q.tasks.set i ys⟩ j ds []
    (by rw [List.append_nil, List.getElem?_set_ne hij, hdq])
  have hrun₃ := run_task perform ⟨ds.foldl perform (xs.foldl perform q.shared), (q.tasks.set i ys).set j []⟩
    i ys [] (by rw [List.append_nil, List.getElem?_set_ne hij.symm, List.getElem?_set_self hi])
  refine ⟨is ++ (List.replicate xs.length i ++ (List.replicate ds.length j ++ List.replicate ys.length i)),
    ⟨ys.foldl perform (ds.foldl perform (xs.foldl perform q.shared)), ((q.tasks.set i ys).set j []).set i []⟩,
    xs.foldl perform q.shared, ?_, ?_, rfl⟩
  · rw [Runs.run_append, hq, Option.bind_some, Runs.run_append, hrun₁, Option.bind_some, Runs.run_append, hrun₂,
      Option.bind_some]
    exact hrun₃
  · intro t ht
    obtain ⟨k, hk⟩ := List.mem_iff_getElem?.mp ht
    dsimp only at hk
    by_cases hki : k = i
    · rw [hki, List.getElem?_set_self (by simpa using hi)] at hk
      exact (Option.some.inj hk).symm
    rw [List.getElem?_set_ne (Ne.symm hki)] at hk
    by_cases hkj : k = j
    · rw [hkj, List.getElem?_set_self (by simpa using hj)] at hk
      exact (Option.some.inj hk).symm
    rw [List.getElem?_set_ne (Ne.symm hkj), List.getElem?_set_ne (Ne.symm hki)] at hk
    exact hdone k t (by simp [hki, hkj]) hk

end Tasks
end TuningMod

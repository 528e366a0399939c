/-
# Runs of a transition system

A transition system is a partial step function: `step s e` is the state after
event `e`, or `none` if `e` cannot happen in `s` (a timer that is not armed
does not expire, a producer does not enter a full buffer). A property of runs
reads the events so far next to the state, so that it can speak of the past.

Key definitions: `run`, `Always`, `Steps`.
Key theorems: `Steps.append_run`, `history_inv`, `always_of_steps`, `always_iff_steps`, `steps_iff_steps`,
`exists_change`, `rel_foldlM`.
-/
import Mathlib.Data.List.Induction

namespace TuningMod
namespace Runs

variable {σ ε : Type*} (step : σ → ε → Option σ)

/-- The state after the events `es`, if each of them can happen in turn. -/
def run (s : σ) : List ε → Option σ
  | [] => some s
  | e :: es => (step s e).bind fun t => run t es

@[simp] theorem run_nil (s : σ) : run step s [] = some s := rfl

theorem run_append (s : σ) (es fs : List ε) :
    run step s (es ++ fs) = (run step s es).bind fun t => run step t fs := by
  induction es generalizing s with
  | nil => rfl
  | cons e es ih =>
    simp only [List.cons_append, run]
    cases step s e with
    | none => rfl
    | some t => exact ih t

theorem run_snoc (s : σ) (es : List ε) (e : ε) :
    run step s (es ++ [e]) = (run step s es).bind fun t => step t e := by
  rw [run_append]
  congr 1
  funext t
  simp [run]

/-- A run that ends with `e` is a run to some state and a step from it. -/
theorem run_snoc_iff {s t' : σ} {es : List ε} {e : ε} :
    run step s (es ++ [e]) = some t' ↔ ∃ t, run step s es = some t ∧ step t e = some t' := by
  rw [run_snoc]
  exact Option.bind_eq_some_iff

/-- Every state the run of `es` from `s` goes through satisfies `Q`. -/
def Always (s : σ) (Q : List ε → σ → Prop) (es : List ε) : Prop :=
  ∀ pre suf t, es = pre ++ suf → run step s pre = some t → Q pre t

/-- Every step the run of `es` from `s` takes satisfies `C`. -/
def Steps (s : σ) (C : List ε → σ → ε → Prop) (es : List ε) : Prop :=
  ∀ pre e suf t t', es = pre ++ e :: suf → run step s pre = some t → step t e = some t' → C pre t e

variable {step}

theorem Always.last {s t : σ} {Q : List ε → σ → Prop} {es : List ε} (h : Always step s Q es)
    (hr : run step s es = some t) : Q es t :=
  h es [] t (List.append_nil es).symm hr

/-- What is found at the end of a run that can be evaluated is found in a state
that has the property. -/
theorem Always.exists_mem {α : Type*} {s : σ} {Q : List ε → σ → Prop} {es : List ε} {l : σ → List α} {p : α → Bool}
    (h : Always step s Q es) (hfound : (run step s es).any (fun t => (l t).any p) = true) :
    ∃ t, Q es t ∧ ∃ a ∈ l t, p a = true := by
  cases hr : run step s es with
  | none =>
    rw [hr] at hfound
    cases hfound
  | some t =>
    rw [hr, Option.any_some, List.any_eq_true] at hfound
    exact ⟨t, h.last hr, hfound⟩

theorem Always.imp {s : σ} {Q Q' : List ε → σ → Prop} {es : List ε} (h : Always step s Q es)
    (himp : ∀ pre t, run step s pre = some t → Q pre t → Q' pre t) : Always step s Q' es :=
  fun pre suf t he hr => himp pre t hr (h pre suf t he hr)

/-- Every step is taken from a state that satisfies `Q`. -/
theorem Always.steps {s : σ} {Q : List ε → σ → Prop} {es : List ε} (h : Always step s Q es) :
    Steps step s (fun pre t _ => Q pre t) es :=
  fun pre e suf t _ he hr _ => h pre (e :: suf) t he hr

theorem Steps.of_append {s : σ} {C : List ε → σ → ε → Prop} {es fs : List ε}
    (h : Steps step s C (es ++ fs)) : Steps step s C es := by
  intro pre e suf t t' he hr hs
  exact h pre e (suf ++ fs) t t' (by rw [he]; simp) hr hs

/-- A run keeps `C` when it is continued by events that meet `C` anywhere. -/
theorem Steps.append {s : σ} {C : List ε → σ → ε → Prop} {es fs : List ε} (h : Steps step s C es)
    (hf : ∀ e ∈ fs, ∀ pre t, C pre t e) : Steps step s C (es ++ fs) := by
  intro pre e suf t t' he hr hs
  rcases List.append_eq_append_iff.mp he with ⟨as, hpre, hfs⟩ | ⟨as, hes, has⟩
  · exact hf e (by rw [hfs]; simp) pre t
  · cases as with
    | nil => exact hf e (by rw [← List.nil_append fs, ← has]; simp) pre t
    | cons a as =>
      obtain ⟨rfl, hsuf⟩ := List.cons.inj has
      exact h pre e as t t' hes hr hs

theorem Steps.nil {s : σ} {C : List ε → σ → ε → Prop} : Steps step s C [] := by
  intro pre e suf t t' he
  simp at he

theorem steps_snoc_iff {s t t' : σ} {C : List ε → σ → ε → Prop} {es : List ε} {e : ε}
    (hr : run step s es = some t) (hs : step t e = some t') :
    Steps step s C (es ++ [e]) ↔ Steps step s C es ∧ C es t e := by
  refine ⟨fun h => ⟨h.of_append, h es e [] t t' rfl hr hs⟩, ?_⟩
  rintro ⟨h, hc⟩ pre f suf u u' he hu hu'
  rcases List.eq_nil_or_concat suf with rfl | ⟨suf, g, rfl⟩
  · obtain ⟨rfl, hef⟩ := List.append_inj' he rfl
    obtain rfl := (List.cons.inj hef).1
    obtain rfl : t = u := Option.some.inj (hr.symm.trans hu)
    exact hc
  · refine h pre f suf u u' ?_ hu hu'
    rw [List.concat_eq_append, ← List.cons_append, ← List.append_assoc] at he
    exact (List.append_inj' he rfl).1

section Now

/-! Conditions on a step that do not read the history. -/

variable {s t : σ} {C : σ → ε → Prop} {e : ε} {es fs : List ε}

theorem Steps.cons (h : C s e) (ht : ∀ t, step s e = some t → Steps step t (fun _ => C) es) :
    Steps step s (fun _ => C) (e :: es) := by
  intro pre f suf u u' he hr hs
  cases pre with
  | nil =>
    obtain ⟨rfl, -⟩ := List.cons.inj he
    cases hr
    exact h
  | cons a pre =>
    obtain ⟨rfl, he'⟩ := List.cons.inj he
    obtain ⟨t, hst, hrt⟩ := Option.bind_eq_some_iff.mp hr
    exact ht t hst pre f suf u u' he' hrt hs

/-- A run keeps `C` when the run from its end does. -/
theorem Steps.append_run (h : Steps step s (fun _ => C) es) (hr : run step s es = some t)
    (hf : Steps step t (fun _ => C) fs) : Steps step s (fun _ => C) (es ++ fs) := by
  induction es generalizing s with
  | nil =>
    cases hr
    exact hf
  | cons e es ih =>
    obtain ⟨s', hs, hr'⟩ := Option.bind_eq_some_iff.mp hr
    refine Steps.cons (h [] e es s s' rfl rfl hs) fun u hu => ?_
    obtain rfl : s' = u := Option.some.inj (hs.symm.trans hu)
    refine ih (fun pre f suf v v' he hv hv' => ?_) hr'
    refine h (e :: pre) f suf v v' (by rw [he]; rfl) ?_ hv'
    exact Option.bind_eq_some_iff.mpr ⟨s', hs, hv⟩

variable {Q : σ → Prop}

theorem Always.nil (h : Q s) : Always step s (fun _ => Q) [] := by
  intro pre suf t he hr
  obtain ⟨rfl, -⟩ := List.append_eq_nil_iff.mp he.symm
  cases hr
  exact h

theorem Always.cons (h : Q s) (ht : ∀ t, step s e = some t → Always step t (fun _ => Q) es) :
    Always step s (fun _ => Q) (e :: es) := by
  intro pre suf u he hr
  cases pre with
  | nil =>
    cases hr
    exact h
  | cons a pre =>
    obtain ⟨rfl, he'⟩ := List.cons.inj he
    obtain ⟨t, hst, hrt⟩ := Option.bind_eq_some_iff.mp hr
    exact ht t hst pre suf u he' hrt

end Now

/-- **Invariants with a history.** What holds at the start and is kept by
every step that a run takes holds wherever a run ends. -/
theorem history_inv {s : σ} {P : List ε → σ → Prop} (h0 : P [] s)
    (hs : ∀ pre t e t', run step s pre = some t → P pre t → step t e = some t' → P (pre ++ [e]) t') :
    ∀ {es : List ε} {t : σ}, run step s es = some t → P es t := by
  intro es
  induction es using List.reverseRecOn with
  | nil =>
    intro t hr
    cases hr
    exact h0
  | append_singleton es e ih =>
    intro t' hr
    obtain ⟨t, hrt, hst⟩ := (run_snoc_iff step).mp hr
    exact hs es t e t' hrt (ih hrt) hst

/-- An invariant that every step meeting `C` keeps holds along a run whose
steps all meet `C`. -/
theorem always_of_steps {s : σ} {I : List ε → σ → Prop} {C : List ε → σ → ε → Prop} (h0 : I [] s)
    (hs : ∀ pre t e t', run step s pre = some t → I pre t → C pre t e → step t e = some t' →
      I (pre ++ [e]) t') {es : List ε} (hC : Steps step s C es) : Always step s I es := by
  intro pre
  induction pre using List.reverseRecOn with
  | nil =>
    intro suf t _ hr
    cases hr
    exact h0
  | append_singleton pre e ih =>
    intro suf t' he hr
    obtain ⟨t, hrt, hst⟩ := (run_snoc_iff step).mp hr
    have he' : es = pre ++ e :: suf := by simpa using he
    exact hs pre t e t' hrt (ih (e :: suf) t he' hrt) (hC pre e suf t t' he' hrt hst) hst

/-- **Exactly which runs keep a property.** `I` is kept by the steps that meet
`C` and gives `Q`; a step that does not meet `C` loses `Q`. Then `Q` holds in
every state of a run if and only if every step of it meets `C`. -/
theorem always_iff_steps {s : σ} {I Q : List ε → σ → Prop} {C : List ε → σ → ε → Prop} (h0 : I [] s)
    (hs : ∀ pre t e t', run step s pre = some t → I pre t → C pre t e → step t e = some t' →
      I (pre ++ [e]) t')
    (hQ : ∀ pre t, run step s pre = some t → I pre t → Q pre t)
    (hbad : ∀ pre t e t', run step s pre = some t → I pre t → ¬ C pre t e → step t e = some t' →
      ¬ Q (pre ++ [e]) t')
    (es : List ε) : Always step s Q es ↔ Steps step s C es := by
  refine ⟨fun h => ?_, fun h => (always_of_steps h0 hs h).imp hQ⟩
  -- up to the first step that does not meet `C` the invariant holds, and that step would lose `Q`
  have hI : Always step s I es := by
    intro pre
    induction pre using List.reverseRecOn with
    | nil =>
      intro suf t _ hr
      cases hr
      exact h0
    | append_singleton pre e ih =>
      intro suf t' he hr
      obtain ⟨t, hrt, hst⟩ := (run_snoc_iff step).mp hr
      have hi := ih (e :: suf) t (by simpa using he) hrt
      refine hs pre t e t' hrt hi ?_ hst
      by_contra hc
      exact hbad pre t e t' hrt hi hc hst (h (pre ++ [e]) suf t' he hr)
  intro pre e suf t t' he hrt hst
  by_contra hc
  refine hbad pre t e t' hrt (hI pre (e :: suf) t he hrt) hc hst (h (pre ++ [e]) suf t' ?_ ?_)
  · simpa using he
  · exact (run_snoc_iff step).mpr ⟨t, hrt, hst⟩

/-- **Exactly which runs take steps with a property.** `I` is kept by the steps
that meet `C`, which then have the property `Q`; a step that does not meet `C`
does not have it. Then all steps have `Q` if and only if all meet `C`. -/
theorem steps_iff_steps {s : σ} {I : List ε → σ → Prop} {Q C : List ε → σ → ε → Prop} (h0 : I [] s)
    (hs : ∀ pre t e t', run step s pre = some t → I pre t → C pre t e → step t e = some t' → I (pre ++ [e]) t')
    (hQ : ∀ pre t e t', I pre t → C pre t e → step t e = some t' → Q pre t e)
    (hbad : ∀ pre t e t', I pre t → ¬ C pre t e → step t e = some t' → ¬ Q pre t e)
    (es : List ε) : Steps step s Q es ↔ Steps step s C es := by
  constructor
  · intro h
    -- up to the first step that does not meet `C` the invariant holds, and that step lacks `Q`
    have hI : Always step s I es := by
      intro pre
      induction pre using List.reverseRecOn with
      | nil =>
        intro suf t _ hr
        cases hr
        exact h0
      | append_singleton pre e ih =>
        intro suf t' he hr
        obtain ⟨t, hrt, hst⟩ := (run_snoc_iff step).mp hr
        have he' : es = pre ++ e :: suf := by simpa using he
        have hi := ih (e :: suf) t he' hrt
        refine hs pre t e t' hrt hi ?_ hst
        by_contra hc
        exact hbad pre t e t' hi hc hst (h pre e suf t t' he' hrt hst)
    intro pre e suf t t' he hrt hst
    by_contra hc
    exact hbad pre t e t' (hI pre (e :: suf) t he hrt) hc hst (h pre e suf t t' he hrt hst)
  · intro h pre e suf t t' he hrt hst
    have hi := always_of_steps h0 hs h pre (e :: suf) t he hrt
    exact hQ pre t e t' hi (h pre e suf t t' he hrt hst) hst

/-- What did not hold at the start of a run and holds at its end was brought
about by one of its steps. -/
theorem exists_change {P : σ → Prop} {s t : σ} {es : List ε} (hr : run step s es = some t)
    (h0 : ¬ P s) (h1 : P t) : ∃ pre e suf u u', es = pre ++ e :: suf ∧ run step s pre = some u ∧
      step u e = some u' ∧ ¬ P u ∧ P u' := by
  induction es generalizing s with
  | nil =>
    cases hr
    exact absurd h1 h0
  | cons e es ih =>
    obtain ⟨s', hs, hr'⟩ := Option.bind_eq_some_iff.mp hr
    by_cases hp : P s'
    · exact ⟨[], e, es, s, s', rfl, rfl, hs, h0, hp⟩
    · obtain ⟨pre, f, suf, u, u', rfl, hpre, hstep, hu, hu'⟩ := ih hr' hp
      refine ⟨e :: pre, f, suf, u, u', rfl, ?_, hstep, hu, hu'⟩
      exact Option.bind_eq_some_iff.mpr ⟨s', hs, hpre⟩

/-! ### Two programs side by side -/

section Simulation

variable {α β γ δ κ : Type*} {r : α → β → Prop} {r' : γ → δ → Prop}

theorem rel_bind {a : Option α} {b : Option β} {f : α → Option γ} {g : β → Option δ} (h : Option.Rel r a b)
    (hfg : ∀ x y, r x y → Option.Rel r' (f x) (g y)) : Option.Rel r' (a.bind f) (b.bind g) := by
  cases h with
  | none => exact .none
  | some h => exact hfg _ _ h

/-- A relation that each turn of two loops keeps holds at their ends, and one
of them has an outcome if the other has. -/
theorem rel_foldlM {f : α → κ → Option α} {g : β → κ → Option β} {l : List κ} {x : α} {y : β} (h : r x y)
    (hfg : ∀ k ∈ l, ∀ x y, r x y → Option.Rel r (f x k) (g y k)) : Option.Rel r (l.foldlM f x) (l.foldlM g y) := by
  induction l generalizing x y with
  | nil => exact .some h
  | cons k l ih =>
    rw [List.foldlM_cons, List.foldlM_cons]
    exact rel_bind (hfg k List.mem_cons_self x y h) fun u v huv => ih huv fun j hj => hfg j (List.mem_cons_of_mem k hj)

end Simulation

end Runs
end TuningMod

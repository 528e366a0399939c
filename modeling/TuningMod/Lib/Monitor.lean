/-
# Critical sections of one mutex

Frames (threads, or interrupt handlers on top of them) that do their work on
shared data in critical sections of one mutex: lock, test, wait on a condition
variable or do the work, signal, unlock. A frame that waits can wake up at any
time, as condition variables allow, and takes the mutex back before it tests
again. The mutex is not recursive.

Key definitions: `Place`, `Monitor`, `Monitor.enter`, `Monitor.advance`, `Monitor.Mutex`.
Key theorems: `advance_cases`, `Mutex.enter`, `Mutex.advance`, `owner_kept`, `data_kept`.
-/
import Mathlib.Logic.Function.Basic
import Mathlib.Tactic.TypeStar

namespace TuningMod

/-- Where a frame stands in its critical section. -/
inductive Place where
  | locking
  /-- At the test of the `while`. -/
  | holding
  | waiting
  /-- The work is done, the signal not yet given. -/
  | worked
  | signalled
  deriving DecidableEq

def Place.holds : Place → Bool
  | locking | waiting => false
  | holding | worked | signalled => true

structure Monitor (ι J σ : Type*) where
  owner : Option ι := none
  /-- The work of each frame that is in its critical section, and its place. -/
  frames : ι → Option (J × Place) := fun _ => none
  data : σ

namespace Monitor

variable {ι J σ : Type*} {m m' : Monitor ι J σ} {i k : ι}

/-! ### The owner -/

/-- Whether what a frame is at holds the mutex. -/
def holds : Option (J × Place) → Bool
  | none => false
  | some (_, p) => p.holds

/-- The owner is the one frame that stands where the mutex is held. -/
def Mutex (m : Monitor ι J σ) : Prop := ∀ i, m.owner = some i ↔ holds (m.frames i) = true

theorem Mutex.owns (h : Mutex m) {j : J} {p : Place} (hf : m.frames i = some (j, p)) (hp : p.holds = true) :
    m.owner = some i := by
  apply (h i).mpr
  rw [hf]
  exact hp

theorem Mutex.not_owns (h : Mutex m) {j : J} {p : Place} (hf : m.frames i = some (j, p)) (hp : p.holds = false) :
    m.owner ≠ some i := by
  intro ho
  have hi : holds (m.frames i) = true := (h i).mp ho
  rw [hf] at hi
  exact absurd (hi.symm.trans hp) (by decide)

variable [DecidableEq ι]

/-! ### Steps -/

def moveTo (m : Monitor ι J σ) (i : ι) (f : Option (J × Place)) : Monitor ι J σ :=
  { m with frames := Function.update m.frames i f }

def enter (m : Monitor ι J σ) (i : ι) (j : J) : Option (Monitor ι J σ) :=
  match m.frames i with
  | none => some (m.moveTo i (some (j, .locking)))
  | some _ => none

variable (work : J → σ → Option σ)

/-- The next step of frame `i`. Its work is `none` while it has to wait. -/
def advance (m : Monitor ι J σ) (i : ι) : Option (Monitor ι J σ) :=
  match m.frames i with
  | none => none
  | some (j, .locking) =>
    if m.owner.isNone then some { m.moveTo i (some (j, .holding)) with owner := some i } else none
  | some (j, .holding) =>
    match work j m.data with
    | none => some { m.moveTo i (some (j, .waiting)) with owner := none }
    | some d => some { m.moveTo i (some (j, .worked)) with data := d }
  | some (j, .waiting) => some (m.moveTo i (some (j, .locking)))
  | some (j, .worked) => some (m.moveTo i (some (j, .signalled)))
  | some (_, .signalled) => some { m.moveTo i none with owner := none }

/-- What a step of frame `i` can do. -/
inductive Advances (m m' : Monitor ι J σ) (i : ι) : Prop
  | lock (j) : m.frames i = some (j, .locking) → m.owner = none →
      m' = { m.moveTo i (some (j, .holding)) with owner := some i } → Advances m m' i
  | wait (j) : m.frames i = some (j, .holding) → work j m.data = none →
      m' = { m.moveTo i (some (j, .waiting)) with owner := none } → Advances m m' i
  | work (j d) : m.frames i = some (j, .holding) → work j m.data = some d →
      m' = { m.moveTo i (some (j, .worked)) with data := d } → Advances m m' i
  | wake (j) : m.frames i = some (j, .waiting) → m' = m.moveTo i (some (j, .locking)) → Advances m m' i
  | signal (j) : m.frames i = some (j, .worked) → m' = m.moveTo i (some (j, .signalled)) → Advances m m' i
  | unlock (j) : m.frames i = some (j, .signalled) → m' = { m.moveTo i none with owner := none } →
      Advances m m' i

variable {work}

theorem moveTo_frames_self {f : Option (J × Place)} : (m.moveTo i f).frames i = f := Function.update_self ..

theorem moveTo_frames_ne {f : Option (J × Place)} (h : k ≠ i) : (m.moveTo i f).frames k = m.frames k :=
  Function.update_of_ne h ..

theorem moveTo_moveTo {f g : Option (J × Place)} : (m.moveTo i f).moveTo i g = m.moveTo i g := by
  simp [moveTo]

theorem enter_eq_some {j : J} (h : m.enter i j = some m') :
    m.frames i = none ∧ m' = m.moveTo i (some (j, .locking)) := by
  unfold enter at h
  split at h
  · rename_i hf
    exact ⟨hf, (Option.some.inj h).symm⟩
  · cases h

theorem advance_cases (h : m.advance work i = some m') : Advances work m m' i := by
  unfold advance at h
  split at h
  · cases h
  · rename_i j hf
    obtain ⟨ho, h⟩ := Option.ite_none_right_eq_some.mp h
    exact .lock j hf (Option.isNone_iff_eq_none.mp ho) (Option.some.inj h).symm
  · rename_i j hf
    split at h
    · rename_i hw
      exact .wait j hf hw (Option.some.inj h).symm
    · rename_i d hw
      exact .work j d hf hw (Option.some.inj h).symm
  · rename_i j hf
    exact .wake j hf (Option.some.inj h).symm
  · rename_i j hf
    exact .signal j hf (Option.some.inj h).symm
  · rename_i j hf
    exact .unlock j hf (Option.some.inj h).symm

theorem advance_frames_ne (h : m.advance work i = some m') (hk : k ≠ i) : m'.frames k = m.frames k := by
  cases advance_cases h <;> subst m' <;> exact moveTo_frames_ne hk

/-- A frame keeps its work until it leaves the critical section. -/
theorem advance_frames_self (h : m.advance work i = some m') {j : J} {p : Place} (hf : m'.frames i = some (j, p)) :
    ∃ q, m.frames i = some (j, q) := by
  cases advance_cases h <;> subst m' <;> have hf := moveTo_frames_self.symm.trans hf <;> cases hf <;> exact ⟨_, ‹_›⟩

/-- A frame that stands in its critical section did so before the step. -/
theorem advance_frames (h : m.advance work i = some m') {j : J} {p : Place} (hf : m'.frames k = some (j, p)) :
    ∃ q, m.frames k = some (j, q) := by
  by_cases hk : k = i
  · subst hk
    exact advance_frames_self h hf
  · rw [advance_frames_ne h hk] at hf
    exact ⟨p, hf⟩

/-- After a frame has entered: it is this one, or it did before. -/
theorem enter_frames {j j' : J} {p : Place} (h : m.enter i j = some m') (hf : m'.frames k = some (j', p)) :
    (k = i ∧ j' = j) ∨ m.frames k = some (j', p) := by
  rw [(enter_eq_some h).2] at hf
  by_cases hk : k = i
  · subst hk
    rw [moveTo_frames_self] at hf
    exact .inl ⟨rfl, (Prod.mk.inj (Option.some.inj hf)).1.symm⟩
  · rw [moveTo_frames_ne hk] at hf
    exact .inr hf

theorem advance_owner (h : m.advance work i = some m') :
    m'.owner = m.owner ∨ m'.owner = none ∨ m'.owner = some i := by
  cases advance_cases h <;> subst m' <;> simp [moveTo]

/-! ### What keeps the mutex -/

/-- Only frame `i` has moved, and the mutex changed hands accordingly. -/
theorem Mutex.of_move {f : Option (J × Place)} (h : Mutex m) (hframes : m'.frames = Function.update m.frames i f)
    (hself : m'.owner = some i ↔ holds f = true)
    (hothers : ∀ k, k ≠ i → (m'.owner = some k ↔ m.owner = some k)) : Mutex m' := by
  intro k
  rw [hframes]
  by_cases hk : k = i
  · subst hk
    rw [Function.update_self]
    exact hself
  · rw [Function.update_of_ne hk, hothers k hk]
    exact h k

theorem Mutex.enter {j : J} (h : Mutex m) (hs : m.enter i j = some m') : Mutex m' := by
  obtain ⟨hf, rfl⟩ := enter_eq_some hs
  have hno : m.owner ≠ some i := fun ho => by
    have hi : holds (m.frames i) = true := (h i).mp ho
    rw [hf] at hi
    cases hi
  exact h.of_move rfl (iff_of_false hno (by simp [holds, Place.holds])) fun k _ => Iff.rfl

theorem Mutex.advance (h : Mutex m) (hs : m.advance work i = some m') : Mutex m' := by
  have hreleased : ∀ k, k ≠ i → m.owner = some i → ((none : Option ι) = some k ↔ m.owner = some k) := by
    intro k hk ho
    simp [ho, Ne.symm hk]
  cases advance_cases hs with
  | lock j hf ho hm =>
    subst m'
    refine h.of_move rfl (iff_of_true rfl rfl) fun k hk => ?_
    simp [ho, Ne.symm hk]
  | wait j hf hw hm =>
    subst m'
    refine h.of_move rfl (iff_of_false (by simp) (by simp [holds, Place.holds])) fun k hk => ?_
    exact hreleased k hk (h.owns hf rfl)
  | work j d hf hw hm =>
    subst m'
    exact h.of_move rfl (iff_of_true (h.owns hf rfl) rfl) fun k _ => Iff.rfl
  | wake j hf hm =>
    subst m'
    exact h.of_move rfl (iff_of_false (h.not_owns hf rfl) (by simp [holds, Place.holds])) fun k _ => Iff.rfl
  | signal j hf hm =>
    subst m'
    exact h.of_move rfl (iff_of_true (h.owns hf rfl) rfl) fun k _ => Iff.rfl
  | unlock j hf hm =>
    subst m'
    refine h.of_move rfl (iff_of_false (by simp) (by simp [holds])) fun k hk => ?_
    exact hreleased k hk (h.owns hf rfl)

/-- The owner keeps the mutex while others move. -/
theorem owner_kept (h : Mutex m) (hs : m.advance work i = some m') (ho : m.owner = some k) (hk : k ≠ i) :
    m'.owner = some k := by
  have hno : m.owner ≠ some i := fun hi => hk (Option.some.inj (ho.symm.trans hi))
  cases advance_cases hs with
  | lock j hf hn => exact absurd (ho.symm.trans hn) (by simp)
  | wait j hf => exact absurd (h.owns hf rfl) hno
  | work j d hf hw hm => rw [hm]; exact ho
  | wake j hf hm => rw [hm]; exact ho
  | signal j hf hm => rw [hm]; exact ho
  | unlock j hf => exact absurd (h.owns hf rfl) hno

/-- A frame whose work has to wait changes no data. -/
theorem data_kept (hs : m.advance work i = some m') (hw : ∀ j p, m.frames i = some (j, p) → work j m.data = none) :
    m'.data = m.data := by
  cases advance_cases hs with
  | work j d hf hd => exact absurd ((hw j _ hf).symm.trans hd) (by simp)
  | lock j hf ho hm => rw [hm]; rfl
  | wait j hf hn hm => rw [hm]; rfl
  | wake j hf hm => rw [hm]; rfl
  | signal j hf hm => rw [hm]; rfl
  | unlock j hf hm => rw [hm]; rfl

end Monitor
end TuningMod

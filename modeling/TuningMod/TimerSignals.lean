/-
# Timer signals and the mutex

The threads of a destination and the signals of its trigger timers, which the
kernel may deliver on any thread: the handler then runs on top of that thread,
and `SIGRTMIN` is blocked there until it returns. A handler that finds
`vCanStartEvaluationTimer` set locks `dtn_mutex` and waits on `empty`, as the
threads do. No handler ever waits where only its own thread could help it if,
and only if, none of those that send runs on the sender thread or on a thread
that holds the mutex.

When a thread enqueues is left open, and so is when the evaluation timer
expires.

Key definitions: `DtnThread`, `DtnThreads`, `DtnThreads.step`, `DtnThreads.Safe`, `DtnThreads.Hazard`.
Key theorems: `nested_run`, `elsewhere_step`, `caught_of_hazard`, `handlers_safe`, `stuck_run`.
-/
import TuningMod.Outbox
import TuningMod.Lib.Monitor

namespace TuningMod

inductive DtnThread where
  | fDoRunSendMessageToPeer
  | fDoRunBpfCollectionPerfEventArray2
  | fDoRunGetThresholds
  /-- A thread that enqueues nothing itself. -/
  | other (n : ℕ)
  deriving DecidableEq

/-- What a thread enqueues outside the handlers: `sample_func` runs on the
collection thread. -/
def DtnThread.enqueues : DtnThread → Produce → Bool
  | fDoRunBpfCollectionPerfEventArray2, .sendResetPacingMsg _ => true
  | fDoRunBpfCollectionPerfEventArray2, .startOfTraffic _ => true
  | fDoRunGetThresholds, .sendResetCleanUpPacingMsg _ => true
  | _, _ => false

/-- The two trigger timers. -/
def Produce.inHandler : Produce → Bool
  | qOCCHopTimerIDHandler _ | qOCCTimerIDHandler _ => true
  | _ => false

/-- A thread, or the handler that has interrupted it. -/
inductive Frame where
  | thread (t : DtnThread)
  | handler (t : DtnThread)
  deriving DecidableEq

def Frame.on : Frame → DtnThread
  | thread t | handler t => t

inductive OutboxWork where
  | take
  | produce (p : Produce)

def OutboxWork.run : OutboxWork → Outbox → Option Outbox
  | take, o => o.fDoRunSendMessageToPeerTake.map Prod.snd
  | produce p, o => p.run o

inductive HandlerStage where
  /-- Before the test of `vCanStartEvaluationTimer`. -/
  | entered (p : Produce)
  /-- From the lock to the return. -/
  | sending

structure DtnThreads where
  /-- `dtn_mutex`, the ring, and who is in a critical section. -/
  monitor : Monitor Frame OutboxWork Outbox := { data := Outbox.initial }
  /-- The handler on each thread. -/
  handler : DtnThread → Option HandlerStage := fun _ => none
  vCanStartEvaluationTimer : Bool := true

inductive SignalEvent where
  /-- The sender comes to `cli_again`. -/
  | take
  | enqueue (t : DtnThread) (p : Produce)
  /-- The next step of a thread in its critical section. -/
  | thread (t : DtnThread)
  /-- The signal of a trigger timer is delivered on `t`. -/
  | signal (t : DtnThread) (p : Produce)
  /-- The handler on `t` tests `vCanStartEvaluationTimer`. -/
  | test (t : DtnThread)
  /-- The next step of the handler on `t` in its critical section. -/
  | handler (t : DtnThread)
  /-- `fStartEvaluationTimer`; `timer_settime` succeeds or not. -/
  | startEvaluationTimer (t : DtnThread) (settime : Bool)
  /-- The evaluation timer expires, or the idle link disarms it. -/
  | canStart

namespace DtnThreads

/-! ### Steps -/

def step (d : DtnThreads) : SignalEvent → Option DtnThreads
  | .take =>
    if (d.handler .fDoRunSendMessageToPeer).isNone then
      (d.monitor.enter (.thread .fDoRunSendMessageToPeer) .take).map fun m => { d with monitor := m }
    else none
  | .enqueue t p =>
    if (d.handler t).isNone ∧ t.enqueues p then
      (d.monitor.enter (.thread t) (.produce p)).map fun m => { d with monitor := m }
    else none
  | .thread t =>
    if (d.handler t).isNone then
      (d.monitor.advance OutboxWork.run (.thread t)).map fun m => { d with monitor := m }
    else none
  | .signal t p =>
    if (d.handler t).isNone ∧ p.inHandler then
      some { d with handler := Function.update d.handler t (some (.entered p)) }
    else none
  | .test t =>
    match d.handler t with
    | some (.entered p) =>
      if d.vCanStartEvaluationTimer then
        (d.monitor.enter (.handler t) (.produce p)).map fun m =>
          { d with monitor := m, handler := Function.update d.handler t (some .sending) }
      else some { d with handler := Function.update d.handler t none }
    | _ => none
  | .handler t => (d.monitor.advance OutboxWork.run (.handler t)).map fun m => { d with monitor := m }
  | .startEvaluationTimer t settime =>
    match d.handler t, d.monitor.frames (.handler t) with
    | some .sending, none =>
      some { d with
        handler := Function.update d.handler t none
        vCanStartEvaluationTimer := if settime then false else d.vCanStartEvaluationTimer }
    | _, _ => none
  | .canStart => some { d with vCanStartEvaluationTimer := true }

/-- The thread holds `dtn_mutex`, itself or in the handler on top of it. -/
def Holds (d : DtnThreads) (t : DtnThread) : Prop := ∃ f, d.monitor.owner = some f ∧ f.on = t

/-- The handler on `t` waits for `dtn_mutex` or on `empty`. -/
def HandlerWaits (d : DtnThreads) (t : DtnThread) : Prop :=
  (∃ w, d.monitor.frames (.handler t) = some (w, .locking) ∧ d.monitor.owner ≠ none) ∨
    ∃ w, d.monitor.frames (.handler t) = some (w, .waiting)

/-- No handler waits on a thread that holds the mutex or on the one thread
that takes from the ring. -/
def Safe (d : DtnThreads) : Prop := ∀ t, d.HandlerWaits t → ¬ d.Holds t ∧ t ≠ .fDoRunSendMessageToPeer

/-- The handler on `t` goes on to send. -/
structure Sends (d : DtnThreads) (e : SignalEvent) (t : DtnThread) (p : Produce) : Prop where
  test : e = .test t
  entered : d.handler t = some (.entered p)
  canStart : d.vCanStartEvaluationTimer = true

/-- A handler goes on to send, on the sender thread or on a thread that holds
the mutex. -/
def Hazard (d : DtnThreads) (e : SignalEvent) : Prop :=
  ∃ t p, d.Sends e t p ∧ (t = .fDoRunSendMessageToPeer ∨ d.Holds t)

/-! ### What a step can do -/

inductive Moves (d d' : DtnThreads) (e : SignalEvent) : Prop
  | enter (t w) : d.monitor.enter (.thread t) w = some d'.monitor →
      (w = .take → t = .fDoRunSendMessageToPeer) → d'.handler = d.handler → Moves d d' e
  | thread (t) : d.handler t = none → d.monitor.advance OutboxWork.run (.thread t) = some d'.monitor →
      d'.handler = d.handler → Moves d d' e
  | handler (t) : d.monitor.advance OutboxWork.run (.handler t) = some d'.monitor → d'.handler = d.handler →
      Moves d d' e
  | send (t p) : d.Sends e t p → d.monitor.enter (.handler t) (.produce p) = some d'.monitor →
      d'.handler = Function.update d.handler t (some .sending) → Moves d d' e
  /-- A handler starts or returns. -/
  | stage (t s) : d.handler t ≠ some .sending ∨ d.monitor.frames (.handler t) = none →
      d'.monitor = d.monitor → d'.handler = Function.update d.handler t s → Moves d d' e
  | quiet : d'.monitor = d.monitor → d'.handler = d.handler → Moves d d' e

section Step

variable {d d' : DtnThreads} {e : SignalEvent}

theorem step_moves (h : d.step e = some d') : Moves d d' e := by
  cases e with
  | take =>
    obtain ⟨-, hs⟩ := Option.ite_none_right_eq_some.mp h
    obtain ⟨m, hm, rfl⟩ := Option.map_eq_some_iff.mp hs
    exact .enter _ _ hm (fun _ => rfl) rfl
  | enqueue t p =>
    obtain ⟨-, hs⟩ := Option.ite_none_right_eq_some.mp h
    obtain ⟨m, hm, rfl⟩ := Option.map_eq_some_iff.mp hs
    exact .enter _ _ hm (fun hw => by cases hw) rfl
  | thread t =>
    obtain ⟨ht, hs⟩ := Option.ite_none_right_eq_some.mp h
    obtain ⟨m, hm, rfl⟩ := Option.map_eq_some_iff.mp hs
    exact .thread t (Option.isNone_iff_eq_none.mp ht) hm rfl
  | signal t p =>
    obtain ⟨⟨ht, -⟩, hs⟩ := Option.ite_none_right_eq_some.mp h
    obtain rfl := Option.some.inj hs
    refine .stage t _ (Or.inl ?_) rfl rfl
    rw [Option.isNone_iff_eq_none.mp ht]
    simp
  | test t =>
    unfold step at h
    dsimp only at h
    split at h
    · rename_i p hp
      split at h
      · rename_i hcan
        obtain ⟨m, hm, rfl⟩ := Option.map_eq_some_iff.mp h
        exact .send t p ⟨rfl, hp, hcan⟩ hm rfl
      · obtain rfl := Option.some.inj h
        exact .stage t _ (Or.inl (by rw [hp]; simp)) rfl rfl
    · cases h
  | handler t =>
    obtain ⟨m, hm, rfl⟩ := Option.map_eq_some_iff.mp h
    exact .handler t hm rfl
  | startEvaluationTimer t settime =>
    unfold step at h
    dsimp only at h
    split at h
    · rename_i hf
      obtain rfl := Option.some.inj h
      exact .stage t _ (Or.inr hf) rfl rfl
    · cases h
  | canStart =>
    obtain rfl := Option.some.inj h
    exact .quiet rfl rfl

end Step

/-! ### Every run -/

/-- How the frames of a thread are nested. -/
structure Nested (d : DtnThreads) : Prop where
  mutex : d.monitor.Mutex
  sending : ∀ t, d.monitor.frames (.handler t) ≠ none → d.handler t = some .sending
  takes : ∀ t p, d.monitor.frames (.thread t) = some (.take, p) → t = .fDoRunSendMessageToPeer
  produces : ∀ t p, d.monitor.frames (.handler t) ≠ some (.take, p)

section Runs

variable {d d' : DtnThreads} {e : SignalEvent}

theorem nested_initial : Nested {} where
  mutex _ := iff_of_false (by simp) (by simp [Monitor.holds])
  sending _ h := absurd rfl h
  takes _ _ h := by cases h
  produces _ _ h := by cases h

/-- A frame is in its critical section if it was before the step, or it is the
one that has entered. -/
theorem Moves.frame (h : Moves d d' e) {f : Frame} {w : OutboxWork} {p : Place}
    (hf : d'.monitor.frames f = some (w, p)) : (∃ q, d.monitor.frames f = some (w, q)) ∨
      (∃ t, f = .thread t ∧ (w = .take → t = .fDoRunSendMessageToPeer)) ∨
      ∃ t q, f = .handler t ∧ w = .produce q ∧ d.Sends e t q ∧ d'.handler t = some .sending := by
  cases h with
  | enter t w' hm hw hh =>
    rcases Monitor.enter_frames hm hf with ⟨rfl, rfl⟩ | hbefore
    · exact Or.inr (Or.inl ⟨t, rfl, hw⟩)
    · exact Or.inl ⟨p, hbefore⟩
  | thread t ht hm hh => exact Or.inl (Monitor.advance_frames hm hf)
  | handler t hm hh => exact Or.inl (Monitor.advance_frames hm hf)
  | send t q hsends hm hh =>
    rcases Monitor.enter_frames hm hf with ⟨rfl, rfl⟩ | hbefore
    · exact Or.inr (Or.inr ⟨t, q, rfl, rfl, hsends, by rw [hh, Function.update_self]⟩)
    · exact Or.inl ⟨p, hbefore⟩
  | stage t s ht hm hh =>
    rw [hm] at hf
    exact Or.inl ⟨p, hf⟩
  | quiet hm hh =>
    rw [hm] at hf
    exact Or.inl ⟨p, hf⟩

/-- A handler in its critical section does not return. -/
theorem Moves.sending (h : Moves d d' e) {u : DtnThread} (hu : d.handler u = some .sending)
    (hf : d.monitor.frames (.handler u) ≠ none) : d'.handler u = some .sending := by
  cases h with
  | enter t w hm hw hh => rw [hh, hu]
  | thread t ht hm hh => rw [hh, hu]
  | handler t hm hh => rw [hh, hu]
  | send t q hsends hm hh =>
    rw [hh, Function.update_apply]
    split
    · rfl
    · exact hu
  | stage t s ht hm hh =>
    have hut : u ≠ t := by
      rintro rfl
      exact ht.elim (fun hne => hne hu) hf
    rw [hh, Function.update_of_ne hut, hu]
  | quiet hm hh => rw [hh, hu]

theorem Moves.mutex (h : Moves d d' e) (hm : d.monitor.Mutex) : d'.monitor.Mutex := by
  cases h with
  | enter _ _ hs => exact hm.enter hs
  | thread _ _ hs => exact hm.advance hs
  | handler _ hs => exact hm.advance hs
  | send _ _ _ hs => exact hm.enter hs
  | stage _ _ _ hs =>
    rw [hs]
    exact hm
  | quiet hs =>
    rw [hs]
    exact hm

theorem nested_step (h : Nested d) (hs : d.step e = some d') : Nested d' := by
  have hmoves : Moves d d' e := step_moves hs
  refine ⟨hmoves.mutex h.mutex, fun u hu => ?_, fun u p hu => ?_, fun u p hu => ?_⟩
  · obtain ⟨⟨w, p⟩, hf⟩ := Option.ne_none_iff_exists'.mp hu
    rcases hmoves.frame hf with ⟨q, hq⟩ | ⟨t, ht, -⟩ | ⟨t, q, ht, -, -, hsend⟩
    · have hne : d.monitor.frames (.handler u) ≠ none := by simp [hq]
      exact hmoves.sending (h.sending u hne) hne
    · cases ht
    · cases ht
      exact hsend
  · rcases hmoves.frame hu with ⟨q, hq⟩ | ⟨t, ht, hw⟩ | ⟨t, q, ht, -⟩
    · exact h.takes u q hq
    · cases ht
      exact hw rfl
    · cases ht
  · rcases hmoves.frame hu with ⟨q, hq⟩ | ⟨t, ht, -⟩ | ⟨t, q, -, hw, -⟩
    · exact h.produces u q hq
    · cases ht
    · cases hw

theorem nested_run {es : List SignalEvent} (hr : Runs.run step {} es = some d) : Nested d :=
  Runs.history_inv (P := fun _ d => Nested d) nested_initial (fun _ _ _ _ _ hp hs => nested_step hp hs) hr

/-! ### Runs without a hazard -/

/-- Handlers send elsewhere than on the sender thread and on threads that hold
the mutex themselves. -/
def Elsewhere (d : DtnThreads) : Prop := ∀ t, d.monitor.frames (.handler t) ≠ none →
  t ≠ .fDoRunSendMessageToPeer ∧ d.monitor.owner ≠ some (.thread t)

/-- A thread takes the mutex only while it is not interrupted. -/
theorem Moves.owner (h : Moves d d' e) {u : DtnThread} (ho : d'.monitor.owner = some (.thread u)) :
    d.monitor.owner = some (.thread u) ∨ d.handler u = none := by
  have hadvance : ∀ {f : Frame}, d.monitor.advance OutboxWork.run f = some d'.monitor →
      d.monitor.owner = some (.thread u) ∨ f = .thread u := by
    intro f hm
    rcases Monitor.advance_owner hm with hm | hm | hm
    · exact Or.inl (hm.symm.trans ho)
    · exact absurd (hm.symm.trans ho) (by simp)
    · exact Or.inr (Option.some.inj (hm.symm.trans ho))
  cases h with
  | enter t w hm =>
    rw [(Monitor.enter_eq_some hm).2] at ho
    exact Or.inl ho
  | thread t ht hm =>
    refine (hadvance hm).imp_right fun hf => ?_
    cases hf
    exact ht
  | handler t hm => exact Or.inl ((hadvance hm).resolve_right (by simp))
  | send t q hsends hm =>
    rw [(Monitor.enter_eq_some hm).2] at ho
    exact Or.inl ho
  | stage t s ht hm =>
    rw [hm] at ho
    exact Or.inl ho
  | quiet hm =>
    rw [hm] at ho
    exact Or.inl ho

theorem elsewhere_step (hn : Nested d) (h : Elsewhere d) (hno : ¬ d.Hazard e) (hs : d.step e = some d') :
    Elsewhere d' := by
  intro u hu
  have hmoves : Moves d d' e := step_moves hs
  obtain ⟨⟨w, p⟩, hf⟩ := Option.ne_none_iff_exists'.mp hu
  rcases hmoves.frame hf with ⟨q, hq⟩ | ⟨t, ht, -⟩ | ⟨t, q, ht, -, hsends, -⟩
  · have hne : d.monitor.frames (.handler u) ≠ none := by simp [hq]
    refine ⟨(h u hne).1, fun ho => ?_⟩
    rcases hmoves.owner ho with ho | hnone
    · exact (h u hne).2 ho
    · exact absurd ((hn.sending u hne).symm.trans hnone) (by simp)
  · cases ht
  · cases ht
    refine ⟨fun hsender => hno ⟨u, q, hsends, Or.inl hsender⟩, fun ho => ?_⟩
    rcases hmoves.owner ho with ho | hnone
    · exact hno ⟨u, q, hsends, Or.inr ⟨_, ho, rfl⟩⟩
    · exact absurd (hsends.entered.symm.trans hnone) (by simp)

theorem Elsewhere.safe (hn : Nested d) (h : Elsewhere d) : d.Safe := by
  intro t hwaits
  have hframe : ∃ w p, d.monitor.frames (.handler t) = some (w, p) ∧ p.holds = false := by
    rcases hwaits with ⟨w, hw, -⟩ | ⟨w, hw⟩
    · exact ⟨w, _, hw, rfl⟩
    · exact ⟨w, _, hw, rfl⟩
  obtain ⟨w, p, hf, hp⟩ := hframe
  obtain ⟨hsender, howner⟩ := h t (by simp [hf])
  refine ⟨?_, hsender⟩
  rintro ⟨f, ho, rfl⟩
  cases f with
  | thread t => exact howner ho
  | handler t => exact hn.mutex.not_owns hf hp ho

end Runs

/-! ### What a hazard can come to -/

section Hazards

variable {d d' : DtnThreads} {e : SignalEvent}

/-- Some thread has no handler, and so have all later ones. -/
theorem fresh_run {es : List SignalEvent} (hr : Runs.run step {} es = some d) :
    ∃ N, ∀ n, N ≤ n → d.handler (.other n) = none := by
  refine Runs.history_inv (P := fun _ (d : DtnThreads) => ∃ N, ∀ n, N ≤ n → d.handler (.other n) = none)
    ⟨0, fun _ _ => rfl⟩ (fun _ d e d' _ hp hs => ?_) hr
  obtain ⟨N, hN⟩ := hp
  have hupdate : ∀ t s, d'.handler = Function.update d.handler t s →
      ∃ N, ∀ n, N ≤ n → d'.handler (.other n) = none := by
    intro t s hh
    have hbound : ∃ k, ∀ n, k ≤ n → DtnThread.other n ≠ t := by
      cases t with
      | other k => exact ⟨k + 1, fun n hn => by simp; omega⟩
      | _ => exact ⟨0, fun n _ => by simp⟩
    obtain ⟨k, hk⟩ := hbound
    refine ⟨max N k, fun n hn => ?_⟩
    rw [hh, Function.update_of_ne (hk n (by omega))]
    exact hN n (by omega)
  cases step_moves hs with
  | enter _ _ _ _ hh => exact ⟨N, by rw [hh]; exact hN⟩
  | thread _ _ _ hh => exact ⟨N, by rw [hh]; exact hN⟩
  | handler _ _ hh => exact ⟨N, by rw [hh]; exact hN⟩
  | send t _ _ _ hh => exact hupdate t _ hh
  | stage t s _ _ hh => exact hupdate t s hh
  | quiet _ hh => exact ⟨N, by rw [hh]; exact hN⟩

theorem step_sends {t : DtnThread} {p : Produce} (h : d.Sends e t p) (hs : d.step e = some d') :
    d' = { d with
      monitor := d.monitor.moveTo (.handler t) (some (.produce p, .locking))
      handler := Function.update d.handler t (some .sending) } := by
  obtain ⟨rfl, ht, hcan⟩ := h
  simp only [step, ht, hcan, if_true] at hs
  obtain ⟨m, hm, rfl⟩ := Option.map_eq_some_iff.mp hs
  rw [(Monitor.enter_eq_some hm).2, hcan]

/-- `d` once a handler has come to `t` and locked the mutex. -/
def locked (d : DtnThreads) (t : DtnThread) (p : Produce) : DtnThreads :=
  { d with
    monitor := { d.monitor.moveTo (.handler t) (some (.produce p, .holding)) with owner := some (.handler t) }
    handler := Function.update d.handler t (some .sending) }

theorem run_locked {t : DtnThread} {p : Produce} (hn : Nested d) (ht : d.handler t = none) (hp : p.inHandler = true)
    (hcan : d.vCanStartEvaluationTimer = true) (hfree : d.monitor.owner = none) :
    Runs.run step d [.signal t p, .test t, .handler t] = some (d.locked t p) := by
  have hframe : d.monitor.frames (.handler t) = none := by
    by_contra hne
    exact absurd ((hn.sending t hne).symm.trans ht) (by simp)
  have howner : (d.monitor.moveTo (.handler t) (some (.produce p, .locking))).owner = none := hfree
  simp [Runs.run, step, ht, hp, hcan, Monitor.enter, hframe, Monitor.advance, Monitor.moveTo_frames_self, howner,
    Monitor.moveTo_moveTo, locked]

theorem steps_locked {t : DtnThread} {p : Produce} (ht : t ≠ .fDoRunSendMessageToPeer)
    (hfree : d.monitor.owner = none) :
    Runs.Steps step d (fun _ d e => ¬ d.Hazard e) [.signal t p, .test t, .handler t] := by
  have hquiet : ∀ {d : DtnThreads} {e}, (∀ u, e ≠ .test u) → ¬ d.Hazard e := by
    rintro d e he ⟨u, q, hsends, -⟩
    exact he u hsends.test
  refine Runs.Steps.cons (hquiet (by simp)) fun u hu => ?_
  obtain ⟨-, hs⟩ := Option.ite_none_right_eq_some.mp hu
  obtain rfl := Option.some.inj hs
  refine Runs.Steps.cons ?_ fun v _ => Runs.Steps.cons (hquiet (by simp)) fun _ _ => Runs.Steps.nil
  rintro ⟨v, q, hsends, hwhere⟩
  obtain rfl : t = v := SignalEvent.test.inj hsends.test
  rcases hwhere with hwhere | ⟨f, hf, -⟩
  · exact ht hwhere
  · exact absurd (hf.symm.trans hfree) (by simp)

/-- **What a hazard can come to**: the handler waits on the thread that holds
the mutex, or on the sender thread while another handler holds it. -/
theorem caught_of_hazard (hn : Nested d) (hfresh : ∃ N, ∀ n, N ≤ n → d.handler (.other n) = none)
    (hz : d.Hazard e) (hs : d.step e = some d') : ∃ acts v, Runs.Steps step d' (fun _ d e => ¬ d.Hazard e) acts ∧
      Runs.run step d' acts = some v ∧ ¬ v.Safe := by
  obtain ⟨t, p, hsends, hwhere⟩ := hz
  have hn' : Nested d' := nested_step hn hs
  have hd' := step_sends hsends hs
  have hframe : d'.monitor.frames (.handler t) = some (.produce p, .locking) := by
    rw [hd']
    exact Monitor.moveTo_frames_self
  have howner : d'.monitor.owner = d.monitor.owner := by
    rw [hd']
    rfl
  by_cases hfree : d.monitor.owner = none
  · -- nobody holds the mutex, so the handler is on the sender thread
    obtain rfl : t = .fDoRunSendMessageToPeer := by
      refine hwhere.resolve_right ?_
      rintro ⟨f, hf, -⟩
      rw [hfree] at hf
      cases hf
    obtain ⟨N, hN⟩ := hfresh
    have hne : DtnThread.other N ≠ .fDoRunSendMessageToPeer := by simp
    have hother : d'.handler (.other N) = none := by
      rw [hd']
      exact (Function.update_of_ne hne (some .sending) d.handler).trans (hN N (Nat.le_refl N))
    have hcan : d'.vCanStartEvaluationTimer = true := by
      rw [hd']
      exact hsends.canStart
    refine ⟨_, d'.locked (.other N) (.qOCCTimerIDHandler {}), steps_locked hne (howner.trans hfree),
      run_locked hn' hother rfl hcan (howner.trans hfree), fun hsafe => ?_⟩
    refine (hsafe .fDoRunSendMessageToPeer (Or.inl ⟨.produce p, ?_, by simp [locked]⟩)).2 rfl
    simp [locked, Monitor.moveTo, hframe]
  · refine ⟨[], d', fun pre f suf _ _ hacts => by simp at hacts, rfl, fun hsafe => ?_⟩
    obtain ⟨hholds, hsender⟩ := hsafe t (Or.inl ⟨_, hframe, by rw [howner]; exact hfree⟩)
    rcases hwhere with hwhere | ⟨f, hf, hon⟩
    · exact hsender hwhere
    · exact hholds ⟨f, howner.trans hf, hon⟩

end Hazards

/-! ### Waiting for ever -/

/-- The handler on `t` waits where only its own thread could help it: for the
mutex that the thread holds, or, on the sender thread, for a full ring. -/
inductive Stuck (d : DtnThreads) (t : DtnThread) : Prop
  | onSelf (w) : d.monitor.frames (.handler t) = some (w, .locking) → d.monitor.owner = some (.thread t) → Stuck d t
  | onFull (p q) : t = .fDoRunSendMessageToPeer → d.monitor.frames (.handler t) = some (.produce p, q) →
      q = .locking ∨ q = .holding ∨ q = .waiting → d.monitor.data.full = true → Stuck d t

section Stuck

variable {d d' : DtnThreads} {e : SignalEvent} {t : DtnThread}

theorem run_of_full {p : Produce} {o : Outbox} (h : o.full = true) : p.run o = none := by
  cases hp : p.run o with
  | none => rfl
  | some o' => exact absurd ((Outbox.full_iff o).mp h) (Outbox.produce_eq hp).1

theorem Stuck.of_frame (h : Stuck d t) (hf : d'.monitor.frames (.handler t) = d.monitor.frames (.handler t))
    (howner : d.monitor.owner = some (.thread t) → d'.monitor.owner = some (.thread t))
    (hdata : t = .fDoRunSendMessageToPeer → d.monitor.data.full = true → d'.monitor.data = d.monitor.data) :
    Stuck d' t := by
  cases h with
  | onSelf w hw ho => exact .onSelf w (hf.trans hw) (howner ho)
  | onFull p q ht hq hplace hfull => exact .onFull p q ht (hf.trans hq) hplace (by rw [hdata ht hfull, hfull])

/-- On a full ring the handler comes back to its wait. -/
theorem Stuck.advance (h : Stuck d t) (hm : d.monitor.advance OutboxWork.run (.handler t) = some d'.monitor) :
    Stuck d' t := by
  cases h with
  | onSelf w hw ho => simp [Monitor.advance, hw, ho] at hm
  | onFull p q ht hq hplace hfull =>
    have hdata : d'.monitor.data = d.monitor.data := by
      refine Monitor.data_kept hm fun j r hj => ?_
      obtain ⟨rfl, -⟩ := Prod.mk.inj (Option.some.inj (hq.symm.trans hj))
      exact run_of_full hfull
    have hfull' : d'.monitor.data.full = true := by rw [hdata, hfull]
    have hsame : ∀ {w r}, d.monitor.frames (.handler t) = some (w, r) → w = .produce p ∧ r = q := by
      intro w r hr
      exact Prod.mk.inj (Option.some.inj (hr.symm.trans hq))
    cases Monitor.advance_cases hm with
    | lock j hj _ hm' =>
      obtain ⟨rfl, rfl⟩ := hsame hj
      exact .onFull p .holding ht (by rw [hm']; exact Monitor.moveTo_frames_self) (by simp) hfull'
    | wait j hj _ hm' =>
      obtain ⟨rfl, rfl⟩ := hsame hj
      exact .onFull p .waiting ht (by rw [hm']; exact Monitor.moveTo_frames_self) (by simp) hfull'
    | work j o hj hw _ =>
      obtain ⟨rfl, -⟩ := hsame hj
      exact absurd (hw.symm.trans (run_of_full hfull)) (by simp)
    | wake j hj hm' =>
      obtain ⟨rfl, rfl⟩ := hsame hj
      exact .onFull p .locking ht (by rw [hm']; exact Monitor.moveTo_frames_self) (by simp) hfull'
    | signal j hj _ =>
      obtain ⟨-, rfl⟩ := hsame hj
      simp at hplace
    | unlock j hj _ =>
      obtain ⟨-, rfl⟩ := hsame hj
      simp at hplace

theorem stuck_step (hn : Nested d) (h : Stuck d t) (hs : d.step e = some d') : Stuck d' t := by
  have hframe : d.monitor.frames (.handler t) ≠ none := by
    cases h with
    | onSelf w hw => simp [hw]
    | onFull p q _ hq => simp [hq]
  have hsending : d.handler t = some .sending := hn.sending t hframe
  cases step_moves hs with
  | enter u w hm =>
    have hm' := (Monitor.enter_eq_some hm).2
    exact h.of_frame (by rw [hm', Monitor.moveTo_frames_ne (by simp)]) (fun ho => by rw [hm']; exact ho)
      fun _ _ => by rw [hm']; rfl
  | thread u hu hm =>
    have hut : u ≠ t := by
      rintro rfl
      rw [hsending] at hu
      cases hu
    refine h.of_frame (Monitor.advance_frames_ne hm (by simp)) (fun ho => ?_) fun ht hfull => ?_
    · exact Monitor.owner_kept hn.mutex hm ho (by simpa using hut.symm)
    · refine Monitor.data_kept hm fun w q hw => ?_
      cases w with
      | take => exact absurd ((hn.takes u q hw).trans ht.symm) hut
      | produce p => exact run_of_full hfull
  | handler u hm =>
    by_cases hut : u = t
    · subst hut
      exact h.advance hm
    refine h.of_frame (Monitor.advance_frames_ne hm (by simpa using Ne.symm hut)) (fun ho => ?_) fun _ hfull => ?_
    · exact Monitor.owner_kept hn.mutex hm ho (by simp)
    · refine Monitor.data_kept hm fun w q hw => ?_
      cases w with
      | take => exact absurd hw (hn.produces u q)
      | produce p => exact run_of_full hfull
  | send u p _ hm =>
    obtain ⟨hnone, hm'⟩ := Monitor.enter_eq_some hm
    have hut : t ≠ u := by
      rintro rfl
      exact hframe hnone
    exact h.of_frame (by rw [hm', Monitor.moveTo_frames_ne (by simpa using hut)]) (fun ho => by rw [hm']; exact ho)
      fun _ _ => by rw [hm']; rfl
  | stage u s _ hm => exact h.of_frame (by rw [hm]) (fun ho => by rw [hm, ho]) fun _ _ => by rw [hm]
  | quiet hm => exact h.of_frame (by rw [hm]) (fun ho => by rw [hm, ho]) fun _ _ => by rw [hm]

/-- **A stuck handler waits for ever.** -/
theorem stuck_run {es : List SignalEvent} (hn : Nested d) (h : Stuck d t) (hr : Runs.run step d es = some d') :
    Stuck d' t :=
  (Runs.history_inv (P := fun _ d => Nested d ∧ Stuck d t) ⟨hn, h⟩
    (fun _ _ _ _ _ hp hs => ⟨nested_step hp.1 hs, stuck_step hp.1 hp.2 hs⟩) hr).2

end Stuck

/-- **Handlers are safe** in a run, however it goes on without a hazard, exactly
if none of its steps is a hazard. -/
theorem handlers_safe (es : List SignalEvent) :
    (∀ pre suf acts d, es = pre ++ suf → Runs.run step {} pre = some d →
        Runs.Steps step d (fun _ d e => ¬ d.Hazard e) acts → Runs.Always step {} (fun _ => Safe) (pre ++ acts)) ↔
      Runs.Steps step {} (fun _ d e => ¬ d.Hazard e) es := by
  constructor
  · intro h pre e suf d d' hes hr hs hz
    have hr' : Runs.run step {} (pre ++ [e]) = some d' := (Runs.run_snoc_iff step).mpr ⟨d, hr, hs⟩
    obtain ⟨acts, v, hacts, hv, hbad⟩ := caught_of_hazard (nested_run hr) (fresh_run hr) hz hs
    refine hbad ((h (pre ++ [e]) suf acts d' (by simp [hes]) hr' hacts).last ?_)
    rw [Runs.run_append, hr', Option.bind_some, hv]
  · rintro h pre suf acts d rfl hr hacts
    have hsteps : Runs.Steps step {} (fun _ d e => ¬ d.Hazard e) (pre ++ acts) := h.of_append.append_run hr hacts
    have hinv : Runs.Always step {} (fun _ d => Nested d ∧ Elsewhere d) (pre ++ acts) :=
      Runs.always_of_steps ⟨nested_initial, fun _ hu => absurd rfl hu⟩
        (fun _ _ _ _ _ hi hno hs => ⟨nested_step hi.1 hs, elsewhere_step hi.1 hi.2 hno hs⟩) hsteps
    exact hinv.imp fun _ _ _ hi => hi.2.safe hi.1

/-- The sender has locked the mutex when the trigger timer's signal is
delivered on it. -/
def signalOnSender : List SignalEvent :=
  [.take, .thread .fDoRunSendMessageToPeer, .signal .fDoRunSendMessageToPeer (.qOCCTimerIDHandler {}),
    .test .fDoRunSendMessageToPeer]

theorem signalOnSender_unsafe : ¬ Runs.Always step {} (fun _ => Safe) signalOnSender := by
  intro h
  have hrun : ∃ d w, Runs.run step {} signalOnSender = some d ∧
      d.monitor.frames (.handler .fDoRunSendMessageToPeer) = some (w, .locking) ∧
      d.monitor.owner = some (.thread .fDoRunSendMessageToPeer) := ⟨_, _, rfl, rfl, rfl⟩
  obtain ⟨d, w, hd, hframe, howner⟩ := hrun
  exact (h.last hd .fDoRunSendMessageToPeer (Or.inl ⟨w, hframe, by simp [howner]⟩)).2 rfl

end DtnThreads
end TuningMod

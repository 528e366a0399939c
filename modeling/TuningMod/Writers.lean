/-
# The writers of the pacing record

The daemon's idle reset and the child processes that handle messages read and
write the record and run `tc` without a lock between them. The atomic steps are
a handler's read of the record and each of its later calls: a handler in
progress is a task, the list of the calls it still has to make.

While nothing is in progress the record's `set` should be non-zero exactly if
the module's `fq` is installed. It is, however the calls of the handlers
interleave, exactly if no handler that will give pacing up reads the record
while another is about to record pacing, and the other way around. The
condition is on the reads, where the two can be kept apart.

Key definitions: `WriterEvent`, `Writers.step`, `Writers.Agrees`, `Writers.Overlaps`, `Writers.Inv`.
Key theorems: `starts_of_reads`, `inv_act`, `inv_read`, `disagree_of_both`, `writers_agree`.
-/
import TuningMod.RootQdisc
import TuningMod.Lib.Tasks

namespace TuningMod

open Tasks

inductive WriterEvent where
  /-- The daemon finds the link idle and reads the record. -/
  | idle
  /-- A child process reads the record for its message. -/
  | message (m : PacingMsg)
  /-- Handler `i` makes its next `shm_write` or `system` call. -/
  | act (i : ℕ)

/-- The host, and what the handlers have left to do; the first is the daemon's. -/
abbrev Writers := Pool SourceDtn Action

namespace Writers

/-- Tuning mode, nothing in progress. -/
def initial : Writers := { shared := { gTuningMode := true }, tasks := [[]] }

/-- What a handler is going to do that reads the record now. -/
def reads (w : Writers) : WriterEvent → List Action
  | .idle => idleReset w.shared.gTuningMode w.shared.shm
  | .message m => m.acts w.shared.gTuningMode w.shared.shm
  | .act _ => []

def step (w : Writers) : WriterEvent → Option Writers
  | .idle =>
    if w.tasks[0]? = some [] then some { w with tasks := w.tasks.set 0 (w.reads .idle) } else none
  | .message m => some { w with tasks := w.tasks ++ [w.reads (.message m)] }
  | .act i => Tasks.act SourceDtn.perform w i

/-- With no handler in progress, the record says whether the `fq` is installed. -/
def Agrees (w : Writers) : Prop := w.Quiet → (w.shared.shm.set ≠ 0 ↔ w.shared.installed = true)

/-! ### What a handler has left -/

/-- The handler will record pacing. -/
def Sets (t : List Action) : Prop := ∃ r, .shmWrite r ∈ t ∧ r.set ≠ 0

/-- The handler will delete the root qdisc. -/
def Deletes (t : List Action) : Prop := .system (.tc .del) ∈ t

/-- The handler will install the `fq`. -/
def Adds (t : List Action) : Prop := ∃ rate, .system (.tc (.delAddMaxrate rate)) ∈ t

/-- A handler reads the record that will record pacing while another will
delete the root qdisc, or the other way around. -/
def Overlaps (w : Writers) (e : WriterEvent) : Prop :=
  ∃ t ∈ w.tasks, Sets t ∧ Deletes (w.reads e) ∨ Deletes t ∧ Sets (w.reads e)

/-- What a handler does, by the record it read. -/
inductive Starts (r : SResetPacingBack) : List Action → Prop
  | nothing : Starts r []
  | setUp {rate r'} : r'.set ≠ 0 → Starts r [.system (.tc (.delAddMaxrate rate)), .shmWrite r']
  | change {c r'} : r.set ≠ 0 → r'.set ≠ 0 → c.isChange = true → Starts r [.system (.tc c), .shmWrite r']
  | reset {r'} : r.set ≠ 0 → r'.set ≠ 0 → Starts r [.shmWrite r', .system (.tc .changeNopacing)]
  | giveUp {r'} : r'.set = 0 → Starts r [.shmWrite r', .system (.tc .del)]

/-- What a handler can have left. -/
inductive Left : List Action → Prop
  | starts {r t} : Starts r t → Left t
  | record {r} : r.set ≠ 0 → Left [.shmWrite r]
  | nopacing : Left [.system (.tc .changeNopacing)]
  | del : Left [.system (.tc .del)]

@[simp] theorem sets_nil : ¬ Sets [] := by simp [Sets]
@[simp] theorem deletes_nil : ¬ Deletes [] := by simp [Deletes]
@[simp] theorem adds_nil : ¬ Adds [] := by simp [Adds]

@[simp] theorem sets_system {c : Cmd} {t : List Action} : Sets (.system c :: t) ↔ Sets t := by simp [Sets]

@[simp] theorem sets_shmWrite {r : SResetPacingBack} {t : List Action} :
    Sets (.shmWrite r :: t) ↔ r.set ≠ 0 ∨ Sets t := by
  simp [Sets, or_and_right, exists_or]

@[simp] theorem deletes_shmWrite {r : SResetPacingBack} {t : List Action} :
    Deletes (.shmWrite r :: t) ↔ Deletes t := by simp [Deletes]

@[simp] theorem deletes_tc {c : TcCmd} {t : List Action} :
    Deletes (.system (.tc c) :: t) ↔ c = .del ∨ Deletes t := by simp [Deletes, eq_comm]

@[simp] theorem adds_shmWrite {r : SResetPacingBack} {t : List Action} :
    Adds (.shmWrite r :: t) ↔ Adds t := by simp [Adds]

@[simp] theorem adds_tc {c : TcCmd} {t : List Action} :
    Adds (.system (.tc c) :: t) ↔ (∃ rate, c = .delAddMaxrate rate) ∨ Adds t := by
  simp [Adds, exists_or, eq_comm]

theorem sets_tail {a : Action} {t : List Action} (h : Sets t) : Sets (a :: t) := by
  obtain ⟨r, hr, h0⟩ := h
  exact ⟨r, List.mem_cons_of_mem _ hr, h0⟩

theorem deletes_tail {a : Action} {t : List Action} (h : Deletes t) : Deletes (a :: t) :=
  List.mem_cons_of_mem _ h

theorem Left.tail {a : Action} {t : List Action} (h : Left (a :: t)) : Left t := by
  cases h with
  | starts hs =>
    cases hs with
    | setUp h0 => exact .record h0
    | change _ h0 _ => exact .record h0
    | reset => exact .nopacing
    | giveUp => exact .del
  | record => exact .starts (r := {}) .nothing
  | nopacing => exact .starts (r := {}) .nothing
  | del => exact .starts (r := {}) .nothing

/-- A handler that has started does what `Starts` says. -/
theorem starts_of_qinfo {r : SResetPacingBack} {env : PacingEnv} {hopDelay destIpAddr : UInt32} :
    Starts r (fDoQinfoAssessment2 true r env hopDelay destIpAddr) := by
  rcases @qinfo_cases true r env destIpAddr hopDelay with hnil | ⟨-, -, c, vPacingFlag, v, hp, hacts⟩
  · rw [hnil]
    exact .nothing
  rw [hacts]
  have hflag : (if hopDelay ≠ 0 then vPacingFlag else regularPacingFlagSet) ≠ 0 := by
    rcases pickPacing_cases hp with ⟨-, -, -, rfl⟩ | ⟨-, -, -, -, rfl⟩ | ⟨-, -, -, -, rfl⟩ <;>
      split_ifs <;> decide
  rcases pickPacing_cases hp with ⟨-, rfl, -, -⟩ | ⟨h0, -, rfl, -, -⟩ | ⟨h1, -, rfl, -, -⟩
  · exact .setUp hflag
  · exact .change h0 hflag rfl
  · exact .change (by rw [h1]; decide) hflag rfl

theorem starts_of_resetPacing {r : SResetPacingBack} {env : PacingEnv} {destIpAddr : UInt32} :
    Starts r (fDoResetPacing2 true r env destIpAddr) := by
  rcases @resetPacing_cases true r env destIpAddr with hnil | ⟨-, h1, hacts⟩
  · rw [hnil]
    exact .nothing
  · rw [hacts]
    exact .reset (by rw [h1]; decide) (by decide)

theorem starts_of_giveUp {r : SResetPacingBack} : Starts r (giveUpPacing true r) := by
  rcases @giveUpPacing_cases true r with ⟨hnil, -⟩ | ⟨-, hacts⟩
  · rw [hnil]
    exact .nothing
  · rw [hacts]
    exact .giveUp rfl

theorem starts_of_reads {w : Writers} (h : w.shared.gTuningMode = true) (e : WriterEvent) :
    Starts w.shared.shm (w.reads e) := by
  cases e with
  | idle =>
    rw [reads, h]
    exact starts_of_giveUp
  | message m =>
    rw [reads, h]
    cases m with
    | qinfo env hopDelay destIpAddr => exact starts_of_qinfo
    | resetPacing env destIpAddr => exact starts_of_resetPacing
    | cleanupResetPacing => exact starts_of_giveUp
  | act i => exact .nothing

/-! ### The invariant -/

/-- What holds as long as no two handlers overlap. -/
structure Inv (w : Writers) : Prop where
  tuning : w.shared.gTuningMode = true
  left : ∀ t ∈ w.tasks, Left t
  /-- No handler will record pacing while another will delete the root qdisc. -/
  apart : ¬ ((∃ t ∈ w.tasks, Sets t) ∧ ∃ t ∈ w.tasks, Deletes t)
  /-- A handler that has only the deletion left has cleared the record. -/
  cleared : (∃ t ∈ w.tasks, t = [.system (.tc .del)]) → w.shared.shm.set = 0
  /-- A handler that will record pacing will install the `fq` before, or it is installed. -/
  added : ∀ t ∈ w.tasks, Sets t → Adds t ∨ w.shared.installed = true
  paced : w.shared.shm.set ≠ 0 → w.shared.installed = true
  recorded : w.shared.installed = true → w.shared.shm.set ≠ 0 ∨ ∃ t ∈ w.tasks, Sets t ∨ Deletes t

theorem inv_initial : Inv initial where
  tuning := rfl
  left := by simp [initial, Left.starts (r := {}) .nothing]
  apart := by simp [initial]
  cleared := by simp [initial]
  added := by simp [initial]
  paced := fun h => absurd rfl h
  recorded := fun h => absurd h (by decide)

theorem Inv.agrees {w : Writers} (h : Inv w) : w.Agrees := by
  intro hquiet
  refine ⟨h.paced, fun hi => (h.recorded hi).resolve_right ?_⟩
  rintro ⟨t, ht, hp⟩
  rw [hquiet t ht] at hp
  simp at hp

section Act

variable {w : Writers} {i : ℕ} {a : Action} {as : List Action}

theorem perform_tc_installed (s : SourceDtn) (c : TcCmd) :
    (s.perform (.system (.tc c))).installed = installedAfter s.installed c := by
  have htcs : (s.perform (.system (.tc c))).tcs = s.tcs ++ [c] := by
    simp [SourceDtn.perform, SourceDtn.tcs, Cmd.tc?]
  rw [SourceDtn.installed, htcs, installedBy_snoc]
  rfl

theorem perform_gTuningMode (s : SourceDtn) (a : Action) : (s.perform a).gTuningMode = s.gTuningMode := by
  cases a <;> rfl

/-- What a call does to the record and the `fq` decides the rest. -/
theorem Inv.next (h : Inv w) (ht : w.tasks[i]? = some (a :: as))
    (hcleared : (∃ t ∈ w.tasks.set i as, t = [.system (.tc .del)]) → (w.shared.perform a).shm.set = 0)
    (hadded : ∀ t ∈ w.tasks.set i as, Sets t → Adds t ∨ (w.shared.perform a).installed = true)
    (hpaced : (w.shared.perform a).shm.set ≠ 0 → (w.shared.perform a).installed = true)
    (hrecorded : (w.shared.perform a).installed = true →
      (w.shared.perform a).shm.set ≠ 0 ∨ ∃ t ∈ w.tasks.set i as, Sets t ∨ Deletes t) :
    Inv { shared := w.shared.perform a, tasks := w.tasks.set i as } where
  tuning := (perform_gTuningMode _ _).trans h.tuning
  left := forall_act ht h.left Left.tail
  apart := fun hb => h.apart ⟨exists_of_act ht hb.1 sets_tail, exists_of_act ht hb.2 deletes_tail⟩
  cleared := hcleared
  added := hadded
  paced := hpaced
  recorded := hrecorded

/-- A call that keeps the record and the `fq`. -/
theorem Inv.quiet (h : Inv w) (ht : w.tasks[i]? = some (a :: as))
    (hshm : (w.shared.perform a).shm = w.shared.shm)
    (hinst : (w.shared.perform a).installed = w.shared.installed)
    (hdel : as ≠ [.system (.tc .del)]) (hsets : Sets (a :: as) → Sets as) (hadds : Adds (a :: as) → Adds as)
    (hdeletes : Deletes (a :: as) → Deletes as) :
    Inv { shared := w.shared.perform a, tasks := w.tasks.set i as } := by
  refine h.next ht ?_ ?_ ?_ ?_
  · intro hd
    rw [hshm]
    exact h.cleared (exists_of_act ht hd fun he => absurd he hdel)
  · rw [hinst]
    refine forall_act ht h.added fun hk hs => ?_
    exact (hk (sets_tail hs)).imp_left hadds
  · rw [hshm, hinst]
    exact h.paced
  · rw [hshm, hinst]
    exact fun hi => (h.recorded hi).imp_right fun hsome => exists_act ht hsome (Or.imp hsets hdeletes)

/-- A call that records pacing: the `fq` is installed. -/
theorem Inv.records (h : Inv w) {r : SResetPacingBack} (ht : w.tasks[i]? = some (.shmWrite r :: as))
    (h0 : r.set ≠ 0) (hadds : ¬ Adds as) :
    Inv { shared := w.shared.perform (.shmWrite r), tasks := w.tasks.set i as } := by
  have hmem : .shmWrite r :: as ∈ w.tasks := List.mem_of_getElem? ht
  have hsets : Sets (.shmWrite r :: as) := sets_shmWrite.mpr (Or.inl h0)
  have hinst : w.shared.installed = true := (h.added _ hmem hsets).resolve_left (by simpa using hadds)
  refine h.next ht ?_ (fun t _ _ => Or.inr hinst) (fun _ => hinst) (fun _ => Or.inl h0)
  rintro ⟨t, hin, rfl⟩
  have hdel : ∃ t ∈ w.tasks, Deletes t :=
    exists_of_act ht ⟨_, hin, deletes_tc.mpr (Or.inl rfl)⟩ deletes_tail
  exact absurd ⟨⟨_, hmem, hsets⟩, hdel⟩ h.apart

/-- **A call of a handler** keeps the invariant. -/
theorem inv_act (h : Inv w) (ht : w.tasks[i]? = some (a :: as)) :
    Inv { shared := w.shared.perform a, tasks := w.tasks.set i as } := by
  have hmem : a :: as ∈ w.tasks := List.mem_of_getElem? ht
  cases h.left _ hmem with
  | starts hs =>
    cases hs with
    | @setUp rate r' h0 =>
      have hinst : (w.shared.perform (.system (.tc (.delAddMaxrate rate)))).installed = true :=
        perform_tc_installed _ _
      refine h.next ht ?_ (fun t _ _ => Or.inr hinst) (fun _ => hinst) fun _ => Or.inr ?_
      · intro hd
        exact h.cleared (exists_of_act ht hd fun he => by cases he)
      · exact ⟨_, mem_act ht, Or.inl (by simpa using h0)⟩
    | @change c r' h0 h0' hc =>
      have hinst : (w.shared.perform (.system (.tc c))).installed = w.shared.installed := by
        rw [perform_tc_installed]
        cases c <;> first | rfl | cases hc
      refine h.quiet ht rfl hinst (by simp) (by simp) ?_ ?_
      · cases c <;> simp_all [TcCmd.isChange]
      · cases c <;> simp_all [TcCmd.isChange]
    | @reset r' h0 h0' => exact h.records ht h0' (by simp)
    | @giveUp r' h0 =>
      refine h.next ht (fun _ => h0) ?_ (fun hn => absurd h0 hn) fun _ => Or.inr ?_
      · exact forall_act ht h.added fun _ hs => absurd hs (by simp)
      · exact ⟨_, mem_act ht, Or.inr (by simp)⟩
  | @record r h0 => exact h.records ht h0 (by simp)
  | nopacing =>
    refine h.quiet ht rfl ?_ (by simp) (by simp) (by simp) (by simp)
    rw [perform_tc_installed]
    rfl
  | del =>
    have h0 : w.shared.shm.set = 0 := h.cleared ⟨_, hmem, rfl⟩
    have hinst : (w.shared.perform (.system (.tc .del))).installed = false := perform_tc_installed _ _
    have hdel : ∃ t ∈ w.tasks, Deletes t := ⟨_, hmem, by simp⟩
    refine h.next ht (fun _ => h0) ?_ (fun hn => absurd h0 hn) (fun hi => ?_)
    · intro t hin hs
      exact absurd ⟨exists_of_act ht ⟨t, hin, hs⟩ sets_tail, hdel⟩ h.apart
    · rw [hinst] at hi
      cases hi

end Act

section Read

variable {w w' : Writers} {e : WriterEvent}

/-- A read puts one more handler in progress: at its index is what it will do,
and what others have left stays where it is. -/
theorem step_read (h : w.step e = some w') (he : ∀ i, e ≠ .act i) :
    w'.shared = w.shared ∧ (∀ t ∈ w'.tasks, t ∈ w.tasks ∨ t = w.reads e) ∧
      ∃ m : ℕ, w'.tasks[m]? = some (w.reads e) ∧ ∀ (k : ℕ) t, w.tasks[k]? = some t → t ≠ [] → k ≠ m ∧ w'.tasks[k]? = some t := by
  cases e with
  | idle =>
    obtain ⟨h0, hs⟩ := Option.ite_none_right_eq_some.mp h
    obtain rfl := Option.some.inj hs
    have hlt : 0 < w.tasks.length := (List.getElem?_eq_some_iff.mp h0).1
    refine ⟨rfl, fun t ht => List.mem_or_eq_of_mem_set ht, 0, List.getElem?_set_self hlt, fun k t hk hne => ?_⟩
    have hk0 : k ≠ 0 := by
      rintro rfl
      exact hne (Option.some.inj (hk.symm.trans h0))
    exact ⟨hk0, (List.getElem?_set_ne hk0.symm).trans hk⟩
  | message m =>
    obtain rfl := Option.some.inj h
    refine ⟨rfl, fun t ht => by simpa using ht, w.tasks.length, by simp, fun k t hk _ => ?_⟩
    have hlt : k < w.tasks.length := (List.getElem?_eq_some_iff.mp hk).1
    exact ⟨by omega, by rw [List.getElem?_append_left hlt, hk]⟩
  | act i => exact absurd rfl (he i)

/-- **A read** that does not overlap keeps the invariant. -/
theorem inv_read (h : Inv w) (hs : w.step e = some w') (he : ∀ i, e ≠ .act i) (hno : ¬ w.Overlaps e) : Inv w' := by
  obtain ⟨hshared, hin, m, hm, hkeep⟩ := step_read hs he
  have hstarts := starts_of_reads h.tuning e
  have hmem : ∀ t ∈ w.tasks, t ≠ [] → t ∈ w'.tasks := by
    intro t ht hne
    obtain ⟨k, hk⟩ := List.mem_iff_getElem?.mp ht
    exact List.mem_of_getElem? (hkeep k t hk hne).2
  refine ⟨by rw [hshared, h.tuning], ?_, ?_, ?_, ?_, by rw [hshared]; exact h.paced, ?_⟩
  · intro t ht
    rcases hin t ht with ht | rfl
    · exact h.left t ht
    · exact .starts hstarts
  · rintro ⟨⟨t, ht, hsets⟩, u, hu, hdel⟩
    rcases hin t ht with ht | rfl <;> rcases hin u hu with hu | rfl
    · exact h.apart ⟨⟨t, ht, hsets⟩, u, hu, hdel⟩
    · exact hno ⟨t, ht, Or.inl ⟨hsets, hdel⟩⟩
    · exact hno ⟨u, hu, Or.inr ⟨hdel, hsets⟩⟩
    · -- no handler does both
      generalize w.reads e = t at hstarts hsets hdel
      cases hstarts <;> simp_all [TcCmd.isChange]
  · rintro ⟨t, ht, rfl⟩
    rw [hshared]
    rcases hin _ ht with ht | ht
    · exact h.cleared ⟨_, ht, rfl⟩
    · rw [← ht] at hstarts
      cases hstarts
  · intro t ht hsets
    rw [hshared]
    rcases hin t ht with ht | rfl
    · exact h.added t ht hsets
    · generalize w.reads e = t at hstarts hsets
      cases hstarts with
      | nothing => exact absurd hsets (by simp)
      | setUp => exact Or.inl (by simp)
      | change h0 => exact Or.inr (h.paced h0)
      | reset h0 => exact Or.inr (h.paced h0)
      | giveUp h0 => exact absurd hsets (by simp [h0])
  · rw [hshared]
    refine fun hi => (h.recorded hi).imp_right ?_
    rintro ⟨t, ht, hp⟩
    refine ⟨t, hmem t ht ?_, hp⟩
    rintro rfl
    simp at hp

/-- A step of a run that does not overlap keeps the invariant. -/
theorem inv_step (h : Inv w) (hno : ¬ w.Overlaps e) (hs : w.step e = some w') : Inv w' := by
  cases e with
  | act i =>
    obtain ⟨a, as, ht, rfl⟩ := act_eq_some hs
    exact inv_act h ht
  | idle => exact inv_read h hs (by simp) hno
  | message m => exact inv_read h hs (by simp) hno

/-- In every run a handler has left what it can have left. -/
theorem run_left {es : List WriterEvent} (h : Runs.run step initial es = some w) :
    w.shared.gTuningMode = true ∧ ∀ t ∈ w.tasks, Left t := by
  refine Runs.history_inv (P := fun _ (w : Writers) => w.shared.gTuningMode = true ∧ ∀ t ∈ w.tasks, Left t)
    ⟨rfl, inv_initial.left⟩ (fun _ v e v' _ hp hs => ?_) h
  by_cases he : ∀ i, e ≠ .act i
  · obtain ⟨hshared, hin, -⟩ := step_read hs he
    refine ⟨by rw [hshared, hp.1], fun t ht => ?_⟩
    rcases hin t ht with ht | rfl
    · exact hp.2 t ht
    · exact .starts (starts_of_reads hp.1 e)
  · simp only [not_forall, not_not] at he
    obtain ⟨i, rfl⟩ := he
    obtain ⟨a, as, ht, rfl⟩ := act_eq_some hs
    exact ⟨(perform_gTuningMode _ _).trans hp.1, forall_act ht hp.2 Left.tail⟩

end Read

/-! ### What an overlap can come to -/

section Overlap

variable {w w' : Writers} {e : WriterEvent} {t : List Action}

theorem Left.split_sets (h : Left t) (hs : Sets t) : ∃ before r after, t = before ++ .shmWrite r :: after ∧
    r.set ≠ 0 ∧ (after = [] ∨ after = [.system (.tc .changeNopacing)]) := by
  cases h with
  | starts hst =>
    cases hst with
    | nothing => exact absurd hs (by simp)
    | setUp h0 => exact ⟨[_], _, [], rfl, h0, Or.inl rfl⟩
    | change _ h0 _ => exact ⟨[_], _, [], rfl, h0, Or.inl rfl⟩
    | reset _ h0 => exact ⟨[], _, _, rfl, h0, Or.inr rfl⟩
    | giveUp h0 => exact absurd hs (by simp [h0])
  | record h0 => exact ⟨[], _, [], rfl, h0, Or.inl rfl⟩
  | nopacing => exact absurd hs (by simp)
  | del => exact absurd hs (by simp)

theorem Left.deleted (h : Left t) (hd : Deletes t) (s : SourceDtn) :
    (t.foldl SourceDtn.perform s).installed = false := by
  cases h with
  | starts hst =>
    cases hst with
    | nothing => exact absurd hd (by simp)
    | setUp => exact absurd hd (by simp)
    | change _ _ hc => exact absurd hd (by rintro hd; simp at hd; simp [hd, TcCmd.isChange] at hc)
    | reset => exact absurd hd (by simp)
    | giveUp => exact perform_tc_installed _ _
  | record => exact absurd hd (by simp)
  | nopacing => exact absurd hd (by simp)
  | del => exact perform_tc_installed _ _

/-- **What an overlap can come to**: the handler that records pacing makes its
`shm_write` after the other has deleted the root qdisc. -/
theorem disagree_of_both {i j : ℕ} {x d : List Action} (hij : i ≠ j) (hleft : ∀ t ∈ w.tasks, Left t)
    (hx : w.tasks[i]? = some x) (hsets : Sets x) (hd : w.tasks[j]? = some d) (hdel : Deletes d) :
    ∃ is v, Runs.run (Tasks.act SourceDtn.perform) w is = some v ∧ ¬ Agrees v := by
  obtain ⟨before, r, after, rfl, h0, hafter⟩ := (hleft x (List.mem_of_getElem? hx)).split_sets hsets
  have hdeleted := (hleft d (List.mem_of_getElem? hd)).deleted hdel
  obtain ⟨is, v, s, hrun, hquiet, hshared⟩ := run_around SourceDtn.perform hij hx hd
  refine ⟨is, v, hrun, fun hagrees => ?_⟩
  have hset : v.shared.shm.set ≠ 0 := by
    rw [hshared]
    rcases hafter with rfl | rfl <;> exact h0
  have hinst : v.shared.installed = false := by
    rw [hshared]
    rcases hafter with rfl | rfl
    · exact hdeleted s
    · exact (perform_tc_installed _ _).trans (hdeleted s)
  rw [(hagrees hquiet).mp hset] at hinst
  cases hinst

theorem both_of_overlaps (hov : w.Overlaps e) (hs : w.step e = some w') : ∃ (i j : ℕ) (x d : List Action), i ≠ j ∧
    w'.tasks[i]? = some x ∧ Sets x ∧ w'.tasks[j]? = some d ∧ Deletes d := by
  obtain ⟨t, ht, hboth⟩ := hov
  have he : ∀ i, e ≠ .act i := by
    rintro i rfl
    simp [reads] at hboth
  obtain ⟨-, -, m, hm, hkeep⟩ := step_read hs he
  obtain ⟨k, hk⟩ := List.mem_iff_getElem?.mp ht
  have hne : t ≠ [] := by
    rintro rfl
    simp at hboth
  obtain ⟨hkm, hk'⟩ := hkeep k t hk hne
  rcases hboth with ⟨hsets, hdel⟩ | ⟨hdel, hsets⟩
  · exact ⟨k, m, _, _, hkm, hk', hsets, hm, hdel⟩
  · exact ⟨m, k, _, _, hkm.symm, hm, hsets, hk', hdel⟩

end Overlap

theorem run_acts (w : Writers) (is : List ℕ) :
    Runs.run step w (is.map .act) = Runs.run (Tasks.act SourceDtn.perform) w is := by
  induction is generalizing w with
  | nil => rfl
  | cons i is ih =>
    simp only [List.map_cons, Runs.run]
    congr 1
    funext v
    exact ih v

/-- **The writers agree** with the root qdisc whenever none is in progress, in
a run and however its handlers go on at any point of it, exactly if no read of
the run overlaps. -/
theorem writers_agree (es : List WriterEvent) :
    (∀ pre suf acts, es = pre ++ suf → (∀ e ∈ acts, ∃ i, e = .act i) →
        Runs.Always step initial (fun _ => Agrees) (pre ++ acts)) ↔
      Runs.Steps step initial (fun _ w e => ¬ w.Overlaps e) es := by
  constructor
  · intro h pre e suf w w' hes hr hs hov
    have hr' : Runs.run step initial (pre ++ [e]) = some w' := (Runs.run_snoc_iff step).mpr ⟨w, hr, hs⟩
    obtain ⟨i, j, x, d, hij, hx, hsets, hd, hdel⟩ := both_of_overlaps hov hs
    obtain ⟨is, v, hv, hbad⟩ := disagree_of_both hij (run_left hr').2 hx hsets hd hdel
    refine hbad ((h (pre ++ [e]) suf (is.map .act) (by simp [hes]) (by simp)).last ?_)
    rw [Runs.run_append, hr', Option.bind_some, run_acts, hv]
  · rintro h pre suf acts rfl hacts
    have hsteps : Runs.Steps step initial (fun _ w e => ¬ w.Overlaps e) (pre ++ acts) := by
      refine h.of_append.append fun e he _ w => ?_
      obtain ⟨i, rfl⟩ := hacts e he
      simp [Overlaps, reads]
    have hinv : Runs.Always step initial (fun _ => Inv) (pre ++ acts) :=
      Runs.always_of_steps inv_initial (fun _ _ _ _ _ hi hno hs => inv_step hi hno hs) hsteps
    exact hinv.imp fun _ _ _ hi => hi.agrees

/-- Pacing is set up; the daemon finds the link idle and clears the record, a
QINFO sets up pacing again, and then the daemon deletes the root qdisc. -/
def idleAroundQinfo : List WriterEvent :=
  [.message (.qinfo (SourceDtn.congestedEnv 10) 5 0x0900000a), .act 1, .act 1, .idle, .act 0,
    .message (.qinfo (SourceDtn.congestedEnv 10) 5 0x0900000a), .act 2, .act 2, .act 0]

theorem idleAroundQinfo_disagrees : ¬ Runs.Always step initial (fun _ => Agrees) idleAroundQinfo := by
  intro h
  have hrun : ∃ w, Runs.run step initial idleAroundQinfo = some w ∧ w.tasks = [[], [], []] ∧
      w.shared.shm.set = regularPacingFlagSet ∧ w.shared.installed = false :=
    ⟨_, rfl, by decide +kernel, by decide +kernel, by decide +kernel⟩
  obtain ⟨w, hw, htasks, hset, hinst⟩ := hrun
  have hquiet : w.Quiet := by
    rw [Pool.Quiet, htasks]
    simp
  have hne : w.shared.shm.set ≠ 0 := by
    rw [hset]
    decide
  rw [(h.last hw hquiet).mp hne] at hinst
  cases hinst

end Writers
end TuningMod

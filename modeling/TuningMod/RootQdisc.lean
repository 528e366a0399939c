/-
# The root qdisc and the pacing record

What the `tc` commands do to the root qdisc of `netDevice`, told by the
commands run so far, and what the record says about it. `QdiscStep` says once
what a step can do to the record and the commands. From it: the record's `set`
is 0 exactly while the module's `fq` is not installed, so that every
`tc qdisc change` finds it; and the qdisc the device had at first is back
whenever `set` is 0 exactly if it was the kernel's default or pacing is never
given up, because giving it up deletes the root qdisc.

Key definitions: `Qdisc`, `TcCmd.apply`, `installedBy`, `SourceDtn.QdiscStep`, `SourceDtn.CommandsValid`.
Key theorems: `step_qdisc`, `commands_valid`, `original_qdisc`.
-/
import TuningMod.SourceDtn

namespace TuningMod

/-! ### The commands -/

/-- The options of an `fq` qdisc; those that no command sets are in `others`. -/
structure FqOptions where
  maxrate : Option ℚ := none
  pacing : Bool := true
  others : String := ""
  deriving DecidableEq

/-- The root qdisc of a device. Without one that was configured it is the
kernel's default. -/
inductive Qdisc where
  | kernelDefault
  | fq (options : FqOptions)
  | other (config : String)
  deriving DecidableEq

namespace TcCmd

/-- What a command leaves. A `change` fails on a qdisc that is not an `fq`. -/
def apply : TcCmd → Qdisc → Qdisc
  | .del, _ => .kernelDefault
  | .delAddMaxrate rate, _ => .fq { maxrate := some rate }
  | .changeMaxrate rate, .fq o => .fq { o with maxrate := some rate, pacing := true }
  | .changeNopacing, .fq o => .fq { o with pacing := false }
  | .changeMaxrate _, q | .changeNopacing, q => q

/-- `tc qdisc change dev %s root fq ...` -/
def isChange : TcCmd → Bool
  | .changeMaxrate _ | .changeNopacing => true
  | _ => false

end TcCmd

/-- Whether the root qdisc is the `fq` the module added, after a command. -/
def installedAfter (installed : Bool) : TcCmd → Bool
  | .del => false
  | .delAddMaxrate _ => true
  | .changeMaxrate _ | .changeNopacing => installed

/-- Whether it is after the commands `cs`. -/
def installedBy (cs : List TcCmd) : Bool := cs.foldl installedAfter false

theorem installedBy_snoc (cs : List TcCmd) (c : TcCmd) :
    installedBy (cs ++ [c]) = installedAfter (installedBy cs) c := by
  rw [installedBy, List.foldl_append]
  rfl

/-- While the module's `fq` is installed it is the root qdisc, whatever was there at first. -/
theorem fq_of_installedBy (q0 : Qdisc) {cs : List TcCmd} (h : installedBy cs = true) :
    ∃ o, cs.foldl (fun q c => c.apply q) q0 = .fq o := by
  induction cs using List.reverseRecOn with
  | nil => exact absurd h (by decide)
  | append_singleton cs c ih =>
    rw [installedBy_snoc] at h
    rw [List.foldl_append, List.foldl_cons, List.foldl_nil]
    cases c with
    | del => exact absurd h (by simp [installedAfter])
    | delAddMaxrate rate => exact ⟨_, rfl⟩
    | changeMaxrate rate | changeNopacing =>
      obtain ⟨o, ho⟩ := ih h
      rw [ho]
      exact ⟨_, rfl⟩

theorem Adjusts.tcs {c : TcCmd} {r : SResetPacingBack} {as : List Action} (h : Adjusts c r as) :
    as.filterMap Action.tc? = [c] := by
  cases h <;> rfl

theorem Tuner.LeavesPacing.tcs {as : List Action} (h : Tuner.LeavesPacing as) :
    as.filterMap Action.tc? = [] := by
  rw [List.filterMap_eq_nil_iff]
  intro a ha
  cases a with
  | system c =>
    cases c with
    | tc c => exact absurd rfl ((h _ ha).1 c)
    | _ => rfl
  | _ => rfl

/-! ### What a handler can do -/

/-- What a handler does, by the record it read. -/
inductive Paces (r : SResetPacingBack) : List Action → Prop
  | nothing : Paces r []
  | setUp {rate as} : r.set = 0 →
      Adjusts (.delAddMaxrate rate) { set := regularPacingFlagSet, currentPacing := rate } as → Paces r as
  | changeRate {rate as} : r.set ≠ 0 →
      Adjusts (.changeMaxrate rate) { set := regularPacingFlagSet, currentPacing := rate } as → Paces r as
  | remove {r' as} : r.set ≠ 0 → r'.set = nopacingFlagSet ∨ r'.set = regularPacingFlagSet →
      Adjusts .changeNopacing r' as → Paces r as

section Handlers

variable {gTuningMode : Bool} {r : SResetPacingBack} {env : PacingEnv} {destIpAddr hopDelay : UInt32}

/-- A picked command, with the flag it is recorded with in either branch. -/
theorem paces_of_pick {v v' : ℚ} {c : TcCmd} {vPacingFlag set : ℤ}
    (h : pickPacing r v = some (c, vPacingFlag, v'))
    (hset : set = vPacingFlag ∨ set = regularPacingFlagSet) :
    Paces r [.system (.tc c), .shmWrite { set := set, currentPacing := v' }] := by
  rcases pickPacing_cases h with ⟨h0, rfl, -, rfl⟩ | ⟨h0, -, rfl, -, rfl⟩ | ⟨h1, -, rfl, -, rfl⟩
  · obtain rfl : set = regularPacingFlagSet := or_self_iff.mp hset
    exact .setUp h0 .afterCommand
  · obtain rfl : set = regularPacingFlagSet := or_self_iff.mp hset
    exact .changeRate h0 .afterCommand
  · refine .remove ?_ hset .afterCommand
    rw [h1]
    decide

theorem qinfo_paces : Paces r (fDoQinfoAssessment2 gTuningMode r env hopDelay destIpAddr) := by
  rcases @qinfo_cases gTuningMode r env destIpAddr hopDelay with hnil | ⟨-, -, c, vPacingFlag, v, hp, hacts⟩
  · rw [hnil]
    exact .nothing
  · rw [hacts]
    apply paces_of_pick hp
    split_ifs
    · exact Or.inl rfl
    · exact Or.inr rfl

theorem resetPacing_paces : Paces r (fDoResetPacing2 gTuningMode r env destIpAddr) := by
  rcases @resetPacing_cases gTuningMode r env destIpAddr with hnil | ⟨-, h1, hacts⟩
  · rw [hnil]
    exact .nothing
  · rw [hacts]
    exact .remove (by rw [h1]; decide) (Or.inl rfl) .beforeCommand

theorem kafka_paces {residualBandwidth : ℕ} :
    Paces r (fDoQinfoAssessmentKafka gTuningMode r env residualBandwidth) := by
  rcases @kafka_cases gTuningMode r env residualBandwidth with hnil | ⟨-, -, ⟨h1, hacts⟩ | ⟨v, hacts⟩⟩
  · rw [hnil]
    exact .nothing
  · rw [hacts]
    exact .remove (by rw [h1]; decide) (Or.inl rfl) .beforeCommandTimer
  · rw [hacts]
    by_cases hset : r.set = 0
    · rw [if_neg (by simp [hset])]
      exact .setUp hset .afterCommandTimer
    · rw [if_pos (by simp [hset])]
      exact .changeRate hset .afterCommandTimer

end Handlers

namespace SourceDtn

/-! ### What a step can do -/

/-- The `tc` commands run so far. -/
def tcs (s : SourceDtn) : List TcCmd := s.ran.filterMap Cmd.tc?

/-- The root qdisc now, if it was `q0` at first. -/
def rootQdisc (q0 : Qdisc) (s : SourceDtn) : Qdisc := s.tcs.foldl (fun q c => c.apply q) q0

/-- The root qdisc is the `fq` the module added. -/
def installed (s : SourceDtn) : Bool := installedBy s.tcs

/-- Pacing is given up: a CLEANUP, or a measurement of an idle link, in tuning
mode with a record that is set. -/
def GivesUpAt (s : SourceDtn) (e : SourceEvent) : Prop :=
  (e = .cleanupResetPacing ∨ ∃ env, e = .measurement env 0 0) ∧ s.gTuningMode = true ∧ s.shm.set ≠ 0

/-- What a step can do to the record and to the commands run. -/
inductive QdiscStep (s s' : SourceDtn) (e : SourceEvent) : Prop
  | quiet : s'.shm = s.shm → s'.tcs = s.tcs → QdiscStep s s' e
  | setUp (rate : ℚ) : s.shm.set = 0 → s'.shm.set = regularPacingFlagSet →
      s'.tcs = s.tcs ++ [.delAddMaxrate rate] → QdiscStep s s' e
  | changeRate (rate : ℚ) : s.shm.set ≠ 0 → s'.shm.set = regularPacingFlagSet →
      s'.tcs = s.tcs ++ [.changeMaxrate rate] → QdiscStep s s' e
  | remove : s.shm.set ≠ 0 → s'.shm.set = nopacingFlagSet ∨ s'.shm.set = regularPacingFlagSet →
      s'.tcs = s.tcs ++ [.changeNopacing] → QdiscStep s s' e
  | giveUp : s.GivesUpAt e → s'.shm.set = 0 → s'.tcs = s.tcs ++ [.del] → QdiscStep s s' e

section Step

variable {s s' : SourceDtn} {e : SourceEvent} {as : List Action}

theorem performAll_tcs : (s.performAll as).tcs = s.tcs ++ as.filterMap Action.tc? := by
  induction as generalizing s with
  | nil => simp [performAll]
  | cons a as ih =>
    have hstep : (s.perform a).tcs = s.tcs ++ (Action.tc? a).toList := by
      cases a with
      | system c => cases c <;> simp [perform, tcs, Action.tc?, Cmd.tc?]
      | _ => simp [perform, tcs, Action.tc?]
    rw [show s.performAll (a :: as) = (s.perform a).performAll as from rfl, ih, hstep,
      List.append_assoc]
    congr 1
    cases h : Action.tc? a <;> simp [h]

theorem step_tcs (h : s.step e = some s') : s'.tcs = s.tcs ++ (s.acts e).filterMap Action.tc? := by
  rw [tcs, step_ran h, ← tcs, performAll_tcs]

theorem performAll_paces (h : Paces s.shm as) (hs : s'.shm = (s.performAll as).shm)
    (ht : s'.tcs = s.tcs ++ as.filterMap Action.tc?) : QdiscStep s s' e := by
  cases h with
  | nothing =>
    refine .quiet hs ?_
    simpa using ht
  | @setUp rate _ h0 ha =>
    rw [ha.tcs] at ht
    refine .setUp rate h0 ?_ ht
    rw [hs, (performAll_adjusts ha).1]
  | @changeRate rate _ h0 ha =>
    rw [ha.tcs] at ht
    refine .changeRate rate h0 ?_ ht
    rw [hs, (performAll_adjusts ha).1]
  | remove h0 hset ha =>
    rw [ha.tcs] at ht
    refine .remove h0 ?_ ht
    rw [hs, (performAll_adjusts ha).1]
    exact hset

theorem performAll_giveUp (hg : s.GivesUpAt e)
    (hs : s'.shm = (s.performAll (giveUpPacing s.gTuningMode s.shm)).shm)
    (ht : s'.tcs = s.tcs ++ (giveUpPacing s.gTuningMode s.shm).filterMap Action.tc?) :
    s'.shm.set = 0 ∧ s'.tcs = s.tcs ++ [.del] := by
  obtain ⟨-, hacts⟩ := giveUpPacing_cases.resolve_left fun h => h.2 hg.2
  rw [hacts] at hs ht
  refine ⟨?_, ht⟩
  rw [hs]
  rfl

theorem giveUpPacing_quiet (h : ¬ (s.gTuningMode = true ∧ s.shm.set ≠ 0)) :
    giveUpPacing s.gTuningMode s.shm = [] :=
  (giveUpPacing_cases.resolve_right fun hg => h hg.1).1

/-- The actions of a measurement are those of its idle reset and some that
leave pacing alone. -/
theorem step_measurement_qdisc {env : MeasureEnv} {tx rx : ℕ}
    (h : s.step (.measurement env tx rx) = some s') :
    let idle := if tx = 0 ∧ rx = 0 then idleReset s.gTuningMode s.shm else []
    s'.shm = (s.performAll idle).shm ∧ s'.tcs = s.tcs ++ idle.filterMap Action.tc? := by
  have hleaves : Tuner.LeavesPacing (s.tuner.measure s.gTuningMode env tx rx).2 :=
    Tuner.measure_leavesPacing
  constructor
  · rw [step_shm h, acts, performAll_append]
    exact (performAll_leavesPacing hleaves).1
  · rw [step_tcs h, acts, List.filterMap_append, hleaves.tcs, List.append_nil]

/-- When pacing is given up, the record is cleared and the root qdisc deleted. -/
theorem step_givesUp (hg : s.GivesUpAt e) (h : s.step e = some s') :
    s'.shm.set = 0 ∧ s'.tcs = s.tcs ++ [.del] := by
  rcases hg.1 with rfl | ⟨env, rfl⟩
  · exact performAll_giveUp hg (step_shm h) (step_tcs h)
  · obtain ⟨hs, ht⟩ := step_measurement_qdisc h
    rw [if_pos ⟨rfl, rfl⟩] at hs ht
    exact performAll_giveUp hg hs ht

/-- **What a step can do to the root qdisc.** -/
theorem step_qdisc (h : s.step e = some s') : QdiscStep s s' e := by
  cases e with
  | qinfo env hopDelay destIpAddr => exact performAll_paces qinfo_paces (step_shm h) (step_tcs h)
  | resetPacing env destIpAddr => exact performAll_paces resetPacing_paces (step_shm h) (step_tcs h)
  | kafka env residualBandwidth => exact performAll_paces kafka_paces (step_shm h) (step_tcs h)
  | learningMode on => exact performAll_paces .nothing (step_shm h) (step_tcs h)
  | cleanupResetPacing =>
    by_cases hg : s.gTuningMode = true ∧ s.shm.set ≠ 0
    · obtain ⟨hset, ht⟩ := step_givesUp ⟨Or.inl rfl, hg⟩ h
      exact .giveUp ⟨Or.inl rfl, hg⟩ hset ht
    · have hacts : s.acts .cleanupResetPacing = [] := giveUpPacing_quiet hg
      refine performAll_paces .nothing ?_ ?_
      · rw [step_shm h, hacts]
      · rw [step_tcs h, hacts]
  | measurement env tx rx =>
    by_cases hg : (tx = 0 ∧ rx = 0) ∧ s.gTuningMode = true ∧ s.shm.set ≠ 0
    · obtain ⟨⟨rfl, rfl⟩, hg⟩ := hg
      have hgives : s.GivesUpAt (.measurement env 0 0) := ⟨Or.inr ⟨env, rfl⟩, hg⟩
      obtain ⟨hset, ht⟩ := step_givesUp hgives h
      exact .giveUp hgives hset ht
    · obtain ⟨hs, ht⟩ := step_measurement_qdisc h
      have hidle : (if tx = 0 ∧ rx = 0 then idleReset s.gTuningMode s.shm else []) = [] := by
        by_cases hz : tx = 0 ∧ rx = 0
        · rw [if_pos hz]
          exact giveUpPacing_quiet fun hn => hg ⟨hz, hn⟩
        · rw [if_neg hz]
      rw [hidle] at hs ht
      exact performAll_paces .nothing hs ht

end Step

/-! ### Every command is valid -/

/-- The record has one of the three flags, `set` is 0 exactly while the
module's `fq` is not installed, and every `change` found it installed. -/
structure CommandsValid (s : SourceDtn) : Prop where
  flag : s.shm.set = 0 ∨ s.shm.set = regularPacingFlagSet ∨ s.shm.set = nopacingFlagSet
  installed_iff : s.shm.set = 0 ↔ s.installed = false
  change : ∀ before c after, s.tcs = before ++ c :: after → c.isChange = true → installedBy before = true

section Valid

variable {s s' : SourceDtn} {e : SourceEvent}

theorem CommandsValid.initial : CommandsValid {} where
  flag := Or.inl rfl
  installed_iff := iff_of_true rfl rfl
  change := by simp [tcs]

/-- One more command is valid if it is no `change` or the `fq` is installed. -/
theorem CommandsValid.snoc {c : TcCmd} (h : s.CommandsValid) (ht : s'.tcs = s.tcs ++ [c])
    (hflag : s'.shm.set = 0 ∨ s'.shm.set = regularPacingFlagSet ∨ s'.shm.set = nopacingFlagSet)
    (hc : c.isChange = true → s.shm.set ≠ 0)
    (hinst : s'.shm.set = 0 ↔ installedAfter s.installed c = false) : s'.CommandsValid := by
  have hsnoc : s'.installed = installedAfter s.installed c := by
    rw [installed, ht, installedBy_snoc]
    rfl
  refine ⟨hflag, by rw [hsnoc, hinst], fun before d after hd hchange => ?_⟩
  rw [ht] at hd
  rcases List.eq_nil_or_concat after with rfl | ⟨after', d', rfl⟩
  · -- the command is the last one
    obtain ⟨rfl, hcd⟩ := List.append_inj' hd rfl
    obtain rfl : c = d := List.head_eq_of_cons_eq hcd
    have hset : s.shm.set ≠ 0 := hc hchange
    exact Bool.eq_true_of_not_eq_false fun hn => hset (h.installed_iff.mpr hn)
  · rw [List.concat_eq_append, ← List.cons_append, ← List.append_assoc] at hd
    exact h.change before d after' (List.append_inj' hd rfl).1 hchange

theorem CommandsValid.step (h : s.CommandsValid) (hs : s.step e = some s') : s'.CommandsValid := by
  have hne : ∀ {set : ℤ}, set = regularPacingFlagSet ∨ set = nopacingFlagSet → set ≠ 0 := by
    rintro set (rfl | rfl) <;> decide
  have hinst : s.shm.set ≠ 0 → s.installed = true := fun h0 =>
    Bool.eq_true_of_not_eq_false fun hn => h0 (h.installed_iff.mpr hn)
  cases step_qdisc hs with
  | quiet hshm ht =>
    have hkeep : s'.installed = s.installed := by rw [installed, ht, installed]
    refine ⟨by rw [hshm]; exact h.flag, by rw [hshm, hkeep]; exact h.installed_iff, ?_⟩
    rw [ht]
    exact h.change
  | setUp rate h0 hset ht =>
    refine h.snoc ht (Or.inr (Or.inl hset)) (fun hc => absurd hc (by simp [TcCmd.isChange])) ?_
    exact iff_of_false (hne (Or.inl hset)) (by simp [installedAfter])
  | changeRate rate h0 hset ht =>
    refine h.snoc ht (Or.inr (Or.inl hset)) (fun _ => h0) ?_
    exact iff_of_false (hne (Or.inl hset)) (by simp [installedAfter, hinst h0])
  | remove h0 hset ht =>
    refine h.snoc ht (Or.inr hset.symm) (fun _ => h0) ?_
    exact iff_of_false (hne hset.symm) (by simp [installedAfter, hinst h0])
  | giveUp _ hset ht =>
    refine h.snoc ht (Or.inl hset) (fun hc => absurd hc (by simp [TcCmd.isChange])) ?_
    exact iff_of_true hset rfl

end Valid

theorem run_commandsValid {es : List SourceEvent} {s : SourceDtn} (hr : Runs.run step {} es = some s) :
    s.CommandsValid :=
  Runs.history_inv (P := fun _ => CommandsValid) .initial (fun _ _ _ _ _ h hs => h.step hs) hr

/-- **Every command is valid when it is run**, in every run of the handlers,
the idle resets and the switches of the mode. -/
theorem commands_valid (es : List SourceEvent) :
    Runs.Always step {} (fun _ => CommandsValid) es :=
  fun _ _ _ _ hr => run_commandsValid hr

/-- No `change` fails: the root qdisc it finds is an `fq`. -/
theorem change_finds_fq (q0 : Qdisc) {es : List SourceEvent} {s : SourceDtn}
    (hr : Runs.run step {} es = some s) {before after : List TcCmd} {c : TcCmd}
    (ht : s.tcs = before ++ c :: after) (hc : c.isChange = true) :
    ∃ o, before.foldl (fun q c => c.apply q) q0 = .fq o :=
  fq_of_installedBy q0 ((run_commandsValid hr).change before c after ht hc)

/-! ### The original qdisc -/

section Original

variable {s s' : SourceDtn} {e : SourceEvent} {q0 : Qdisc}

theorem rootQdisc_snoc {c : TcCmd} (ht : s'.tcs = s.tcs ++ [c]) :
    s'.rootQdisc q0 = c.apply (s.rootQdisc q0) := by
  rw [rootQdisc, ht, List.foldl_append]
  rfl

/-- The root qdisc is the original one while the record is clear, until
pacing is given up over one that was configured. -/
theorem original_step (h : s.shm.set = 0 → s.rootQdisc q0 = q0)
    (hc : q0 = .kernelDefault ∨ ¬ s.GivesUpAt e) (hs : s.step e = some s') :
    s'.shm.set = 0 → s'.rootQdisc q0 = q0 := by
  intro h0
  cases step_qdisc hs with
  | quiet hshm ht =>
    rw [rootQdisc, ht]
    exact h (by rw [← hshm, h0])
  | setUp rate _ hset _ => exact absurd (hset.symm.trans h0) (by decide)
  | changeRate rate _ hset _ => exact absurd (hset.symm.trans h0) (by decide)
  | remove _ hset _ => rcases hset with hset | hset <;> exact absurd (hset.symm.trans h0) (by decide)
  | giveUp hg _ ht =>
    rw [rootQdisc_snoc ht]
    exact (hc.resolve_right (not_not.mpr hg)).symm

theorem not_original_of_givesUp (hq : q0 ≠ .kernelDefault) (hg : s.GivesUpAt e)
    (hs : s.step e = some s') : ¬ (s'.shm.set = 0 → s'.rootQdisc q0 = q0) := by
  obtain ⟨hset, ht⟩ := step_givesUp hg hs
  intro h
  have hdel : s'.rootQdisc q0 = .kernelDefault := rootQdisc_snoc ht
  exact hq ((h hset).symm.trans hdel)

end Original

/-- **The original qdisc.** In every state of a run with `set` 0 the root
qdisc is the one the device had at first, exactly if that was the kernel's
default or pacing is never given up. -/
theorem original_qdisc (q0 : Qdisc) (es : List SourceEvent) :
    Runs.Always step {} (fun _ s => s.shm.set = 0 → s.rootQdisc q0 = q0) es ↔
      Runs.Steps step {} (fun _ s e => q0 = .kernelDefault ∨ ¬ s.GivesUpAt e) es := by
  refine Runs.always_iff_steps (I := fun _ (s : SourceDtn) => s.shm.set = 0 → s.rootQdisc q0 = q0)
    (fun _ => rfl) (fun _ s e s' _ h hc hs => ?_) (fun _ _ _ h => h)
    (fun _ s e s' _ _ hc hs => ?_) es
  · exact original_step h hc hs
  · obtain ⟨hq, hg⟩ := not_or.mp hc
    exact not_original_of_givesUp hq (not_not.mp hg) hs

/-- Pacing is set up over the operator's `fq` with a maxrate, and given up. -/
def setUpAndGivenUp : List SourceEvent :=
  [.learningMode false, .qinfo (congestedEnv 10) 5 0x0900000a, .cleanupResetPacing]

theorem setUpAndGivenUp_unrestored : ¬ Runs.Always step {}
    (fun _ s => s.shm.set = 0 → s.rootQdisc (.fq { maxrate := some 10 }) = .fq { maxrate := some 10 })
    setUpAndGivenUp := by
  intro h
  have hrun : ∃ s, Runs.run step {} setUpAndGivenUp = some s ∧ s.shm.set = 0 ∧
      s.rootQdisc (.fq { maxrate := some 10 }) = .kernelDefault :=
    ⟨_, rfl, by decide +kernel, by decide +kernel⟩
  obtain ⟨s, hs, hset, hq⟩ := hrun
  have hkept := h.last hs hset
  rw [hq] at hkept
  cases hkept

end SourceDtn
end TuningMod

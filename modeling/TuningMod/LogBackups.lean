/-
# The backups of the tuning log

`user_menu.sh` starts with `run_dtntune`: if there is a `/tmp/tuningLog` it is
copied to `/tmp/tuningLogOld.N`, with the number in `/tmp/tuningLog.count`, and
the number goes up. The daemon runs the script when it starts, and again for
every `-t` request. Only a start goes on to `fCheck_log_limit`, which sets the
number back to 0 when it has reached `maxnum_tuning_logs`.

From any `/tmp` without backups the limit is kept just if no backup gets a new
name when the limit is reached. If the log that is there comes with the number 0,
as the scripts leave it, the names are the numbers from 0 on, and a backup is one
too many just if its number is not below the limit. A log with another number
can have more backups: the numbers from there on, and then those from 0 on.

Key definitions: `runDtntune`, `fCheckLogLimit`, `step`, `RoomFor`, `BackupBelow`.
Key theorems: `card_step`, `numbered_runDtntune`, `numbered_step`, `roomFor_iff`, `backups_bounded`.
-/
import TuningMod.Lib.Runs
import Mathlib.Data.Finset.Card
import Mathlib.Data.Finset.Range
import Mathlib.Algebra.Ring.Nat

namespace TuningMod

/-- `maxnum_tuning_logs`, an `int` that is at least 1. -/
structure LogLimit where
  gMaxnumTuningLogs : ℕ
  pos : 1 ≤ gMaxnumTuningLogs
  isInt : gMaxnumTuningLogs < 2147483648

/-- The files in `/tmp`, and whether a daemon answers requests. A count file
that is missing or empty is `none`, as is the suffix of a backup made then. -/
structure LogFiles where
  tuningLog : Bool
  count : Option ℕ
  tuningLogOld : Finset (Option ℕ) := ∅
  running : Bool := false
  deriving DecidableEq

namespace LogFiles

/-- A `/tmp` without backups. -/
def noBackup (tuningLog : Bool) (count : Option ℕ) (running : Bool) : LogFiles where
  tuningLog := tuningLog
  count := count
  running := running

/-- One as the scripts leave it: there is no log yet, or `prune_logs` has set
the count to 0. -/
def pruned (tuningLog : Bool) (count : Option ℕ) (running : Bool) : LogFiles :=
  noBackup tuningLog (if tuningLog then some 0 else count) running

/-- How far a start of the daemon gets. -/
inductive StartEnd where
  | noLog | logOpened | checked
  deriving DecidableEq

inductive Event where
  | start (reached : StartEnd)
  | t
  deriving DecidableEq

/-- `run_dtntune`. `expr + 1`, without a number, is 1. -/
def runDtntune (s : LogFiles) : LogFiles :=
  if s.tuningLog then
    { s with
      tuningLogOld := insert s.count s.tuningLogOld
      count := some (s.count.elim 1 fun logcount => logcount + 1) }
  else { s with count := some 0 }

/-- `atoi` of the count, a `long` that becomes an `int`. -/
def cfgVal (count : ℕ) : ℤ := Int.bmod (min count 9223372036854775807 : ℕ) 4294967296

/-- `fCheck_log_limit`. -/
def fCheckLogLimit (limit : LogLimit) (s : LogFiles) : LogFiles :=
  match s.count with
  | none => s
  | some count => if cfgVal count ≥ limit.gMaxnumTuningLogs then { s with count := some 0 } else s

/-- A daemon that runs is needed for a request only. -/
def step (limit : LogLimit) (s : LogFiles) : Event → Option LogFiles
  | .start .noLog => some s.runDtntune
  | .start .logOpened => some { s.runDtntune with tuningLog := true }
  | .start .checked =>
    let s := { s.runDtntune with tuningLog := true }
    some { s.fCheckLogLimit limit with running := true }
  | .t => if s.running then some s.runDtntune else none

/-- The next run of the script makes no backup, or one whose name is there
already, or there are fewer than the limit. -/
def RoomFor (limit : LogLimit) (s : LogFiles) : Prop :=
  s.tuningLog = true → s.count ∉ s.tuningLogOld → s.tuningLogOld.card < limit.gMaxnumTuningLogs

/-- The next run of the script makes no backup, or one with a number below the
limit. -/
def BackupBelow (limit : LogLimit) (s : LogFiles) : Prop :=
  s.tuningLog = true → ∀ count, s.count = some count → count < limit.gMaxnumTuningLogs

/-! ### Backups are numbered from 0 -/

/-- The backups have the numbers below `m`, and so has the next one at most
the number `m`. -/
structure Numbered (m : ℕ) (s : LogFiles) : Prop where
  backups : s.tuningLogOld = (Finset.range m).map .some
  next : s.tuningLog = true → ∃ count, s.count = some count ∧ count ≤ m

section Numbered

variable {limit : LogLimit} {s t : LogFiles} {m : ℕ} {e : Event}

theorem numbered_pruned (tuningLog : Bool) (count : Option ℕ) (running : Bool) :
    Numbered 0 (pruned tuningLog count running) where
  backups := rfl
  next hlog := ⟨0, if_pos hlog, Nat.le_refl 0⟩

theorem Numbered.card (h : Numbered m s) : s.tuningLogOld.card = m := by
  rw [h.backups, Finset.card_map, Finset.card_range]

/-- A backup beside those numbered below `m`. -/
theorem insert_numbered {count : ℕ} (hle : count ≤ m) :
    insert (some count) ((Finset.range m).map .some) = (Finset.range (max m (count + 1))).map .some := by
  ext x
  cases x with
  | none => simp
  | some n =>
    simp only [Finset.mem_insert, Option.some.injEq, Finset.mem_map, Finset.mem_range, Function.Embedding.some_apply,
      exists_eq_right]
    omega

/-- Without a log there is no backup. -/
theorem runDtntune_without (hlog : s.tuningLog = false) : s.runDtntune = { s with count := some 0 } := by
  unfold runDtntune
  rw [hlog, if_neg Bool.false_ne_true]

/-- With a log the backup takes the number in the count file. -/
theorem numbered_runDtntune (h : Numbered m s) {count : ℕ} (hlog : s.tuningLog = true) (hc : s.count = some count) :
    Numbered (max m (count + 1)) s.runDtntune := by
  have hle : count ≤ m := by
    obtain ⟨c, hc', hle⟩ := h.next hlog
    obtain rfl : count = c := Option.some.inj (hc.symm.trans hc')
    exact hle
  unfold runDtntune
  rw [if_pos hlog, hc]
  constructor
  · rw [h.backups, insert_numbered hle]
  · intro _
    exact ⟨count + 1, rfl, by omega⟩

theorem numbered_without_log (h : Numbered m s) (hlog : s.tuningLog = false) : Numbered m s.runDtntune := by
  rw [runDtntune_without hlog]
  exact ⟨h.backups, fun hl => absurd (hlog.symm.trans hl) Bool.false_ne_true⟩

/-- Opening the log needs a number for its backup. -/
theorem Numbered.opened (h : Numbered m s) (hc : ∃ count, s.count = some count ∧ count ≤ m) :
    Numbered m { s with tuningLog := true } :=
  ⟨h.backups, fun _ => hc⟩

theorem Numbered.checked (h : Numbered m s) : Numbered m (s.fCheckLogLimit limit) := by
  unfold fCheckLogLimit
  cases hc : s.count with
  | none => exact h
  | some count =>
    dsimp only
    split_ifs
    · exact ⟨h.backups, fun _ => ⟨0, rfl, Nat.zero_le m⟩⟩
    · exact h

/-- What a step does after the script makes no backup. -/
theorem numbered_step (h : Numbered m s.runDtntune) (hc : ∃ count, s.runDtntune.count = some count ∧ count ≤ m)
    (hs : step limit s e = some t) : Numbered m t := by
  cases e with
  | start reached =>
    cases reached with
    | noLog =>
      obtain rfl := Option.some.inj hs
      exact h
    | logOpened =>
      obtain rfl := Option.some.inj hs
      exact h.opened hc
    | checked =>
      obtain rfl := Option.some.inj hs
      have hchecked : Numbered m ({ s.runDtntune with tuningLog := true }.fCheckLogLimit limit) := (h.opened hc).checked
      exact ⟨hchecked.backups, hchecked.next⟩
  | t =>
    have hrun : s.runDtntune = t := by
      unfold step at hs
      split_ifs at hs
      exact Option.some.inj hs
    rw [← hrun]
    exact h

theorem numbered_step_without (h : Numbered m s) (hlog : s.tuningLog = false) (hs : step limit s e = some t) :
    Numbered m t := by
  refine numbered_step (numbered_without_log h hlog) ⟨0, ?_, Nat.zero_le m⟩ hs
  rw [runDtntune_without hlog]

theorem numbered_step_log (h : Numbered m s) {count : ℕ} (hlog : s.tuningLog = true) (hc : s.count = some count)
    (hs : step limit s e = some t) : Numbered (max m (count + 1)) t := by
  refine numbered_step (numbered_runDtntune h hlog hc) ⟨count + 1, ?_, by omega⟩ hs
  unfold runDtntune
  rw [if_pos hlog, hc]
  rfl

end Numbered

/-! ### The limit -/

section Limit

variable {limit : LogLimit} {s t : LogFiles} {e : Event}

/-- There are at most as many backups as the limit says. -/
def Within (limit : LogLimit) (s : LogFiles) : Prop := ∃ m, m ≤ limit.gMaxnumTuningLogs ∧ Numbered m s

theorem Within.card_le (h : Within limit s) : s.tuningLogOld.card ≤ limit.gMaxnumTuningLogs := by
  obtain ⟨m, hm, hn⟩ := h
  rwa [hn.card]

theorem within_step (h : Within limit s) (hb : s.BackupBelow limit) (hs : step limit s e = some t) :
    Within limit t := by
  obtain ⟨m, hm, hn⟩ := h
  by_cases hlog : s.tuningLog = true
  · obtain ⟨count, hc, -⟩ := hn.next hlog
    have hbelow := hb hlog count hc
    exact ⟨max m (count + 1), by omega, numbered_step_log hn hlog hc hs⟩
  · exact ⟨m, hm, numbered_step_without hn (Bool.not_eq_true _ ▸ hlog) hs⟩

/-- Where the backups are numbered, a new name is the number behind theirs. -/
theorem roomFor_iff (h : Within limit s) : s.RoomFor limit ↔ s.BackupBelow limit := by
  obtain ⟨m, hm, hn⟩ := h
  refine forall_congr' fun hlog => ?_
  obtain ⟨count, hc, hle⟩ := hn.next hlog
  have hmem : s.count ∈ s.tuningLogOld ↔ count < m := by
    rw [hc, hn.backups]
    simp
  rw [hmem, hn.card, hc]
  constructor
  · intro hroom c hcount
    obtain rfl : count = c := Option.some.inj hcount
    omega
  · intro hbelow hnot
    have hcount := hbelow count rfl
    omega

theorem within_pruned (tuningLog : Bool) (count : Option ℕ) (running : Bool) :
    Within limit (pruned tuningLog count running) :=
  ⟨0, Nat.zero_le _, numbered_pruned tuningLog count running⟩

end Limit

/-! ### Any count at the start -/

section Names

variable {limit : LogLimit} {s t : LogFiles} {e : Event}

/-- A step adds the backup of its run of the script, if that makes one. -/
theorem old_step (hs : step limit s e = some t) :
    t.tuningLogOld = if s.tuningLog then insert s.count s.tuningLogOld else s.tuningLogOld := by
  have hscript : s.runDtntune.tuningLogOld = if s.tuningLog then insert s.count s.tuningLogOld else s.tuningLogOld := by
    unfold runDtntune
    split_ifs <;> rfl
  have hcheck : ∀ r : LogFiles, (r.fCheckLogLimit limit).tuningLogOld = r.tuningLogOld := by
    intro r
    unfold fCheckLogLimit
    split
    · rfl
    · split_ifs <;> rfl
  cases e with
  | start reached =>
    cases reached with
    | noLog =>
      obtain rfl := Option.some.inj hs
      exact hscript
    | logOpened =>
      obtain rfl := Option.some.inj hs
      exact hscript
    | checked =>
      obtain rfl := Option.some.inj hs
      exact (hcheck _).trans hscript
  | t =>
    obtain ⟨-, hs⟩ := Option.ite_none_right_eq_some.mp hs
    obtain rfl := Option.some.inj hs
    exact hscript

/-- **One step** keeps the limit just if it finds room. -/
theorem card_step (h : s.tuningLogOld.card ≤ limit.gMaxnumTuningLogs) (hs : step limit s e = some t) :
    t.tuningLogOld.card ≤ limit.gMaxnumTuningLogs ↔ s.RoomFor limit := by
  rw [old_step hs, RoomFor]
  by_cases hlog : s.tuningLog = true
  · rw [if_pos hlog]
    by_cases hmem : s.count ∈ s.tuningLogOld
    · rw [Finset.insert_eq_of_mem hmem]
      exact iff_of_true h fun _ hnot => absurd hmem hnot
    · rw [Finset.card_insert_of_notMem hmem]
      exact ⟨fun hle _ _ => hle, fun hroom => hroom hlog hmem⟩
  · rw [if_neg hlog]
    exact iff_of_true h fun h' => absurd h' hlog

end Names

/-- **The number of backups.** From any `/tmp` without backups it stays within
the limit exactly in the runs in which no backup gets a new name when the limit
is reached; from one as the scripts leave it, exactly in those in which every
backup is made with the count below the limit. -/
theorem backups_bounded (limit : LogLimit) (tuningLog : Bool) (count : Option ℕ) (running : Bool) (es : List Event) :
    (Runs.Always (step limit) (noBackup tuningLog count running)
        (fun _ t => t.tuningLogOld.card ≤ limit.gMaxnumTuningLogs) es ↔
      Runs.Steps (step limit) (noBackup tuningLog count running) (fun _ t _ => t.RoomFor limit) es) ∧
    (Runs.Always (step limit) (pruned tuningLog count running)
        (fun _ t => t.tuningLogOld.card ≤ limit.gMaxnumTuningLogs) es ↔
      Runs.Steps (step limit) (pruned tuningLog count running) (fun _ t _ => t.BackupBelow limit) es) := by
  constructor
  · have hstart : (noBackup tuningLog count running).tuningLogOld.card ≤ limit.gMaxnumTuningLogs := Nat.zero_le _
    refine Runs.always_iff_steps (I := fun _ t => t.tuningLogOld.card ≤ limit.gMaxnumTuningLogs) hstart
      (fun _ _ _ _ _ hi hc hs => (card_step hi hs).mpr hc) (fun _ _ _ hi => hi) ?_ es
    exact fun pre t e t' _ hi hc hs hle => hc ((card_step hi hs).mp hle)
  · refine Runs.always_iff_steps (I := fun _ t => Within limit t) (within_pruned tuningLog count running)
      (fun _ _ _ _ _ hi hc hs => within_step hi hc hs) (fun _ _ _ hi => hi.card_le) ?_ es
    exact fun pre t e t' _ hi hc hs hle => hc ((roomFor_iff hi).mp ((card_step hi.card_le hs).mp hle))

/-- Two requests after a start, with room for one backup. -/
theorem backups_two : ¬ Runs.Always (step ⟨1, by decide, by decide⟩) (noBackup false none false)
    (fun _ t => t.tuningLogOld.card ≤ 1) [.start .checked, .t, .t] := by
  intro h
  have hlast := h.last rfl
  revert hlast
  decide

/-! ### Starts alone -/

section Starts

variable {limit : LogLimit} {s t : LogFiles}

/-- The count file after a check, when the script has left a number up to the limit. -/
theorem fCheckLogLimit_below {count : ℕ} (hc : s.count = some count) (hle : count ≤ limit.gMaxnumTuningLogs) :
    ∃ c, (s.fCheckLogLimit limit).count = some c ∧ c < limit.gMaxnumTuningLogs := by
  have hpos := limit.pos
  have hint := limit.isInt
  have hval : cfgVal count = count := by
    unfold cfgVal
    rw [Nat.min_eq_left (by omega)]
    exact Int.bmod_eq_of_le (by omega) (by omega)
  unfold fCheckLogLimit
  rw [hc]
  dsimp only
  rw [hval]
  by_cases hge : (count : ℤ) ≥ limit.gMaxnumTuningLogs
  · rw [if_pos hge]
    exact ⟨0, rfl, hpos⟩
  · rw [if_neg hge]
    exact ⟨count, hc, by omega⟩

/-- A start that gets to the check leaves the count below the limit. -/
theorem below_start (h : Within limit s) (hb : s.BackupBelow limit) (hs : step limit s (.start .checked) = some t) :
    t.BackupBelow limit := by
  have hscript : ∃ count, s.runDtntune.count = some count ∧ count ≤ limit.gMaxnumTuningLogs := by
    by_cases hlog : s.tuningLog = true
    · obtain ⟨m, -, hn⟩ := h
      obtain ⟨count, hc, -⟩ := hn.next hlog
      refine ⟨count + 1, ?_, hb hlog count hc⟩
      unfold runDtntune
      rw [if_pos hlog, hc]
      rfl
    · exact ⟨0, by rw [runDtntune_without (Bool.not_eq_true _ ▸ hlog)], Nat.zero_le _⟩
  obtain ⟨count, hc, hle⟩ := hscript
  obtain ⟨c, hc', hlt⟩ := fCheckLogLimit_below (s := { s.runDtntune with tuningLog := true }) hc hle
  obtain rfl := Option.some.inj hs
  intro _ count' hcount'
  obtain rfl : c = count' := Option.some.inj (hc'.symm.trans hcount')
  exact hlt

/-- Without requests, starts that get to the check keep the limit. -/
theorem starts_bounded (limit : LogLimit) (tuningLog : Bool) (count : Option ℕ) (running : Bool) {es : List Event}
    (hes : ∀ e ∈ es, e = .start .checked) : Runs.Always (step limit) (pruned tuningLog count running)
      (fun _ t => t.tuningLogOld.card ≤ limit.gMaxnumTuningLogs) es := by
  have hfirst : (pruned tuningLog count running).BackupBelow limit := by
    intro hlog c hc
    have hpos := limit.pos
    have hcount : (if tuningLog then some 0 else count) = some c := hc
    rw [if_pos (show tuningLog = true from hlog)] at hcount
    have hzero : 0 = c := Option.some.inj hcount
    omega
  have hsteps : Runs.Steps (step limit) (pruned tuningLog count running) (fun _ _ e => e = .start .checked) es :=
    fun pre e suf _ _ he _ _ => hes e (by rw [he]; simp)
  refine (Runs.always_of_steps (I := fun _ t => Within limit t ∧ t.BackupBelow limit)
    ⟨within_pruned tuningLog count running, hfirst⟩ ?_ hsteps).imp fun _ _ _ hi => hi.1.card_le
  intro pre t e t' _ hi he hs
  subst he
  exact ⟨within_step hi.1 hi.2 hs, below_start hi.1 hi.2 hs⟩

end Starts
end LogFiles
end TuningMod

/-
# A session with the menu

`dtn_menu.sh` asks the operator, over and over, what to do: the three files that
the assessment left can be applied, one by one or together, each only after a
`y`, and the kernel's also for good. What the script does depends on the host
only through the files that are there, so the same script can be run on a
ledger that says what is still open and what was done.

In every session the host is as the ledger has it: each file was applied at most
once, in full and only after a `y`, what was applied has left no file, and the
others are as they were. `/etc/sysctl.conf` is touched only by a second `y`. A
line of a file is a command of words, some of them in quotes, which `echo` leaves
as it is; its error messages may go to `/dev/null`.

Key definitions: `DtnMenu.Host`, `DtnMenu.turn`, `DtnMenu.machine`, `DtnMenu.ledger`.
Key theorems: `DtnMenu.turn_simulates`, `DtnMenu.machine_simulates`, `DtnMenu.session_as_ledger`.
-/
import TuningMod.Menu
import Mathlib.Data.List.Nodup
import Mathlib.Logic.Function.Iterate

namespace TuningMod
namespace DtnMenu

open Shell Machine Menu

/-! ### The script -/

inductive Kind where
  | kernel | bios | nic
  deriving DecidableEq

/-- What the script asks of a host. -/
structure Host (τ : Type) where
  present : Kind → τ → Bool
  /-- The lines of the file are run and the file is removed; with `sysctlmodified` or without. -/
  apply : Kind → Bool → τ → τ
  prune : τ → τ
  runDtntune : τ → τ
  /-- The operator's shell, which reads from the same terminal. -/
  shell : τ × List (List UInt8) → τ × List (List UInt8)

/-- The host and what the operator is going to answer. An answer is what `read` makes of a line. -/
structure Session (τ : Type) where
  host : τ
  answers : List (List UInt8)
  exited : Bool := false

section Script

variable {τ : Type} (H : Host τ) (s : Session τ)

/-- `read answer`, which is empty once there is nothing more to read. -/
def Session.answer : List UInt8 := s.answers.headD []

def Session.behind : Session τ := { s with answers := s.answers.tail }

def yes (answer : List UInt8) : Bool := answer = [121] || answer = [89]

def enterToContinue : Session τ := s.behind

def pruneLogs : Session τ :=
  if yes s.answer then enterToContinue { s.behind with host := H.prune s.host } else enterToContinue s.behind

def applyRecommendedKernelSettings : Session τ :=
  if H.present .kernel s.host then
    if yes s.answer then
      enterToContinue { s.behind.behind with host := H.apply .kernel (yes s.behind.answer) s.host }
    else enterToContinue s.behind
  else enterToContinue s

/-- The other two, which ask once. -/
def applyRecommendedSettings (k : Kind) : Session τ :=
  if H.present k s.host then
    if yes s.answer then enterToContinue { s.behind with host := H.apply k false s.host }
    else enterToContinue s.behind
  else enterToContinue s

def applyRecommendedBiosSettings : Session τ := applyRecommendedSettings H s .bios

def applyRecommendedNicSettings : Session τ := applyRecommendedSettings H s .nic

def applyAllRecommendedSettings : Session τ :=
  if H.present .kernel s.host || H.present .bios s.host || H.present .nic s.host then
    if yes s.answer then
      enterToContinue (applyRecommendedNicSettings H (applyRecommendedBiosSettings H
        (applyRecommendedKernelSettings H s.behind)))
    else enterToContinue s.behind
  else enterToContinue s

/-- Once round the loop of the main menu. -/
def turn : Session τ :=
  if s.exited then s
  else if s.answer = bytes "1" then enterToContinue { s.behind with host := H.runDtntune s.host }
  else if s.answer = bytes "2" then applyRecommendedKernelSettings H s.behind
  else if s.answer = bytes "3" then applyRecommendedBiosSettings H s.behind
  else if s.answer = bytes "4" then applyRecommendedNicSettings H s.behind
  else if s.answer = bytes "5" then applyAllRecommendedSettings H s.behind
  else if s.answer = bytes "6" then pruneLogs H s.behind
  else if s.answer = bytes "7" then
    let r := H.shell (s.host, s.answers.tail)
    enterToContinue ⟨r.1, r.2, false⟩
  else if s.answer = bytes "q" ∨ s.answer = bytes "8" then { s.behind with exited := true }
  else s.behind

/-- The next answer starts an assessment, or a shell. -/
def Leaves : Prop := s.exited = false ∧ (s.answer = bytes "1" ∨ s.answer = bytes "7")

end Script

/-! ### Two hosts under one script -/

section Simulation

variable {τ υ : Type} {R : τ → υ → Prop} {H : Host τ} {K : Host υ} {s : Session τ} {t : Session υ}

/-- What the script does keeps the hosts related. -/
structure Simulates (R : τ → υ → Prop) (H : Host τ) (K : Host υ) : Prop where
  present : ∀ {x y} k, R x y → H.present k x = K.present k y
  apply : ∀ {x y} k permanent, R x y → K.present k y = true → (permanent = true → k = .kernel) →
    R (H.apply k permanent x) (K.apply k permanent y)
  prune : ∀ {x y}, R x y → R (H.prune x) (K.prune y)

/-- The hosts are related, and the operator answers the same. -/
structure Together (R : τ → υ → Prop) (s : Session τ) (t : Session υ) : Prop where
  host : R s.host t.host
  answers : s.answers = t.answers
  exited : s.exited = t.exited

theorem Together.answer (h : Together R s t) : s.answer = t.answer := by
  rw [Session.answer, Session.answer, h.answers]

theorem Together.behind (h : Together R s t) : Together R s.behind t.behind :=
  ⟨h.host, congrArg List.tail h.answers, h.exited⟩

theorem Together.withHost (h : Together R s t) {x : τ} {y : υ} (hxy : R x y) :
    Together R { s with host := x } { t with host := y } :=
  ⟨hxy, h.answers, h.exited⟩

theorem pruneLogs_together (hs : Simulates R H K) (h : Together R s t) :
    Together R (pruneLogs H s) (pruneLogs K t) := by
  unfold pruneLogs
  rw [h.answer]
  split_ifs
  · exact (h.behind.withHost (hs.prune h.host)).behind
  · exact h.behind.behind

theorem kernel_together (hs : Simulates R H K) (h : Together R s t) :
    Together R (applyRecommendedKernelSettings H s) (applyRecommendedKernelSettings K t) := by
  unfold applyRecommendedKernelSettings
  rw [h.answer, hs.present .kernel h.host, h.behind.answer]
  split_ifs with hpresent
  · exact (h.behind.behind.withHost (hs.apply .kernel _ h.host hpresent fun _ => rfl)).behind
  · exact h.behind.behind
  · exact h.behind

theorem settings_together (hs : Simulates R H K) (h : Together R s t) (k : Kind) :
    Together R (applyRecommendedSettings H s k) (applyRecommendedSettings K t k) := by
  unfold applyRecommendedSettings
  rw [h.answer, hs.present k h.host]
  split_ifs with hpresent
  · exact (h.behind.withHost (hs.apply k false h.host hpresent fun h => absurd h (by decide))).behind
  · exact h.behind.behind
  · exact h.behind

theorem all_together (hs : Simulates R H K) (h : Together R s t) :
    Together R (applyAllRecommendedSettings H s) (applyAllRecommendedSettings K t) := by
  unfold applyAllRecommendedSettings
  rw [h.answer, hs.present .kernel h.host, hs.present .bios h.host, hs.present .nic h.host]
  split_ifs
  · exact (settings_together hs (settings_together hs (kernel_together hs h.behind) .bios) .nic).behind
  · exact h.behind.behind
  · exact h.behind

/-- **One turn of the menu.** -/
theorem turn_simulates (hs : Simulates R H K) (h : Together R s t) (hstay : ¬ Leaves t) :
    Together R (turn H s) (turn K t) := by
  unfold turn
  rw [h.exited, h.answer]
  by_cases hexit : t.exited = true
  · rw [if_pos hexit, if_pos hexit]
    exact h
  have hno : ∀ {option : List UInt8}, (option = bytes "1" ∨ option = bytes "7") → t.answer ≠ option :=
    fun ho hanswer => hstay ⟨Bool.eq_false_iff.mpr hexit, hanswer ▸ ho⟩
  rw [if_neg hexit, if_neg hexit, if_neg (hno (.inl rfl)), if_neg (hno (.inl rfl))]
  by_cases htwo : t.answer = bytes "2"
  · rw [if_pos htwo, if_pos htwo]
    exact kernel_together hs h.behind
  rw [if_neg htwo, if_neg htwo]
  by_cases hthree : t.answer = bytes "3"
  · rw [if_pos hthree, if_pos hthree]
    exact settings_together hs h.behind .bios
  rw [if_neg hthree, if_neg hthree]
  by_cases hfour : t.answer = bytes "4"
  · rw [if_pos hfour, if_pos hfour]
    exact settings_together hs h.behind .nic
  rw [if_neg hfour, if_neg hfour]
  by_cases hfive : t.answer = bytes "5"
  · rw [if_pos hfive, if_pos hfive]
    exact all_together hs h.behind
  rw [if_neg hfive, if_neg hfive]
  by_cases hsix : t.answer = bytes "6"
  · rw [if_pos hsix, if_pos hsix]
    exact pruneLogs_together hs h.behind
  rw [if_neg hsix, if_neg hsix, if_neg (hno (.inr rfl)), if_neg (hno (.inr rfl))]
  by_cases hquit : t.answer = bytes "q" ∨ t.answer = bytes "8"
  · rw [if_pos hquit, if_pos hquit]
    exact ⟨h.host, congrArg List.tail h.answers, rfl⟩
  · rw [if_neg hquit, if_neg hquit]
    exact h.behind

/-- **A session.** -/
theorem turns_simulate (hs : Simulates R H K) (h : Together R s t) {n : ℕ}
    (hstay : ∀ i < n, ¬ Leaves ((turn K)^[i] t)) :
    Together R ((turn H)^[n] s) ((turn K)^[n] t) := by
  induction n with
  | zero => exact h
  | succ n ih =>
    rw [Function.iterate_succ_apply', Function.iterate_succ_apply']
    exact turn_simulates hs (ih fun i hi => hstay i (Nat.lt_succ_of_lt hi)) (hstay n (Nat.lt_succ_self n))

end Simulation

/-! ### The host -/

def Kind.file : Kind → List UInt8
  | .kernel => kernelFile
  | .bios => biosFile
  | .nic => nicFile

/-- `/tmp/tuningLogOld.*` -/
def isOldLog (f : List UInt8) : Bool :=
  (bytes "/tmp/tuningLogOld.").isPrefixOf f && !(f.drop 18).contains 47

/-- `rm -rf`, and the number of logs is 0 again. -/
def removeOldLogs {σ : Type} (m : Machine σ) : Machine σ :=
  Machine.write { m with files := fun f => if isOldLog f then none else m.files f } (bytes "/tmp/tuningLog.count")
    (bytes "0\n")

/-- The script on a host. The assessment and the operator's shell may do anything. -/
def machine {σ : Type} (exec : List (List UInt8) → σ → σ × List UInt8) (matching : List UInt8 → List (List UInt8))
    (runDtntune : Machine σ → Machine σ)
    (shell : Machine σ × List (List UInt8) → Machine σ × List (List UInt8)) : Host (Machine σ) where
  present k m := (m.files k.file).isSome
  apply k permanent := applySettings exec matching permanent k.file
  prune := removeOldLogs
  runDtntune := runDtntune
  shell := shell

/-! ### The ledger -/

inductive Act where
  | applied (k : Kind) (permanent : Bool)
  | pruned
  deriving DecidableEq

/-- The files that are left, and what was done. -/
structure Ledger where
  left : Kind → Bool
  acts : List Act := []

def ledger : Host Ledger where
  present k l := l.left k
  apply k permanent l := ⟨Function.update l.left k false, l.acts ++ [.applied k permanent]⟩
  prune l := { l with acts := l.acts ++ [.pruned] }
  runDtntune := id
  shell := id

def Act.kind? : Act → Option Kind
  | applied k _ => some k
  | pruned => none

/-- No file twice, none that is left, and only the kernel's for good. -/
structure Once (l : Ledger) : Prop where
  nodup : (l.acts.filterMap Act.kind?).Nodup
  gone : ∀ k ∈ l.acts.filterMap Act.kind?, l.left k = false
  kernel : ∀ k, .applied k true ∈ l.acts → k = .kernel

section Once

variable {l : Ledger} {k : Kind} {permanent : Bool}

theorem Once.apply (h : Once l) (hk : l.left k = true) (hp : permanent = true → k = .kernel) :
    Once (ledger.apply k permanent l) := by
  have hnew : k ∉ l.acts.filterMap Act.kind? := fun hmem => by simp [h.gone k hmem] at hk
  have hkinds : (ledger.apply k permanent l).acts.filterMap Act.kind? = l.acts.filterMap Act.kind? ++ [k] := by
    simp [ledger, Act.kind?]
  refine ⟨?_, ?_, ?_⟩
  · rw [hkinds, List.nodup_append_comm]
    exact List.nodup_cons.mpr ⟨hnew, h.nodup⟩
  · rw [hkinds, List.forall_mem_append, List.forall_mem_singleton]
    refine ⟨fun j hj => ?_, Function.update_self ..⟩
    change Function.update l.left k false j = false
    rw [Function.update_of_ne (ne_of_mem_of_not_mem hj hnew), h.gone j hj]
  · intro j hj
    rcases List.mem_append.mp hj with hj | hj
    · exact h.kernel j hj
    · obtain ⟨rfl, hpermanent⟩ := Act.applied.inj (List.mem_singleton.mp hj)
      exact hp hpermanent.symm

theorem Once.prune (h : Once l) : Once (ledger.prune l) := by
  have hkinds : (ledger.prune l).acts.filterMap Act.kind? = l.acts.filterMap Act.kind? := by
    simp [ledger, Act.kind?]
  refine ⟨by rw [hkinds]; exact h.nodup, by rw [hkinds]; exact h.gone, fun j hj => ?_⟩
  rcases List.mem_append.mp hj with hj | hj
  · exact h.kernel j hj
  · cases List.mem_singleton.mp hj

/-- A ledger stays one as it is filled in. -/
theorem once_simulates : Simulates (fun l l' => l = l' ∧ Once l') ledger ledger where
  present := by
    rintro l _ k ⟨rfl, -⟩
    rfl
  apply := by
    rintro l _ k permanent ⟨rfl, h⟩ hk hp
    exact ⟨rfl, h.apply hk hp⟩
  prune := by
    rintro l _ ⟨rfl, h⟩
    exact ⟨rfl, h.prune⟩

end Once

/-! ### The host is as the ledger has it -/

section Ledger

variable {σ : Type} (exec : List (List UInt8) → σ → σ × List UInt8) {matching : List UInt8 → List (List UInt8)}
  (lines : Kind → List (List UInt8))

/-- What an act does to a host without the files. -/
def Act.effect (m : Machine σ) : Act → Machine σ
  | applied k permanent => m.runAll exec (served permanent (lines k))
  | pruned => removeOldLogs m

/-- The host as it is without the files, and each file that is left, as it was. -/
structure AsLedger (start : Machine σ) (m : Machine σ) (l : Ledger) : Prop where
  agree : Agree scratch m (l.acts.foldl (Act.effect exec lines) start)
  files : ∀ k, m.files k.file = if l.left k then some (savedText (lines k)) else none
  some_left : ∀ k, l.left k = true → lines k ≠ []

variable {exec lines} {start m m' : Machine σ} {l : Ledger} {k : Kind} {permanent : Bool} {f : List UInt8}

theorem Kind.file_mem (k : Kind) : k.file ∈ scratch := by cases k <;> simp [Kind.file, scratch]

/-- The three files are different, and no other file of the script. -/
theorem Kind.file_ne (k : Kind) : k.file ≠ tunAppCommand ∧ k.file ≠ sysctlConf ∧ ∀ j, j ≠ k → j.file ≠ k.file := by
  have hnodup := files_nodup
  simp only [List.nodup_cons, List.mem_cons, List.not_mem_nil, or_false, not_or] at hnodup
  obtain ⟨⟨htk, htb, htn, -⟩, ⟨hkb, hkn, hkc⟩, ⟨hbn, hbc⟩, hnc, -⟩ := hnodup
  cases k with
  | kernel =>
    refine ⟨Ne.symm htk, hkc, fun j hj => ?_⟩
    cases j with
    | kernel => exact absurd rfl hj
    | bios => exact Ne.symm hkb
    | nic => exact Ne.symm hkn
  | bios =>
    refine ⟨Ne.symm htb, hbc, fun j hj => ?_⟩
    cases j with
    | kernel => exact hkb
    | bios => exact absurd rfl hj
    | nic => exact Ne.symm hbn
  | nic =>
    refine ⟨Ne.symm htn, hnc, fun j hj => ?_⟩
    cases j with
    | kernel => exact hkn
    | bios => exact hbn
    | nic => exact absurd rfl hj

/-- No old log, and not the number of them. -/
theorem Kind.file_log (k : Kind) : isOldLog k.file = false ∧ k.file ≠ bytes "/tmp/tuningLog.count" := by
  cases k <;> decide +kernel

theorem removeOldLogs_files (hold : isOldLog f = false) (hcount : f ≠ bytes "/tmp/tuningLog.count") :
    (removeOldLogs m).files f = m.files f := by
  rw [removeOldLogs, write_of_ne hcount]
  exact if_neg (Bool.eq_false_iff.mp hold)

theorem removeOldLogs_agree {files : List (List UInt8)} (h : Agree files m m') :
    Agree files (removeOldLogs m) (removeOldLogs m') := by
  refine ⟨h.world, fun g hg => ?_⟩
  by_cases hcount : g = bytes "/tmp/tuningLog.count"
  · rw [hcount, removeOldLogs, removeOldLogs, write_self, write_self]
  · rw [removeOldLogs, removeOldLogs, write_of_ne hcount, write_of_ne hcount]
    dsimp only
    rw [h.files g hg]

/-- A file is applied. -/
theorem AsLedger.apply (hl : ∀ k, ∀ c ∈ lines k, CommandLine matching c) (h : AsLedger exec lines start m l)
    (hk : l.left k = true) (permanent : Bool) :
    AsLedger exec lines start (applySettings exec matching permanent k.file m) (ledger.apply k permanent l) := by
  obtain ⟨htun, hconf, hother⟩ := k.file_ne
  have hfile : m.files k.file = if lines k = [] then none else some (savedText (lines k)) := by
    rw [h.files k, if_pos hk, if_neg (h.some_left k hk)]
  have hserved : Served exec scratch k.file (served permanent (lines k)) _ m
      (applySettings exec matching permanent k.file m) :=
    applySettings_served List.mem_cons_self k.file_mem (hl k) htun hconf hfile h.agree
  refine ⟨?_, fun j => ?_, fun j hj => ?_⟩
  · change Agree scratch _ ((l.acts ++ [Act.applied k permanent]).foldl _ start)
    rw [List.foldl_append]
    exact hserved.agree
  · change _ = if Function.update l.left k false j = true then _ else _
    rcases eq_or_ne j k with rfl | hne
    · rw [Function.update_self, if_neg (by decide)]
      exact hserved.gone
    · rw [Function.update_of_ne hne, ← h.files j]
      exact hserved.others _ (hother j hne) j.file_ne.1 j.file_ne.2.1
  · rcases eq_or_ne j k with rfl | hne
    · exact absurd hj (by simp [ledger])
    · refine h.some_left j ?_
      change Function.update l.left k false j = true at hj
      rwa [Function.update_of_ne hne] at hj

theorem AsLedger.prune (h : AsLedger exec lines start m l) :
    AsLedger exec lines start (removeOldLogs m) (ledger.prune l) := by
  refine ⟨?_, fun k => ?_, h.some_left⟩
  · change Agree scratch _ ((l.acts ++ [Act.pruned]).foldl _ start)
    rw [List.foldl_append]
    exact removeOldLogs_agree h.agree
  · rw [removeOldLogs_files k.file_log.1 k.file_log.2]
    exact h.files k

/-- **The host under the script.** -/
theorem machine_simulates (hl : ∀ k, ∀ c ∈ lines k, CommandLine matching c) (runDtntune : Machine σ → Machine σ)
    (shell : Machine σ × List (List UInt8) → Machine σ × List (List UInt8)) :
    Simulates (AsLedger exec lines start) (machine exec matching runDtntune shell) ledger where
  present := by
    intro m l k h
    change (m.files k.file).isSome = l.left k
    rw [h.files k]
    cases l.left k <;> rfl
  apply := fun k permanent h hk _ => h.apply hl hk permanent
  prune := AsLedger.prune

/-- The host that the assessment leaves, and its ledger. -/
def assessed (lines : Kind → List (List UInt8)) (m : Machine σ) : Machine σ :=
  keep biosFile (lines .bios) (keep nicFile (lines .nic) (keep kernelFile (lines .kernel) m))

def opened (lines : Kind → List (List UInt8)) : Ledger := { left := fun k => lines k ≠ [] }

theorem assessed_asLedger (lines : Kind → List (List UInt8)) (m : Machine σ) :
    AsLedger exec lines m (assessed lines m) (opened lines) where
  agree := keep_agree Kind.bios.file_mem (keep_agree Kind.nic.file_mem (keep_agree Kind.kernel.file_mem (Agree.refl m)))
  files := by
    intro k
    have hfile : (assessed lines m).files k.file = if lines k = [] then none else some (savedText (lines k)) := by
      have hkernel := Kind.kernel.file_ne.2.2
      have hnic := Kind.nic.file_ne.2.2
      rw [assessed, keep_files, keep_files, keep_files]
      cases k with
      | bios => exact if_pos rfl
      | nic => exact (if_neg (Ne.symm (hnic .bios (by decide)))).trans (if_pos rfl)
      | kernel =>
        exact (if_neg (Ne.symm (hkernel .bios (by decide)))).trans
          ((if_neg (Ne.symm (hkernel .nic (by decide)))).trans (if_pos rfl))
    rw [hfile, opened]
    by_cases h : lines k = [] <;> simp [h]
  some_left := fun k h => of_decide_eq_true h

/-- Without a second `y` the file of the kernel's settings is left alone. -/
theorem effects_conf (hl : ∀ k, ∀ c ∈ lines k, CommandLine matching c) {acts : List Act}
    (hacts : ∀ k, Act.applied k true ∉ acts) (m : Machine σ) :
    (acts.foldl (Act.effect exec lines) m).files sysctlConf = m.files sysctlConf := by
  have hrun : ∀ (cs : List (List UInt8)) (m : Machine σ), (∀ c ∈ cs, CommandLine matching c) →
      (m.runAll exec cs).files sysctlConf = m.files sysctlConf := by
    intro cs
    induction cs with
    | nil => intro m _; rfl
    | cons c cs ih =>
      intro m hcs
      rw [List.forall_mem_cons] at hcs
      obtain ⟨ws, hws⟩ := hcs.1.hasWords
      rw [runAll_cons, ih _ hcs.2]
      exact run_files exec (.inl hws.parse_eq)
  induction acts generalizing m with
  | nil => rfl
  | cons a acts ih =>
    rw [List.foldl_cons, ih fun k hk => hacts k (List.mem_cons_of_mem a hk)]
    cases a with
    | applied k permanent =>
      cases permanent with
      | true => exact absurd List.mem_cons_self (hacts k)
      | false => exact hrun _ m (hl k)
    | pruned => exact removeOldLogs_files (by decide +kernel) (by decide +kernel)

end Ledger

def rmemMaxWords : List (List UInt8) := ["sysctl", "-w", "net.core.rmem_max=67108864"].map bytes

def ringWords : List (List UInt8) := ["ethtool", "-G", "eth100", "rx", "8192"].map bytes

def lroWords : List (List UInt8) := ["ethtool", "-K", "eth100", "lro", "on"].map bytes

/-- A command for the kernel and two for the NIC, as `dtn_tune` saves them. -/
def savedLines : Kind → List (List UInt8)
  | .kernel => [unwords rmemMaxWords]
  | .bios => []
  | .nic => [unwords ringWords, unwords lroWords ++ 32 :: noErrors]

example : savedLines .nic = ["ethtool -G eth100 rx 8192", "ethtool -K eth100 lro on 2>/dev/null"].map bytes := by
  decide +kernel

theorem commandLine_savedLines (k : Kind) : ∀ c ∈ savedLines k, CommandLine (fun _ => []) c := by
  have hplain : ∀ ws ∈ [rmemMaxWords, ringWords, lroWords], ∀ w ∈ ws, PlainWord w := by decide +kernel
  simp only [List.forall_mem_cons] at hplain
  obtain ⟨hkernel, hring, hlro, -⟩ := hplain
  cases k with
  | kernel => exact List.forall_mem_singleton.mpr (.of_words hkernel)
  | bios => exact List.forall_mem_nil _
  | nic =>
    exact List.forall_mem_cons.mpr ⟨.of_words hring,
      List.forall_mem_singleton.mpr ((CommandLine.of_words hlro).append_noErrors (by decide +kernel))⟩

/-- The kernel's for good, the old logs pruned, and then all that is left. -/
def twoAnswers : List (List UInt8) :=
  ["2", "y", "y", "", "6", "y", "", "5", "Y", "", "", "y", "", "", "8"].map bytes

example : ((turn ledger)^[4] ⟨opened savedLines, twoAnswers, false⟩).host.acts =
    [.applied .kernel true, .pruned, .applied .nic false] := by decide +kernel

end DtnMenu
end TuningMod

/-
# Starting and stopping the daemon

`userdtn_adm start` pins the listing of the sockets and the INT sink with its
maps, attaches the sink to the NIC and starts `user_dtn`; `stop` and `shutdown`
send it SIGINT and take all of that away. Each of them finds the daemon by its
line in `ps -ef`, and reads the NIC and the attach type from `user_config.txt`
as it is then. Without a daemon a `stop` takes nothing away.

Which hook of the kernel `bpftool` means by an attach type and a NIC is a
parameter, and whether its commands succeed is the outcome of a start. A program
is not pinned where one is, and not attached to a hook that is taken.

Key definitions: `egrep`, `Bpf`, `Host.start`, `Host.stop`, `step`, `Leaves`.
Key theorems: `egrep_userDtn`, `keeps_step`, `nothing_left`, `one_agent`.
-/
import TuningMod.CheckReq
import TuningMod.Lib.Runs
import TuningMod.Lib.Shell
import Mathlib.Data.List.DropRight

namespace TuningMod
namespace DaemonAdmin

/-! ### Lines of `ps` and of `user_config.txt` -/

/-- What follows a match of `pat( |$)`. -/
def ends : List UInt8 → Bool
  | [] => true
  | c :: _ => c = 32

/-- A pattern at the start of a line; `none` stands for its `.`. -/
def matchesAt : List (Option UInt8) → List UInt8 → Bool
  | [], s => ends s
  | _ :: _, [] => false
  | p :: pat, c :: s => p.all (· = c) && matchesAt pat s

/-- `egrep "pat( |$)"`. -/
def egrep (pat : List (Option UInt8)) : List UInt8 → Bool
  | [] => matchesAt pat []
  | c :: s => matchesAt pat (c :: s) || egrep pat s

/-- `user_dtn( |$)`, which a start looks for. -/
def userDtn : List (Option UInt8) := (bytes "user_dtn").map some

/-- ` ./user_dtn( |$)`, which a stop looks for. -/
def dotUserDtn : List (Option UInt8) := some 32 :: none :: some 47 :: userDtn

/-- A line that `egrep` finds and `sed -e '/egrep/d'` leaves. -/
def listed (pat : List (Option UInt8)) (line : List UInt8) : Bool := egrep pat line && !strstr (bytes "egrep") line

/-- The line of `./user_dtn $2`, behind its other columns. -/
def psLine (arg columns : List UInt8) : List UInt8 :=
  columns ++ 32 :: 46 :: 47 :: (bytes "user_dtn" ++ if arg = [] then [] else 32 :: arg)

/-- `$(grep key user_config.txt | awk '{print $2}')`. -/
def cfgVal (key : List UInt8) (userConfig : List (List UInt8)) : List UInt8 :=
  ([10].intercalate ((userConfig.filter (strstr key)).map fun l => (Shell.words l).getD 1 [])).rdropWhile (· = 10)

section Patterns

variable {pat pre : List (Option UInt8)} {s : List UInt8}

theorem egrep_of_matchesAt (h : matchesAt pat s = true) : egrep pat s = true := by
  cases s with
  | nil => exact h
  | cons c s => simp [egrep, h]

theorem egrep_append (pre : List UInt8) (h : egrep pat s = true) : egrep pat (pre ++ s) = true := by
  induction pre with
  | nil => exact h
  | cons c pre ih => simp [egrep, ih]

theorem egrep_of_append_matchesAt (h : matchesAt (pre ++ pat) s = true) : egrep pat s = true := by
  induction pre generalizing s with
  | nil => exact egrep_of_matchesAt h
  | cons p pre ih =>
    cases s with
    | nil => cases h
    | cons c s =>
      simp only [List.cons_append, matchesAt, Bool.and_eq_true] at h
      exact egrep_append [c] (ih h.2)

/-- A line with a pattern in it has the end of the pattern in it. -/
theorem egrep_of_append (h : egrep (pre ++ pat) s = true) : egrep pat s = true := by
  induction s with
  | nil => exact egrep_of_append_matchesAt h
  | cons c s ih =>
    simp only [egrep, Bool.or_eq_true] at h
    rcases h with h | h
    · exact egrep_of_append_matchesAt h
    · exact egrep_append [c] (ih h)

/-- **A daemon that a stop finds is found by a start.** -/
theorem egrep_userDtn (h : listed dotUserDtn s = true) : listed userDtn s = true := by
  have hpat : dotUserDtn = [some 32, none, some 47] ++ userDtn := rfl
  simp only [listed, Bool.and_eq_true, hpat] at h ⊢
  exact ⟨egrep_of_append h.1, h.2⟩

theorem matchesAt_map (w rest : List UInt8) : matchesAt (w.map some) (w ++ rest) = ends rest := by
  induction w with
  | nil => cases rest <;> rfl
  | cons c w ih => simp [matchesAt, ih]

/-- The daemon that a start brings up is found by a stop. -/
theorem egrep_psLine (arg columns : List UInt8) : egrep dotUserDtn (psLine arg columns) = true := by
  refine egrep_append columns (egrep_of_matchesAt ?_)
  have hrest : ends (if arg = [] then [] else 32 :: arg) = true := by
    split_ifs <;> rfl
  simp [dotUserDtn, matchesAt, userDtn, matchesAt_map, hrest]

end Patterns

/-! ### The script -/

/-- How the commands of a start turn out. A load that fails may have made the
directory for the maps. -/
structure Startup where
  pinned : Bool
  loaded : Bool
  mapsDir : Bool
  attaches : Bool
  process : Option (List UInt8)
  deriving DecidableEq

/-- What is in `/sys/fs/bpf`, and the hooks a sink is attached to. -/
structure Bpf (η : Type) where
  tcp4 : Bool := false
  test : Bool := false
  testMaps : Bool := false
  attached : List η := []
  deriving DecidableEq

structure Host (η : Type) where
  userConfig : List (List UInt8)
  ps : List (List UInt8)
  bpf : Bpf η := {}
  deriving DecidableEq

variable {η : Type}

namespace Host

variable (s : Host η)

def nic : List UInt8 := cfgVal (bytes "nic_to_use") s.userConfig
def attachType : List UInt8 := cfgVal (bytes "nic_attach_type") s.userConfig

def xdp : Bool := s.attachType ≠ bytes "noxdp"

/-- No daemon that a stop would find. -/
def Down : Prop := ∀ l ∈ s.ps, listed dotUserDtn l = false

/-- A daemon that keeps another from being started. -/
def Agent : Prop := ∃ l ∈ s.ps, listed userDtn l = true

instance : Decidable s.Down := inferInstanceAs (Decidable (∀ l ∈ s.ps, _))
instance : Decidable s.Agent := inferInstanceAs (Decidable (∃ l ∈ s.ps, _))

/-- `KillNamedProcess ./user_dtn`. -/
def killNamedProcess : Host η := { s with ps := s.ps.filter fun l => !listed dotUserDtn l }

/-- The hook that the script attaches to and detaches from. -/
def named (hook : List UInt8 → List UInt8 → Option η) : Option η := if s.xdp then hook s.attachType s.nic else none

variable {s}

theorem down_of_not_agent (h : ¬ s.Agent) : s.Down := by
  intro l hl
  by_contra hlisted
  exact h ⟨l, hl, egrep_userDtn (Bool.of_not_eq_false hlisted)⟩

theorem down_killNamedProcess : s.killNamedProcess.Down := by
  intro l hl
  simpa using (List.mem_filter.mp hl).2

end Host

variable [DecidableEq η]

namespace Bpf

variable (did : Startup) (b : Bpf η)

/-- `bpftool prog load … /sys/fs/bpf/test pinmaps /sys/fs/bpf/test_maps/`. -/
def load : Bpf η :=
  { b with test := b.test || did.loaded, testMaps := b.testMaps || did.loaded || did.mapsDir }

/-- `bpftool net attach $attach_type pinned /sys/fs/bpf/test dev $nic`. -/
def attach : Option η → Bpf η
  | none => b
  | some h => if did.attaches && b.test && h ∉ b.attached then { b with attached := h :: b.attached } else b

/-- A start, up to the daemon. -/
def start (xdp : Bool) (hook : Option η) : Bpf η :=
  let b := { b with tcp4 := did.pinned }
  if xdp then (b.load did).attach did hook else b

/-- A stop, from `bpftool net detach` on. -/
def stop (hook : Option η) : Bpf η := { attached := b.attached.filter fun h => some h ≠ hook }

end Bpf

namespace Host

variable (hook : List UInt8 → List UInt8 → Option η) (s : Host η)

/-- `userdtn_adm start arg`. -/
def start (arg : List UInt8) (did : Startup) : Host η :=
  if s.Agent then s
  else
    { s with
      bpf := s.bpf.start did s.xdp (s.named hook)
      ps := did.process.toList.map (psLine arg) ++ s.ps }

/-- `userdtn_adm stop`. -/
def stop : Host η :=
  if s.Down then s else { s.killNamedProcess with bpf := s.bpf.stop (s.named hook) }

/-- `userdtn_adm shutdown`, which asks. -/
def shutdown (answer : List UInt8) : Host η :=
  if answer = [121] ∨ answer = [89] then s.stop hook else s

end Host

/-- The script is run, a process ends or another begins, or the file is edited. -/
inductive Event where
  | start (arg : List UInt8) (did : Startup)
  | stop
  | shutdown (answer : List UInt8)
  | dies (line : List UInt8)
  | begins (line : List UInt8)
  | edit (userConfig : List (List UInt8))
  deriving DecidableEq

variable (hook : List UInt8 → List UInt8 → Option η)

def step (s : Host η) : Event → Option (Host η)
  | .start arg did => some (s.start hook arg did)
  | .stop => some (s.stop hook)
  | .shutdown answer => some (s.shutdown hook answer)
  | .dies line => if line ∈ s.ps then some { s with ps := s.ps.erase line } else none
  | .begins line => some { s with ps := line :: s.ps }
  | .edit userConfig => some { s with userConfig := userConfig }

/-! ### What is left behind -/

section Left

variable (s : Host η)

/-- A stop that takes something else away than is there. -/
def Host.Misses : Prop := ¬ s.Down ∧ ∃ h ∈ s.bpf.attached, s.named hook ≠ some h

/-- The steps that leave something behind without a daemon: a start whose daemon
does not come up (or that `ps` shows on a line with `egrep`), a stop that detaches
from another hook, and a daemon that dies. -/
def Leaves : Event → Prop
  | .start arg did => ¬ s.Agent ∧ s.bpf.start did s.xdp (s.named hook) ≠ {} ∧
      ∀ columns, did.process = some columns → listed dotUserDtn (psLine arg columns) = false
  | .stop => s.Misses hook
  | .shutdown answer => (answer = [121] ∨ answer = [89]) ∧ s.Misses hook
  | .dies line => s.bpf ≠ {} ∧ ∀ l ∈ s.ps.erase line, listed dotUserDtn l = false
  | .begins _ => False
  | .edit _ => False

/-- What is there is what one start has put there, on a host without anything. -/
def PutBy (init : Host η) (es : List Event) : Prop :=
  ∃ pre arg did suf u, es = pre ++ .start arg did :: suf ∧ Runs.run (step hook) init pre = some u ∧ u.bpf = {} ∧
    s.bpf = Bpf.start did {} u.xdp (u.named hook)

/-- Nothing is there without a daemon, and nothing that two starts have put there. -/
structure Tidy (init : Host η) (es : List Event) : Prop where
  down : s.Down → s.bpf = {}
  put : s.bpf = {} ∨ PutBy hook s init es

end Left

section Steps

variable {hook} {init s t : Host η} {es : List Event} {e : Event} {arg : List UInt8} {did : Startup}

theorem PutBy.snoc (h : PutBy hook s init es) (ht : t.bpf = s.bpf) : PutBy hook t init (es ++ [e]) := by
  obtain ⟨pre, arg, did, suf, u, rfl, hrun, hu, hs⟩ := h
  exact ⟨pre, arg, did, suf ++ [e], u, by simp, hrun, hu, ht.trans hs⟩

/-- A step that leaves `/sys/fs/bpf` and the hooks alone, and without a daemon had none before it. -/
theorem Tidy.same (h : Tidy hook s init es) (ht : t.bpf = s.bpf) (hdown : t.Down → s.Down) :
    Tidy hook t init (es ++ [e]) where
  down hd := ht.trans (h.down (hdown hd))
  put := h.put.imp ht.trans fun hp => hp.snoc ht

/-- A step that ends with nothing there. -/
theorem Tidy.of_empty (ht : t.bpf = {}) : Tidy hook t init es := ⟨fun _ => ht, .inl ht⟩

/-- Exactly what is attached to the hook the script names is taken away. -/
theorem Bpf.stop_eq_iff (b : Bpf η) (h : Option η) : b.stop h = {} ↔ ∀ a ∈ b.attached, h = some a := by
  simp only [Bpf.stop, Bpf.mk.injEq, true_and, List.filter_eq_nil_iff, decide_eq_true_eq, ne_eq, not_not]
  exact forall₂_congr fun a _ => eq_comm

theorem Host.start_of_agent (h : s.Agent) : s.start hook arg did = s := if_pos h

theorem Host.start_of_not_agent (h : ¬ s.Agent) : s.start hook arg did =
    { s with bpf := s.bpf.start did s.xdp (s.named hook), ps := did.process.toList.map (psLine arg) ++ s.ps } :=
  if_neg h

theorem Host.stop_of_down (h : s.Down) : s.stop hook = s := if_pos h

theorem Host.stop_of_not_down (h : ¬ s.Down) :
    s.stop hook = { s.killNamedProcess with bpf := s.bpf.stop (s.named hook) } := if_neg h

/-- After a start that goes ahead a daemon is missing if it has not come up, or cannot be found. -/
theorem down_start_iff (h : ¬ s.Agent) : (s.start hook arg did).Down ↔
    ∀ columns, did.process = some columns → listed dotUserDtn (psLine arg columns) = false := by
  have hdown := Host.down_of_not_agent h
  rw [Host.start_of_not_agent h]
  constructor
  · intro hd columns hc
    exact hd _ (List.mem_append_left _ (by simp [hc]))
  · intro hp l hl
    rcases List.mem_append.mp hl with hl | hl
    · obtain ⟨columns, hc, rfl⟩ := List.mem_map.mp hl
      exact hp columns (Option.mem_toList.mp hc)
    · exact hdown l hl

/-- **A start** that goes ahead finds nothing, and what is there after it is its own. -/
theorem tidy_start (h : Tidy hook s init es) (hrun : Runs.run (step hook) init es = some s)
    (hleaves : ¬ Leaves hook s (.start arg did)) : Tidy hook (s.start hook arg did) init (es ++ [.start arg did]) := by
  by_cases hagent : s.Agent
  · rw [Host.start_of_agent hagent]
    exact h.same rfl id
  · have hclean := h.down (Host.down_of_not_agent hagent)
    constructor
    · intro hd
      by_contra hbpf
      refine hleaves ⟨hagent, ?_, (down_start_iff hagent).mp hd⟩
      rwa [Host.start_of_not_agent hagent] at hbpf
    · refine .inr ⟨es, arg, did, [], s, rfl, hrun, hclean, ?_⟩
      rw [Host.start_of_not_agent hagent, hclean]

/-- **A stop** takes away what is there if it names the hook. -/
theorem tidy_stop (h : Tidy hook s init es) (hmisses : ¬ s.Misses hook) : Tidy hook (s.stop hook) init (es ++ [e]) := by
  by_cases hd : s.Down
  · rw [Host.stop_of_down hd]
    exact h.same rfl id
  · rw [Host.stop_of_not_down hd]
    refine .of_empty ((Bpf.stop_eq_iff _ _).mpr fun a ha => ?_)
    by_contra hne
    exact hmisses ⟨hd, a, ha, hne⟩

/-- A stop that misses a hook leaves something there without a daemon. -/
theorem Host.Misses.left (h : s.Misses hook) : (s.stop hook).Down ∧ (s.stop hook).bpf ≠ {} := by
  obtain ⟨hd, a, ha, hne⟩ := h
  rw [Host.stop_of_not_down hd]
  exact ⟨Host.down_killNamedProcess, fun hb => hne ((Bpf.stop_eq_iff _ _).mp hb a ha)⟩

theorem step_dies {line : List UInt8} (hs : step hook s (.dies line) = some t) :
    line ∈ s.ps ∧ t = { s with ps := s.ps.erase line } := by
  simp only [step] at hs
  split_ifs at hs with hline
  exact ⟨hline, (Option.some.inj hs).symm⟩

/-- **One step.** -/
theorem keeps_step (h : Tidy hook s init es) (hrun : Runs.run (step hook) init es = some s)
    (hleaves : ¬ Leaves hook s e) (hs : step hook s e = some t) : Tidy hook t init (es ++ [e]) := by
  cases e with
  | start arg did =>
    cases hs
    exact tidy_start h hrun hleaves
  | stop =>
    cases hs
    exact tidy_stop h hleaves
  | shutdown answer =>
    cases hs
    unfold Host.shutdown
    split_ifs with hyes
    · exact tidy_stop h fun hm => hleaves ⟨hyes, hm⟩
    · exact h.same rfl id
  | dies line =>
    obtain ⟨-, rfl⟩ := step_dies hs
    refine ⟨fun hd => ?_, h.put.imp_right fun hp => hp.snoc rfl⟩
    by_contra hbpf
    exact hleaves ⟨hbpf, hd⟩
  | begins line =>
    cases hs
    exact h.same rfl fun hd l hl => hd l (List.mem_cons_of_mem _ hl)
  | edit userConfig =>
    cases hs
    exact h.same rfl id

/-- **A step that leaves something behind.** -/
theorem left_step (hleaves : Leaves hook s e) (hs : step hook s e = some t) : t.Down ∧ t.bpf ≠ {} := by
  cases e with
  | start arg did =>
    cases hs
    obtain ⟨hagent, hbpf, hprocess⟩ := hleaves
    refine ⟨(down_start_iff hagent).mpr hprocess, ?_⟩
    rwa [Host.start_of_not_agent hagent]
  | stop =>
    cases hs
    exact hleaves.left
  | shutdown answer =>
    cases hs
    rw [Host.shutdown, if_pos hleaves.1]
    exact hleaves.2.left
  | dies line =>
    obtain ⟨-, rfl⟩ := step_dies hs
    exact hleaves.symm
  | begins line => exact hleaves.elim
  | edit userConfig => exact hleaves.elim

end Steps

/-! ### Runs -/

/-- **Nothing is left.** On a host without anything of the daemon's: whatever
starts, stops, shutdowns and edits of the file follow, nothing is there whenever
no daemon is, and what is there with one is what its start has put there,
exactly if no step leaves something behind. -/
theorem nothing_left (userConfig ps : List (List UInt8)) (es : List Event) :
    Runs.Always (step hook) ⟨userConfig, ps, {}⟩ (fun pre s => Tidy hook s ⟨userConfig, ps, {}⟩ pre) es ↔
      Runs.Steps (step hook) ⟨userConfig, ps, {}⟩ (fun _ s e => ¬ Leaves hook s e) es := by
  refine Runs.always_iff_steps (.of_empty rfl) ?_ (fun _ _ _ h => h) ?_ es
  · intro pre s e t hrun h hleaves hs
    exact keeps_step h hrun hleaves hs
  · intro pre s e t _ _ hleaves hs h
    obtain ⟨hd, hbpf⟩ := left_step (not_not.mp hleaves) hs
    exact hbpf (h.down hd)

/-- A `user_config.txt` with an attach type. -/
def configFile (attachType : String) : List (List UInt8) :=
  [bytes "nic_to_use\t\tens1f0", bytes ("nic_attach_type\t\t" ++ attachType)]

/-- Every command of a start succeeds. -/
def allWell : Startup := ⟨true, true, false, true, some (bytes "root 4711 1 0 08:00 ? 00:00:00")⟩

/-- The file is set to `noxdp` under a daemon: the sink stays where it is, without its pin and its maps. -/
example : (Runs.run (step fun attachType _ => some attachType) ⟨configFile "xdpdrv", [], {}⟩
    [.start [] allWell, .edit (configFile "noxdp"), .stop]).map (fun s => (s.ps, s.bpf)) =
      some ([], { attached := [bytes "xdpdrv"] }) := by
  decide +kernel

section Careful

variable {hook} {init s t : Host η} {es : List Event} {e : Event}

/-- A daemon that is lost, or a file that is edited under a daemon. -/
def Careless (hook : List UInt8 → List UInt8 → Option η) (s : Host η) : Event → Prop
  | .stop => False
  | .shutdown _ => False
  | .edit userConfig => ¬ s.Down ∧ ({ s with userConfig := userConfig } : Host η).named hook ≠ s.named hook
  | e => Leaves hook s e

/-- The sink is attached nowhere but to the hook that the file names. -/
def Host.Follows (hook : List UInt8 → List UInt8 → Option η) (s : Host η) : Prop :=
  ∀ h ∈ s.bpf.attached, s.named hook = some h

theorem not_leaves (hf : s.Follows hook) (hcareful : ¬ Careless hook s e) : ¬ Leaves hook s e := by
  have hmisses : ¬ s.Misses hook := fun ⟨_, h, hh, hne⟩ => hne (hf h hh)
  cases e with
  | stop => exact hmisses
  | shutdown answer => exact fun h => hmisses h.2
  | edit userConfig => exact id
  | start | dies | begins => exact hcareful

theorem Bpf.attached_attach (did : Startup) (b : Bpf η) (hook : Option η) :
    ∀ h ∈ (b.attach did hook).attached, h ∈ b.attached ∨ hook = some h := by
  intro h hh
  cases hook with
  | none => exact .inl hh
  | some k =>
    simp only [Bpf.attach] at hh
    split_ifs at hh
    · exact (List.mem_cons.mp hh).symm.imp id fun hk => by rw [hk]
    · exact .inl hh

theorem Bpf.attached_start (did : Startup) (xdp : Bool) (hook : Option η) :
    ∀ h ∈ (Bpf.start did {} xdp hook).attached, hook = some h := by
  intro h hh
  cases xdp with
  | false => cases hh
  | true => exact (Bpf.attached_attach did _ hook h hh).resolve_left List.not_mem_nil

theorem Host.Follows.start (hf : s.Follows hook) (hdown : s.Down → s.bpf = {}) {arg : List UInt8} {did : Startup} :
    (s.start hook arg did).Follows hook := by
  by_cases hagent : s.Agent
  · rwa [Host.start_of_agent hagent]
  · rw [Host.start_of_not_agent hagent, hdown (Host.down_of_not_agent hagent)]
    exact Bpf.attached_start did _ _

theorem Host.Follows.stop (hf : s.Follows hook) : (s.stop hook).Follows hook := by
  by_cases hd : s.Down
  · rwa [Host.stop_of_down hd]
  · rw [Host.stop_of_not_down hd]
    exact fun h hh => hf h (List.mem_filter.mp hh).1

theorem Host.Follows.step (hf : s.Follows hook) (hdown : s.Down → s.bpf = {}) (hcareful : ¬ Careless hook s e)
    (hs : step hook s e = some t) : t.Follows hook := by
  cases e with
  | start arg did =>
    cases hs
    exact hf.start hdown
  | stop =>
    cases hs
    exact hf.stop
  | shutdown answer =>
    cases hs
    unfold Host.shutdown
    split_ifs
    · exact hf.stop
    · exact hf
  | dies line =>
    obtain ⟨-, rfl⟩ := step_dies hs
    exact hf
  | begins line =>
    cases hs
    exact hf
  | edit userConfig =>
    cases hs
    intro h hh
    by_cases hd : s.Down
    · rw [hdown hd] at hh
      cases hh
    · have hsame := not_not.mp fun hne => hcareful ⟨hd, hne⟩
      exact hsame.trans (hf h hh)

/-- **Careful operators.** Where no daemon is lost and the file names the same hook
as long as a daemon runs, nothing is left. -/
theorem careful (userConfig ps : List (List UInt8)) (hcareful :
    Runs.Steps (step hook) ⟨userConfig, ps, {}⟩ (fun _ s e => ¬ Careless hook s e) es) :
    Runs.Always (step hook) ⟨userConfig, ps, {}⟩ (fun pre s => Tidy hook s ⟨userConfig, ps, {}⟩ pre) es := by
  refine (Runs.always_of_steps (I := fun pre s => Tidy hook s ⟨userConfig, ps, {}⟩ pre ∧ s.Follows hook)
    ⟨.of_empty rfl, fun _ hh => (List.not_mem_nil hh).elim⟩ ?_ hcareful).imp fun _ _ _ h => h.1
  rintro pre s e t hrun ⟨h, hf⟩ hc hs
  exact ⟨keeps_step h hrun (not_leaves hf hc) hs, hf.step h.down hc hs⟩

end Careful

/-! ### One daemon -/

section Agents

variable {hook} {s t : Host η} {e : Event}

/-- The processes that keep a daemon from being started. -/
def Host.agents (s : Host η) : ℕ := s.ps.countP (listed userDtn)

theorem agents_start (h : s.agents ≤ 1) {arg : List UInt8} {did : Startup} : (s.start hook arg did).agents ≤ 1 := by
  by_cases hagent : s.Agent
  · rwa [Host.start_of_agent hagent]
  · rw [Host.start_of_not_agent hagent]
    have hnone : s.ps.countP (listed userDtn) = 0 := by
      rw [List.countP_eq_zero]
      exact fun l hl hlisted => hagent ⟨l, hl, hlisted⟩
    simp only [Host.agents, List.countP_append, hnone, Nat.add_zero]
    refine List.countP_le_length.trans ?_
    cases did.process <;> simp

theorem agents_stop : (s.stop hook).agents ≤ s.agents := by
  by_cases hd : s.Down
  · rw [Host.stop_of_down hd]
  · rw [Host.stop_of_not_down hd]
    exact List.filter_sublist.countP_le

theorem agents_step (h : s.agents ≤ 1) (hbegins : ∀ line, e = .begins line → listed userDtn line = false)
    (hs : step hook s e = some t) : t.agents ≤ 1 := by
  cases e with
  | start arg did =>
    cases hs
    exact agents_start h
  | stop =>
    cases hs
    exact agents_stop.trans h
  | shutdown answer =>
    cases hs
    unfold Host.shutdown
    split_ifs
    · exact agents_stop.trans h
    · exact h
  | dies line =>
    obtain ⟨-, rfl⟩ := step_dies hs
    exact List.erase_sublist.countP_le.trans h
  | begins line =>
    cases hs
    simpa [Host.agents, hbegins line rfl] using h
  | edit userConfig =>
    cases hs
    exact h

/-- **Only one agent.** Unless another process looks like one, the script never has
two daemons running. -/
theorem one_agent {init : Host η} (h : init.agents ≤ 1) {es : List Event}
    (hes : ∀ line, .begins line ∈ es → listed userDtn line = false) :
    Runs.Always (step hook) init (fun _ s => s.agents ≤ 1) es := by
  have hsteps :
      Runs.Steps (step hook) init (fun _ _ e => ∀ line, e = .begins line → listed userDtn line = false) es := by
    rintro pre e suf s t rfl - - line rfl
    exact hes line (by simp)
  refine Runs.always_of_steps h ?_ hsteps
  intro pre s e t _ hs hbegins hstep
  exact agents_step hs hbegins hstep

end Agents

end DaemonAdmin
end TuningMod

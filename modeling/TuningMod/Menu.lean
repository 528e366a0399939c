/-
# Applying the recommendations from the menu

`user_menu.sh` with `apply_all_recommended_settings`, which a request to the
daemon runs, goes through the files that the assessment left. `sed` takes a line
by its number, `echo` puts it into a file, and `sh` runs that file; a line for
the kernel is run a second time with its output appended to `/etc/sysctl.conf`.

A host that was assessed with `n` and is then served from the menu ends up as
one that was assessed with `y`: the same commands have run, the file of the
kernel's settings has the same lines, and no file is left behind.

Key definitions: `Menu.throughFile`, `Menu.turns`, `Menu.applySettings`, `Menu.applyAllRecommendedSettings`.
Key theorems: `Menu.turns_agree`, `Menu.applySettings_served`, `Menu.applies_all`.
-/
import TuningMod.Assessment

namespace TuningMod
namespace Menu

open Shell Machine

def tunAppCommand : List UInt8 := bytes "/tmp/tun_app_command"

section Script

variable {σ : Type} (exec : List (List UInt8) → σ → σ × List UInt8) (matching : List UInt8 → List (List UInt8))

/-- `sh` on a file. -/
def shFile (f : List UInt8) (m : Machine σ) : Machine σ := m.runAll exec (((m.files f).getD []).splitOn 10)

/-- `echo` into the file with the command, and `sh` on it. -/
def throughFile (text : List UInt8) (m : Machine σ) : Machine σ :=
  shFile exec tunAppCommand (m.write tunAppCommand (text ++ [10]))

/-- The body of the three loops. That for the kernel, where `sysctlmodified` is
1, runs the line again. -/
def turn (sysctlmodified : Bool) (linenum : List UInt8) (m : Machine σ) : Machine σ :=
  let m := throughFile exec (echoed matching linenum) m
  if sysctlmodified then throughFile exec (linenum ++ bytes " >> /etc/sysctl.conf") m else m

/-- So many turns, with `count` at the first of them. -/
def turns (sysctlmodified : Bool) (f : List UInt8) : ℕ → ℕ → Machine σ → Machine σ
  | 0, _, m => m
  | n + 1, count, m =>
    turns sysctlmodified f n (count + 1) (turn exec matching sysctlmodified (lineAt count ((m.files f).getD [])) m)

/-- The three functions. The loop goes on while `count`, from 2 on, is below `nlines`. -/
def applySettings (sysctlmodified : Bool) (f : List UInt8) (m : Machine σ) : Machine σ :=
  match m.files f with
  | none => m
  | some file =>
    let nlines := decimal (lineAt 1 file)
    let m := if sysctlmodified then m.run exec startText else m
    let m := turns exec matching sysctlmodified f (nlines - 2) 2 m
    let m := if sysctlmodified then m.run exec endText else m
    (m.remove tunAppCommand).remove f

def applyRecommendedKernelSettings : Machine σ → Machine σ := applySettings exec matching true kernelFile

def applyRecommendedBiosSettings : Machine σ → Machine σ := applySettings exec matching false biosFile

def applyRecommendedNicSettings : Machine σ → Machine σ := applySettings exec matching false nicFile

def applyAllRecommendedSettings (m : Machine σ) : Machine σ :=
  if (m.files kernelFile).isSome || (m.files biosFile).isSome || (m.files nicFile).isSome then
    applyRecommendedNicSettings exec matching
      (applyRecommendedBiosSettings exec matching (applyRecommendedKernelSettings exec matching m))
  else m

end Script

section Turns

variable {σ : Type} {exec : List (List UInt8) → σ → σ × List UInt8} {matching : List UInt8 → List (List UInt8)}
  {scratch : List (List UInt8)} {m m' : Machine σ} {t c f g : List UInt8} {l : List (List UInt8)} {b : Bool}

/-- The commands a line is run as. -/
def runs (sysctlmodified : Bool) (c : List UInt8) : List (List UInt8) :=
  if sysctlmodified then [c, toConf c] else [c]

theorem notMem_toConf (h : 10 ∉ c) : 10 ∉ toConf c := by
  rw [toConf, List.mem_append, not_or]
  exact ⟨h, by decide +kernel⟩

theorem parse_toConf {ws : List (List UInt8)} (h : HasWords c ws) : parse (toConf c) = some ⟨ws, some sysctlConf⟩ := by
  have hparse := parse_append h (f := sysctlConf) (by decide) (by decide +kernel)
  rw [List.append_assoc] at hparse
  exact hparse

theorem throughFile_eq (ht : 10 ∉ t) : throughFile exec t m = (m.write tunAppCommand (t ++ [10])).run exec t := by
  have hlines : (t ++ [10]).splitOn 10 = [t, []] := by
    have hsplit := splitOn_unlines (List.forall_mem_singleton.mpr ht)
    rwa [unlines, List.flatMap_singleton] at hsplit
  rw [throughFile, shFile, write_self, Option.getD_some, hlines, runAll_cons, runAll_cons, run_nil]
  rfl

theorem throughFile_agree (htun : tunAppCommand ∈ scratch) (h : Agree scratch m m') (ht : 10 ∉ t) :
    Agree scratch (throughFile exec t m) (m'.run exec t) := by
  rw [throughFile_eq ht]
  exact (h.write htun _).run exec t

/-- **One turn.** -/
theorem turn_agree (htun : tunAppCommand ∈ scratch) (h : Agree scratch m m') (hc : CommandLine matching c) :
    Agree scratch (turn exec matching b c m) (m'.runAll exec (runs b c)) := by
  have hfirst : Agree scratch (throughFile exec c m) (m'.run exec c) := throughFile_agree htun h hc.one_line
  rw [turn, echoed_eq hc.steady]
  cases b with
  | false => exact hfirst
  | true => exact throughFile_agree htun hfirst (notMem_toConf hc.one_line)

/-- It leaves every other file alone. -/
theorem turn_files (hc : CommandLine matching c) (htun : g ≠ tunAppCommand) (hconf : g ≠ sysctlConf) :
    (turn exec matching b c m).files g = m.files g := by
  obtain ⟨ws, hws⟩ := hc.hasWords
  have hfirst : (throughFile exec c m).files g = m.files g := by
    rw [throughFile_eq hc.one_line, run_files exec (.inl hws.parse_eq), write_of_ne htun]
  have hsecond : ∀ m : Machine σ, (throughFile exec (toConf c) m).files g = m.files g := by
    intro m
    rw [throughFile_eq (notMem_toConf hc.one_line), run_files exec (.inr ⟨sysctlConf, hconf.symm, parse_toConf hws⟩),
      write_of_ne htun]
  rw [turn, echoed_eq hc.steady]
  cases b with
  | false => exact hfirst
  | true => exact (hsecond _).trans hfirst

/-- A line of the file: the number comes first. -/
theorem lineAt_savedText (hl : ∀ c ∈ l, 10 ∉ c) {i : ℕ} (hi : i < l.length) :
    lineAt (i + 2) (savedText l) = l[i] := by
  have hten : ∀ c ∈ uText (l.length + 2) :: l, 10 ∉ c := by
    rw [List.forall_mem_cons]
    exact ⟨notMem_uText rfl, hl⟩
  exact lineAt_unlines hten (Nat.succ_lt_succ hi)

theorem nlines_savedText (hl : ∀ c ∈ l, 10 ∉ c) : decimal (lineAt 1 (savedText l)) = l.length + 2 := by
  have hten : ∀ c ∈ uText (l.length + 2) :: l, 10 ∉ c := by
    rw [List.forall_mem_cons]
    exact ⟨notMem_uText rfl, hl⟩
  have hfirst : lineAt 1 (savedText l) = uText (l.length + 2) := lineAt_unlines hten (Nat.succ_pos _)
  rw [hfirst, decimal_uText]

/-- **All turns.** By induction on the lines that are left, where the file still is as it was. -/
theorem turns_agree (htun : tunAppCommand ∈ scratch) (hl : ∀ c ∈ l, CommandLine matching c) (hftun : f ≠ tunAppCommand)
    (hfconf : f ≠ sysctlConf) {done rest : List (List UInt8)} (hsplit : l = done ++ rest)
    (hf : m.files f = some (savedText l)) (h : Agree scratch m m') :
    Agree scratch (turns exec matching b f rest.length (done.length + 2) m) (m'.runAll exec (rest.flatMap (runs b))) ∧
      ∀ g, g ≠ tunAppCommand → g ≠ sysctlConf →
        (turns exec matching b f rest.length (done.length + 2) m).files g = m.files g := by
  induction rest generalizing done m m' with
  | nil => exact ⟨h, fun _ _ _ => rfl⟩
  | cons c rest ih =>
    have hc : CommandLine matching c := hl c (by rw [hsplit]; simp)
    have hline : lineAt (done.length + 2) ((m.files f).getD []) = c := by
      rw [hf, Option.getD_some, lineAt_savedText (fun d hd => (hl d hd).one_line) (by simp [hsplit])]
      simp [hsplit]
    have hsplit' : l = (done ++ [c]) ++ rest := by rw [hsplit, List.append_cons]
    have hf' : (turn exec matching b c m).files f = some (savedText l) := by rw [turn_files hc hftun hfconf, hf]
    obtain ⟨hagree, hfiles⟩ := ih hsplit' hf' (turn_agree htun h hc)
    rw [List.length_append, List.length_singleton] at hagree hfiles
    rw [List.length_cons, turns, hline, List.flatMap_cons, runAll_append]
    exact ⟨hagree, fun g hgtun hgconf => (hfiles g hgtun hgconf).trans (turn_files hc hgtun hgconf)⟩

/-! ### The three functions -/

theorem parse_startText : parse startText =
    some ⟨[bytes "echo", bytes "#Start of tuningMod modifications"], some sysctlConf⟩ := by decide +kernel

theorem parse_endText : parse endText =
    some ⟨[bytes "echo", bytes "#End of tuningMod modifications"], some sysctlConf⟩ := by decide +kernel

/-- The comment before the first command, or behind it. -/
theorem runAll_modifications (hl : ∀ c ∈ l, CommandLine matching c) (hne : l ≠ []) (m : Machine σ) :
    (((m.run exec startText).runAll exec (l.flatMap (runs true))).run exec endText) =
      m.runAll exec (modifications l) := by
  obtain ⟨c, cs, rfl⟩ := List.exists_cons_of_ne_nil hne
  obtain ⟨ws, hws⟩ := (hl c List.mem_cons_self).hasWords
  have hcomm := run_comm_echo exec hws.parse_eq parse_startText (m := m)
  rw [modifications, if_neg hne, permanently, runAll_append, List.flatMap_cons, runAll_append]
  simp only [runs, if_true, runAll_cons, hcomm]
  rfl

/-- What is run for the lines of a file. -/
def served (sysctlmodified : Bool) (l : List (List UInt8)) : List (List UInt8) :=
  if sysctlmodified then modifications l else l

/-- From `m` to `r` the menu has run `cs` and removed a file; `m'` is the host
without the files in `scratch`. -/
structure Served {σ : Type} (exec : List (List UInt8) → σ → σ × List UInt8) (scratch : List (List UInt8))
    (f : List UInt8) (cs : List (List UInt8)) (m' m r : Machine σ) : Prop where
  agree : Agree scratch r (m'.runAll exec cs)
  gone : r.files f = none
  others : ∀ g, g ≠ f → g ≠ tunAppCommand → g ≠ sysctlConf → r.files g = m.files g

/-- **One function of the menu.** -/
theorem applySettings_served (htun : tunAppCommand ∈ scratch) (hfs : f ∈ scratch) (hl : ∀ c ∈ l, CommandLine matching c)
    (hftun : f ≠ tunAppCommand) (hfconf : f ≠ sysctlConf) (hf : m.files f = if l = [] then none else some (savedText l))
    (h : Agree scratch m m') :
    Served exec scratch f (served b l) m' m (applySettings exec matching b f m) := by
  by_cases hne : l = []
  · subst hne
    rw [if_pos rfl] at hf
    rw [applySettings, hf]
    refine ⟨?_, hf, fun _ _ _ _ => rfl⟩
    cases b <;> exact h
  · rw [if_neg hne] at hf
    have hstart : ∀ m : Machine σ, ∀ g, g ≠ sysctlConf → (m.run exec startText).files g = m.files g :=
      fun m g hg => run_files exec (.inr ⟨sysctlConf, hg.symm, parse_startText⟩)
    have hend : ∀ m : Machine σ, ∀ g, g ≠ sysctlConf → (m.run exec endText).files g = m.files g :=
      fun m g hg => run_files exec (.inr ⟨sysctlConf, hg.symm, parse_endText⟩)
    have hturns : ∀ {m m' : Machine σ}, m.files f = some (savedText l) → Agree scratch m m' →
        Agree scratch (turns exec matching b f l.length 2 m) (m'.runAll exec (l.flatMap (runs b))) ∧
          ∀ g, g ≠ tunAppCommand → g ≠ sysctlConf → (turns exec matching b f l.length 2 m).files g = m.files g :=
      fun hf h => turns_agree htun hl hftun hfconf (List.nil_append l).symm hf h
    rw [applySettings, hf]
    dsimp only
    rw [nlines_savedText fun c hc => (hl c hc).one_line, Nat.add_sub_cancel]
    cases b with
    | false =>
      obtain ⟨hagree, hfiles⟩ := hturns hf h
      refine ⟨?_, remove_self _ _, fun g hg hgtun hgconf => ?_⟩
      · have hruns : l.flatMap (runs false) = l := List.flatMap_singleton' l
        rw [hruns] at hagree
        exact (hagree.remove htun).remove hfs
      · rw [remove_of_ne hg, remove_of_ne hgtun]
        exact hfiles g hgtun hgconf
    | true =>
      obtain ⟨hagree, hfiles⟩ := hturns ((hstart m f hfconf).trans hf) (h.run exec startText)
      refine ⟨?_, remove_self _ _, fun g hg hgtun hgconf => ?_⟩
      · have hagree := hagree.run exec endText
        rw [runAll_modifications hl hne] at hagree
        exact (hagree.remove htun).remove hfs
      · rw [remove_of_ne hg, remove_of_ne hgtun]
        exact (hend _ g hgconf).trans ((hfiles g hgtun hgconf).trans (hstart m g hgconf))

end Turns

/-! ### Two hosts -/

section Hosts

variable {σ : Type} {exec : List (List UInt8) → σ → σ × List UInt8} {matching : List UInt8 → List (List UInt8)}
  {m m' : Machine σ} {k n b : List (List UInt8)}

/-- What the menu removes. -/
def scratch : List (List UInt8) := [tunAppCommand, kernelFile, biosFile, nicFile]

theorem keep_files {f g : List UInt8} {l : List (List UInt8)} :
    (keep f l m).files g = if g = f then (if l = [] then none else some (savedText l)) else m.files g := by
  unfold keep
  by_cases hg : g = f
  · subst hg
    by_cases hl : l = []
    · rw [if_pos hl, if_pos rfl, if_pos hl, remove_self]
    · rw [if_neg hl, if_pos rfl, if_neg hl, write_self]
  · by_cases hl : l = []
    · rw [if_pos hl, if_neg hg, remove_of_ne hg]
    · rw [if_neg hl, if_neg hg, write_of_ne hg]

theorem keep_agree {f : List UInt8} {l : List (List UInt8)} (hf : f ∈ scratch) (h : Agree scratch m m') :
    Agree scratch (keep f l m) m' := by
  unfold keep
  split_ifs
  · exact h.remove hf
  · exact h.write hf _

theorem applySettings_of_none {f : List UInt8} {permanent : Bool} (hf : m.files f = none) :
    applySettings exec matching permanent f m = m := by
  rw [applySettings, hf]

/-- The test at the start saves nothing. -/
theorem applyAll_eq (m : Machine σ) : applyAllRecommendedSettings exec matching m =
    applyRecommendedNicSettings exec matching
      (applyRecommendedBiosSettings exec matching (applyRecommendedKernelSettings exec matching m)) := by
  unfold applyAllRecommendedSettings
  split_ifs with h
  · rfl
  · simp only [Bool.or_eq_true, not_or, Option.not_isSome_iff_eq_none] at h
    obtain ⟨⟨hk, hb⟩, hn⟩ := h
    rw [applyRecommendedKernelSettings, applySettings_of_none hk, applyRecommendedBiosSettings,
      applySettings_of_none hb, applyRecommendedNicSettings, applySettings_of_none hn]

/-- No two of the files are the same. -/
theorem files_nodup : [tunAppCommand, kernelFile, biosFile, nicFile, sysctlConf].Nodup := by decide +kernel

/-- The three files, one after the other. -/
theorem applyAll_agree (exec : List (List UInt8) → σ → σ × List UInt8) (m : Machine σ)
    (hk : ∀ c ∈ k, CommandLine matching c) (hb : ∀ c ∈ b, CommandLine matching c)
    (hn : ∀ c ∈ n, CommandLine matching c) :
    Agree scratch (applyAllRecommendedSettings exec matching (keep biosFile b (keep nicFile n (keep kernelFile k m))))
        (m.runAll exec (modifications k ++ b ++ n)) ∧
      ∀ f ∈ [kernelFile, biosFile, nicFile], (applyAllRecommendedSettings exec matching
        (keep biosFile b (keep nicFile n (keep kernelFile k m)))).files f = none := by
  have hnodup := files_nodup
  simp only [List.nodup_cons, List.mem_cons, List.not_mem_nil, or_false, not_or] at hnodup
  obtain ⟨⟨htk, htb, htn, -⟩, ⟨hkb, hkn, hkc⟩, ⟨hbn, hbc⟩, hnc, -⟩ := hnodup
  have hscratch : tunAppCommand ∈ scratch ∧ kernelFile ∈ scratch ∧ biosFile ∈ scratch ∧ nicFile ∈ scratch := by
    simp [scratch]
  obtain ⟨ht, hks, hbs, hns⟩ := hscratch
  rw [applyAll_eq]
  set m₁ := keep biosFile b (keep nicFile n (keep kernelFile k m)) with hm₁
  have hstart : Agree scratch m₁ m := keep_agree hbs (keep_agree hns (keep_agree hks (Agree.refl m)))
  have hfk : m₁.files kernelFile = if k = [] then none else some (savedText k) := by
    rw [hm₁, keep_files, if_neg hkb, keep_files, if_neg hkn, keep_files, if_pos rfl]
  have hfb : m₁.files biosFile = if b = [] then none else some (savedText b) := by
    rw [hm₁, keep_files, if_pos rfl]
  have hfn : m₁.files nicFile = if n = [] then none else some (savedText n) := by
    rw [hm₁, keep_files, if_neg (Ne.symm hbn), keep_files, if_pos rfl]
  have hkernel : Served exec scratch kernelFile (modifications k) m m₁
      (applyRecommendedKernelSettings exec matching m₁) :=
    applySettings_served (b := true) ht hks hk (Ne.symm htk) hkc hfk hstart
  set m₂ := applyRecommendedKernelSettings exec matching m₁
  have hbios : Served exec scratch biosFile b (m.runAll exec (modifications k)) m₂
      (applyRecommendedBiosSettings exec matching m₂) :=
    applySettings_served (b := false) ht hbs hb (Ne.symm htb) hbc
      ((hkernel.others _ (Ne.symm hkb) (Ne.symm htb) hbc).trans hfb) hkernel.agree
  set m₃ := applyRecommendedBiosSettings exec matching m₂
  have hnic : Served exec scratch nicFile n ((m.runAll exec (modifications k)).runAll exec b) m₃
      (applyRecommendedNicSettings exec matching m₃) :=
    applySettings_served (b := false) ht hns hn (Ne.symm htn) hnc
      ((hbios.others _ (Ne.symm hbn) (Ne.symm htn) hnc).trans
        ((hkernel.others _ (Ne.symm hkn) (Ne.symm htn) hnc).trans hfn)) hbios.agree
  refine ⟨?_, ?_⟩
  · rw [runAll_append, runAll_append]
    exact hnic.agree
  · simp only [List.forall_mem_cons]
    refine ⟨?_, ?_, hnic.gone, List.forall_mem_nil _⟩
    · exact (hnic.others _ hkn (Ne.symm htk) hkc).trans ((hbios.others _ hkb (Ne.symm htk) hkc).trans hkernel.gone)
    · exact (hnic.others _ hbn (Ne.symm htb) hbc).trans hbios.gone

/-- With nothing to keep the files are removed. -/
theorem keep_nothing (m : Machine σ) : Agree scratch (keep biosFile [] (keep nicFile [] (keep kernelFile [] m))) m ∧
    ∀ f ∈ [kernelFile, biosFile, nicFile],
      (keep biosFile [] (keep nicFile [] (keep kernelFile [] m))).files f = none := by
  refine ⟨keep_agree (by simp [scratch]) (keep_agree (by simp [scratch]) (keep_agree (by simp [scratch])
    (Agree.refl m))), ?_⟩
  intro f hf
  simp only [List.mem_cons, List.not_mem_nil, or_false] at hf
  simp only [keep_files, if_pos]
  rcases hf with rfl | rfl | rfl <;> simp

/-- Two hosts that agree, and have none of the three files, are the same once the file with the command is gone. -/
theorem remove_eq (h : Agree scratch m m') (hm : ∀ f ∈ [kernelFile, biosFile, nicFile], m.files f = none)
    (hm' : ∀ f ∈ [kernelFile, biosFile, nicFile], m'.files f = none) :
    m.remove tunAppCommand = m'.remove tunAppCommand := by
  have hnone : ∀ m : Machine σ, (∀ f ∈ [kernelFile, biosFile, nicFile], m.files f = none) →
      ∀ f ∈ scratch, (m.remove tunAppCommand).files f = none := by
    intro m hm f hf
    rcases eq_or_ne f tunAppCommand with rfl | hne
    · exact remove_self m _
    · rw [remove_of_ne hne]
      exact hm f ((List.mem_cons.mp hf).resolve_left hne)
  have hagree : Agree scratch (m.remove tunAppCommand) (m'.remove tunAppCommand) :=
    (((h.remove List.mem_cons_self).symm).remove List.mem_cons_self).symm
  exact hagree.eq (hnone m hm) (hnone m' hm')

end Hosts

/-- **The menu does what the assessment would have done.** -/
theorem applies_all {σ : Type} (exec : List (List UInt8) → σ → σ × List UInt8)
    (matching : List UInt8 → List (List UInt8)) (a : Assessment) (modes : Modes) (m : Machine σ)
    (hkernel : modes.gApplyDefSysTuning ≠ 121) (hbios : modes.gApplyBiosTuning ≠ 121)
    (hnic : modes.gApplyNicTuning ≠ 121) (hdevice : PlainWord a.netDevice) (hgovernor : matching governorWord = []) :
    (a.userAssess modes exec m).map (fun m => (applyAllRecommendedSettings exec matching m).remove tunAppCommand) =
      (a.userAssess Assessment.applied exec m).map fun m => m.remove tunAppCommand := by
  obtain ⟨k, hk, hk', hkl⟩ : ∃ o : Option (List (List UInt8)), _ ∧ _ ∧ ∀ l, o = some l →
      ∀ c ∈ l, CommandLine matching c := Assessment.kernel_mirrors hkernel
  obtain ⟨b, hb, hb', hbl⟩ : ∃ o : Option (List (List UInt8)), _ ∧ _ ∧ ∀ l, o = some l →
      ∀ c ∈ l, CommandLine matching c := Assessment.bios_mirrors hbios hgovernor
  obtain ⟨n, hn, hn', hnl⟩ : ∃ o : Option (List (List UInt8)), _ ∧ _ ∧ ∀ l, o = some l →
      ∀ c ∈ l, CommandLine matching c := Assessment.nic_mirrors hnic hdevice
  unfold Assessment.userAssess
  rw [hk, hk', hb, hb', hn, hn']
  rcases k with _ | k
  · rfl
  rcases b with _ | b
  · rfl
  rcases n with _ | n
  · rfl
  simp only [Option.map_some, Option.bind_eq_bind, Option.bind_some]
  refine congrArg some ?_
  have hmenu := applyAll_agree exec m (hkl k rfl) (hbl b rfl) (hnl n rfl)
  have hauto := keep_nothing (m.runAll exec (modifications k ++ b ++ n))
  exact remove_eq (hmenu.1.trans hauto.1.symm) hmenu.2 hauto.2

/-- `sysctl -w`, with the settings it was given for a world. -/
def sysctlWrite (ws world : List (List UInt8)) : List (List UInt8) × List UInt8 :=
  if ws.head? = some (bytes "sysctl") then
    let setting := ws.getLast?.getD []
    (world ++ [setting], (setting.flatMap fun c => if c = 61 then [32, 61, 32] else [c]) ++ [10])
  else (world, [])

/-- A host with a maximum that is too small. -/
def smallHost : Assessment where
  netDevice := bytes "eth100"
  netDeviceSpeed := 10000
  settings := ⟨[⟨.rmemMax, .number (bytes "212992"), by decide, rfl⟩], by decide⟩
  scalingGovernor := [bytes "performance\n"]

theorem applies_all_smallHost :
    (smallHost.userAssess {} sysctlWrite ⟨[], fun _ => none⟩).map
        (fun m => (applyAllRecommendedSettings sysctlWrite (fun _ => []) m).remove tunAppCommand) =
      (smallHost.userAssess Assessment.applied sysctlWrite ⟨[], fun _ => none⟩).map fun m =>
        m.remove tunAppCommand :=
  applies_all sysctlWrite (fun _ => []) smallHost {} ⟨[], fun _ => none⟩ (by decide) (by decide) (by decide) (by decide)
    rfl

end Menu
end TuningMod

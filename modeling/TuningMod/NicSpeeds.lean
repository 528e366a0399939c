/-
# The speed the system is tuned for

`fCheckForNicsAndSpeeds` counts the NICs up to 10G, between 10G and 100G, and
from 100G on, keeps the highest speed, and asks the operator if there is more
than one kind. A speed of 0 is not counted. A link that is down has -1, which
counts as one up to 10G: it changes what is asked unless there is a NIC of that
kind anyway.

Key definitions: `speedLine`, `NicCounts.prompt`, `fCheckForNicsAndSpeeds`, `Unaffected`.
Key theorems: `speeds_eq`, `lines_kind`, `unaffected_iff`.
-/
import TuningMod.UserConfig

namespace TuningMod

/-! ### Counting -/

/-- The counters, and `tmpSpeed`. -/
structure NicCounts where
  tmpSpeed : ℤ := 0
  v10G : ℕ := 0
  v40G : ℕ := 0
  v100G : ℕ := 0
  deriving DecidableEq

/-- What a speed does to the counters. -/
def NicCounts.count (s : NicCounts) (cfgVal : ℤ) : NicCounts :=
  if cfgVal = 0 then s
  else
    let s := if cfgVal ≥ s.tmpSpeed then { s with tmpSpeed := cfgVal } else s
    if cfgVal ≤ 10000 then { s with v10G := s.v10G + 1 }
    else if cfgVal < 100000 then { s with v40G := s.v40G + 1 }
    else { s with v100G := s.v100G + 1 }

/-- The number on a line, without its end. -/
def cfgVal (line : List UInt8) : ℤ :=
  let sValue := cText line
  atoiText (if sValue.getLast? = some 10 then sValue.dropLast else sValue)

/-- The line fits into `sValue`, and has a last character. -/
def Copied (line : List UInt8) : Prop := cText line ≠ [] ∧ (cText line).length < 256

instance (line : List UInt8) : Decidable (Copied line) := inferInstanceAs (Decidable (_ ∧ _))

/-- One turn of the loop over the file. -/
def speedLine (s : NicCounts) (line : List UInt8) : Option NicCounts :=
  if Copied line then some (s.count (cfgVal line)) else none

/-! ### The selection -/

/-- What the operator is shown: four menus and four messages. -/
inductive NicPrompt where
  | tenFortyHundred | fortyHundred | tenHundred | tenForty
  | onlyHundred | onlyForty | onlyTen | asTen
  deriving DecidableEq

namespace NicPrompt

/-- The lines of it; a menu is shown again after an answer it does not have. -/
def lines (again : Bool) : NicPrompt → List String
  | tenFortyHundred =>
    ["\n\tYou have NIC cards with <=10G, 40G and 100G speeds\n", "\tMake a selection from below\n\n",
      "\t1) Tune the system as a 10G Server\n", "\t2) Tune the system as a 40G Server\n",
      "\t3) Tune the system as a 100G Server\n", "\tPlease Enter 1, 2, or 3: "]
  | fortyHundred =>
    ["\n\tYou have NIC cards with 40G and 100G speeds\n", "\tMake a selection from below\n\n",
      "\t1) Tune the system as a 40G Server\n", "\t2) Tune the system as a 100G Server\n",
      if again then "\tPlease Enter 1 or 2: " else "\tPlease Enter 1 or 2\n"]
  | tenHundred =>
    ["\n\tYou have NIC cards with <=10G and 100G speeds\n", "\tMake a selection from below\n\n",
      "\t1) Tune the system as a 10G Server\n", "\t2) Tune the system as a 100G Server\n", "\tPlease Enter 1 or 2: "]
  | tenForty =>
    ["\n\tYou have NIC cards with <=10G and 40G speeds\n", "\tMake a selection from below\n\n",
      "\t1) Tune as a 10G Server\n", "\t2) Tune as a 40G Server\n", "\tPlease Enter 1 or 2: "]
  | onlyHundred => ["\n\tYou only have NIC cards with 100G speeds\n", "\tWill tune as a 100G system\n"]
  | onlyForty => ["\n\tYou only have NIC cards with 40G speeds\n", "\tWill tune as a 40G system\n"]
  | onlyTen => ["\n\tYou only have NIC cards with 10G speeds or less\n", "\tWill tune as a 10G system\n"]
  | asTen => ["\n\tTuning system as a 10G Server\n"]

/-- The answers of a menu, by their first character, and the speeds. -/
def choices : NicPrompt → List (UInt8 × ℤ)
  | tenFortyHundred => [(49, 10000), (50, 40000), (51, 100000)]
  | fortyHundred => [(49, 40000), (50, 100000)]
  | tenHundred => [(49, 10000), (50, 100000)]
  | tenForty => [(49, 10000), (50, 40000)]
  | _ => []

end NicPrompt

/-- The branch that is taken. -/
def NicCounts.prompt (s : NicCounts) : NicPrompt :=
  if s.v10G ≠ 0 ∧ s.v40G ≠ 0 ∧ s.v100G ≠ 0 then .tenFortyHundred
  else if s.v40G ≠ 0 ∧ s.v100G ≠ 0 then .fortyHundred
  else if s.v10G ≠ 0 ∧ s.v100G ≠ 0 then .tenHundred
  else if s.v10G ≠ 0 ∧ s.v40G ≠ 0 then .tenForty
  else if s.v100G ≠ 0 then .onlyHundred
  else if s.v40G ≠ 0 then .onlyForty
  else if s.v10G ≠ 0 then .onlyTen
  else .asTen

/-- The speed that is returned, and the prompts, each with whether it is shown
again. -/
structure NicSelection where
  speed : ℤ
  shown : List (NicPrompt × Bool) := []
  deriving DecidableEq

/-- A menu's loop over the operator's lines. -/
def askOperator (p : NicPrompt) (tmpSpeed : ℤ) : List (List UInt8) → NicSelection
  | [] => { speed := tmpSpeed }
  | buffer :: answers =>
    match p.choices.find? fun choice => buffer.head? = some choice.1 with
    | some choice => { speed := choice.2 }
    | none =>
      let rest := askOperator p tmpSpeed answers
      { rest with shown := (p, true) :: rest.shown }

/-- What is done in the branch. -/
def NicCounts.select (s : NicCounts) (answers : List (List UInt8)) : NicSelection :=
  match s.prompt with
  | .onlyHundred => ⟨s.tmpSpeed, [(.onlyHundred, false)]⟩
  | .onlyForty => ⟨s.tmpSpeed, [(.onlyForty, false)]⟩
  | .onlyTen => ⟨s.tmpSpeed, [(.onlyTen, false)]⟩
  | .asTen => ⟨10000, [(.asTen, false)]⟩
  | menu =>
    let asked := askOperator menu s.tmpSpeed answers
    { asked with shown := (menu, false) :: asked.shown }

def fCheckForNicsAndSpeeds (lines answers : List (List UInt8)) : Option NicSelection :=
  (lines.foldlM speedLine {}).map fun s => s.select answers

/-- The texts that are shown. -/
def NicSelection.texts (r : NicSelection) : List (List String) := r.shown.map fun shown => shown.1.lines shown.2

/-- Without the links that are down the speed and the set of prompts are the same. -/
def Unaffected (lines answers : List (List UInt8)) : Prop :=
  ∃ all up, fCheckForNicsAndSpeeds lines answers = some all ∧
    fCheckForNicsAndSpeeds (lines.filter fun line => 0 < cfgVal line) answers = some up ∧
    all.speed = up.speed ∧ ∀ text, text ∈ all.texts ↔ text ∈ up.texts

/-! ### The counters -/

section Counts

variable {s t : NicCounts} {line : List UInt8} {lines : List (List UInt8)}

/-- The counters with and without the links that are down, as long as there have
been `down` of them. -/
structure SameBut (down : ℕ) (all up : NicCounts) : Prop where
  tmpSpeed : all.tmpSpeed = up.tmpSpeed
  nonneg : 0 ≤ up.tmpSpeed
  v10G : all.v10G = up.v10G + down
  v40G : all.v40G = up.v40G
  v100G : all.v100G = up.v100G

theorem sameBut_initial : SameBut 0 {} {} := ⟨rfl, Int.le_refl 0, rfl, rfl, rfl⟩

variable {down : ℕ} {all up : NicCounts} {v : ℤ}

theorem SameBut.counted (h : SameBut down all up) (hv : 0 < v) : SameBut down (all.count v) (up.count v) := by
  obtain ⟨hspeed, hnonneg, h10, h40, h100⟩ := h
  have hne : v ≠ 0 := by omega
  unfold NicCounts.count
  rw [if_neg hne, if_neg hne, hspeed]
  dsimp only
  split_ifs <;> constructor <;> dsimp only <;> omega

theorem SameBut.skipped (h : SameBut down all up) (hv : v ≤ 0) :
    SameBut (down + if v < 0 then 1 else 0) (all.count v) up := by
  obtain ⟨hspeed, hnonneg, h10, h40, h100⟩ := h
  unfold NicCounts.count
  by_cases hzero : v = 0
  · rw [if_pos hzero, if_neg (by omega)]
    exact ⟨hspeed, hnonneg, h10, h40, h100⟩
  · have hneg : v < 0 := by omega
    have hlow : ¬ v ≥ all.tmpSpeed := by omega
    have hten : v ≤ 10000 := by omega
    dsimp only
    rw [if_pos hneg, if_neg hzero, if_neg hlow, if_pos hten]
    exact ⟨hspeed, hnonneg, by dsimp only; omega, h40, h100⟩

/-- A positive speed and the NICs up to 10G. -/
theorem count_v10G (hv : 0 < v) : (s.count v).v10G = s.v10G + if v ≤ 10000 then 1 else 0 := by
  unfold NicCounts.count
  rw [if_neg (by omega)]
  dsimp only
  split_ifs <;> rfl

theorem foldlM_cons : (line :: lines).foldlM speedLine s =
    (if Copied line then some (s.count (cfgVal line)) else none).bind fun t => lines.foldlM speedLine t := by
  rw [List.foldlM_cons]
  rfl

/-- A program that gets through the file had room for every line. -/
theorem copied_of_some (h : lines.foldlM speedLine s = some t) : ∀ line ∈ lines, Copied line := by
  induction lines generalizing s with
  | nil => simp
  | cons line lines ih =>
    rw [foldlM_cons] at h
    by_cases hc : Copied line
    · rw [if_pos hc, Option.bind_some] at h
      exact List.forall_mem_cons.mpr ⟨hc, ih h⟩
    · rw [if_neg hc] at h
      cases h

/-- **Both runs side by side.** -/
theorem speeds_eq (hc : ∀ line ∈ lines, Copied line) (h : SameBut down all up) :
    ∃ all' up', lines.foldlM speedLine all = some all' ∧
      (lines.filter fun line => 0 < cfgVal line).foldlM speedLine up = some up' ∧
      SameBut (down + lines.countP fun line => cfgVal line < 0) all' up' ∧
      up'.v10G = up.v10G + lines.countP fun line => 0 < cfgVal line ∧ cfgVal line ≤ 10000 := by
  induction lines generalizing all up down with
  | nil => exact ⟨all, up, rfl, rfl, h, rfl⟩
  | cons line lines ih =>
    rw [List.forall_mem_cons] at hc
    rw [foldlM_cons, if_pos hc.1, Option.bind_some, List.countP_cons, List.countP_cons]
    by_cases hup : 0 < cfgVal line
    · obtain ⟨all', up', hall, hrest, hsame, h10⟩ := ih hc.2 (h.counted hup)
      have hnot : ¬ cfgVal line < 0 := by omega
      rw [List.filter_cons_of_pos (by simpa using hup), foldlM_cons, if_pos hc.1, Option.bind_some]
      refine ⟨all', up', hall, hrest, by simpa [hnot] using hsame, ?_⟩
      rw [h10, count_v10G hup]
      simp only [hup, true_and, decide_eq_true_eq]
      omega
    · obtain ⟨all', up', hall, hrest, hsame, h10⟩ := ih hc.2 (h.skipped (by omega : cfgVal line ≤ 0))
      rw [List.filter_cons_of_neg (by simpa using hup)]
      refine ⟨all', up', hall, hrest, ?_, ?_⟩
      · simp only [decide_eq_true_eq]
        rwa [Nat.add_comm (lines.countP _), ← Nat.add_assoc]
      · rw [h10]
        simp [hup]

/-- Links that are down count as NICs up to 10G, unless there are none of them, or
there are such NICs as well. -/
theorem v10G_zero_iff {a b : NicCounts} (ha : a.v10G = b.v10G + lines.countP fun line => cfgVal line < 0)
    (hb : b.v10G = lines.countP fun line => 0 < cfgVal line ∧ cfgVal line ≤ 10000) : (a.v10G = 0 ↔ b.v10G = 0) ↔
      (∀ line ∈ lines, 0 ≤ cfgVal line) ∨ ∃ line ∈ lines, 0 < cfgVal line ∧ cfgVal line ≤ 10000 := by
  have hnone : (∀ line ∈ lines, 0 ≤ cfgVal line) ↔ (lines.countP fun line => cfgVal line < 0) = 0 := by
    simp only [List.countP_eq_zero, decide_eq_true_eq, Int.not_lt]
  have hsome : (∃ line ∈ lines, 0 < cfgVal line ∧ cfgVal line ≤ 10000) ↔
      0 < lines.countP fun line => 0 < cfgVal line ∧ cfgVal line ≤ 10000 := by
    simp only [List.countP_pos_iff, decide_eq_true_eq]
  rw [hnone, hsome, ← hb]
  omega

end Counts

/-! ### The prompts -/

section Prompts

variable {a b : NicCounts} {answers : List (List UInt8)} {p q : NicPrompt}

/-- The first line tells which prompt it is. -/
theorem lines_kind {again again' : Bool} (h : p.lines again = q.lines again') : p = q := by
  have hhead := congrArg List.head? h
  cases p <;> cases q <;> first | rfl | (exact absurd hhead (by simp [NicPrompt.lines]))

theorem prompt_congr (h10 : a.v10G = 0 ↔ b.v10G = 0) (h40 : a.v40G = b.v40G) (h100 : a.v100G = b.v100G) :
    a.prompt = b.prompt := by
  unfold NicCounts.prompt
  simp only [ne_eq, h10, h40, h100]

/-- One that counts up to 10G is asked about. -/
theorem prompt_ne (ha : a.v10G ≠ 0) (hb : b.v10G = 0) (h40 : a.v40G = b.v40G) (h100 : a.v100G = b.v100G) :
    a.prompt ≠ b.prompt := by
  unfold NicCounts.prompt
  by_cases h4 : b.v40G = 0 <;> by_cases h1 : b.v100G = 0 <;> simp [ha, hb, h40, h100, h4, h1]

theorem askOperator_shown (p : NicPrompt) (tmpSpeed : ℤ) :
    ∀ shown ∈ (askOperator p tmpSpeed answers).shown, shown.1 = p := by
  induction answers with
  | nil => simp [askOperator]
  | cons buffer answers ih =>
    unfold askOperator
    cases p.choices.find? fun choice => decide (buffer.head? = some choice.1) with
    | some choice => simp
    | none =>
      rw [List.forall_mem_cons]
      exact ⟨rfl, ih⟩

/-- All that is shown is of the branch, and something is. -/
theorem select_shown (s : NicCounts) (answers : List (List UInt8)) :
    (∀ shown ∈ (s.select answers).shown, shown.1 = s.prompt) ∧ (s.prompt, false) ∈ (s.select answers).shown := by
  unfold NicCounts.select
  cases s.prompt with
  | onlyHundred | onlyForty | onlyTen | asTen => simp
  | tenFortyHundred | fortyHundred | tenHundred | tenForty =>
    exact ⟨List.forall_mem_cons.mpr ⟨rfl, askOperator_shown _ _⟩, List.mem_cons_self⟩

/-- The same branch and the same highest speed give the same selection. -/
theorem select_congr (hp : a.prompt = b.prompt) (ht : a.tmpSpeed = b.tmpSpeed) :
    a.select answers = b.select answers := by
  unfold NicCounts.select
  rw [hp, ht]

/-- Another branch shows another text. -/
theorem texts_ne (hp : a.prompt ≠ b.prompt) :
    ¬ ∀ text, text ∈ (a.select answers).texts ↔ text ∈ (b.select answers).texts := by
  intro h
  have hmem : a.prompt.lines false ∈ (a.select answers).texts :=
    List.mem_map.mpr ⟨_, (select_shown a answers).2, rfl⟩
  obtain ⟨shown, hshown, hlines⟩ := List.mem_map.mp ((h _).mp hmem)
  rw [(select_shown b answers).1 shown hshown] at hlines
  exact hp (lines_kind hlines).symm

/-- What is selected and shown tells whether NICs up to 10G have been counted. -/
theorem select_iff (h40 : a.v40G = b.v40G) (h100 : a.v100G = b.v100G) (ht : a.tmpSpeed = b.tmpSpeed) :
    ((a.select answers).speed = (b.select answers).speed ∧
      ∀ text, text ∈ (a.select answers).texts ↔ text ∈ (b.select answers).texts) ↔ (a.v10G = 0 ↔ b.v10G = 0) := by
  constructor
  · rintro ⟨-, htexts⟩
    by_contra hzero
    by_cases ha : a.v10G = 0
    · have hb : b.v10G ≠ 0 := fun hb => hzero (iff_of_true ha hb)
      exact texts_ne (prompt_ne hb ha h40.symm h100.symm).symm htexts
    · have hb : b.v10G = 0 := by_contra fun hb => hzero (iff_of_false ha hb)
      exact texts_ne (prompt_ne ha hb h40 h100) htexts
  · intro hzero
    rw [select_congr (prompt_congr hzero h40 h100) ht]
    exact ⟨rfl, fun _ => Iff.rfl⟩

end Prompts

/-- **When links that are down have no influence**, for every answers: no line is
too long, and there is no negative speed, or a speed up to 10G. -/
theorem unaffected_iff (lines answers : List (List UInt8)) : Unaffected lines answers ↔
    (∀ line ∈ lines, Copied line) ∧
      ((∀ line ∈ lines, 0 ≤ cfgVal line) ∨ ∃ line ∈ lines, 0 < cfgVal line ∧ cfgVal line ≤ 10000) := by
  by_cases hcopied : ∀ line ∈ lines, Copied line
  · obtain ⟨a, b, ha, hb, hsame, h10⟩ := speeds_eq hcopied sameBut_initial
    rw [Nat.zero_add] at hsame
    have hall : fCheckForNicsAndSpeeds lines answers = some (a.select answers) := by
      rw [fCheckForNicsAndSpeeds, ha]
      rfl
    have hup : fCheckForNicsAndSpeeds (lines.filter fun line => 0 < cfgVal line) answers = some (b.select answers) := by
      rw [fCheckForNicsAndSpeeds, hb]
      rfl
    rw [and_iff_right hcopied, ← v10G_zero_iff hsame.v10G (h10.trans (Nat.zero_add _)),
      ← @select_iff a b answers hsame.v40G hsame.v100G hsame.tmpSpeed]
    simp only [Unaffected, hall, hup, Option.some.injEq, exists_and_left, exists_eq_left']
  · refine iff_of_false (fun h => hcopied ?_) fun h => hcopied h.1
    obtain ⟨all, -, hall, -⟩ := h
    obtain ⟨a, ha, -⟩ := Option.map_eq_some_iff.mp hall
    exact copied_of_some ha

/-- A NIC of 100 Gb/s, and one that is down: the operator is asked for 10G or 100G. -/
theorem not_unaffected : ¬ Unaffected [bytes "-1\n", bytes "100000\n"] [] := by
  rintro ⟨all, up, hall, hup, -, htexts⟩
  have hall' : fCheckForNicsAndSpeeds [bytes "-1\n", bytes "100000\n"] [] =
      some ⟨100000, [(.tenHundred, false)]⟩ := by decide +kernel
  have hup' : fCheckForNicsAndSpeeds ([bytes "-1\n", bytes "100000\n"].filter fun line => 0 < cfgVal line) [] =
      some ⟨100000, [(.onlyHundred, false)]⟩ := by decide +kernel
  obtain rfl := Option.some.inj (hall.symm.trans hall')
  obtain rfl := Option.some.inj (hup.symm.trans hup')
  have hmem := (htexts (NicPrompt.tenHundred.lines false)).mp (by simp [NicSelection.texts])
  simp [NicSelection.texts, NicPrompt.lines] at hmem

end TuningMod

/-
# Scanners at the end of their line

Four scanners stop at the first character of a kind and do not look for the end
of the line. Which lines keep them inside, and inside their arrays of 256
bytes, can be read off the line: a line of `user_config.txt` has a blank, and
for a known key something behind the blanks; a value of three numbers has all
three; a line for a ring has a digit.

Key definitions: `tuncliScan`, `tripleValue`, `CfgLineFits`, `HasTriple`, `RingLineFits`, `ScannersInside`.
Key theorems: `readLine_isSome`, `parseTriple_isSome`, `ringLines_isSome`, `scanners_inside_iff`.
-/
import TuningMod.ListenPort
import TuningMod.RingBufferSize

namespace TuningMod

open KeyValues

/-! ### The scanners -/

/-- The loops of tuncli, up to the first line with its key. -/
def tuncliScan : List (List UInt8) → Option (Option (List UInt8))
  | [] => some none
  | line :: lines => do
    let (setting, p) ← scanKey (line ++ [0])
    if setting = apiListenPortName then do
      let setting ← scanValue false p
      return some setting
    else tuncliScan lines

/-- `value` when the daemon takes it apart: it starts with a digit, and the
setting has three values. -/
def tripleValue (netDeviceSpeed : ℤ) (line : List UInt8) : Option (List UInt8) := do
  let (name, q) ← scanWhile (fun c => c ≠ 32) (cText line)
  let setting ← intoArray name
  let v ← (aTuningNumsToUse netDeviceSpeed).find? fun v => bytes v.setting = setting
  let (_, q) ← scanWhile (fun c => c ≠ 32) q.tail
  let (current, _) ← scanWhile (fun c => c ≠ 10) q.tail
  let value ← intoArray current
  if v.xDefault ≠ -1 ∧ value.head?.any isdigit then return value else none

/-- All four stay inside their lines and arrays. -/
structure ScannersInside (netDeviceSpeed : ℤ) (config settings ring : List (List UInt8)) : Prop where
  daemon : (fDoGetUserCfgValues config).isSome
  client : (tuncliScan config).isSome
  triple : ∀ line ∈ settings, ∀ value ∈ tripleValue netDeviceSpeed line, ∃ min deflt max,
    parseTriple value = some (min, deflt, max) ∧ min.length ≤ 256 ∧ deflt.length ≤ 256 ∧ max.length ≤ 256
  ring : (ringLines {} ring).isSome

/-! ### The lines on which they do -/

/-- The text in front of the first blank. -/
def keyPart (line : List UInt8) : List UInt8 := line.takeWhile fun c => !isblank c

/-- The text behind the first blanks. -/
def valuePart (line : List UInt8) : List UInt8 := (line.dropWhile fun c => !isblank c).dropWhile isblank

/-- There is a blank, and no more than 256 characters in front of it. -/
def KeyFits (line : List UInt8) : Prop := (∃ c ∈ line, isblank c = true) ∧ (keyPart line).length ≤ 256

/-- There is a character behind the blanks, a white space behind it if the value
goes up to one, and no more than 256 characters are read. -/
def ValueFits (toSpace : Bool) (line : List UInt8) : Prop :=
  valuePart line ≠ [] ∧
    if toSpace then
      (∃ c ∈ (valuePart line).tail, isspace c = true) ∧
        ((valuePart line).tail.takeWhile fun c => !isspace c).length < 256
    else ((valuePart line).tail.takeWhile isalnum).length < 256

def CfgLineFits (line : List UInt8) : Prop :=
  KeyFits line ∧ ∀ p : Param, bytes p.name = cText (keyPart line) → ValueFits p.toSpace line

/-- A digit behind something else, twice. -/
def HasTriple (value : List UInt8) : Prop := [false, true, false, true].Sublist (value.map isdigit)

/-- There is a digit, and no more than 255 from the first one on. -/
def RingLineFits (line : List UInt8) : Prop :=
  (∃ c ∈ line, isdigit c = true) ∧ ((line.dropWhile fun c => !isdigit c).takeWhile isdigit).length < 256

/-- The lines with RX: or TX: in them, up to the second one for TX. -/
def ringScanned (txcount : ℕ) : List (List UInt8) → List (List UInt8)
  | [] => []
  | line :: lines =>
    if hasRX line then line :: ringScanned txcount lines
    else if hasTX line then if txcount = 0 then line :: ringScanned 1 lines else [line]
    else ringScanned txcount lines

/-! ### Keys and values -/

section Config

variable {line : List UInt8} {lines : List (List UInt8)} {toSpace : Bool}

theorem scanKey_fits (h : KeyFits line) : scanKey (line ++ [0]) =
    some (cText (keyPart line), (line.dropWhile fun c => !isblank c) ++ [0]) := by
  obtain ⟨hblank, hlen⟩ := h
  have hscan := scanWhile_to hblank [0]
  have hfits : intoSetting (keyPart line) = some (keyPart line) := if_pos hlen
  rw [scanKey, hscan]
  simp only [Option.bind_eq_bind, Option.bind_some]
  exact congrArg (fun o => Option.bind o fun setting => some (cText setting, _)) hfits

theorem scanKey_isSome : (scanKey (line ++ [0])).isSome ↔ KeyFits line := by
  refine ⟨fun h => ?_, fun h => by rw [scanKey_fits h]; rfl⟩
  have hblank : ∃ c ∈ line, isblank c = true := by
    by_contra hno
    rw [scanKey, scanWhile_to_none hno (by decide)] at h
    cases h
  refine ⟨hblank, ?_⟩
  rw [scanKey, scanWhile_to hblank [0]] at h
  by_contra hlong
  have hfits : intoSetting (line.takeWhile fun c => !isblank c) = none := if_neg hlong
  simp [hfits] at h

/-- Letters and digits are not white space, so the two scans of a value are one. -/
theorem takeWhile_alnum_then (l : List UInt8) :
    l.takeWhile isalnum ++ (l.dropWhile isalnum).takeWhile (fun c => !isspace c) = l.takeWhile fun c => !isspace c := by
  induction l with
  | nil => rfl
  | cons c l ih =>
    by_cases hc : isalnum c = true
    · rw [List.takeWhile_cons_of_pos hc, List.dropWhile_cons_of_pos hc, List.cons_append, ih,
        List.takeWhile_cons_of_pos (by rw [not_isspace_of_isalnum hc]; rfl)]
    · rw [List.takeWhile_cons_of_neg hc, List.dropWhile_cons_of_neg hc, List.nil_append]

theorem exists_space_dropWhile (l : List UInt8) :
    (∃ c ∈ l.dropWhile isalnum, isspace c = true) ↔ ∃ c ∈ l, isspace c = true := by
  refine ⟨fun ⟨c, hc, hs⟩ => ⟨c, (List.dropWhile_suffix _).mem hc, hs⟩, fun ⟨c, hc, hs⟩ => ⟨c, ?_, hs⟩⟩
  rw [← List.takeWhile_append_dropWhile (p := isalnum) (l := l)] at hc
  rcases List.mem_append.mp hc with hc | hc
  · rw [not_isspace_of_isalnum (List.mem_takeWhile_imp hc)] at hs
    cases hs
  · exact hc

theorem intoSetting_isSome {l : List UInt8} :
    ((intoSetting l).bind fun setting => (pure (cText setting) : Option (List UInt8))).isSome ↔ l.length ≤ 256 := by
  unfold intoSetting
  by_cases hlen : l.length ≤ 256
  · simp [hlen]
  · simp [hlen]

/-- The value of a line, from the blanks on. -/
theorem scanValue_isSome :
    (scanValue toSpace ((line.dropWhile fun c => !isblank c) ++ [0])).isSome ↔ ValueFits toSpace line := by
  have hblanks : scanWhile isblank ((line.dropWhile fun c => !isblank c) ++ [0]) =
      some ((line.dropWhile fun c => !isblank c).takeWhile isblank, valuePart line ++ [0]) :=
    scanWhile_stop (by decide) _ []
  unfold ValueFits
  rw [scanValue, hblanks]
  cases valuePart line with
  | nil =>
    -- the first character is the end of the line, and the next one is behind it
    simp [scanWhile]
  | cons c t =>
    have halnum := scanWhile_stop (f := isalnum) (c := 0) (by decide) t []
    simp only [List.cons_append, halnum, Option.bind_eq_bind, Option.bind_some, List.tail_cons, ne_eq,
      reduceCtorEq, not_false_eq_true, true_and]
    cases toSpace with
    | false =>
      simp only [Bool.false_eq_true, if_false, List.append_nil]
      rw [intoSetting_isSome, List.length_cons]
      omega
    | true =>
      simp only [if_true]
      by_cases hspace : ∃ c ∈ t, isspace c = true
      · rw [scanWhile_to ((exists_space_dropWhile t).mpr hspace) [0], Option.bind_some, and_iff_right hspace]
        dsimp only
        rw [intoSetting_isSome, takeWhile_alnum_then, List.length_cons]
        omega
      · rw [scanWhile_to_none (mt (exists_space_dropWhile t).mp hspace) (by decide)]
        simp [hspace]

/-- **A line of the user's file.** -/
theorem readLine_isSome : (readLine line).isSome ↔ CfgLineFits line := by
  unfold CfgLineFits
  by_cases hkey : KeyFits line
  · rw [and_iff_right hkey, readLine, scanKey_fits hkey]
    simp only [Option.bind_eq_bind, Option.bind_some]
    cases hfind : Param.all.find? fun p => bytes p.name = cText (keyPart line) with
    | none =>
      rw [List.find?_eq_none] at hfind
      refine iff_of_true rfl fun p hp => ?_
      have hmem : p ∈ Param.all := by cases p <;> decide
      exact absurd (decide_eq_true hp) (hfind p hmem)
    | some q =>
      have hq : bytes q.name = cText (keyPart line) := by simpa using List.find?_some hfind
      have hname : ∀ p : Param, bytes p.name = cText (keyPart line) ↔ p = q := by
        intro p
        refine ⟨fun hp => ?_, fun hp => hp ▸ hq⟩
        rw [← hp, find_name] at hfind
        exact Option.some.inj hfind
      simp only [hname, forall_eq]
      rw [← scanValue_isSome]
      cases scanValue q.toSpace ((line.dropWhile fun c => !isblank c) ++ [0]) <;> rfl
  · refine iff_of_false ?_ fun h => hkey h.1
    rw [← scanKey_isSome, Option.not_isSome_iff_eq_none] at hkey
    rw [readLine, hkey]
    exact Bool.false_ne_true

theorem mapM_isSome {lines : List (List UInt8)} :
    (lines.mapM readLine).isSome ↔ ∀ line ∈ lines, (readLine line).isSome := by
  induction lines with
  | nil => simp
  | cons line lines ih =>
    rw [List.mapM_cons, List.forall_mem_cons, ← ih]
    cases readLine line with
    | none => simp
    | some r => cases lines.mapM readLine <;> simp

theorem fDoGetUserCfgValues_isSome : (fDoGetUserCfgValues lines).isSome ↔ ∀ line ∈ lines, CfgLineFits line := by
  simp only [fDoGetUserCfgValues, Option.isSome_map, mapM_isSome, readLine_isSome]

/-- `tuncliPort` is what the loops find, if it fits into `aListenPort`. -/
theorem tuncliPort_scan (lines : List (List UInt8)) : tuncliPort lines = (tuncliScan lines).bind fun
    | none => some (bytes "5523")
    | some setting => if setting.length < 32 then some setting else none := by
  induction lines with
  | nil => rfl
  | cons line lines ih =>
    rw [tuncliPort, tuncliScan]
    cases scanKey (line ++ [0]) with
    | none => rfl
    | some key =>
      simp only [Option.bind_eq_bind, Option.bind_some]
      by_cases hname : key.1 = apiListenPortName
      · simp only [if_pos hname]
        cases scanValue false key.2 <;> rfl
      · simp only [if_neg hname, ih]

/-- Where the daemon's scan stays inside, so does the client's. -/
theorem tuncliScan_isSome (h : ∀ line ∈ lines, CfgLineFits line) : (tuncliScan lines).isSome := by
  induction lines with
  | nil => rfl
  | cons line lines ih =>
    rw [List.forall_mem_cons] at h
    have hkey := h.1.1
    rw [tuncliScan, scanKey_fits hkey]
    simp only [Option.bind_eq_bind, Option.bind_some]
    by_cases hname : cText (keyPart line) = apiListenPortName
    · have hvalue := scanValue_isSome.mpr (h.1.2 .apiListenPort hname.symm)
      obtain ⟨setting, hset⟩ := Option.isSome_iff_exists.mp hvalue
      have hscan : scanValue false ((line.dropWhile fun c => !isblank c) ++ [0]) = some setting := hset
      rw [if_pos hname, hscan]
      rfl
    · rw [if_neg hname]
      exact ih h.2

end Config

/-! ### Triples -/

section Triple

variable {value : List UInt8}

/-- What a list has to have behind its first element of a kind. -/
theorem sublist_dropWhile {α : Type*} {f : α → Bool} {b : Bool} {w : List Bool} (l : List α) :
    (b :: (!b) :: w).Sublist (l.map f) ↔ ((!b) :: w).Sublist ((l.dropWhile fun c => f c ≠ b).map f) := by
  have hne : b ≠ !b := by cases b <;> decide
  induction l with
  | nil => simp
  | cons x l ih =>
    by_cases hx : f x = b
    · rw [List.dropWhile_cons_of_neg (by simp [hx]), List.map_cons, hx, List.cons_sublist_cons]
      refine ⟨fun h => h.cons b, fun h => ?_⟩
      rcases List.sublist_cons_iff.mp h with h | ⟨r, hr, -⟩
      · exact h
      · exact absurd (List.cons.inj hr).1 (Ne.symm hne)
    · rw [List.dropWhile_cons_of_pos (by simp [hx]), List.map_cons]
      refine Iff.trans ⟨fun h => ?_, fun h => h.cons _⟩ ih
      rcases List.sublist_cons_iff.mp h with h | ⟨r, hr, -⟩
      · exact h
      · exact absurd (List.cons.inj hr).1.symm hx

theorem nextNumber_isSome : (nextNumber value).isSome ↔ [true].Sublist (value.map isdigit) := by
  have hnil : value.dropWhile (fun c => !isdigit c) = [] ↔ ¬ [true].Sublist (value.map isdigit) := by
    rw [List.dropWhile_eq_nil_iff, List.singleton_sublist]
    simp
  unfold nextNumber
  cases hd : value.dropWhile fun c => !isdigit c with
  | nil => exact iff_of_false Bool.false_ne_true (hnil.mp hd)
  | cons c l =>
    rw [hd] at hnil
    exact iff_of_true rfl (by_contra fun h => absurd (hnil.mpr h) (List.cons_ne_nil c l))

theorem nextNumber_eq {c : UInt8} {l : List UInt8} (h : value.dropWhile (fun c => !isdigit c) = c :: l) :
    nextNumber value = some ((c :: l).takeWhile isdigit, (c :: l).dropWhile isdigit) := by
  rw [nextNumber, h]

/-- **A value is taken apart inside the array** if it has the numbers. -/
theorem parseTriple_isSome : (parseTriple value).isSome ↔ HasTriple value := by
  have hother : (fun c => decide (isdigit c ≠ true)) = fun c => !isdigit c := by
    funext c
    cases isdigit c <;> rfl
  have hdigits : (fun c => decide (isdigit c ≠ false)) = isdigit := by
    funext c
    cases isdigit c <;> rfl
  have hfirst := sublist_dropWhile (f := isdigit) (b := false) (w := [false, true]) value
  have hsecond := sublist_dropWhile (f := isdigit) (b := true) (w := [true]) (value.dropWhile isdigit)
  have hthird := sublist_dropWhile (f := isdigit) (b := false) (w := [])
    ((value.dropWhile isdigit).dropWhile fun c => !isdigit c)
  rw [hdigits] at hfirst hthird
  rw [hother] at hsecond
  refine Iff.trans ?_ (hfirst.trans (hsecond.trans hthird)).symm
  unfold parseTriple
  cases hd : (value.dropWhile isdigit).dropWhile fun c => !isdigit c with
  | nil =>
    have hnone : nextNumber (value.dropWhile isdigit) = none := by rw [nextNumber, hd]
    simp [hnone]
  | cons c l =>
    refine Iff.trans ?_ nextNumber_isSome
    rw [nextNumber_eq hd]
    cases hmax : nextNumber ((c :: l).dropWhile isdigit) <;> simp [hmax]

theorem nextNumber_length {number rest : List UInt8} (h : nextNumber value = some (number, rest)) :
    number.length + rest.length ≤ value.length := by
  have hle := (List.dropWhile_suffix (l := value) fun c => !isdigit c).length_le
  unfold nextNumber at h
  cases hd : value.dropWhile fun c => !isdigit c with
  | nil =>
    rw [hd] at h
    cases h
  | cons c l =>
    rw [hd] at h hle
    obtain ⟨rfl, rfl⟩ := Prod.mk.inj (Option.some.inj h)
    rwa [← List.length_append, List.takeWhile_append_dropWhile]

/-- The three numbers are not longer than the value. -/
theorem parseTriple_length {min deflt max : List UInt8} (h : parseTriple value = some (min, deflt, max)) :
    min.length ≤ value.length ∧ deflt.length ≤ value.length ∧ max.length ≤ value.length := by
  simp only [parseTriple, Option.bind_eq_bind, Option.bind_eq_some_iff] at h
  obtain ⟨⟨d, rest⟩, hd, ⟨m, rest'⟩, hm, h⟩ := h
  cases h
  have hdrop := (List.dropWhile_suffix (l := value) isdigit).length_le
  have hdeflt := nextNumber_length hd
  have hmax := nextNumber_length hm
  dsimp only at hmax
  refine ⟨(List.takeWhile_prefix isdigit).length_le, ?_, ?_⟩ <;> dsimp only <;> omega

theorem tripleValue_length {netDeviceSpeed : ℤ} {line : List UInt8} (h : tripleValue netDeviceSpeed line = some value) :
    value.length < 256 := by
  simp only [tripleValue, Option.bind_eq_bind, Option.bind_eq_some_iff] at h
  obtain ⟨_, -, _, -, _, -, _, -, _, -, current, hcur, h⟩ := h
  obtain ⟨hlen, hcur⟩ := Option.ite_none_right_eq_some.mp hcur
  obtain ⟨-, h⟩ := Option.ite_none_right_eq_some.mp h
  obtain rfl := Option.some.inj h
  rwa [← Option.some.inj hcur]

/-- The daemon's line has no outcome if its value cannot be taken apart. -/
theorem tuneLine_none {env : TuningEnv} {s : SysTuning} {line : List UInt8} (hz : ∀ c ∈ line, c ≠ 0)
    (h : tripleValue env.netDeviceSpeed line = some value) (hparse : parseTriple value = none) :
    Program.daemon.tuneLine env s line = none := by
  rw [tripleValue, cText_eq hz] at h
  simp only [Option.bind_eq_bind, Option.bind_eq_some_iff] at h
  obtain ⟨name, hname, setting, hset, v, hv, second, hsecond, third, hthird, current, hcur, h⟩ := h
  by_cases htriple : v.xDefault ≠ -1 ∧ current.head?.any isdigit = true
  · rw [if_pos htriple] at h
    obtain rfl := Option.some.inj h
    have hrec : Program.daemon.recommendNumber v current = none := by
      unfold Program.recommendNumber
      simp [htriple.1, hparse]
    unfold Program.tuneLine
    simp only [Option.bind_eq_bind, hname, Option.bind_some, hset, hv, hsecond, hthird, hcur, if_pos htriple.2, hrec,
      Option.bind_none]
  · rw [if_neg htriple] at h
    cases h

end Triple

/-! ### The sizes of the rings -/

section Ring

variable {line : List UInt8} {s : RingListing}

theorem scanSize_isSome : (scanSize line).isSome ↔ RingLineFits line := by
  unfold RingLineFits
  by_cases hdigit : ∃ c ∈ line, isdigit c = true
  · have hdigits := scanWhile_stop (f := isdigit) (c := 0) (by decide) (line.dropWhile fun c => !isdigit c) []
    rw [and_iff_right hdigit, scanSize, scanWhile_to hdigit [0]]
    simp only [Option.bind_eq_bind, Option.bind_some, hdigits, intoArray, Option.isSome_ite]
  · rw [scanSize, scanWhile_to_none hdigit (by decide)]
    exact iff_of_false Bool.false_ne_true fun h => hdigit h.1

theorem ringLine_rx (s : RingListing) (hrx : hasRX line = true) :
    ∃ next : List UInt8 → RingListing, (∀ v, (next v).txcount = s.txcount) ∧
      ringLine s line = (scanSize line).map fun v => (next v, false) := by
  unfold ringLine
  by_cases hfirst : s.rxcount = 0
  · rw [if_pos ⟨hrx, hfirst⟩]
    exact ⟨fun v => { s with rxcount := s.rxcount + 1, sRXMAXValue := some v }, fun _ => rfl, rfl⟩
  · rw [if_neg fun h => hfirst h.2, if_pos hrx]
    exact ⟨fun v => { s with rxcount := s.rxcount + 1, sRXCURRValue := some v }, fun _ => rfl, rfl⟩

theorem ringLine_tx (s : RingListing) (hrx : hasRX line = false) (htx : hasTX line = true) :
    ∃ next : List UInt8 → RingListing, (∀ v, (next v).txcount = s.txcount + 1) ∧
      ringLine s line = (scanSize line).map fun v => (next v, decide (s.txcount ≠ 0)) := by
  unfold ringLine
  rw [if_neg (by simp [hrx]), if_neg (by simp [hrx])]
  by_cases hfirst : s.txcount = 0
  · rw [if_pos ⟨htx, hfirst⟩, decide_eq_false (by simpa using hfirst)]
    exact ⟨fun v => { s with txcount := s.txcount + 1, sTXMAXValue := some v }, fun _ => rfl, rfl⟩
  · rw [if_neg fun h => hfirst h.2, if_pos htx, decide_eq_true hfirst]
    exact ⟨fun v => { s with txcount := s.txcount + 1, sTXCURRValue := some v }, fun _ => rfl, rfl⟩

theorem ringLine_other (s : RingListing) (hrx : hasRX line = false) (htx : hasTX line = false) :
    ringLine s line = some (s, false) := by
  unfold ringLine
  simp [hrx, htx]

/-- A line that is scanned, and the lines behind it. -/
theorem ringLines_scanned {lines : List (List UInt8)} {next : List UInt8 → RingListing} {last : Bool} {rest : Prop}
    (hline : ringLine s line = (scanSize line).map fun v => (next v, last))
    (hrest : ∀ v, (if last then True else (ringLines (next v) lines).isSome = true) ↔ rest) :
    (ringLines s (line :: lines)).isSome ↔ RingLineFits line ∧ rest := by
  rw [ringLines, hline, ← scanSize_isSome]
  cases scanSize line with
  | none => simp
  | some v =>
    rw [← hrest v]
    cases last <;> simp

/-- **A listing.** -/
theorem ringLines_isSome (lines : List (List UInt8)) (s : RingListing) :
    (ringLines s lines).isSome ↔ ∀ line ∈ ringScanned s.txcount lines, RingLineFits line := by
  induction lines generalizing s with
  | nil => simp [ringLines, ringScanned]
  | cons line lines ih =>
    rw [ringScanned]
    by_cases hrx : hasRX line = true
    · obtain ⟨next, hcount, hline⟩ := ringLine_rx s hrx
      rw [if_pos hrx, List.forall_mem_cons]
      refine ringLines_scanned hline fun v => ?_
      rw [if_neg Bool.false_ne_true, ih, hcount]
    have hrx' : hasRX line = false := by simpa using hrx
    rw [if_neg hrx]
    by_cases htx : hasTX line = true
    · obtain ⟨next, hcount, hline⟩ := ringLine_tx s hrx' htx
      rw [if_pos htx]
      by_cases hfirst : s.txcount = 0
      · rw [if_pos hfirst, List.forall_mem_cons]
        refine ringLines_scanned hline fun v => ?_
        rw [if_neg (by simpa using hfirst), ih, hcount, hfirst]
      · -- the second line for TX is the last one
        rw [if_neg hfirst, List.forall_mem_singleton, ← and_true (RingLineFits line)]
        exact ringLines_scanned hline fun v => by rw [if_pos (decide_eq_true hfirst)]
    · rw [if_neg htx, ringLines, ringLine_other s hrx' (by simpa using htx)]
      simpa using ih s

end Ring

/-- **When the scanners stay inside**: exactly on the lines that have what they
look for. -/
theorem scanners_inside_iff (netDeviceSpeed : ℤ) (config settings ring : List (List UInt8)) :
    ScannersInside netDeviceSpeed config settings ring ↔
      (∀ line ∈ config, CfgLineFits line) ∧
        (∀ line ∈ settings, ∀ value ∈ tripleValue netDeviceSpeed line, HasTriple value) ∧
          ∀ line ∈ ringScanned 0 ring, RingLineFits line := by
  constructor
  · rintro ⟨hdaemon, -, htriple, hring⟩
    refine ⟨fDoGetUserCfgValues_isSome.mp hdaemon, ?_, (ringLines_isSome ring {}).mp hring⟩
    intro line hline value hvalue
    obtain ⟨min, deflt, max, hparse, -⟩ := htriple line hline value hvalue
    exact parseTriple_isSome.mp (Option.isSome_of_mem hparse)
  · rintro ⟨hconfig, htriple, hring⟩
    refine ⟨fDoGetUserCfgValues_isSome.mpr hconfig, tuncliScan_isSome hconfig, ?_, (ringLines_isSome ring {}).mpr hring⟩
    intro line hline value hvalue
    obtain ⟨⟨min, deflt, max⟩, hparse⟩ :=
      Option.isSome_iff_exists.mp (parseTriple_isSome.mpr (htriple line hline value hvalue))
    have hlen := tripleValue_length hvalue
    have hparts := parseTriple_length hparse
    exact ⟨min, deflt, max, hparse, by omega, by omega, by omega⟩

/-- An empty line in `user_config.txt` has no blank. -/
theorem empty_line_outside : ¬ ScannersInside 10000 [bytes "\n"] [] [] := by
  intro h
  exact absurd h.daemon (by decide)

end TuningMod

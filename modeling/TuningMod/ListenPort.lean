/-
# The port of the API, for the client and for the daemon

Both read it from the same file with the same scans. `tuncli` takes the first
line for it, as text, and the default if there is none; the daemon takes 31
characters of the last line, as a number, and the default only for 0. A missing
line is -1 for the daemon. So they agree exactly if there is a line, and the
first value is a numeral for what the daemon makes of the last one. A scan that
passes the NUL of its line has left the buffer and has no outcome, so a file
with an empty line is not among these.

Key definitions: `tuncliPort`, `portNumber`, `portValues`, `SamePort`.
Key theorems: `tuncliPort_eq`, `gAPIListenPort_eq`, `find_each_other`.
-/
import TuningMod.UserConfig
import Mathlib.Tactic.SplitIfs

namespace TuningMod

open KeyValues

/-- The key, in both programs. -/
def apiListenPortName : List UInt8 := bytes Param.apiListenPort.name

/-- `aListenPort` of tuncli, which takes the first line with the key. -/
def tuncliPort : List (List UInt8) → Option (List UInt8)
  | [] => some (bytes "5523")
  | line :: lines => do
    let (setting, p) ← scanKey (line ++ [0])
    if setting = apiListenPortName then do
      let setting ← scanValue false p
      if setting.length < 32 then return setting else none
    else tuncliPort lines

/-- The number that a text denotes: a numeral, which may have a sign. -/
def portNumber (t : List UInt8) : Option ℤ :=
  if Numeral t then some (decimal t)
  else if t.head? = some 43 ∧ Numeral t.tail then some (decimal t.tail)
  else if t.head? = some 45 ∧ Numeral t.tail then some (-decimal t.tail)
  else none

/-- The value on a line for the port. -/
def portValue (line : List UInt8) : Option (List UInt8) := do
  let (key, p) ← scanKey (line ++ [0])
  if key = apiListenPortName then scanValue false p else none

/-- The values for the port, line by line. -/
def portValues (lines : List (List UInt8)) : List (List UInt8) := lines.filterMap portValue

/-- The text to which the client connects denotes the port on which the daemon
listens, for a file on which both stay inside their buffers. -/
def FindEachOther (lines : List (List UInt8)) : Prop :=
  ∀ aListenPort ∈ tuncliPort lines, ∀ u ∈ fDoGetUserCfgValues lines, portNumber aListenPort = some u.gAPIListenPort

/-- There is a value; and the first is a numeral for the number at the head of
the last, or for the default if that is 0. -/
def SamePort (values : List (List UInt8)) : Prop :=
  ∃ first last, values.head? = some first ∧ values.getLast? = some last ∧
    portNumber first = some (if atoiText (last.take 31) = 0 then 5523 else atoiText (last.take 31))

section Ports

variable {lines : List (List UInt8)} {aListenPort : List UInt8} {u : UserValues}

/-- The client takes the first value. -/
theorem tuncliPort_eq (h : tuncliPort lines = some aListenPort) :
    aListenPort = (portValues lines).head?.getD (bytes "5523") := by
  induction lines with
  | nil => exact (Option.some.inj h).symm
  | cons line lines ih =>
    rw [tuncliPort] at h
    obtain ⟨⟨key, p⟩, hkey, h⟩ := Option.bind_eq_some_iff.mp h
    have hvalue : portValue line = if key = apiListenPortName then scanValue false p else none := by
      rw [portValue, hkey]
      rfl
    by_cases hname : key = apiListenPortName
    · rw [if_pos hname] at hvalue
      simp only [if_pos hname] at h
      obtain ⟨setting, hset, h⟩ := Option.bind_eq_some_iff.mp h
      obtain ⟨-, h⟩ := Option.ite_none_right_eq_some.mp h
      obtain rfl : setting = aListenPort := Option.some.inj h
      rw [portValues, List.filterMap_cons_some (hvalue.trans hset)]
      rfl
    · rw [if_neg hname] at hvalue
      simp only [if_neg hname] at h
      rw [portValues, List.filterMap_cons_none hvalue]
      exact ih h

/-- What a turn of the daemon's loop finds for the port is the line's value. -/
theorem readLine_port {line : List UInt8} {r : Option (Param × List UInt8)} (h : readLine line = some r) :
    (r.toList.filter fun kv => kv.1 = .apiListenPort) =
      (portValue line).toList.map fun v => (Param.apiListenPort, v.take 31) := by
  rw [readLine] at h
  obtain ⟨⟨key, p⟩, hkey, h⟩ := Option.bind_eq_some_iff.mp h
  have hvalue : portValue line = if key = apiListenPortName then scanValue false p else none := by
    rw [portValue, hkey]
    rfl
  cases hparam : Param.all.find? fun param => bytes param.name = key with
  | none =>
    have hname : key ≠ apiListenPortName := by
      rintro rfl
      rw [apiListenPortName, find_name] at hparam
      cases hparam
    simp only [hparam] at h
    rw [hvalue, if_neg hname, ← Option.some.inj h]
    rfl
  | some q =>
    simp only [hparam] at h
    obtain ⟨setting, hset, h⟩ := Option.bind_eq_some_iff.mp h
    obtain rfl := Option.some.inj h
    have hq : bytes q.name = key := by simpa using List.find?_some hparam
    by_cases hname : key = apiListenPortName
    · have hapi : q = .apiListenPort := by
        rw [hname, apiListenPortName, find_name] at hparam
        exact (Option.some.inj hparam).symm
      subst hapi
      have hscan : scanValue false p = some setting := hset
      rw [hvalue, if_pos hname, hscan]
      rfl
    · have hother : q ≠ .apiListenPort := by
        rintro rfl
        exact hname hq.symm
      rw [hvalue, if_neg hname]
      simp [hother]

/-- What the daemon's loop finds for the port are the same values. -/
theorem found_filter {found : List (Option (Param × List UInt8))} (h : lines.mapM readLine = some found) :
    (found.reduceOption.filter fun kv => kv.1 = .apiListenPort) =
      (portValues lines).map fun v => (Param.apiListenPort, v.take 31) := by
  induction lines generalizing found with
  | nil =>
    obtain rfl := Option.some.inj h
    rfl
  | cons line lines ih =>
    rw [List.mapM_cons] at h
    obtain ⟨r, hr, h⟩ := Option.bind_eq_some_iff.mp h
    obtain ⟨rs, hrs, h⟩ := Option.bind_eq_some_iff.mp h
    obtain rfl := Option.some.inj h
    have hline := readLine_port hr
    have hsplit : (r :: rs).reduceOption = r.toList ++ rs.reduceOption := by cases r <;> rfl
    have hvalues : portValues (line :: lines) = (portValue line).toList ++ portValues lines := by
      rw [portValues, portValues]
      cases hv : portValue line with
      | none => rw [List.filterMap_cons_none hv]; rfl
      | some v => rw [List.filterMap_cons_some hv]; rfl
    rw [hsplit, hvalues, List.filter_append, List.map_append, hline, ih hrs]

/-- The daemon takes the last value, or -1. -/
theorem gAPIListenPort_eq (h : fDoGetUserCfgValues lines = some u) : u.gAPIListenPort =
    match (portValues lines).getLast? with
    | none => -1
    | some last => if atoiText (last.take 31) = 0 then 5523 else atoiText (last.take 31) := by
  obtain ⟨found, hfound, rfl⟩ := Option.map_eq_some_iff.mp h
  have hcfg : assign notConfigured found.reduceOption .apiListenPort =
      ((portValues lines).getLast?.map fun v => v.take 31).getD (bytes "-1") := by
    rw [assign_apply, lastValue, found_filter hfound, List.getLast?_map, Option.map_map]
    rfl
  have hdefault : atoiText (bytes Param.apiListenPort.defaultVal) = 5523 := by decide +kernel
  simp only [UserValues.ofCfg, hcfg, hdefault]
  cases (portValues lines).getLast? with
  | none => decide
  | some last => rfl

theorem portNumber_default : portNumber (bytes "5523") = some 5523 := by decide +kernel

/-- Where both scans stay inside, the port is the same just for such values. -/
theorem port_iff (h : tuncliPort lines = some aListenPort) (hu : fDoGetUserCfgValues lines = some u) :
    portNumber aListenPort = some u.gAPIListenPort ↔ SamePort (portValues lines) := by
  rw [tuncliPort_eq h, gAPIListenPort_eq hu, SamePort]
  cases hlast : (portValues lines).getLast? with
  | none =>
    -- no line: 5523 for the client and -1 for the daemon
    rw [List.getLast?_eq_none_iff] at hlast
    rw [hlast]
    have hdiffer : portNumber (bytes "5523") ≠ some (-1) := by
      rw [portNumber_default]
      decide
    simpa using hdiffer
  | some last =>
    cases hfirst : (portValues lines).head? with
    | none =>
      rw [List.head?_eq_none_iff] at hfirst
      rw [hfirst] at hlast
      cases hlast
    | some first => simp

end Ports

/-- **When the client finds the daemon.** For any file on which both scanners
stay inside their buffers: the client's text denotes the daemon's port if and
only if there is a line for it, and the first value is a numeral for the number
at the head of the last one, or for 5523 if that number is 0. -/
theorem find_each_other (lines : List (List UInt8)) : FindEachOther lines ↔
    ((tuncliPort lines).isSome → (fDoGetUserCfgValues lines).isSome → SamePort (portValues lines)) := by
  constructor
  · intro h hclient hdaemon
    obtain ⟨aListenPort, ht⟩ := Option.isSome_iff_exists.mp hclient
    obtain ⟨u, hu⟩ := Option.isSome_iff_exists.mp hdaemon
    exact (port_iff ht hu).mp (h aListenPort ht u hu)
  · intro h aListenPort ht u hu
    exact (port_iff ht hu).mpr (h (Option.isSome_of_mem ht) (Option.isSome_of_mem hu))

/-- A file without a line for the port. -/
def noPort : List (List UInt8) := [bytes "learning_mode_only y\n"]

/-- The client connects to 5523, the daemon has port -1. -/
theorem noPort_differs : ¬ FindEachOther noPort := by
  intro h
  have hclient : tuncliPort noPort = some (bytes "5523") := by decide +kernel
  have hdaemon : (fDoGetUserCfgValues noPort).map UserValues.gAPIListenPort = some (-1) := by decide +kernel
  obtain ⟨u, hu, hport⟩ := Option.map_eq_some_iff.mp hdaemon
  have hsame := h _ hclient u hu
  rw [hport, portNumber_default] at hsame
  exact absurd hsame (by decide)

end TuningMod

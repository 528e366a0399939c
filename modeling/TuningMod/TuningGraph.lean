/-
# The graph of the tuner's commands

The rows that the tuner writes behind the header of the file are turned into
JSON by `conv_csv_to_json.py`, and `plotgraph.py` draws a point for each: the
seconds of the row, and the third word of its value. A row whose value has
fewer words leaves no graph at all.

In a run in which the tuner never gives up, the graph has exactly one point for
each command, with the seconds since the first one and the maximum that was
set. A clock that is set back behind the first command gives a point far to
the right: the seconds are printed without a sign.

Key definitions: `csvFile`, `readCsv`, `pyInt`, `pySplit`, `plotgraph`, `graph`, `Shows`.
Key theorems: `records_csvFile`, `pyInt_uText`, `third_wmemText`, `graph_rows`, `graph_shows`.
-/
import TuningMod.TuningLog
import TuningMod.UserConfig
import TuningMod.Numerals
import TuningMod.Lib.Csv
import TuningMod.Lib.Json
import Mathlib.Data.List.DropRight

namespace TuningMod
namespace TuningGraph

/-! ### The file -/

def csvHeader : List (List UInt8) := [bytes "delta", bytes "name", bytes "value"]

/-- What `delta` and `aValue` hold when the row is written. -/
structure CsvRow where
  delta : ℤ
  aValue : List UInt8

/-- `"%lu,%s,%s\n"`. -/
def CsvRow.fields (r : CsvRow) : List (List UInt8) :=
  [uText (r.delta % 2 ^ 64).toNat, bytes "net.ipv4.tcp_wmem", r.aValue]

/-- `open_csv_file`, and then row after row. -/
def csvFile (rows : List CsvRow) : List UInt8 := Csv.line csvHeader ++ rows.flatMap fun r => Csv.line r.fields

/-! ### The two programs -/

/-- `read_CSV` with `convert_write_json`, on a file of ASCII characters. -/
def readCsv (file : List UInt8) : Option (List UInt8) :=
  if file.all (· < 128) then some (Json.dumps (Csv.dictRows (Csv.records file))) else none

/-- A character that `split` passes over. -/
def pySpace (c : UInt8) : Bool := (9 ≤ c && c ≤ 13) || (28 ≤ c && c ≤ 32)

/-- A digit behind the value so far, or an underscore between two digits. -/
def pyDigit (s : ℕ × Bool) (c : UInt8) : Option (ℕ × Bool) :=
  if isdigit c then some (10 * s.1 + (c.toNat - 48), true)
  else if c = 95 ∧ s.2 then some (s.1, false)
  else none

def pyDigits (l : List UInt8) : Option ℕ :=
  (Runs.run pyDigit (0, false) l).bind fun s => if s.2 then some s.1 else none

/-- `int` of a text of ASCII characters, which passes over the blanks of C only. -/
def pyInt (s : List UInt8) : Option ℤ :=
  match (s.dropWhile isspace).rdropWhile isspace with
  | 43 :: l => (pyDigits l).map fun n : ℕ => (n : ℤ)
  | 45 :: l => (pyDigits l).map fun n : ℕ => -(n : ℤ)
  | l => (pyDigits l).map fun n : ℕ => (n : ℤ)

def pySplit (s : List UInt8) : List (List UInt8) := (s.splitOnP pySpace).filter fun w => w ≠ []

/-- What is drawn for a value. -/
def third (s : List UInt8) : Option ℤ := (pySplit s)[2]?.bind pyInt

/-- The point of a row; what raises an exception has none. -/
def point (elem : Dict (List UInt8) (Option (List UInt8))) : Option (ℤ × ℤ) := do
  let delta ← elem.get (bytes "delta")
  let x ← delta.bind pyInt
  let value ← elem.get (bytes "value")
  let y ← value.bind third
  some (x, y)

def plotgraph (json : List UInt8) : Option (List (ℤ × ℤ)) := do
  let dictionary ← Json.loads json
  dictionary.mapM point

/-- The graph of a file. -/
def graph (file : List UInt8) : Option (List (ℤ × ℤ)) := (readCsv file).bind plotgraph

/-! ### The two ends of a row -/

section Texts

variable {l w : List UInt8} {n : ℕ} {c : UInt8}

theorem not_pySpace (h : 33 ≤ c) : pySpace c = false := by
  have h33 : 33 ≤ c.toNat := UInt8.le_iff_toNat_le.mp h
  simp only [pySpace, Bool.or_eq_false_iff, Bool.and_eq_false_iff, decide_eq_false_iff_not, UInt8.le_iff_toNat_le]
  refine ⟨.inr ?_, .inr ?_⟩
  · change ¬ c.toNat ≤ 13
    omega
  · change ¬ c.toNat ≤ 32
    omega

theorem digit_bounds (h : isdigit c = true) : 48 ≤ c ∧ c ≤ 57 := by
  simpa only [isdigit, Bool.and_eq_true, decide_eq_true_eq] using h

/-- Digits, behind some. -/
theorem run_digits (h : ∀ c ∈ l, isdigit c = true) : Runs.run pyDigit (n, true) l =
    some (l.foldl (fun n c => 10 * n + (c.toNat - 48)) n, true) := by
  induction l generalizing n with
  | nil => rfl
  | cons c l ih =>
    rw [List.forall_mem_cons] at h
    rw [Runs.run, pyDigit, if_pos h.1, Option.bind_some, ih h.2, List.foldl_cons]

theorem pyDigits_numeral (h : Numeral l) : pyDigits l = some (decimal l) := by
  obtain ⟨hne, hdigits⟩ := h
  obtain ⟨c, l, rfl⟩ := List.exists_cons_of_ne_nil hne
  rw [List.forall_mem_cons] at hdigits
  rw [pyDigits, Runs.run, pyDigit, if_pos hdigits.1, Option.bind_some, run_digits hdigits.2, Option.bind_some,
    if_pos rfl]
  rfl

/-- Nothing is taken off a text without blanks. -/
theorem strip_eq (h : ∀ c ∈ l, isspace c = false) : (l.dropWhile isspace).rdropWhile isspace = l := by
  have hfront : l.dropWhile isspace = l := by
    rw [List.dropWhile_eq_self_iff]
    intro hl
    simp [h _ (List.getElem_mem hl)]
  rw [hfront, List.rdropWhile_eq_self_iff]
  intro hl
  simp [h _ (List.getLast_mem hl)]

/-- **A number that was printed is read.** -/
theorem pyInt_uText (n : ℕ) : pyInt (uText n) = some (n : ℤ) := by
  have hnumeral := numeral_uText n
  obtain ⟨hne, hdigits⟩ := hnumeral
  have hstrip : ((uText n).dropWhile isspace).rdropWhile isspace = uText n :=
    strip_eq fun c hc => isspace_digit (hdigits c hc)
  have hvalue : pyDigits (uText n) = some n := by rw [pyDigits_numeral ⟨hne, hdigits⟩, decimal_uText]
  rw [pyInt, hstrip]
  split
  · next l hl => exact absurd (hdigits 43 (hl ▸ List.mem_cons_self)) (by decide)
  · next l hl => exact absurd (hdigits 45 (hl ▸ List.mem_cons_self)) (by decide)
  · rw [hvalue, Option.map_some]

/-- A word of what `split` finds. -/
theorem pySplit_cons (hne : w ≠ []) (hw : ∀ c ∈ w, pySpace c = false) (l : List UInt8) :
    pySplit (w ++ 32 :: l) = w :: pySplit l := by
  have hfirst : (w ++ 32 :: l).splitOnP pySpace = w :: l.splitOnP pySpace :=
    List.splitOnP_append_cons_of_forall_mem hw 32 rfl l
  rw [pySplit, hfirst, List.filter_cons_of_pos (by simpa using hne), pySplit]

theorem pySplit_word (hne : w ≠ []) (hw : ∀ c ∈ w, pySpace c = false) : pySplit w = [w] := by
  rw [pySplit, List.splitOnP_eq_singleton hw, List.filter_cons_of_pos (by simpa using hne), List.filter_nil]

end Texts

/-- `"%u %d %u"`. -/
def wmemText (v : Wmem) : List UInt8 :=
  uText v.kminimum.toNat ++ 32 :: (dText 0 v.kdefault ++ 32 :: uText v.kmaximum.toNat)

section Wmem

variable {v : Wmem} {c : UInt8}

theorem dText_zero (x : Int32) :
    dText 0 x = if x.toInt < 0 then 45 :: uText x.toInt.natAbs else uText x.toInt.natAbs := by
  rw [dText, padded, List.leftpad, Nat.zero_sub, List.replicate_zero, List.nil_append]

theorem mem_dText (h : c ∈ dText 0 v.kdefault) : c = 45 ∨ isdigit c = true := by
  rw [dText_zero] at h
  split_ifs at h
  · exact (List.mem_cons.mp h).imp_right isdigit_uText
  · exact .inr (isdigit_uText h)

theorem dText_ne_nil : dText 0 v.kdefault ≠ [] := by
  rw [dText_zero]
  split_ifs
  · exact List.cons_ne_nil _ _
  · exact (numeral_uText _).1

theorem no_space_uText {n : ℕ} : ∀ c ∈ uText n, pySpace c = false := fun _ hc =>
  not_pySpace (UInt8.le_trans (by decide) (digit_bounds (isdigit_uText hc)).1)

theorem no_space_dText : ∀ c ∈ dText 0 v.kdefault, pySpace c = false := by
  intro c hc
  rcases mem_dText hc with rfl | hdigit
  · rfl
  · exact not_pySpace (UInt8.le_trans (by decide) (digit_bounds hdigit).1)

/-- **The maximum of a setting** is what is drawn for it. -/
theorem third_wmemText (v : Wmem) : third (wmemText v) = some (v.kmaximum.toNat : ℤ) := by
  have hsplit : pySplit (wmemText v) = [uText v.kminimum.toNat, dText 0 v.kdefault, uText v.kmaximum.toNat] := by
    rw [wmemText, pySplit_cons (numeral_uText _).1 no_space_uText, pySplit_cons dText_ne_nil no_space_dText,
      pySplit_word (numeral_uText _).1 no_space_uText]
  rw [third, hsplit]
  exact pyInt_uText _

end Wmem

/-! ### The rows -/

/-- A text that the reader of the file takes as it is. -/
def Plain (s : List UInt8) : Prop := ∀ c ∈ s, Csv.Bare c ∧ c < 128

instance : DecidablePred Plain := fun s => inferInstanceAs (Decidable (∀ c ∈ s, Csv.Bare c ∧ c < 128))

section Rows

variable {r : CsvRow} {rows : List CsvRow}

theorem plain_digit {c : UInt8} (h : isdigit c = true) : Csv.Bare c ∧ c < 128 := by
  obtain ⟨hlow, hhigh⟩ := digit_bounds h
  refine ⟨⟨?_, ?_, ?_, ?_⟩, UInt8.lt_of_le_of_lt hhigh (by decide)⟩
  all_goals rintro rfl; exact absurd hlow (by decide)

theorem plain_uText (n : ℕ) : Plain (uText n) := fun _ hc => plain_digit (isdigit_uText hc)

theorem plain_header : ∀ w ∈ csvHeader ++ [bytes "net.ipv4.tcp_wmem"], Plain w := by decide +kernel

theorem plain_wmemText (v : Wmem) : Plain (wmemText v) := by
  intro c hc
  rw [wmemText, List.mem_append, List.mem_cons, List.mem_append, List.mem_cons] at hc
  rcases hc with hc | rfl | hc | rfl | hc
  · exact plain_uText _ c hc
  · decide
  · rcases mem_dText hc with rfl | hdigit
    · decide
    · exact plain_digit hdigit
  · decide
  · exact plain_uText _ c hc

theorem plain_fields (h : Plain r.aValue) : ∀ w ∈ r.fields, Plain w := by
  intro w hw
  simp only [CsvRow.fields, List.mem_cons, List.not_mem_nil, or_false] at hw
  rcases hw with rfl | rfl | rfl
  · exact plain_uText _
  · exact plain_header _ (by simp)
  · exact h

theorem bareRecord_fields (h : Plain r.aValue) : Csv.BareRecord r.fields where
  begins := ⟨_, _, rfl, (numeral_uText _).1⟩
  bare w hw c hc := (plain_fields h w hw c hc).1

theorem bareRecord_header : Csv.BareRecord csvHeader where
  begins := ⟨_, _, rfl, by decide⟩
  bare w hw c hc := (plain_header w (List.mem_append_left _ hw) c hc).1

/-- **The file is read as it was written.** -/
theorem records_csvFile (h : ∀ r ∈ rows, Plain r.aValue) :
    Csv.records (csvFile rows) = csvHeader :: rows.map CsvRow.fields := by
  have hrecords : ∀ row ∈ csvHeader :: rows.map CsvRow.fields, Csv.BareRecord row := by
    rw [List.forall_mem_cons, List.forall_mem_map]
    exact ⟨bareRecord_header, fun r hr => bareRecord_fields (h r hr)⟩
  have hfile : csvFile rows = (csvHeader :: rows.map CsvRow.fields).flatMap Csv.line := by
    rw [csvFile, List.flatMap_cons, List.flatMap_map]
  rw [hfile, Csv.records_lines hrecords]

theorem ascii_line {ws : List (List UInt8)} (h : ∀ w ∈ ws, Plain w) : ∀ c ∈ Csv.line ws, c < 128 := by
  intro c hc
  rw [Csv.line, List.mem_append, List.mem_singleton] at hc
  rcases hc with hc | rfl
  · rcases Csv.mem_intercalate hc with hc | ⟨w, hw, hc⟩
    · rw [List.mem_singleton.mp hc]
      decide
    · exact (h w hw c hc).2
  · decide

theorem ascii_csvFile (h : ∀ r ∈ rows, Plain r.aValue) : (csvFile rows).all (· < 128) = true := by
  rw [List.all_eq_true]
  intro c hc
  rw [decide_eq_true_eq]
  rw [csvFile, List.mem_append] at hc
  rcases hc with hc | hc
  · exact ascii_line (fun w hw => plain_header w (List.mem_append_left _ hw)) c hc
  · obtain ⟨r, hr, hc⟩ := List.mem_flatMap.mp hc
    exact ascii_line (plain_fields (h r hr)) c hc

/-- The dictionary of a row. -/
theorem entries_row (r : CsvRow) : (Csv.rowDict csvHeader r.fields).entries =
    csvHeader.zip (r.fields.map some) := Csv.rowDict_entries (by decide) rfl

theorem ascii_row (h : Plain r.aValue) : Json.Ascii (Csv.rowDict csvHeader r.fields) := by
  intro e he
  rw [entries_row] at he
  obtain ⟨hkey, hvalue⟩ := List.of_mem_zip he
  refine ⟨fun c hc => (plain_header _ (List.mem_append_left _ hkey) c hc).2, fun s hs c hc => ?_⟩
  obtain ⟨w, hw, hws⟩ := List.mem_map.mp hvalue
  obtain rfl : w = s := Option.some.inj (hws.trans hs)
  exact (plain_fields h w hw c hc).2

theorem point_row (r : CsvRow) :
    point (Csv.rowDict csvHeader r.fields) = (third r.aValue).map fun y => (r.delta % 2 ^ 64, y) := by
  have hdelta : (Csv.rowDict csvHeader r.fields).get (bytes "delta") = some (some (uText (r.delta % 2 ^ 64).toNat)) :=
    Dict.get_of_mem (by rw [entries_row]; exact List.mem_cons_self)
  have hvalue : (Csv.rowDict csvHeader r.fields).get (bytes "value") = some (some r.aValue) :=
    Dict.get_of_mem (by rw [entries_row]; exact List.mem_cons_of_mem _ (List.mem_cons_of_mem _ List.mem_cons_self))
  have hseconds : ((r.delta % 2 ^ 64).toNat : ℤ) = r.delta % 2 ^ 64 :=
    Int.toNat_of_nonneg (Int.emod_nonneg _ (by decide))
  simp only [point, hdelta, hvalue, Option.bind_eq_bind, Option.bind_some, pyInt_uText, hseconds, Option.map_eq_bind]
  rfl

/-- **The graph of the rows**, whatever the values are that the reader takes as they are. -/
theorem graph_rows (h : ∀ r ∈ rows, Plain r.aValue) :
    graph (csvFile rows) = rows.mapM fun r => (third r.aValue).map fun y => (r.delta % 2 ^ 64, y) := by
  have hrows : Csv.dictRows (csvHeader :: rows.map CsvRow.fields) =
      rows.map fun r => Csv.rowDict csvHeader r.fields := by
    have hne : ∀ row ∈ rows.map CsvRow.fields, row ≠ [] := by
      rw [List.forall_mem_map]
      exact fun _ _ => List.cons_ne_nil _ _
    rw [Csv.dictRows_eq hne, List.map_map]
    rfl
  have hascii : ∀ d ∈ rows.map fun r => Csv.rowDict csvHeader r.fields, Json.Ascii d := by
    rw [List.forall_mem_map]
    exact fun r hr => ascii_row (h r hr)
  rw [graph, readCsv, if_pos (ascii_csvFile h), records_csvFile h, hrows, Option.bind_some, plotgraph,
    Json.loads_dumps hascii, Option.bind_eq_bind, Option.bind_some, List.mapM_map]
  exact congrArg (List.mapM · rows) (funext point_row)

theorem graph_rows_two : graph (csvFile [⟨0, bytes "4096 16384 4394304"⟩, ⟨7, bytes "4096 16384 4594304"⟩]) =
    [⟨0, bytes "4096 16384 4394304"⟩, ⟨7, bytes "4096 16384 4594304"⟩].mapM fun r : CsvRow =>
      (third r.aValue).map fun y => (r.delta % 2 ^ 64, y) :=
  graph_rows (by decide +kernel)

end Rows

/-! ### The runs of the tuner -/

/-- The rows of a log. A value that was never written is what its memory held. -/
def rows (left : CsvEntry → List UInt8) (log : List CsvEntry) : List CsvRow :=
  log.map fun e => ⟨e.delta, (e.aValue.map wmemText).getD (left e)⟩

/-- The point shows the command: the seconds since the first one, and the maximum that was set. -/
structure Shows (log : List CsvEntry) (e : CsvEntry) (p : ℤ × ℤ) : Prop where
  seconds : ∀ first, log.head? = some first → p.1 = (e.time - first.time) % 2 ^ 64
  maximum : ∃ v, e.aApplyDefTun = some v ∧ p.2 = v.kmaximum.toNat

/-- The graph has one point for each command. -/
def GraphRight (left : CsvEntry → List UInt8) (log : List CsvEntry) : Prop :=
  ∃ points, graph (csvFile (rows left log)) = some points ∧ List.Forall₂ (Shows log) log points

section Runs

variable {left : CsvEntry → List UInt8} {log : List CsvEntry} {s t : TuningThread} {m : TimedMeasurement}

/-- The points of a list that has them all. -/
theorem exists_points {α : Type} {f : α → Option (ℤ × ℤ)} {S : α → ℤ × ℤ → Prop} {l : List α}
    (h : ∀ e ∈ l, ∃ p, f e = some p ∧ S e p) : ∃ points, l.mapM f = some points ∧ List.Forall₂ S l points := by
  induction l with
  | nil => exact ⟨[], rfl, .nil⟩
  | cons e l ih =>
    rw [List.forall_mem_cons] at h
    obtain ⟨⟨p, hp, hS⟩, hl⟩ := h
    obtain ⟨points, hpoints, hall⟩ := ih hl
    refine ⟨p :: points, ?_, .cons hS hall⟩
    rw [List.mapM_cons, hp, hpoints]
    rfl

theorem plain_rows (h : ∀ e ∈ log, e.aValue = none → Plain (left e)) : ∀ r ∈ rows left log, Plain r.aValue := by
  rw [rows, List.forall_mem_map]
  intro e he
  cases hv : e.aValue with
  | none => exact h e he hv
  | some v => exact plain_wmemText v

theorem graph_rows_log (h : ∀ e ∈ log, e.aValue = none → Plain (left e)) : graph (csvFile (rows left log)) =
    log.mapM fun e => (third ((e.aValue.map wmemText).getD (left e))).map fun y => (e.delta % 2 ^ 64, y) := by
  rw [graph_rows (plain_rows h), rows, List.mapM_map]
  rfl

/-- Rows that all have their command. -/
theorem graphRight_of_right (h : TuningThread.Right t) : GraphRight left t.log := by
  have hnever : ∀ e ∈ t.log, e.aValue = none → Plain (left e) := fun e he hv => absurd hv (h.rows e he).2.1
  rw [GraphRight, graph_rows_log hnever]
  refine exists_points fun e he => ?_
  obtain ⟨-, hsome, hcommand⟩ := h.rows e he
  obtain ⟨v, hv⟩ := Option.ne_none_iff_exists'.mp hsome
  refine ⟨(e.delta % 2 ^ 64, v.kmaximum.toNat), ?_, fun first hfirst => ?_, v, hcommand ▸ hv, rfl⟩
  · rw [hv, Option.map_some, Option.getD_some, third_wmemText, Option.map_some]
  · exact congrArg (· % 2 ^ 64) (h.clocked.deltas e he first hfirst)

/-- A row without a value leaves no graph, if the memory is empty. -/
theorem no_graph (h : ∃ e ∈ log, e.aValue = none) : ¬ GraphRight (fun _ => []) log := by
  rintro ⟨points, hgraph, -⟩
  obtain ⟨e, he, hv⟩ := h
  rw [graph_rows_log fun _ _ _ _ hc => (List.not_mem_nil hc).elim] at hgraph
  obtain ⟨pre, post, rfl⟩ := List.append_of_mem he
  have hnone : (third ((e.aValue.map wmemText).getD [])).map (fun y => (e.delta % 2 ^ 64, y)) = none := by
    rw [hv]
    rfl
  rw [List.mapM_append, List.mapM_cons, hnone] at hgraph
  obtain ⟨_, -, hrest⟩ := Option.bind_eq_some_iff.mp hgraph
  cases hrest

theorem unwritten_of_givesUp (hg : s.GivesUp m) (hs : s.step m = some t) : ∃ e ∈ t.log, e.aValue = none := by
  rcases s.executed_cases m with ⟨hnot, -⟩ | ⟨-, -, hsome⟩ | ⟨hnot, -⟩
  · exact absurd hg hnot
  · rw [(TuningThread.step_some hs hsome).2]
    exact ⟨_, List.mem_append_right _ (List.mem_singleton_self _), rfl⟩
  · exact absurd hg hnot

end Runs

/-- **The graph shows the commands**, whatever the memory holds, in exactly the
runs in which the tuner never gives up. -/
theorem graph_shows (ms : List TimedMeasurement) :
    Runs.Always TuningThread.step .initial (fun _ t => ∀ left, GraphRight left t.log) ms ↔
      Runs.Steps TuningThread.step .initial (fun _ s m => ¬ s.GivesUp m) ms := by
  refine Runs.always_iff_steps (I := fun _ t => TuningThread.Right t) ?_ ?_ ?_ ?_ ms
  · exact ⟨TuningThread.clocked_initial, fun e he => by cases he⟩
  · intro pre s m t _ h hg hs
    exact TuningThread.right_step h hg hs
  · intro pre t _ h left
    exact graphRight_of_right h
  · intro pre s m t _ _ hg hs h
    exact no_graph (unwritten_of_givesUp (not_not.mp hg) hs) (h fun _ => [])

end TuningGraph
end TuningMod

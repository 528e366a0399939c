/-
# Comma-separated values

The reader goes through a file character by character. A field without quotes
ends at a comma or at the end of the line, one in quotes at the quote that is
not doubled; an empty line is a record without fields. With a header, each
record that is not empty becomes a dictionary: a field that is missing has no
value, and what has no name in the header is dropped.

What a record without quotes writes is read back.

Key definitions: `Reader`, `Reader.step`, `records`, `dictRows`.
Key theorems: `read_field`, `records_lines`, `rowDict_entries`, `dictRows_eq`.
-/
import TuningMod.Lib.Dict

namespace TuningMod
namespace Csv

/-! ### The reader -/

inductive State where
  | startRecord | startField | inField | inQuotedField | quoteInQuotedField
  deriving DecidableEq

/-- The field and the record that are being read, and the records so far. -/
structure Reader where
  state : State := .startRecord
  field : List UInt8 := []
  fields : List (List UInt8) := []
  records : List (List (List UInt8)) := []
  deriving DecidableEq

namespace Reader

def addChar (r : Reader) (c : UInt8) (state : State) : Reader := { r with field := r.field ++ [c], state := state }

def saveField (r : Reader) : Reader := { r with field := [], fields := r.fields ++ [r.field], state := .startField }

def endRecord (r : Reader) : Reader :=
  { r with fields := [], records := r.records ++ [r.fields], state := .startRecord }

/-- What ends a field that is not in quotes, or belongs to it. -/
def bare (r : Reader) (c : UInt8) : Reader :=
  if c = 10 then r.saveField.endRecord else if c = 44 then r.saveField else r.addChar c .inField

def step (r : Reader) (c : UInt8) : Reader :=
  match r.state with
  | .startRecord =>
    if c = 10 then r.endRecord else if c = 34 then { r with state := .inQuotedField } else r.bare c
  | .startField => if c = 34 then { r with state := .inQuotedField } else r.bare c
  | .inField => r.bare c
  | .inQuotedField => if c = 34 then { r with state := .quoteInQuotedField } else r.addChar c .inQuotedField
  | .quoteInQuotedField => if c = 34 then r.addChar c .inQuotedField else r.bare c

/-- The end of the file. -/
def finish (r : Reader) : List (List (List UInt8)) :=
  if r.state = .startRecord then r.records else r.saveField.endRecord.records

end Reader

/-- Every end of a line is one character. -/
def newlines : List UInt8 → List UInt8
  | 13 :: 10 :: l => 10 :: newlines l
  | 13 :: l => 10 :: newlines l
  | c :: l => c :: newlines l
  | [] => []

def records (file : List UInt8) : List (List (List UInt8)) := ((newlines file).foldl Reader.step {}).finish

/-! ### What is written without quotes -/

/-- The fields with commas between them, and the end of the line. -/
def line (fields : List (List UInt8)) : List UInt8 := [44].intercalate fields ++ [10]

/-- A character that belongs to the field wherever it stands. -/
def Bare (c : UInt8) : Prop := c ≠ 10 ∧ c ≠ 13 ∧ c ≠ 34 ∧ c ≠ 44

instance : DecidablePred Bare := fun c => inferInstanceAs (Decidable (c ≠ 10 ∧ c ≠ 13 ∧ c ≠ 34 ∧ c ≠ 44))

/-- A record that does not begin with an empty field. -/
structure BareRecord (fields : List (List UInt8)) : Prop where
  begins : ∃ w ws, fields = w :: ws ∧ w ≠ []
  bare : ∀ w ∈ fields, ∀ c ∈ w, Bare c

section Bare

variable {w : List UInt8} {ws fs : List (List UInt8)} {rs rows : List (List (List UInt8))} {c : UInt8}

theorem newlines_eq {l : List UInt8} (h : ∀ c ∈ l, c ≠ 13) : newlines l = l := by
  induction l with
  | nil => rfl
  | cons c l ih =>
    rw [List.forall_mem_cons] at h
    rw [newlines.eq_3 c l (fun _ hc _ => h.1 hc) h.1, ih h.2]

theorem bare_char (r : Reader) (hc : Bare c) : r.bare c = r.addChar c .inField := by
  rw [Reader.bare, if_neg hc.1, if_neg hc.2.2.2]

/-- The characters of a field, behind its first one. -/
theorem read_inField (hw : ∀ c ∈ w, Bare c) (v : List UInt8) :
    w.foldl Reader.step ⟨.inField, v, fs, rs⟩ = ⟨.inField, v ++ w, fs, rs⟩ := by
  induction w generalizing v with
  | nil => rw [List.append_nil]; rfl
  | cons c w ih =>
    rw [List.forall_mem_cons] at hw
    calc (c :: w).foldl Reader.step ⟨.inField, v, fs, rs⟩
      _ = w.foldl Reader.step (Reader.bare ⟨.inField, v, fs, rs⟩ c) := rfl
      _ = w.foldl Reader.step ⟨.inField, v ++ [c], fs, rs⟩ := by rw [bare_char _ hw.1]; rfl
      _ = ⟨.inField, v ++ (c :: w), fs, rs⟩ := by rw [ih hw.2, List.append_assoc]; rfl

/-- **A field**: whatever ends it finds it whole. -/
theorem read_field (hw : ∀ c ∈ w, Bare c) {state : State} (hstate : state = .startField ∨ state = .startRecord ∧ w ≠ [])
    (hc : c = 10 ∨ c = 44) :
    (w ++ [c]).foldl Reader.step ⟨state, [], fs, rs⟩ = Reader.bare ⟨.inField, w, fs, rs⟩ c := by
  have hquote : c ≠ 34 := by rcases hc with rfl | rfl <;> decide
  rcases w with _ | ⟨d, w⟩
  · obtain rfl : state = .startField := hstate.resolve_right fun h => h.2 rfl
    change (if c = 34 then _ else Reader.bare ⟨.startField, [], fs, rs⟩ c) = _
    rw [if_neg hquote]
    rcases hc with rfl | rfl <;> rfl
  · rw [List.forall_mem_cons] at hw
    have hfirst : Reader.step ⟨state, [], fs, rs⟩ d = ⟨.inField, [d], fs, rs⟩ := by
      rcases hstate with rfl | ⟨rfl, -⟩
      · change (if d = 34 then _ else Reader.bare _ d) = _
        rw [if_neg hw.1.2.2.1, bare_char _ hw.1]
        rfl
      · change (if d = 10 then _ else if d = 34 then _ else Reader.bare _ d) = _
        rw [if_neg hw.1.1, if_neg hw.1.2.2.1, bare_char _ hw.1]
        rfl
    rw [List.cons_append, List.foldl_cons, hfirst, List.foldl_append, read_inField hw.2]
    rfl

theorem read_line (hw : ∀ c ∈ w, Bare c) (hws : ∀ v ∈ ws, ∀ c ∈ v, Bare c) {state : State}
    (hstate : state = .startField ∨ state = .startRecord ∧ w ≠ []) :
    (line (w :: ws)).foldl Reader.step ⟨state, [], fs, rs⟩ = ⟨.startRecord, [], [], rs ++ [fs ++ w :: ws]⟩ := by
  induction ws generalizing w fs state with
  | nil =>
    rw [line, List.intercalate_singleton, read_field hw hstate (.inl rfl)]
    rfl
  | cons v ws ih =>
    rw [List.forall_mem_cons] at hws
    have hsplit : line (w :: v :: ws) = (w ++ [44]) ++ line (v :: ws) := by
      rw [line, List.intercalate_cons_cons, List.append_assoc]
      rfl
    calc (line (w :: v :: ws)).foldl Reader.step ⟨state, [], fs, rs⟩
      _ = (line (v :: ws)).foldl Reader.step (Reader.bare ⟨.inField, w, fs, rs⟩ 44) := by
          rw [hsplit, List.foldl_append, read_field hw hstate (.inr rfl)]
      _ = (line (v :: ws)).foldl Reader.step ⟨.startField, [], fs ++ [w], rs⟩ := rfl
      _ = ⟨.startRecord, [], [], rs ++ [fs ++ w :: v :: ws]⟩ := by
          rw [ih hws.1 hws.2 (.inl rfl), List.append_assoc]
          rfl

theorem mem_intercalate {l : List UInt8} (h : c ∈ l.intercalate ws) : c ∈ l ∨ ∃ w ∈ ws, c ∈ w := by
  induction ws with
  | nil => cases h
  | cons w ws ih =>
    cases ws with
    | nil => exact .inr ⟨w, List.mem_cons_self, by rwa [List.intercalate_singleton] at h⟩
    | cons v ws =>
      rw [List.intercalate_cons_cons, List.mem_append, List.mem_append] at h
      rcases h with (h | h) | h
      · exact .inr ⟨w, List.mem_cons_self, h⟩
      · exact .inl h
      · exact (ih h).imp_right fun ⟨u, hu, hc⟩ => ⟨u, List.mem_cons_of_mem w hu, hc⟩

theorem notMem_line (h : ∀ w ∈ ws, ∀ c ∈ w, Bare c) : ∀ c ∈ line ws, c ≠ 13 := by
  intro c hc
  rw [line, List.mem_append, List.mem_singleton] at hc
  rcases hc with hc | rfl
  · rcases mem_intercalate hc with hc | ⟨w, hw, hc⟩
    · rw [List.mem_singleton.mp hc]
      decide
    · exact (h w hw c hc).2.1
  · decide

/-- **The lines of a file are its records.** -/
theorem records_lines (h : ∀ row ∈ rows, BareRecord row) : records (rows.flatMap line) = rows := by
  have hfold : ∀ rs, (rows.flatMap line).foldl Reader.step ⟨.startRecord, [], [], rs⟩ =
      ⟨.startRecord, [], [], rs ++ rows⟩ := by
    induction rows with
    | nil => intro rs; rw [List.append_nil]; rfl
    | cons row rows ih =>
      intro rs
      rw [List.forall_mem_cons] at h
      obtain ⟨⟨w, ws, rfl, hw⟩, hbare⟩ := h.1
      rw [List.forall_mem_cons] at hbare
      rw [List.flatMap_cons, List.foldl_append, read_line hbare.1 hbare.2 (.inr ⟨rfl, hw⟩), ih h.2, List.append_assoc]
      rfl
  have hlines : ∀ c ∈ rows.flatMap line, c ≠ 13 := by
    intro c hc
    obtain ⟨row, hrow, hc⟩ := List.mem_flatMap.mp hc
    exact notMem_line (h row hrow).bare c hc
  rw [records, newlines_eq hlines, hfold []]
  rfl

end Bare

/-! ### Rows under a header -/

/-- The values of the header's fields, as far as the record has them. -/
def rowDict (header record : List (List UInt8)) : Dict (List UInt8) (Option (List UInt8)) :=
  Dict.ofPairs (header.zip (record.map some ++ List.replicate (header.length - record.length) none))

/-- The rows of a file: its first record is the header, and empty ones are left out. -/
def dictRows : List (List (List UInt8)) → List (Dict (List UInt8) (Option (List UInt8)))
  | [] => []
  | header :: records => (records.filter fun record => record ≠ []).map (rowDict header)

section Rows

variable {header record : List (List UInt8)} {rows : List (List (List UInt8))}

theorem rowDict_entries (hheader : header.Nodup) (hlength : record.length = header.length) :
    (rowDict header record).entries = header.zip (record.map some) := by
  rw [rowDict, hlength, Nat.sub_self, List.replicate_zero, List.append_nil]
  refine Dict.ofPairs_of_nodup ?_
  rw [List.map_fst_zip (by simp [hlength])]
  exact hheader

/-- **Every row that is not empty is a dictionary.** -/
theorem dictRows_eq (hrows : ∀ row ∈ rows, row ≠ []) : dictRows (header :: rows) = rows.map (rowDict header) := by
  rw [dictRows, List.filter_eq_self.mpr fun row hrow => decide_eq_true (hrows row hrow)]

end Rows

end Csv
end TuningMod

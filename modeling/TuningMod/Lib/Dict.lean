/-
# Dictionaries

Keys and their values, in the order in which the keys came first. A key has one
value, the last that it got.

Key definitions: `Dict`, `Dict.get`, `Dict.set`, `Dict.ofPairs`.
Key theorems: `Dict.ofPairs_of_nodup`, `Dict.ofPairs_entries`, `Dict.get_of_mem`.
-/
import Mathlib.Data.List.Nodup
import Mathlib.Tactic.Common

namespace TuningMod

@[ext] structure Dict (κ α : Type*) where
  entries : List (κ × α)
  nodup : (entries.map Prod.fst).Nodup
  deriving DecidableEq

namespace Dict

variable {κ α : Type*} [DecidableEq κ] {k : κ} {v : α} {l : List (κ × α)}

def empty : Dict κ α := ⟨[], List.nodup_nil⟩

def get (d : Dict κ α) (k : κ) : Option α := (d.entries.find? fun e => e.1 = k).map Prod.snd

theorem keys_update (l : List (κ × α)) :
    (l.map fun e => if e.1 = k then (k, v) else e).map Prod.fst = l.map Prod.fst := by
  rw [List.map_map]
  refine List.map_congr_left fun e _ => ?_
  dsimp only [Function.comp]
  split_ifs with h
  · exact h.symm
  · rfl

/-- A key that is there gets the value in its place, a new one at the end. -/
def set (d : Dict κ α) (k : κ) (v : α) : Dict κ α :=
  if h : k ∈ d.entries.map Prod.fst then
    ⟨d.entries.map fun e => if e.1 = k then (k, v) else e, by rw [keys_update]; exact d.nodup⟩
  else
    ⟨d.entries ++ [(k, v)], by
      rw [List.map_append, List.nodup_append_comm]
      exact List.nodup_cons.mpr ⟨h, d.nodup⟩⟩

def ofPairs (l : List (κ × α)) : Dict κ α := l.foldl (fun d e => d.set e.1 e.2) empty

theorem set_new (d : Dict κ α) (h : k ∉ d.entries.map Prod.fst) : (d.set k v).entries = d.entries ++ [(k, v)] := by
  rw [set, dif_neg h]

/-- Pairs with different keys, behind those of a dictionary. -/
theorem foldl_set (d : Dict κ α) (h : ((d.entries ++ l).map Prod.fst).Nodup) :
    (l.foldl (fun d e => d.set e.1 e.2) d).entries = d.entries ++ l := by
  induction l generalizing d with
  | nil => rw [List.append_nil]; rfl
  | cons e l ih =>
    have hnew : e.1 ∉ d.entries.map Prod.fst := by
      rw [List.map_append, List.map_cons] at h
      intro hmem
      exact (List.nodup_append.mp h).2.2 e.1 hmem e.1 List.mem_cons_self rfl
    have hentries : (d.set e.1 e.2).entries = d.entries ++ [e] := set_new d hnew
    have hnodup : (((d.set e.1 e.2).entries ++ l).map Prod.fst).Nodup := by
      rw [hentries, List.append_assoc, List.singleton_append]
      exact h
    rw [List.foldl_cons, ih _ hnodup, hentries, List.append_assoc, List.singleton_append]

/-- Different keys keep their pairs. -/
theorem ofPairs_of_nodup (h : (l.map Prod.fst).Nodup) : (ofPairs l).entries = l := foldl_set empty h

/-- **A dictionary is made of its entries.** -/
theorem ofPairs_entries (d : Dict κ α) : ofPairs d.entries = d := Dict.ext (ofPairs_of_nodup d.nodup)

/-- **An entry's value is found.** -/
theorem get_of_mem {d : Dict κ α} (h : (k, v) ∈ d.entries) : d.get k = some v := by
  obtain ⟨entries, hnodup⟩ := d
  have hfound : ∀ l : List (κ × α), (l.map Prod.fst).Nodup → (k, v) ∈ l → l.find? (fun e => e.1 = k) = some (k, v) := by
    intro l
    induction l with
    | nil => intro _ h; cases h
    | cons e l ih =>
      intro hnodup hmem
      rw [List.map_cons, List.nodup_cons] at hnodup
      rcases List.mem_cons.mp hmem with rfl | hmem
      · rw [List.find?_cons_of_pos (by simp)]
      · have hne : e.1 ≠ k := by
          rintro rfl
          exact hnodup.1 (List.mem_map.mpr ⟨_, hmem, rfl⟩)
        rw [List.find?_cons_of_neg (by simpa using hne), ih hnodup.2 hmem]
  rw [get, hfound entries hnodup h, Option.map_some]

end Dict

end TuningMod

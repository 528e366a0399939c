/-
# Rows as JSON

A list of dictionaries whose values are texts or `null`, as `json.dumps` writes
it with an indent and as `json.load` reads it. Both go character by character:
what stands between quotes is one token, a character outside of ASCII or below
the blank is escaped there, and blanks and ends of lines between tokens mean
nothing. Numbers, the other two names, lists within lists and characters
outside of ASCII have no reading here.

Key definitions: `Token`, `Lexer.step`, `Parser.step`, `loads`, `dumps`.
Key theorems: `escaped_read`, `writes_text`, `writes_dumps`, `parses_rows`, `loads_dumps`.
-/
import TuningMod.Lib.Dict
import TuningMod.Lib.Runs

namespace TuningMod
namespace Json

inductive Token where
  | beginArray | endArray | beginObject | endObject | colon | comma | null
  | text (s : List UInt8)
  deriving DecidableEq

/-! ### Tokens -/

/-- Between tokens, in a word, in a text, behind a backslash, or among the digits of `\u`. -/
inductive Mode where
  | between
  | word (rest : List UInt8)
  | text (s : List UInt8)
  | escape (s : List UInt8)
  | code (s : List UInt8) (digits n : ℕ)
  deriving DecidableEq

structure Lexer where
  mode : Mode := .between
  tokens : List Token := []
  deriving DecidableEq

def space (c : UInt8) : Bool := c = 32 || c = 9 || c = 10 || c = 13

def hexValue (c : UInt8) : Option ℕ :=
  if 48 ≤ c ∧ c ≤ 57 then some (c.toNat - 48)
  else if 97 ≤ c ∧ c ≤ 102 then some (c.toNat - 87)
  else if 65 ≤ c ∧ c ≤ 70 then some (c.toNat - 55)
  else none

/-- The character that a letter stands for behind a backslash. -/
def unescape (c : UInt8) : Option UInt8 :=
  ([(34, 34), (92, 92), (47, 47), (98, 8), (102, 12), (110, 10), (114, 13), (116, 9)] : List (UInt8 × UInt8)).lookup c

def punctuation (c : UInt8) : Option Token :=
  ([(91, .beginArray), (93, .endArray), (123, .beginObject), (125, .endObject), (58, .colon), (44, .comma)] :
    List (UInt8 × Token)).lookup c

namespace Lexer

def push (l : Lexer) (t : Token) : Lexer := ⟨.between, l.tokens ++ [t]⟩

def step (l : Lexer) (c : UInt8) : Option Lexer :=
  match l.mode with
  | .between =>
    if space c then some l
    else if c = 34 then some { l with mode := .text [] }
    else if c = 110 then some { l with mode := .word [117, 108, 108] }
    else (punctuation c).map l.push
  | .word rest =>
    if rest.head? = some c then
      if rest.tail = [] then some (l.push .null) else some { l with mode := .word rest.tail }
    else none
  | .text s =>
    if c = 34 then some (l.push (.text s))
    else if c = 92 then some { l with mode := .escape s }
    else if c < 32 then none
    else some { l with mode := .text (s ++ [c]) }
  | .escape s =>
    if c = 117 then some { l with mode := .code s 0 0 }
    else (unescape c).map fun d => { l with mode := .text (s ++ [d]) }
  | .code s digits n => do
    let d ← hexValue c
    let n := 16 * n + d
    if digits < 3 then some { l with mode := .code s (digits + 1) n }
    else if n < 128 then some { l with mode := .text (s ++ [n.toUInt8]) }
    else none

end Lexer

/-! ### Rows -/

/-- What may come next. -/
inductive Expect where
  | start | firstObject | object | behindObject | firstKey | key | colon (k : List UInt8) | value (k : List UInt8)
  | behindValue | done
  deriving DecidableEq

/-- The dictionary that is being read, and those before it. -/
structure Parser where
  expect : Expect := .start
  dict : Dict (List UInt8) (Option (List UInt8)) := .empty
  rows : List (Dict (List UInt8) (Option (List UInt8))) := []
  deriving DecidableEq

namespace Parser

def endObject (p : Parser) : Parser := ⟨.behindObject, .empty, p.rows ++ [p.dict]⟩

def step (p : Parser) (t : Token) : Option Parser :=
  match p.expect, t with
  | .start, .beginArray => some { p with expect := .firstObject }
  | .firstObject, .endArray => some { p with expect := .done }
  | .firstObject, .beginObject | .object, .beginObject => some { p with expect := .firstKey }
  | .firstKey, .endObject => some p.endObject
  | .firstKey, .text k | .key, .text k => some { p with expect := .colon k }
  | .colon k, .colon => some { p with expect := .value k }
  | .value k, .text s => some { p with expect := .behindValue, dict := p.dict.set k (some s) }
  | .value k, .null => some { p with expect := .behindValue, dict := p.dict.set k none }
  | .behindValue, .comma => some { p with expect := .key }
  | .behindValue, .endObject => some p.endObject
  | .behindObject, .comma => some { p with expect := .object }
  | .behindObject, .endArray => some { p with expect := .done }
  | _, _ => none

end Parser

def loads (text : List UInt8) : Option (List (Dict (List UInt8) (Option (List UInt8)))) := do
  let l ← Runs.run Lexer.step {} text
  let p ← if l.mode = .between then Runs.run Parser.step {} l.tokens else none
  if p.expect = .done then some p.rows else none

/-! ### Writing -/

def hexLower (d : ℕ) : UInt8 := (if d < 10 then 48 + d else 87 + d).toUInt8

def escaped (c : UInt8) : List UInt8 :=
  match ([(34, 34), (92, 92), (8, 98), (12, 102), (10, 110), (13, 114), (9, 116)] : List (UInt8 × UInt8)).lookup c with
  | some d => [92, d]
  | none =>
    if 32 ≤ c ∧ c ≤ 126 then [c] else [92, 117, 48, 48, hexLower (c.toNat / 16), hexLower (c.toNat % 16)]

def quoted (s : List UInt8) : List UInt8 := 34 :: (s.flatMap escaped ++ [34])

/-- A new line, so far inside. -/
def newline (level : ℕ) : List UInt8 := 10 :: List.replicate (4 * level) 32

/-- Items between brackets, each on lines of its own. -/
def block (opens closes : UInt8) (level : ℕ) (items : List (List UInt8)) : List UInt8 :=
  if items = [] then [opens, closes]
  else opens :: (newline (level + 1) ++ (44 :: newline (level + 1)).intercalate items ++ newline level ++ [closes])

def valueText : Option (List UInt8) → List UInt8
  | none => [110, 117, 108, 108]
  | some s => quoted s

def pairText (e : List UInt8 × Option (List UInt8)) : List UInt8 := quoted e.1 ++ [58, 32] ++ valueText e.2

def dictText (d : Dict (List UInt8) (Option (List UInt8))) : List UInt8 := block 123 125 1 (d.entries.map pairText)

/-- `json.dumps(rows, indent=4, separators=(',', ': '))`. -/
def dumps (rows : List (Dict (List UInt8) (Option (List UInt8)))) : List UInt8 := block 91 93 0 (rows.map dictText)

/-! ### The tokens of what is written -/

/-- Between tokens the text is read as these. -/
def Writes (text : List UInt8) (tokens : List Token) : Prop :=
  ∀ ts, Runs.run Lexer.step ⟨.between, ts⟩ text = some ⟨.between, ts ++ tokens⟩

section Writes

variable {a b s : List UInt8} {t u : List Token} {c opens closes : UInt8} {level : ℕ}

theorem Writes.append (ha : Writes a t) (hb : Writes b u) : Writes (a ++ b) (t ++ u) := by
  intro ts
  rw [Runs.run_append, ha ts, Option.bind_some, hb, List.append_assoc]

theorem Writes.nil : Writes [] [] := by
  intro ts
  rw [List.append_nil]
  rfl

theorem writes_spaces (h : ∀ c ∈ a, space c = true) : Writes a [] := by
  induction a with
  | nil => exact Writes.nil
  | cons c a ih =>
    rw [List.forall_mem_cons] at h
    intro ts
    rw [Runs.run, Lexer.step, if_pos h.1, Option.bind_some, ih h.2]

theorem writes_newline (level : ℕ) : Writes (newline level) [] := by
  refine writes_spaces fun c hc => ?_
  rcases List.mem_cons.mp hc with rfl | hc
  · rfl
  · rw [List.eq_of_mem_replicate hc]
    rfl

theorem writes_punctuation {tok : Token} (h : (c, tok) ∈ ([(91, .beginArray), (93, .endArray), (123, .beginObject),
    (125, .endObject), (58, .colon), (44, .comma)] : List (UInt8 × Token))) : Writes [c] [tok] := by
  intro ts
  simp only [List.mem_cons, Prod.mk.injEq, List.not_mem_nil, or_false] at h
  rcases h with ⟨rfl, rfl⟩ | ⟨rfl, rfl⟩ | ⟨rfl, rfl⟩ | ⟨rfl, rfl⟩ | ⟨rfl, rfl⟩ | ⟨rfl, rfl⟩ <;> rfl

theorem hexValue_hexLower : ∀ d < 16, hexValue (hexLower d) = some d := by decide

theorem step_text (hquote : c ≠ 34) (hslash : c ≠ 92) (hblank : ¬ c < 32) (s : List UInt8) (ts : List Token) :
    Lexer.step ⟨.text s, ts⟩ c = some ⟨.text (s ++ [c]), ts⟩ := by
  simp [Lexer.step, hquote, hslash, hblank]

theorem step_code {d digits n : ℕ} {ts : List Token} (h : hexValue c = some d) :
    Lexer.step ⟨.code s digits n, ts⟩ c = if digits < 3 then some ⟨.code s (digits + 1) (16 * n + d), ts⟩
      else if 16 * n + d < 128 then some ⟨.text (s ++ [(16 * n + d).toUInt8]), ts⟩ else none := by
  simp only [Lexer.step, h]
  rfl

/-- The digits of a character. -/
theorem code_read (hc : c < 128) (s : List UInt8) (ts : List Token) :
    Runs.run Lexer.step ⟨.text s, ts⟩ [92, 117, 48, 48, hexLower (c.toNat / 16), hexLower (c.toNat % 16)] =
      some ⟨.text (s ++ [c]), ts⟩ := by
  have hlt : c.toNat < 128 := UInt8.lt_iff_toNat_lt.mp hc
  have hfirst : hexValue (hexLower (c.toNat / 16)) = some (c.toNat / 16) := hexValue_hexLower _ (by omega)
  have hsecond : hexValue (hexLower (c.toNat % 16)) = some (c.toNat % 16) := hexValue_hexLower _ (by omega)
  have hcode : 16 * (16 * 0 + c.toNat / 16) + c.toNat % 16 = c.toNat := by omega
  have hback : c.toNat.toUInt8 = c := UInt8.ofNat_toNat
  have hzeros : Runs.run Lexer.step ⟨.text s, ts⟩ [92, 117, 48, 48] = some ⟨.code s 2 0, ts⟩ := rfl
  calc Runs.run Lexer.step ⟨.text s, ts⟩ ([92, 117, 48, 48] ++ [hexLower (c.toNat / 16), hexLower (c.toNat % 16)])
    _ = Runs.run Lexer.step ⟨.code s 2 0, ts⟩ [hexLower (c.toNat / 16), hexLower (c.toNat % 16)] := by
        rw [Runs.run_append, hzeros, Option.bind_some]
    _ = Runs.run Lexer.step ⟨.code s 3 (16 * 0 + c.toNat / 16), ts⟩ [hexLower (c.toNat % 16)] := by
        rw [Runs.run, step_code hfirst]
        rfl
    _ = some ⟨.text (s ++ [c]), ts⟩ := by
        rw [Runs.run, step_code hsecond, hcode, if_neg (by decide), if_pos hlt, hback]
        rfl

/-- **A character within quotes.** -/
theorem escaped_read (hc : c < 128) (s : List UInt8) (ts : List Token) :
    Runs.run Lexer.step ⟨.text s, ts⟩ (escaped c) = some ⟨.text (s ++ [c]), ts⟩ := by
  unfold escaped
  split
  · next d hd =>
    obtain ⟨l₁, l₂, hsplit, -⟩ := List.lookup_eq_some_iff.mp hd
    have hmem : (c, d) ∈ ([(34, 34), (92, 92), (8, 98), (12, 102), (10, 110), (13, 114), (9, 116)] :
        List (UInt8 × UInt8)) := by
      rw [hsplit]
      exact List.mem_append_right _ List.mem_cons_self
    simp only [List.mem_cons, Prod.mk.injEq, List.not_mem_nil, or_false] at hmem
    rcases hmem with ⟨rfl, rfl⟩ | ⟨rfl, rfl⟩ | ⟨rfl, rfl⟩ | ⟨rfl, rfl⟩ | ⟨rfl, rfl⟩ | ⟨rfl, rfl⟩ | ⟨rfl, rfl⟩ <;> rfl
  · next hd =>
    split_ifs with hprint
    · rw [List.lookup_eq_none_iff] at hd
      have hquote : c ≠ 34 := bne_iff_ne.mp (hd (34, 34) (by decide))
      have hslash : c ≠ 92 := bne_iff_ne.mp (hd (92, 92) (by decide))
      have hblank : ¬ c < 32 := UInt8.not_lt.mpr hprint.1
      rw [Runs.run, step_text hquote hslash hblank]
      rfl
    · exact code_read hc s ts

/-- **A text in quotes is one token.** -/
theorem writes_text (hs : ∀ c ∈ s, c < 128) : Writes (quoted s) [.text s] := by
  have hread : ∀ v ts, Runs.run Lexer.step ⟨.text v, ts⟩ (s.flatMap escaped) = some ⟨.text (v ++ s), ts⟩ := by
    induction s with
    | nil => intro v ts; rw [List.append_nil]; rfl
    | cons c s ih =>
      intro v ts
      rw [List.forall_mem_cons] at hs
      rw [List.flatMap_cons, Runs.run_append, escaped_read hs.1, Option.bind_some, ih hs.2, List.append_assoc]
      rfl
  intro ts
  change Runs.run Lexer.step ⟨.text [], ts⟩ (s.flatMap escaped ++ [34]) = _
  rw [Runs.run_append, hread]
  rfl

theorem writes_null : Writes [110, 117, 108, 108] [.null] := fun _ => rfl

/-- Texts between separators, each on lines of its own. -/
theorem writes_items {sep : List UInt8} {α : Type*} {text : α → List UInt8} {tokens : α → List Token} {l : List α}
    (hsep : Writes sep t) (h : ∀ x ∈ l, Writes (text x) (tokens x)) :
    Writes (sep.intercalate (l.map text)) (t.intercalate (l.map tokens)) := by
  induction l with
  | nil => exact Writes.nil
  | cons x l ih =>
    rw [List.forall_mem_cons] at h
    cases l with
    | nil =>
      rw [List.map_singleton, List.map_singleton, List.intercalate_singleton, List.intercalate_singleton]
      exact h.1
    | cons y l =>
      have hrest := ih h.2
      simp only [List.map_cons, List.intercalate_cons_cons] at hrest ⊢
      exact (h.1.append hsep).append hrest

/-- Tokens between brackets. -/
def bracketed (first last : Token) (items : List (List Token)) : List Token :=
  first :: ([Token.comma].intercalate items ++ [last])

theorem writes_block {α : Type*} {text : α → List UInt8} {tokens : α → List Token} {l : List α}
    {first last : Token} (ho : Writes [opens] [first]) (hc : Writes [closes] [last]) (level : ℕ)
    (h : ∀ x ∈ l, Writes (text x) (tokens x)) :
    Writes (block opens closes level (l.map text)) (bracketed first last (l.map tokens)) := by
  unfold block bracketed
  by_cases hl : l = []
  · subst hl
    exact ho.append hc
  · have hcomma : Writes (44 :: newline (level + 1)) [.comma] :=
      (writes_punctuation (by simp)).append (writes_newline (level + 1))
    have hitems := writes_items hcomma h
    have hblock := ho.append ((((writes_newline (level + 1)).append hitems).append (writes_newline level)).append hc)
    rw [if_neg (by simpa using hl)]
    simpa using hblock

/-! ### The rows of the tokens -/

/-- A value of ASCII characters, as its key. -/
def Ascii (d : Dict (List UInt8) (Option (List UInt8))) : Prop :=
  ∀ e ∈ d.entries, (∀ c ∈ e.1, c < 128) ∧ ∀ s, e.2 = some s → ∀ c ∈ s, c < 128

def valueToken : Option (List UInt8) → Token
  | none => .null
  | some s => .text s

def pairTokens (e : List UInt8 × Option (List UInt8)) : List Token := [.text e.1, .colon, valueToken e.2]

def dictTokens (d : Dict (List UInt8) (Option (List UInt8))) : List Token :=
  bracketed .beginObject .endObject (d.entries.map pairTokens)

variable {d : Dict (List UInt8) (Option (List UInt8))} {rows : List (Dict (List UInt8) (Option (List UInt8)))}

theorem writes_pair {e : List UInt8 × Option (List UInt8)} (hk : ∀ c ∈ e.1, c < 128)
    (hv : ∀ s, e.2 = some s → ∀ c ∈ s, c < 128) : Writes (pairText e) (pairTokens e) := by
  obtain ⟨k, v⟩ := e
  have hcolon : Writes [58, 32] [.colon] := fun _ => rfl
  have hvalue : Writes (valueText v) [valueToken v] := by
    cases v with
    | none => exact writes_null
    | some s => exact writes_text (hv s rfl)
  exact ((writes_text hk).append hcolon).append hvalue

theorem writes_dict (h : Ascii d) : Writes (dictText d) (dictTokens d) :=
  writes_block (writes_punctuation (by simp)) (writes_punctuation (by simp)) 1 fun e he =>
    writes_pair (h e he).1 (h e he).2

/-- **The tokens of the rows.** -/
theorem writes_dumps (h : ∀ d ∈ rows, Ascii d) :
    Writes (dumps rows) (bracketed .beginArray .endArray (rows.map dictTokens)) :=
  writes_block (writes_punctuation (by simp)) (writes_punctuation (by simp)) 0 fun d hd => writes_dict (h d hd)

theorem parse_pair {e : List UInt8 × Option (List UInt8)} {expect : Expect}
    (hexpect : expect = .firstKey ∨ expect = .key) :
    Runs.run Parser.step ⟨expect, d, rows⟩ (pairTokens e) = some ⟨.behindValue, d.set e.1 e.2, rows⟩ := by
  obtain ⟨k, v⟩ := e
  rcases hexpect with rfl | rfl <;> cases v <;> rfl

/-- **A dictionary**, from the key that is next. -/
theorem parse_pairs {l : List (List UInt8 × Option (List UInt8))} {expect : Expect}
    (hexpect : expect = .firstKey ∨ expect = .key ∧ l ≠ []) :
    Runs.run Parser.step ⟨expect, d, rows⟩ ([.comma].intercalate (l.map pairTokens) ++ [.endObject]) =
      some ⟨.behindObject, .empty, rows ++ [l.foldl (fun d e => d.set e.1 e.2) d]⟩ := by
  induction l generalizing d expect with
  | nil =>
    obtain rfl : expect = .firstKey := hexpect.resolve_right fun h => h.2 rfl
    rfl
  | cons e l ih =>
    have hpair : Runs.run Parser.step ⟨expect, d, rows⟩ (pairTokens e) =
        some ⟨.behindValue, d.set e.1 e.2, rows⟩ := parse_pair (hexpect.imp_right And.left)
    cases l with
    | nil =>
      rw [List.map_singleton, List.intercalate_singleton, Runs.run_append, hpair]
      rfl
    | cons f l =>
      calc Runs.run Parser.step ⟨expect, d, rows⟩
            ([.comma].intercalate ((e :: f :: l).map pairTokens) ++ [.endObject])
        _ = Runs.run Parser.step ⟨expect, d, rows⟩
              (pairTokens e ++ .comma :: ([.comma].intercalate ((f :: l).map pairTokens) ++ [.endObject])) := by
            simp only [List.map_cons, List.intercalate_cons_cons, List.append_assoc, List.cons_append, List.nil_append]
        _ = Runs.run Parser.step ⟨.key, d.set e.1 e.2, rows⟩
              ([.comma].intercalate ((f :: l).map pairTokens) ++ [.endObject]) := by
            rw [Runs.run_append, hpair]
            rfl
        _ = some ⟨.behindObject, .empty, rows ++ [(e :: f :: l).foldl (fun d e => d.set e.1 e.2) d]⟩ :=
            ih (.inr ⟨rfl, List.cons_ne_nil f l⟩)

theorem parse_dict {expect : Expect} (hexpect : expect = .firstObject ∨ expect = .object) :
    Runs.run Parser.step ⟨expect, .empty, rows⟩ (dictTokens d) = some ⟨.behindObject, .empty, rows ++ [d]⟩ := by
  have hfold : d.entries.foldl (fun d e => d.set e.1 e.2) .empty = d := d.ofPairs_entries
  have hpairs : Runs.run Parser.step ⟨.firstKey, .empty, rows⟩
      ([.comma].intercalate (d.entries.map pairTokens) ++ [.endObject]) =
        some ⟨.behindObject, .empty, rows ++ [d.entries.foldl (fun d e => d.set e.1 e.2) .empty]⟩ :=
    parse_pairs (.inl rfl)
  rw [hfold] at hpairs
  rw [dictTokens, bracketed]
  rcases hexpect with rfl | rfl <;> exact hpairs

/-- **The rows.** -/
theorem parses_rows (l : List (Dict (List UInt8) (Option (List UInt8)))) {expect : Expect}
    (hexpect : expect = .firstObject ∨ expect = .object ∧ l ≠ []) :
    Runs.run Parser.step ⟨expect, .empty, rows⟩ ([.comma].intercalate (l.map dictTokens) ++ [.endArray]) =
      some ⟨.done, .empty, rows ++ l⟩ := by
  induction l generalizing rows expect with
  | nil =>
    obtain rfl : expect = .firstObject := hexpect.resolve_right fun h => h.2 rfl
    rw [List.append_nil]
    rfl
  | cons d l ih =>
    have hdict : Runs.run Parser.step ⟨expect, .empty, rows⟩ (dictTokens d) =
        some ⟨.behindObject, .empty, rows ++ [d]⟩ := parse_dict (hexpect.imp_right And.left)
    cases l with
    | nil =>
      rw [List.map_singleton, List.intercalate_singleton, Runs.run_append, hdict]
      rfl
    | cons f l =>
      calc Runs.run Parser.step ⟨expect, .empty, rows⟩
            ([.comma].intercalate ((d :: f :: l).map dictTokens) ++ [.endArray])
        _ = Runs.run Parser.step ⟨expect, .empty, rows⟩
              (dictTokens d ++ .comma :: ([.comma].intercalate ((f :: l).map dictTokens) ++ [.endArray])) := by
            simp only [List.map_cons, List.intercalate_cons_cons, List.append_assoc, List.cons_append, List.nil_append]
        _ = Runs.run Parser.step ⟨.object, .empty, rows ++ [d]⟩
              ([.comma].intercalate ((f :: l).map dictTokens) ++ [.endArray]) := by
            rw [Runs.run_append, hdict]
            rfl
        _ = some ⟨.done, .empty, rows ++ d :: f :: l⟩ := by
            rw [ih (.inr ⟨rfl, List.cons_ne_nil f l⟩), List.append_assoc]
            rfl

/-- **What is written is read back.** -/
theorem loads_dumps (h : ∀ d ∈ rows, Ascii d) : loads (dumps rows) = some rows := by
  have htokens : Runs.run Lexer.step {} (dumps rows) =
      some ⟨.between, bracketed .beginArray .endArray (rows.map dictTokens)⟩ := writes_dumps h []
  have hrows : Runs.run Parser.step {} (bracketed .beginArray .endArray (rows.map dictTokens)) =
      some ⟨.done, .empty, [] ++ rows⟩ := parses_rows rows (.inl rfl)
  rw [loads, htokens]
  simp only [Option.bind_eq_bind, Option.bind_some, if_true, hrows, List.nil_append]

end Writes

end Json
end TuningMod

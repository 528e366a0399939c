/-
# A shell

What scripts and `system` ask of `sh`: a text without quotes is cut into words
at the blanks, and `echo` puts one blank between them; `sed -n` with a number
takes a line of a file; a command is a row of words, some of them in quotes,
and the file its output is appended to, and its error messages may be thrown
away. A command reads and changes the world it runs in, and `echo` leaves that
as it is.

A text with anything else that has a meaning for `sh` is no command here, and
`echo` is used without options and escapes.

Key definitions: `words`, `unwords`, `echoed`, `unlines`, `lineAt`, `parse`, `Machine`, `Machine.run`, `Agree`,
`CommandLine`.
Key theorems: `words_unwords`, `echoed_eq`, `lineAt_unlines`, `parse_append`, `run_comm_echo`, `Agree.run`,
`CommandLine.of_words`.
-/
import Mathlib.Data.List.Basic
import Mathlib.Logic.Function.Basic

namespace TuningMod
namespace Shell

/-! ### Words and lines -/

/-- What divides words. -/
def blank (c : UInt8) : Bool := c = 32 || c = 9

/-- The words of a text. -/
def words (l : List UInt8) : List (List UInt8) := (l.splitOnP blank).filter fun w => w ≠ []

/-- The words with one blank between them. -/
def unwords (ws : List (List UInt8)) : List UInt8 := [32].intercalate ws

/-- A text file. -/
def unlines (ls : List (List UInt8)) : List UInt8 := ls.flatMap fun l => l ++ [10]

/-- The line with a number, from 1 on, without its end. -/
def lineAt (n : ℕ) (file : List UInt8) : List UInt8 := ((file.splitOn 10)[n - 1]?).getD []

section Words

variable {w : List UInt8} {ws ls : List (List UInt8)}

/-- A word. -/
structure IsWord (w : List UInt8) : Prop where
  ne_nil : w ≠ []
  no_blank : ∀ c ∈ w, blank c = false

theorem words_of_isWord (h : IsWord w) : words w = [w] := by
  rw [words, List.splitOnP_eq_singleton h.no_blank, List.filter_cons_of_pos (by simpa using h.ne_nil), List.filter_nil]

theorem words_cons (h : IsWord w) (l : List UInt8) : words (w ++ 32 :: l) = w :: words l := by
  have hfirst : (w ++ 32 :: l).splitOnP blank = w :: l.splitOnP blank :=
    List.splitOnP_append_cons_of_forall_mem h.no_blank 32 rfl l
  rw [words, hfirst, List.filter_cons_of_pos (by simpa using h.ne_nil), words]

theorem unwords_cons_cons (w v : List UInt8) (ws : List (List UInt8)) :
    unwords (w :: v :: ws) = w ++ 32 :: unwords (v :: ws) := by
  rw [unwords, List.intercalate_cons_cons, unwords, List.append_assoc, List.singleton_append]

theorem unwords_append_singleton (hne : ws ≠ []) : unwords (ws ++ [w]) = unwords ws ++ 32 :: w := by
  induction ws with
  | nil => exact absurd rfl hne
  | cons v ws ih =>
    cases ws with
    | nil => rw [List.singleton_append, unwords_cons_cons, unwords, unwords, List.intercalate_singleton,
        List.intercalate_singleton]
    | cons u ws =>
      rw [List.cons_append, List.cons_append, unwords_cons_cons, ← List.cons_append, ih (List.cons_ne_nil u ws),
        unwords_cons_cons, List.append_assoc, List.cons_append]

/-- **The words of a line of words.** -/
theorem words_unwords (h : ∀ w ∈ ws, IsWord w) : words (unwords ws) = ws := by
  induction ws with
  | nil => rfl
  | cons w ws ih =>
    have hw := h w List.mem_cons_self
    cases ws with
    | nil => rw [unwords, List.intercalate_singleton, words_of_isWord hw]
    | cons v ws => rw [unwords_cons_cons, words_cons hw, ih fun u hu => h u (List.mem_cons_of_mem w hu)]

theorem splitOn_unlines (h : ∀ l ∈ ls, 10 ∉ l) : (unlines ls).splitOn 10 = ls ++ [[]] := by
  induction ls with
  | nil => rfl
  | cons l ls ih =>
    have hl : ∀ c ∈ l, (c == (10 : UInt8)) = false := by
      intro c hc
      rw [beq_eq_false_iff_ne]
      rintro rfl
      exact h l List.mem_cons_self hc
    rw [unlines, List.flatMap_cons, List.append_assoc, List.singleton_append, List.splitOn_eq_splitOnP,
      List.splitOnP_append_cons_of_forall_mem hl 10 (by rfl), ← List.splitOn_eq_splitOnP, List.cons_append]
    exact congrArg _ (ih fun m hm => h m (List.mem_cons_of_mem l hm))

/-- **A file gives its lines back.** -/
theorem lineAt_unlines (h : ∀ l ∈ ls, 10 ∉ l) {i : ℕ} (hi : i < ls.length) :
    lineAt (i + 1) (unlines ls) = ls[i] := by
  rw [lineAt, splitOn_unlines h, Nat.add_sub_cancel, List.getElem?_append_left hi, List.getElem?_eq_getElem hi]
  rfl

end Words

/-! ### Expansion -/

/-- The characters of a pattern. -/
def pattern (c : UInt8) : Bool := c ∈ ([42, 63, 91] : List UInt8)

/-- A pattern becomes the names of the files that match it, if there are any. -/
def expand (matching : List UInt8 → List (List UInt8)) (w : List UInt8) : List (List UInt8) :=
  if w.any pattern ∧ matching w ≠ [] then matching w else [w]

/-- What `echo` makes of a text that is not in quotes. -/
def echoed (matching : List UInt8 → List (List UInt8)) (text : List UInt8) : List UInt8 :=
  unwords ((words text).flatMap (expand matching))

/-- A line of words that are no patterns, or have no file that matches. -/
def Steady (matching : List UInt8 → List (List UInt8)) (text : List UInt8) : Prop :=
  ∃ ws, text = unwords ws ∧ ∀ w ∈ ws, IsWord w ∧ expand matching w = [w]

/-- **`echo` writes such a line as it is.** -/
theorem echoed_eq {matching : List UInt8 → List (List UInt8)} {text : List UInt8} (h : Steady matching text) :
    echoed matching text = text := by
  obtain ⟨ws, rfl, hws⟩ := h
  have hexpand : ws.flatMap (expand matching) = ws := by
    rw [List.flatMap_congr fun w hw => (hws w hw).2, List.flatMap_singleton']
  rw [echoed, words_unwords fun w hw => (hws w hw).1, hexpand]

/-! ### Commands -/

/-- A word, or a sign that the output goes to a file, with another one right
behind it or not; a 2 right in front of the sign says that it is about the error
messages. -/
inductive Token where
  | word (w : List UInt8)
  | two
  | greater (joined : Bool)
  deriving DecidableEq

/-- The characters that this shell does not read outside of quotes: ends of commands, patterns, expansions, comments. -/
def special (c : UInt8) : Bool :=
  c ∈ ([10, 33, 35, 36, 38, 40, 41, 42, 59, 60, 63, 91, 92, 96, 123, 124, 125, 126] : List UInt8)

/-- Those that it does not read between two quotes of a kind. -/
def specialIn (quote c : UInt8) : Bool := quote = 34 && c ∈ ([36, 92, 96] : List UInt8)

def isQuote (c : UInt8) : Bool := c = 34 || c = 39

/-- The word that has been read so far is over. -/
def close (cur : Option (List UInt8)) : List Token := (cur.map .word).toList

/-- The tokens of a text, with the quote that is open and the word that has been
read so far. A sign right behind a word is not read, but for the 2. -/
def lex (quote : Option UInt8) (cur : Option (List UInt8)) : List UInt8 → Option (List Token)
  | [] => if quote = none then some (close cur) else none
  | c :: l =>
    match quote with
    | some q =>
      if c = q then lex none cur l
      else if specialIn q c then none
      else lex quote (cur.map fun w => w ++ [c]) l
    | none =>
      if isQuote c then lex (some c) (some (cur.getD [])) l
      else if blank c then (lex none none l).map fun ts => close cur ++ ts
      else if c = 62 then
        if cur = none then (lex none none l).map fun ts => .greater (l.head? = some 62) :: ts else none
      else if c = 50 ∧ cur = none ∧ l.head? = some 62 then (lex none none l).map fun ts => .two :: ts
      else if special c then none
      else lex none (some (cur.getD [] ++ [c])) l

/-- The words of a command, and the file its output is appended to. -/
structure Command where
  words : List (List UInt8)
  appended : Option (List UInt8) := none
  deriving DecidableEq

/-- `/dev/null` -/
def devNull : List UInt8 := [47, 100, 101, 118, 47, 110, 117, 108, 108]

def command : List Token → Option Command
  | [] => some ⟨[], none⟩
  | .word w :: ts => (command ts).map fun c => { c with words := w :: c.words }
  | .two :: .greater false :: .word f :: ts => if f = devNull then command ts else none
  | [.greater true, .greater false, .word f] => some ⟨[], some f⟩
  | _ => none

def parse (text : List UInt8) : Option Command := (lex none none text).bind command

section Parse

variable {quote : Option UInt8} {cur : Option (List UInt8)} {l w a : List UInt8} {ts : List Token}
  {ws : List (List UInt8)} {q : UInt8}

/-- A character that stands for itself. -/
def literal (c : UInt8) : Bool := !isQuote c && !blank c && c ≠ 62 && !special c

theorem lex_plain_cons {c : UInt8} (hc : literal c = true) (cur : Option (List UInt8))
    (hl : cur = none → l.head? ≠ some 62) : lex none cur (c :: l) = lex none (some (cur.getD [] ++ [c])) l := by
  simp only [literal, Bool.and_eq_true, Bool.not_eq_true', ne_eq, decide_not, decide_eq_false_iff_not] at hc
  obtain ⟨⟨⟨hquote, hblank⟩, hgreater⟩, hspecial⟩ := hc
  have htwo : ¬ (c = 50 ∧ cur = none ∧ l.head? = some 62) := fun h => hl h.2.1 h.2.2
  simp only [lex, hquote, hblank, hgreater, htwo, hspecial, Bool.false_eq_true, if_false]

/-- What stands behind a word in front of anything but the sign. -/
theorem head_literal (h : ∀ c ∈ w, literal c = true) {l : List UInt8} (hl : l.head? ≠ some 62) :
    (w ++ l).head? ≠ some 62 := by
  cases w with
  | nil => exact hl
  | cons c w =>
    intro hc
    obtain rfl : c = 62 := Option.some.inj hc
    exact absurd (h 62 List.mem_cons_self) (by decide)

theorem lex_plain (h : ∀ c ∈ w, literal c = true) (a l : List UInt8) :
    lex none (some a) (w ++ l) = lex none (some (a ++ w)) l := by
  induction w generalizing a with
  | nil => rw [List.nil_append, List.append_nil]
  | cons c w ih =>
    rw [List.cons_append, lex_plain_cons (h c List.mem_cons_self) _ (fun hn => by cases hn), Option.getD_some,
      ih fun d hd => h d (List.mem_cons_of_mem c hd), List.append_assoc, List.singleton_append]

/-- The characters between two quotes. -/
theorem lex_quoted (h : ∀ c ∈ w, c ≠ q ∧ specialIn q c = false) (a l : List UInt8) :
    lex (some q) (some a) (w ++ q :: l) = lex none (some (a ++ w)) l := by
  induction w generalizing a with
  | nil => simp [lex]
  | cons c w ih =>
    obtain ⟨hne, hspecial⟩ := h c List.mem_cons_self
    rw [List.cons_append, lex, if_neg hne, hspecial, Option.map_some, if_neg (by decide),
      ih fun d hd => h d (List.mem_cons_of_mem c hd), List.append_assoc, List.singleton_append]

/-- A blank behind a text without an open quote. -/
theorem lex_append_blank (rest : List UInt8) (h : lex quote cur l = some ts) :
    lex quote cur (l ++ 32 :: rest) = (lex none none rest).map fun us => ts ++ us := by
  have hhead : ∀ l : List UInt8, (l ++ 32 :: rest).head? = some 62 ↔ l.head? = some 62 := by
    intro l
    cases l <;> simp
  induction l generalizing quote cur ts with
  | nil =>
    rw [lex] at h
    split_ifs at h with hq
    obtain rfl := Option.some.inj h
    subst hq
    rfl
  | cons c l ih =>
    rw [List.cons_append]
    cases quote with
    | some q =>
      simp only [lex] at h ⊢
      split_ifs at h ⊢ with hc hs
      · exact ih h
      · exact ih h
    | none =>
      simp only [lex, hhead] at h ⊢
      split_ifs at h ⊢ with hquote hblank hgreater hcur htwo hspecial
      · exact ih h
      · obtain ⟨us, hus, rfl⟩ := Option.map_eq_some_iff.mp h
        rw [ih hus, Option.map_map]
        exact congrArg (fun f => Option.map f _) (funext fun us => (List.append_assoc _ _ us).symm)
      · obtain ⟨us, hus, rfl⟩ := Option.map_eq_some_iff.mp h
        rw [ih hus, Option.map_map]
        rfl
      · obtain ⟨us, hus, rfl⟩ := Option.map_eq_some_iff.mp h
        rw [ih hus, Option.map_map]
        rfl
      · exact ih h

theorem command_words_append (ws : List (List UInt8)) (ts : List Token) :
    command (ws.map .word ++ ts) = (command ts).map fun c => { c with words := ws ++ c.words } := by
  induction ws with
  | nil => simp
  | cons w ws ih =>
    rw [List.map_cons, List.cons_append, command, ih, Option.map_map]
    rfl

/-- The words of a text, without the quotes. Its error messages may be thrown away. -/
def HasWords (text : List UInt8) (ws : List (List UInt8)) : Prop :=
  ∃ ts, lex none none text = some ts ∧
    ∀ us, command (ts ++ us) = (command us).map fun c => { c with words := ws ++ c.words }

theorem HasWords.of_lex (h : lex none none l = some (ws.map .word)) : HasWords l ws :=
  ⟨_, h, command_words_append ws⟩

theorem HasWords.parse_eq (h : HasWords l ws) : parse l = some ⟨ws, none⟩ := by
  obtain ⟨ts, hl, hts⟩ := h
  have hcommand := hts []
  rw [List.append_nil, command, Option.map_some, List.append_nil] at hcommand
  rw [parse, hl, Option.bind_some, hcommand]

/-- A word without anything special. -/
theorem lex_word (hne : w ≠ []) (h : ∀ c ∈ w, literal c = true) : lex none none w = some [.word w] := by
  obtain ⟨c, w, rfl⟩ := List.exists_cons_of_ne_nil hne
  have hw : ∀ d ∈ w, literal d = true := fun d hd => h d (List.mem_cons_of_mem c hd)
  have hhead : w.head? ≠ some 62 := by
    have hend := head_literal hw (l := []) (by simp)
    rwa [List.append_nil] at hend
  have hrest := lex_plain hw [c] []
  rw [lex_plain_cons (h c List.mem_cons_self) none fun _ => hhead, Option.getD_none, List.nil_append]
  rw [List.append_nil] at hrest
  exact hrest

theorem hasWords_plain (hne : w ≠ []) (h : ∀ c ∈ w, literal c = true) : HasWords w [w] :=
  .of_lex (lex_word hne h)

/-- A word that ends in quotes. -/
theorem hasWords_quoted (hne : w ≠ []) (h : ∀ c ∈ w, literal c = true) (hq : isQuote q = true)
    (ha : ∀ c ∈ a, c ≠ q ∧ specialIn q c = false) : HasWords (w ++ q :: (a ++ [q])) [w ++ a] := by
  obtain ⟨c, w, rfl⟩ := List.exists_cons_of_ne_nil hne
  have hword : ∀ d ∈ w, literal d = true := fun d hd => h d (List.mem_cons_of_mem c hd)
  have hhead : (w ++ q :: (a ++ [q])).head? ≠ some 62 := by
    refine head_literal hword fun hc => ?_
    obtain rfl : q = 62 := Option.some.inj hc
    exact absurd hq (by decide)
  have hw := lex_plain hword [c] (q :: (a ++ [q]))
  have hquote : lex none (some (c :: w)) (q :: (a ++ [q])) = lex (some q) (some (c :: w)) (a ++ [q]) := by
    rw [lex, if_pos hq, Option.getD_some]
  refine .of_lex ?_
  rw [List.cons_append, lex_plain_cons (h c List.mem_cons_self) none fun _ => hhead, Option.getD_none,
    List.nil_append, hw]
  exact hquote.trans (lex_quoted ha (c :: w) [])

theorem HasWords.append {m : List UInt8} {us : List (List UInt8)} (hl : HasWords l ws) (hm : HasWords m us) :
    HasWords (l ++ 32 :: m) (ws ++ us) := by
  obtain ⟨ts, hl, hts⟩ := hl
  obtain ⟨vs, hm, hvs⟩ := hm
  refine ⟨ts ++ vs, by rw [lex_append_blank m hl, hm, Option.map_some], fun xs => ?_⟩
  rw [List.append_assoc, hts, hvs, Option.map_map]
  exact congrArg (fun f => Option.map f _) (funext fun c => by rw [Function.comp_apply, List.append_assoc])

/-- `2>/dev/null` -/
def noErrors : List UInt8 := 50 :: 62 :: devNull

/-- **A command without its error messages** has the words that it had. -/
theorem HasWords.append_noErrors (hl : HasWords l ws) : HasWords (l ++ 32 :: noErrors) ws := by
  have hno : HasWords noErrors [] := by
    refine ⟨[.two, .greater false, .word devNull], by decide +kernel, fun us => ?_⟩
    exact (if_pos rfl).trans Option.map_id'.symm
  rw [← List.append_nil ws]
  exact hl.append hno

/-- **A command with its output appended to a file.** -/
theorem parse_append {f : List UInt8} (hl : HasWords l ws) (hne : f ≠ []) (hf : ∀ c ∈ f, literal c = true) :
    parse (l ++ [32, 62, 62, 32] ++ f) = some ⟨ws, some f⟩ := by
  have hfile : lex none none (62 :: 62 :: 32 :: f) = some [.greater true, .greater false, .word f] := by
    simp only [lex, isQuote, blank]
    rw [lex_word hne hf]
    rfl
  obtain ⟨ts, hl, hts⟩ := hl
  have hcommand := hts [.greater true, .greater false, .word f]
  rw [command, Option.map_some, List.append_nil] at hcommand
  rw [List.append_assoc]
  rw [parse, show ([32, 62, 62, 32] ++ f : List UInt8) = 32 :: 62 :: 62 :: 32 :: f from rfl,
    lex_append_blank (62 :: 62 :: 32 :: f) hl, hfile, Option.map_some, Option.bind_some, hcommand]

end Parse

/-- A line that `echo` leaves alone and `sh` takes for a command without a file. -/
structure CommandLine (matching : List UInt8 → List (List UInt8)) (text : List UInt8) : Prop where
  steady : Steady matching text
  one_line : 10 ∉ text
  hasWords : ∃ ws, HasWords text ws

section CommandLine

variable {matching : List UInt8 → List (List UInt8)} {w : List UInt8} {ws : List (List UInt8)} {c : UInt8}

/-- A word of characters that stand for themselves. -/
structure PlainWord (w : List UInt8) : Prop where
  ne_nil : w ≠ []
  plain : ∀ c ∈ w, literal c = true

instance : DecidablePred PlainWord := fun w =>
  decidable_of_iff (w ≠ [] ∧ w.all literal = true)
    ⟨fun h => ⟨h.1, List.all_eq_true.mp h.2⟩, fun h => ⟨h.ne_nil, List.all_eq_true.mpr h.plain⟩⟩

theorem PlainWord.append {v : List UInt8} (hw : PlainWord w) (hv : ∀ c ∈ v, literal c = true) :
    PlainWord (w ++ v) where
  ne_nil h := hw.ne_nil (List.append_eq_nil_iff.mp h).1
  plain c hc := (List.mem_append.mp hc).elim (hw.plain c) (hv c)

theorem plain_cases (hc : literal c = true) : blank c = false ∧ pattern c = false ∧ c ≠ 10 := by
  simp only [literal, Bool.and_eq_true, Bool.not_eq_true', special, List.mem_cons, List.not_mem_nil, or_false,
    decide_eq_false_iff_not, not_or] at hc
  obtain ⟨⟨⟨-, hblank⟩, -⟩, hspecial⟩ := hc
  refine ⟨hblank, ?_, by tauto⟩
  simp only [pattern, List.mem_cons, List.not_mem_nil, or_false, decide_eq_false_iff_not, not_or]
  tauto

theorem expand_of_no_pattern (h : ∀ c ∈ w, pattern c = false) : expand matching w = [w] := by
  have hany : ¬ w.any pattern = true := by simpa using h
  rw [expand, if_neg fun h => hany h.1]

theorem PlainWord.isWord (h : PlainWord w) : IsWord w := ⟨h.ne_nil, fun c hc => (plain_cases (h.plain c hc)).1⟩

theorem PlainWord.expand_eq (h : PlainWord w) : expand matching w = [w] :=
  expand_of_no_pattern fun c hc => (plain_cases (h.plain c hc)).2.1

theorem PlainWord.hasWords (h : PlainWord w) : HasWords w [w] := hasWords_plain h.ne_nil h.plain

theorem notMem_unwords (h : ∀ w ∈ ws, 10 ∉ w) : 10 ∉ unwords ws := by
  induction ws with
  | nil => exact List.not_mem_nil
  | cons w ws ih =>
    have hw := h w List.mem_cons_self
    have hrest := ih fun v hv => h v (List.mem_cons_of_mem w hv)
    cases ws with
    | nil => rwa [unwords, List.intercalate_singleton]
    | cons v ws =>
      rw [unwords_cons_cons, List.mem_append, List.mem_cons, not_or, not_or]
      exact ⟨hw, by decide, hrest⟩

theorem hasWords_unwords (h : ∀ w ∈ ws, PlainWord w) : HasWords (unwords ws) ws := by
  induction ws with
  | nil => exact .of_lex rfl
  | cons w ws ih =>
    have hw := (h w List.mem_cons_self).hasWords
    have hrest := ih fun v hv => h v (List.mem_cons_of_mem w hv)
    cases ws with
    | nil => rwa [unwords, List.intercalate_singleton]
    | cons v ws =>
      rw [unwords_cons_cons]
      exact hw.append hrest

/-- A plain character may stand between double quotes. -/
theorem plain_quoted (hc : literal c = true) : c ≠ 34 ∧ specialIn 34 c = false := by
  simp only [literal, Bool.and_eq_true, Bool.not_eq_true', special, isQuote, Bool.or_eq_false_iff, List.mem_cons,
    List.not_mem_nil, or_false, decide_eq_false_iff_not, not_or] at hc
  obtain ⟨⟨⟨⟨hquote, -⟩, -⟩, -⟩, hspecial⟩ := hc
  refine ⟨hquote, ?_⟩
  simp only [specialIn, List.mem_cons, List.not_mem_nil, or_false, Bool.and_eq_false_iff, decide_eq_false_iff_not,
    not_or]
  tauto

/-- **A line of plain words.** -/
theorem CommandLine.of_words (h : ∀ w ∈ ws, PlainWord w) : CommandLine matching (unwords ws) where
  steady := ⟨ws, rfl, fun w hw => ⟨(h w hw).isWord, (h w hw).expand_eq⟩⟩
  one_line := notMem_unwords fun w hw hten => (plain_cases ((h w hw).plain 10 hten)).2.2 rfl
  hasWords := ⟨ws, hasWords_unwords h⟩

/-- **A line without its error messages.** -/
theorem CommandLine.append_noErrors {text : List UInt8} (h : CommandLine matching text) (hne : text ≠ []) :
    CommandLine matching (text ++ 32 :: noErrors) := by
  have hword : IsWord noErrors := ⟨List.cons_ne_nil _ _, by decide +kernel⟩
  have hexpand : expand matching noErrors = [noErrors] := expand_of_no_pattern (by decide +kernel)
  refine ⟨?_, ?_, ?_⟩
  · obtain ⟨ws, rfl, hws⟩ := h.steady
    refine ⟨ws ++ [noErrors], ?_, List.forall_mem_append.mpr ⟨hws, List.forall_mem_singleton.mpr ⟨hword, hexpand⟩⟩⟩
    rw [unwords_append_singleton fun hnil => hne (by rw [hnil]; rfl)]
  · rw [List.mem_append, not_or]
    exact ⟨h.one_line, by decide +kernel⟩
  · obtain ⟨ws, hws⟩ := h.hasWords
    exact ⟨ws, hws.append_noErrors⟩

end CommandLine

/-! ### Running commands -/

/-- The world the commands work in, and the files. -/
structure Machine (σ : Type*) where
  world : σ
  files : List UInt8 → Option (List UInt8)

section Run

variable {σ : Type*} (exec : List (List UInt8) → σ → σ × List UInt8)

/-- A command's output, and the world behind it. `echo` is the shell's own. -/
def output (ws : List (List UInt8)) (world : σ) : σ × List UInt8 :=
  match ws with
  | [] => (world, [])
  | w :: ws => if w = [101, 99, 104, 111] then (world, unwords ws ++ [10]) else exec (w :: ws) world

namespace Machine

variable {m : Machine σ} {t u f : List UInt8} {ws : List (List UInt8)}

/-- The file with something behind what it has. -/
def append (m : Machine σ) (f out : List UInt8) : Machine σ :=
  { m with files := Function.update m.files f (some ((m.files f).getD [] ++ out)) }

def remove (m : Machine σ) (f : List UInt8) : Machine σ := { m with files := Function.update m.files f none }

def write (m : Machine σ) (f text : List UInt8) : Machine σ :=
  { m with files := Function.update m.files f (some text) }

section Files

variable {g text : List UInt8}

@[simp] theorem append_world (m : Machine σ) (f out : List UInt8) : (m.append f out).world = m.world := rfl

@[simp] theorem remove_world (m : Machine σ) (f : List UInt8) : (m.remove f).world = m.world := rfl

@[simp] theorem write_world (m : Machine σ) (f text : List UInt8) : (m.write f text).world = m.world := rfl

theorem append_self (m : Machine σ) (f out : List UInt8) :
    (m.append f out).files f = some ((m.files f).getD [] ++ out) := Function.update_self ..

theorem append_of_ne (h : g ≠ f) (out : List UInt8) : (m.append f out).files g = m.files g :=
  Function.update_of_ne h ..

@[simp] theorem remove_self (m : Machine σ) (f : List UInt8) : (m.remove f).files f = none := Function.update_self ..

theorem remove_of_ne (h : g ≠ f) : (m.remove f).files g = m.files g := Function.update_of_ne h ..

@[simp] theorem write_self (m : Machine σ) (f text : List UInt8) : (m.write f text).files f = some text :=
  Function.update_self ..

theorem write_of_ne (h : g ≠ f) : (m.write f text).files g = m.files g := Function.update_of_ne h ..

end Files

/-- A command is run. -/
def run (m : Machine σ) (text : List UInt8) : Machine σ :=
  match parse text with
  | none => m
  | some c =>
    let r := output exec c.words m.world
    match c.appended with
    | none => { m with world := r.1 }
    | some f => { m with world := r.1 }.append f r.2

/-- One command after the other. -/
def runAll (m : Machine σ) (texts : List (List UInt8)) : Machine σ := texts.foldl (run exec) m

theorem runAll_append (m : Machine σ) (ts us : List (List UInt8)) :
    m.runAll exec (ts ++ us) = (m.runAll exec ts).runAll exec us := List.foldl_append

theorem runAll_cons (m : Machine σ) (t : List UInt8) (us : List (List UInt8)) :
    m.runAll exec (t :: us) = (m.run exec t).runAll exec us := rfl

theorem run_words (ht : parse t = some ⟨ws, none⟩) :
    m.run exec t = { m with world := (output exec ws m.world).1 } := by
  rw [run, ht]

theorem run_append (ht : parse t = some ⟨ws, some f⟩) :
    m.run exec t = { m with world := (output exec ws m.world).1 }.append f (output exec ws m.world).2 := by
  rw [run, ht]

/-- **A command without a file and an `echo` into a file may change places.** -/
theorem run_comm_echo (ht : parse t = some ⟨ws, none⟩) {vs : List (List UInt8)}
    (hu : parse u = some ⟨[101, 99, 104, 111] :: vs, some f⟩) :
    (m.run exec t).run exec u = (m.run exec u).run exec t := by
  rw [run_words exec ht, run_append exec hu, run_append exec hu, run_words exec ht]
  simp only [output, if_pos, append]

/-- The same world, and the same files but for some. -/
structure Agree (scratch : List (List UInt8)) (m m' : Machine σ) : Prop where
  world : m.world = m'.world
  files : ∀ g ∉ scratch, m.files g = m'.files g

variable {scratch : List (List UInt8)} {m' : Machine σ}

theorem Agree.append (h : Agree scratch m m') (f out : List UInt8) :
    Agree scratch (m.append f out) (m'.append f out) := by
  refine ⟨h.world, fun g hg => ?_⟩
  rcases eq_or_ne g f with rfl | hne
  · rw [append_self, append_self, h.files g hg]
  · rw [append_of_ne hne, append_of_ne hne, h.files g hg]

/-- **A command keeps two machines in agreement.** -/
theorem Agree.run (h : Agree scratch m m') (t : List UInt8) : Agree scratch (m.run exec t) (m'.run exec t) := by
  rcases hp : parse t with _ | ⟨ws, _ | f⟩
  · simpa only [Machine.run, hp] using h
  · rw [run_words exec hp, run_words exec hp, h.world]
    exact ⟨rfl, h.files⟩
  · rw [run_append exec hp, run_append exec hp, h.world]
    have hworld : Agree scratch { m with world := (output exec ws m'.world).1 }
        { m' with world := (output exec ws m'.world).1 } := ⟨rfl, h.files⟩
    exact hworld.append f _

theorem Agree.runAll (h : Agree scratch m m') (ts : List (List UInt8)) :
    Agree scratch (m.runAll exec ts) (m'.runAll exec ts) := by
  induction ts generalizing m m' with
  | nil => exact h
  | cons t ts ih => exact ih (h.run exec t)

theorem Agree.refl (m : Machine σ) : Agree scratch m m := ⟨rfl, fun _ _ => rfl⟩

theorem Agree.symm (h : Agree scratch m m') : Agree scratch m' m := ⟨h.world.symm, fun g hg => (h.files g hg).symm⟩

theorem Agree.trans {m'' : Machine σ} (h : Agree scratch m m') (h' : Agree scratch m' m'') : Agree scratch m m'' :=
  ⟨h.world.trans h'.world, fun g hg => (h.files g hg).trans (h'.files g hg)⟩

theorem Agree.write (h : Agree scratch m m') (hf : f ∈ scratch) (text : List UInt8) :
    Agree scratch (m.write f text) m' where
  world := h.world
  files g hg := by rw [write_of_ne (ne_of_mem_of_not_mem hf hg).symm, h.files g hg]

theorem Agree.remove (h : Agree scratch m m') (hf : f ∈ scratch) : Agree scratch (m.remove f) m' where
  world := h.world
  files g hg := by rw [remove_of_ne (ne_of_mem_of_not_mem hf hg).symm, h.files g hg]

/-- Two machines that agree and have none of the other files are the same. -/
theorem Agree.eq (h : Agree scratch m m') (hm : ∀ f ∈ scratch, m.files f = none)
    (hm' : ∀ f ∈ scratch, m'.files f = none) : m = m' := by
  obtain ⟨world, files⟩ := m
  obtain ⟨world', files'⟩ := m'
  obtain rfl : world = world' := h.world
  congr 1
  funext g
  by_cases hg : g ∈ scratch
  · exact (hm g hg).trans (hm' g hg).symm
  · exact h.files g hg

/-- A command leaves the files alone that its output does not go to. -/
theorem run_files (ht : parse t = some ⟨ws, none⟩ ∨ ∃ f ≠ u, parse t = some ⟨ws, some f⟩) :
    (m.run exec t).files u = m.files u := by
  rcases ht with ht | ⟨f, hne, ht⟩
  · rw [run_words exec ht]
  · rw [run_append exec ht, append_of_ne hne.symm]

@[simp] theorem run_nil (m : Machine σ) : m.run exec [] = m := rfl

end Machine
end Run

end Shell
end TuningMod

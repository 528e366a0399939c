/-
# The bandwidth of the applications

`fGetAppBandWidth` goes through what `lsof` lists for a destination, one line
for each open socket with the command in front, and measures an application
for a second when its name differs from `previous_value`. But
`previous_value` is set only where the two are equal, so it is a blank forever
and every line is measured. A line longer than the buffer comes in pieces, and
a piece with a blank in it is a line of its own.

Key definitions: `AppLoop.turn`, `fGetAppBandWidth`, `LsofLine`, `MeasuredOnce`, `LsofLine.Fits`.
Key theorems: `fGetAppBandWidth_eq`, `lineCalls_eq_iff`, `measuredOnce_iff`.
-/
import TuningMod.Lib.Fgets
import TuningMod.UserConfig
import Mathlib.Data.List.Destutter

namespace TuningMod

/-- `previous_value`, and the names `fCheckAppBandwidth` was called with. -/
structure AppLoop where
  previousValue : List UInt8 := [32]
  calls : List (List UInt8) := []

/-- One turn of the loop, with what `fgets` has left in `buffer`. -/
def AppLoop.turn (s : AppLoop) (buffer : List UInt8) : AppLoop :=
  if 32 ∈ cText buffer then
    let value := buffer.takeWhile fun c => c ≠ 32
    if s.previousValue ≠ value then { s with calls := s.calls ++ [value] }
    else { s with previousValue := value }
  else s

/-- The applications that are measured, for the output of `lsof`. Without a
message from the peer there is no address. -/
def fGetAppBandWidth (aDestIp2 output : List UInt8) : List (List UInt8) :=
  if aDestIp2 = [] then [] else ((Fgets.pieces 10 255 output).foldl AppLoop.turn {}).calls

/-- A command, a blank and the other columns. -/
structure LsofLine where
  command : List UInt8
  rest : List UInt8
  command_ne : command ≠ []
  commandChars : ∀ c ∈ command, c ≠ 32 ∧ c ≠ 10 ∧ c ≠ 0
  restChars : ∀ c ∈ rest, c ≠ 10 ∧ c ≠ 0

namespace LsofLine

def body (l : LsofLine) : List UInt8 := l.command ++ 32 :: l.rest

def text (l : LsofLine) : List UInt8 := l.body ++ [10]

/-- The blank behind the command is among the first 255 characters, and none is
behind them. -/
def Fits (l : LsofLine) : Prop := l.command.length < 255 ∧ 32 ∉ l.body.drop 255

end LsofLine

/-- The names of the maximal runs, in turn, are measured once each. -/
def MeasuredOnce (lines : List LsofLine) : Prop :=
  ∀ aDestIp2, aDestIp2 ≠ [] →
    fGetAppBandWidth aDestIp2 (lines.flatMap LsofLine.text) = (lines.map LsofLine.command).destutter (· ≠ ·)

/-! ### One turn -/

section Turn

variable {buffer value : List UInt8} {calls : List (List UInt8)}

/-- The call that a piece makes. -/
def callOf (buffer : List UInt8) : Option (List UInt8) :=
  if 32 ∈ cText buffer then some (buffer.takeWhile fun c => c ≠ 32) else none

theorem callOf_blank (h : callOf buffer = some value) : 32 ∉ value ∧ value.length < buffer.length := by
  obtain ⟨hmem, h⟩ := Option.ite_none_right_eq_some.mp h
  obtain rfl := Option.some.inj h
  have hblank : 32 ∈ buffer := (List.takeWhile_prefix _).mem hmem
  constructor
  · intro h32
    simpa using List.mem_takeWhile_imp h32
  · refine lt_of_le_of_ne (List.takeWhile_prefix _).length_le fun hlen => ?_
    have hself := (List.takeWhile_prefix fun c : UInt8 => decide (c ≠ 32)).eq_of_length hlen
    rw [← hself] at hblank
    simpa using List.mem_takeWhile_imp hblank

/-- `previous_value` stays a blank. -/
theorem turn_eq (calls : List (List UInt8)) (buffer : List UInt8) :
    AppLoop.turn ⟨[32], calls⟩ buffer = ⟨[32], calls ++ (callOf buffer).toList⟩ := by
  unfold AppLoop.turn callOf
  by_cases hmem : 32 ∈ cText buffer
  · have hne : [32] ≠ buffer.takeWhile fun c => c ≠ 32 := by
      intro heq
      have h32 : (32 : UInt8) ∈ buffer.takeWhile fun c => c ≠ 32 := heq ▸ List.mem_singleton_self 32
      simpa using List.mem_takeWhile_imp h32
    rw [if_pos hmem, if_pos hmem]
    simp only [if_pos hne, Option.toList_some]
  · rw [if_neg hmem, if_neg hmem, Option.toList_none, List.append_nil]

theorem foldl_turn (buffers : List (List UInt8)) :
    buffers.foldl AppLoop.turn ⟨[32], calls⟩ = ⟨[32], calls ++ buffers.filterMap callOf⟩ := by
  induction buffers generalizing calls with
  | nil => simp
  | cons buffer buffers ih =>
    rw [List.foldl_cons, turn_eq, ih, List.filterMap_cons]
    cases callOf buffer <;> simp

/-- **Every piece with a blank is measured.** -/
theorem fGetAppBandWidth_eq {aDestIp2 output : List UInt8} (h : aDestIp2 ≠ []) :
    fGetAppBandWidth aDestIp2 output = (Fgets.pieces 10 255 output).filterMap callOf := by
  have hfold := @foldl_turn [] (Fgets.pieces 10 255 output)
  rw [fGetAppBandWidth, if_neg h]
  exact congrArg AppLoop.calls hfold

end Turn

/-! ### One line -/

section Line

variable {l : LsofLine} {lines : List LsofLine} {output : List UInt8}

/-- The calls that a line makes. -/
def lineCalls (l : LsofLine) : List (List UInt8) := (Fgets.pieces 10 255 l.text).filterMap callOf

theorem bodyChars (l : LsofLine) : ∀ c ∈ l.body, c ≠ 10 ∧ c ≠ 0 := by
  intro c hc
  rcases List.mem_append.mp hc with hc | hc
  · exact (l.commandChars c hc).2
  · rcases List.mem_cons.mp hc with rfl | hc
    · decide
    · exact l.restChars c hc

theorem newline_notMem_body (l : LsofLine) : 10 ∉ l.body := fun h => (bodyChars l 10 h).1 rfl

/-- No call is made of a text without a blank, and one of every other text. -/
theorem calls_eq_nil (hz : ∀ c ∈ output, c ≠ 0) :
    (Fgets.pieces 10 255 output).filterMap callOf = [] ↔ 32 ∉ output := by
  have hflatten : (Fgets.pieces 10 255 output).flatten = output := Fgets.flatten_pieces
  rw [List.filterMap_eq_nil_iff, ← not_iff_not, not_not]
  simp only [not_forall]
  constructor
  · rintro ⟨p, hp, hcall⟩
    obtain ⟨value, hvalue⟩ := Option.ne_none_iff_exists'.mp hcall
    obtain ⟨hmem, -⟩ := Option.ite_none_right_eq_some.mp hvalue
    rw [← hflatten]
    exact List.mem_flatten.mpr ⟨p, hp, (List.takeWhile_prefix _).mem hmem⟩
  · intro h32
    rw [← hflatten] at h32
    obtain ⟨p, hp, hmem⟩ := List.mem_flatten.mp h32
    have htext : cText p = p := cText_eq fun c hc => hz c (hflatten ▸ List.mem_flatten.mpr ⟨p, hp, hc⟩)
    refine ⟨p, hp, ?_⟩
    rw [callOf, htext, if_pos hmem]
    exact Option.some_ne_none _

theorem textChars (l : LsofLine) : ∀ c ∈ l.text, c ≠ 0 := by
  intro c hc
  rcases List.mem_append.mp hc with hc | hc
  · exact (bodyChars l c hc).2
  · obtain rfl := List.mem_singleton.mp hc
    decide

theorem lineCalls_ne_nil (l : LsofLine) : lineCalls l ≠ [] := by
  intro h
  refine (calls_eq_nil (textChars l)).mp h ?_
  simp [LsofLine.text, LsofLine.body]

/-- A piece that starts with the command and its blank. -/
theorem callOf_command (l : LsofLine) {more : List UInt8} (hz : ∀ c ∈ more, c ≠ 0) :
    callOf (l.command ++ 32 :: more) = some l.command := by
  have htext : cText (l.command ++ 32 :: more) = l.command ++ 32 :: more := by
    refine cText_eq fun c hc => ?_
    rcases List.mem_append.mp hc with hc | hc
    · exact (l.commandChars c hc).2.2
    · rcases List.mem_cons.mp hc with rfl | hc
      · decide
      · exact hz c hc
  have htake : (l.command ++ 32 :: more).takeWhile (fun c => decide (c ≠ 32)) = l.command := by
    rw [List.takeWhile_append_of_pos fun c hc => decide_eq_true (l.commandChars c hc).1,
      List.takeWhile_cons_of_neg (by simp), List.append_nil]
  rw [callOf, htext, htake, if_pos (by simp)]

/-- The calls of a line with a short command: it, and one for each further piece
with a blank. -/
theorem lineCalls_short (h : l.command.length < 255) :
    lineCalls l = l.command ::
      (Fgets.pieces 10 255 (l.body.drop 255 ++ if 255 ≤ l.body.length then [10] else [])).filterMap callOf := by
  unfold lineCalls LsofLine.text
  by_cases hfits : l.body.length < 255
  · have hline : Fgets.pieces 10 255 (l.body ++ 10 :: []) = [l.body ++ [10]] :=
      Fgets.pieces_line (newline_notMem_body l) hfits
    have hdrop : l.body.drop 255 = [] := List.drop_eq_nil_of_le hfits.le
    have hz : ∀ c ∈ l.rest ++ [10], c ≠ 0 := fun c hc => textChars l c (by
      simp only [LsofLine.text, LsofLine.body, List.mem_append, List.mem_cons] at hc ⊢
      tauto)
    have hcall := callOf_command l hz
    rw [hline, if_neg (by omega), hdrop, List.filterMap_cons]
    rw [LsofLine.body, List.append_assoc, List.cons_append, hcall]
    rfl
  · have hfull : Fgets.pieces 10 255 (l.body ++ [10]) =
        l.body.take 255 :: Fgets.pieces 10 255 (l.body.drop 255 ++ [10]) :=
      Fgets.pieces_full (newline_notMem_body l) (by decide) (by omega)
    have htake : l.body.take 255 = l.command ++ 32 :: l.rest.take (254 - l.command.length) := by
      obtain ⟨k, hk⟩ : ∃ k, 255 - l.command.length = k + 1 := ⟨254 - l.command.length, by omega⟩
      rw [LsofLine.body, List.take_append, List.take_of_length_le h.le, hk, List.take_succ_cons,
        show 254 - l.command.length = k by omega]
    have hz : ∀ c ∈ l.rest.take (254 - l.command.length), c ≠ 0 := fun c hc =>
      (l.restChars c (List.mem_of_mem_take hc)).2
    rw [hfull, if_pos (by omega), List.filterMap_cons, htake, callOf_command l hz]

/-- **A line is measured once, with its command,** if it fits. -/
theorem lineCalls_eq_iff : lineCalls l = [l.command] ↔ l.Fits := by
  by_cases hlen : l.command.length < 255
  · have hz : ∀ c ∈ l.body.drop 255 ++ (if 255 ≤ l.body.length then [10] else []), c ≠ 0 := by
      intro c hc
      rcases List.mem_append.mp hc with hc | hc
      · exact (bodyChars l c (List.mem_of_mem_drop hc)).2
      · split_ifs at hc
        · obtain rfl := List.mem_singleton.mp hc
          decide
        · cases hc
    have hblank : (32 : UInt8) ∈ l.body.drop 255 ++ (if 255 ≤ l.body.length then [10] else []) ↔
        32 ∈ l.body.drop 255 := by
      split_ifs <;> simp
    rw [lineCalls_short hlen, List.cons.injEq, and_iff_right rfl, calls_eq_nil hz, hblank, LsofLine.Fits,
      and_iff_right hlen]
  · refine iff_of_false (fun h => ?_) fun h => hlen h.1
    -- a call's name is shorter than a piece
    have hmem : l.command ∈ lineCalls l := h ▸ List.mem_singleton_self _
    obtain ⟨p, hp, hcall⟩ := List.mem_filterMap.mp hmem
    have hle := Fgets.length_le (by decide) p hp
    have := (callOf_blank hcall).2
    omega

/-- The calls of the listing are those of its lines. -/
theorem calls_lines (lines : List LsofLine) :
    (Fgets.pieces 10 255 (lines.flatMap LsofLine.text)).filterMap callOf = lines.flatMap lineCalls := by
  induction lines with
  | nil => rfl
  | cons l lines ih =>
    have happend : Fgets.pieces 10 255 (l.body ++ 10 :: lines.flatMap LsofLine.text) =
        Fgets.pieces 10 255 l.text ++ Fgets.pieces 10 255 (lines.flatMap LsofLine.text) :=
      Fgets.pieces_append (by decide) (newline_notMem_body l)
    rw [List.flatMap_cons, LsofLine.text, List.append_assoc, List.singleton_append, happend, List.filterMap_append, ih]
    rfl

end Line

/-! ### The whole listing -/

/-- Lists that have an element each are together as long as there are lists only
if they have one. -/
theorem flatMap_eq_map {α β : Type*} {f : α → List β} {g : α → β} {ls : List α} (hf : ∀ l ∈ ls, f l ≠ []) :
    (ls.flatMap f = ls.map g ↔ ∀ l ∈ ls, f l = [g l]) ∧ ls.length ≤ (ls.flatMap f).length := by
  induction ls with
  | nil => simp
  | cons l ls ih =>
    rw [List.forall_mem_cons] at hf
    obtain ⟨hiff, hle⟩ := ih hf.2
    obtain ⟨x, xs, hx⟩ := List.exists_cons_of_ne_nil hf.1
    rw [List.flatMap_cons, List.map_cons, List.forall_mem_cons, ← hiff, hx, List.cons_append]
    constructor
    · constructor
      · intro heq
        obtain ⟨rfl, htail⟩ := List.cons.inj heq
        have hlen := congrArg List.length htail
        rw [List.length_append, List.length_map] at hlen
        obtain rfl : xs = [] := List.length_eq_zero_iff.mp (by omega)
        exact ⟨rfl, htail⟩
      · rintro ⟨hone, htail⟩
        obtain ⟨rfl, rfl⟩ := List.cons.inj hone
        rw [List.nil_append, htail]
    · simp only [List.length_cons, List.length_append]
      omega

/-- **When each application is measured once.** No two lines one after the other
have the same command, and every line fits into the buffer. -/
theorem measuredOnce_iff (lines : List LsofLine) : MeasuredOnce lines ↔
    (lines.map LsofLine.command).IsChain (· ≠ ·) ∧ ∀ l ∈ lines, l.Fits := by
  have hnames := @flatMap_eq_map _ _ lineCalls LsofLine.command lines fun l _ => lineCalls_ne_nil l
  have hcalls : ∀ aDestIp2, aDestIp2 ≠ [] →
      fGetAppBandWidth aDestIp2 (lines.flatMap LsofLine.text) = lines.flatMap lineCalls :=
    fun aDestIp2 h => (fGetAppBandWidth_eq h).trans (calls_lines lines)
  have hfits : (∀ l ∈ lines, l.Fits) ↔ lines.flatMap lineCalls = lines.map LsofLine.command := by
    rw [hnames.1]
    exact forall₂_congr fun l _ => lineCalls_eq_iff.symm
  rw [hfits]
  constructor
  · intro h
    have honce := (hcalls [48] (by decide)).symm.trans (h [48] (by decide))
    -- as many runs as lines
    have hsub := List.destutter_sublist (R := (· ≠ ·)) (lines.map LsofLine.command)
    have hle := hnames.2
    rw [honce] at hle
    have hself := hsub.eq_of_length_le (by rwa [List.length_map])
    exact ⟨(List.destutter_eq_self_iff _ _).mp hself, honce.trans hself⟩
  · rintro ⟨hchain, hmap⟩ aDestIp2 hne
    rw [hcalls aDestIp2 hne, hmap, (List.destutter_eq_self_iff _ _).mpr hchain]

/-- A line of `lsof` for a socket of iperf3. -/
def iperf3 : LsofLine where
  command := bytes "iperf3"
  rest := bytes "   1234 root 5u IPv4 55555 0t0 TCP 10.0.0.1:40000->10.0.0.9:5201 (ESTABLISHED)"
  command_ne := by decide
  commandChars := by decide +kernel
  restChars := by decide +kernel

/-- Two sockets of it are measured one after the other. -/
theorem not_measuredOnce : ¬ MeasuredOnce [iperf3, iperf3] := by
  intro h
  have hcalls : fGetAppBandWidth [48] ([iperf3, iperf3].flatMap LsofLine.text) = [bytes "iperf3", bytes "iperf3"] := by
    decide +kernel
  have honce := hcalls.symm.trans (h [48] (by decide))
  exact absurd honce (by decide)

end TuningMod

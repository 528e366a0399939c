/-
# Numbers from the command line to the settings

`tuncli` joins its arguments to the path of a request, `check_req` reads the
longest run of digits behind the command's text, which may be empty, and
converts it. Neither looks at what follows the digits or at the value's size:
a number in the range is set, and anything else is set to something as well,
unless the value itself brings in the text of a command that is looked for
before.

Key definitions: `tuncli`, `Tunable.Agrees`, `Tunable.Exact`, `Tunable.first`.
Key theorems: `strstr_line`, `selected_line`, `command_change`, `numbers_agree`.
-/
import TuningMod.Lib.Runs
import TuningMod.RequestLine

namespace TuningMod

/-! ### `tuncli` -/

/-- `main` of tuncli with the arguments after its name: `aSecondPart`, which
it appends to the address of the daemon, unless it prints its usage. -/
def tuncli : List (List UInt8) → Option (List UInt8)
  | [command] => if command = bytes "-t" ∨ command = bytes "-pc" then some command else none
  | [command, value] =>
    let aSecondPart := command ++ bytes "#" ++ value
    if command = bytes "-d" then if value.head?.any isdigit then some aSecondPart else none
    else if command = bytes "-r" then if value.head?.any isdigit then some aSecondPart else none
    else if command = bytes "-l" then
      if value = bytes "on" ∨ value = bytes "off" then some aSecondPart else none
    else none
  | [command, name, value] =>
    if command = bytes "-b" ∨ command = bytes "-ct" ∨ command = bytes "-rtt" ∨ command = bytes "-kaf" then
      some (command ++ bytes "#" ++ name ++ bytes "#" ++ value)
    else none
  | _ => none

/-- The headers that the HTTP library sends: at least one, and no command's
text in them. -/
structure PlainHeaders where
  headers : List (List UInt8 × List UInt8)
  ne_nil : headers ≠ []
  plain : ∀ c : Command, strstr (bytes c.text) (headers.flatMap writeHeader ++ crlf) = false

/-- The request for this path, transmitted as it is. -/
def clientRequest (aSecondPart : List UInt8) (h : PlainHeaders) : HttpRequest :=
  ⟨⟨bytes "GET", bytes "/" ++ aSecondPart, none, bytes "HTTP/1.1"⟩, h.headers, none⟩

/-- An argument of `tuncli`, with at most 15 digits before the first other
byte, so that they fit into `aNumber`. -/
structure ShortValue where
  text : List UInt8
  noNul : 0 ∉ text
  fits : (text.takeWhile isdigit).length < 16

/-! ### The tunables -/

inductive Tunable where
  | debugLevel | flowSink | qOcc | hopLate | flowLate | rttThresh | rttFactor
  deriving DecidableEq

namespace Tunable

def command : Tunable → Command
  | debugLevel => .d
  | flowSink => .ctFlowSink
  | qOcc => .ctQOcc
  | hopLate => .ctHopLate
  | flowLate => .ctFlowLate
  | rttThresh => .rttThresh
  | rttFactor => .rttFactor

/-- The arguments of `tuncli` that set it. -/
def argv (v : List UInt8) : Tunable → List (List UInt8)
  | debugLevel => [bytes "-d", v]
  | flowSink => [bytes "-ct", bytes "flow_sink", v]
  | qOcc => [bytes "-ct", bytes "q_occ", v]
  | hopLate => [bytes "-ct", bytes "hop_late", v]
  | flowLate => [bytes "-ct", bytes "flow_late", v]
  | rttThresh => [bytes "-rtt", bytes "thresh", v]
  | rttFactor => [bytes "-rtt", bytes "factor", v]

/-- The tunable set to a number; the debug level is at most 10. -/
def set (n : ℕ) : Tunable → Change
  | debugLevel => .vDebugLevel (min n 10)
  | flowSink => .vFlowSinkTimeDelta (.ofNat n)
  | qOcc => .vQueueOccupancyDelta (.ofNat n)
  | hopLate => .vHopLatencyDelta (.ofNat n)
  | flowLate => .vFlowLatencyDelta (.ofNat n)
  | rttThresh => .rttThreshold n
  | rttFactor => .rttFactor n

/-- The numbers it can hold: the debug level is clamped, the deltas are `__u32`,
and both numbers for the round trip time are read into an `int`. -/
def InRange (n : ℕ) : Tunable → Prop
  | debugLevel => True
  | rttThresh | rttFactor => n < 2 ^ 31
  | _ => n < 2 ^ 32

/-- The numbers that `check_req` sets as they are. -/
def Exact (n : ℕ) : Tunable → Prop
  | debugLevel => n ≤ 10 ∨ 10 ≤ n % 2 ^ 32 ∧ n % 2 ^ 32 < 2 ^ 31
  | t => t.InRange n

end Tunable

/-- What the request does to the settings is what was asked for: a numeral in
the range is set, and anything else leaves them as they are. -/
def Tunable.Agrees (t : Tunable) (v : List UInt8) (h : HttpRequest) : Prop :=
  (Numeral v ∧ t.InRange (decimal v) → ∀ s, (checkReq s h.data).settings = ((t.set (decimal v)).apply s).1) ∧
    (¬ (Numeral v ∧ t.InRange (decimal v)) → ∀ s, (checkReq s h.data).settings = s)

/-- The first of the commands that is the tunable's own or has its text in the value. -/
def Tunable.first (t : Tunable) (v : List UInt8) : Option Command :=
  commands.find? fun c => c = t.command ∨ strstr (bytes c.text) v

/-- The command changes no setting with its argument. -/
def Command.LeavesSettings (arg : List UInt8) (c : Command) : Prop :=
  c.change arg = .nothing ∨ ∃ m, c.change arg = .run m

section Line

variable {c c' : Command} {t : Tunable} {v rest : List UInt8}

/-! ### The command that is selected -/

/-- No command's text begins with another's. -/
theorem text_begins : ∀ c ∈ commands, ∀ c' ∈ commands, bytes c.text <+: bytes c'.text → c = c' := by
  decide +kernel

theorem mem_commands (c : Command) : c ∈ commands := by cases c <;> decide

/-- A command's text is G and then no other G, nor an H, and a last byte that is no blank. -/
theorem text_shape (c : Command) : ∃ q, bytes c.text = 71 :: q ∧ 71 ∉ q ∧ 72 ∉ bytes c.text ∧
    (bytes c.text).getLast? ≠ some 32 := by
  cases c <;> exact ⟨_, rfl, by decide⟩

/-- It is not found across the end of a text without a G. -/
theorem infix_append_of_notMem {p r x : List UInt8} (hr : 71 ∉ r) (hp : p.head? = some 71) :
    p <:+: r ++ x ↔ p <:+: x := by
  induction r with
  | nil => rfl
  | cons a r ih =>
    rw [List.mem_cons, not_or] at hr
    rw [List.cons_append, List.infix_cons_iff, ih hr.2]
    refine or_iff_right fun hpre => ?_
    obtain ⟨u, hu⟩ := hpre
    cases p with
    | nil => cases hp
    | cons b p =>
      rw [List.head?_cons, Option.some.injEq] at hp
      rw [List.cons_append, List.cons.injEq] at hu
      exact hr.1 (hp.symm.trans hu.1)

/-- In the request line of a command its own text is found, and what the value
has in it. -/
theorem strstr_line : strstr (bytes c'.text) (bytes c.text ++ v ++ bytes " HTTP/1.1") = true ↔
    c' = c ∨ strstr (bytes c'.text) v = true := by
  obtain ⟨r, hc, hr, -, -⟩ := text_shape c
  obtain ⟨q, hc', -, hH, hlast⟩ := text_shape c'
  have hhead : (bytes c'.text).head? = some 71 := by rw [hc', List.head?_cons]
  -- behind the value there is a blank and an H, which the text does not have there
  have hbehind : bytes c'.text <:+: v ++ bytes " HTTP/1.1" ↔ bytes c'.text <:+: v := by
    have hsplit : v ++ bytes " HTTP/1.1" = (v ++ [32]) ++ 72 :: bytes "TTP/1.1" := by
      rw [List.append_assoc]
      rfl
    have hend : ¬ bytes c'.text <:+: bytes "TTP/1.1" := by
      have hno : (71 : UInt8) ∉ bytes "TTP/1.1" := by decide
      intro hin
      exact hno (hin.subset (by rw [hc']; exact List.mem_cons_self))
    rw [hsplit, Search.infix_append_cons hH, or_iff_left hend, List.infix_concat_iff]
    refine or_iff_right fun hsuf => ?_
    rcases List.suffix_concat_iff.mp hsuf with hnil | ⟨w, hw, -⟩
    · rw [hc'] at hnil
      cases hnil
    · rw [hw, List.getLast?_concat] at hlast
      exact hlast rfl
  have hpre : bytes c'.text <+: bytes c.text ++ (v ++ bytes " HTTP/1.1") ↔ c' = c := by
    refine ⟨fun h => ?_, fun h => h ▸ List.prefix_append _ _⟩
    rcases List.prefix_or_prefix_of_prefix h (List.prefix_append (bytes c.text) _) with h1 | h1
    · exact text_begins c' (mem_commands c') c (mem_commands c) h1
    · exact (text_begins c (mem_commands c) c' (mem_commands c') h1).symm
  rw [strstr_iff, strstr_iff, List.append_assoc]
  conv_lhs => rw [hc, List.cons_append, List.infix_cons_iff, infix_append_of_notMem hr hhead, ← List.cons_append, ← hc]
  rw [hpre, hbehind]

end Line

/-! ### The argument that is read -/

/-- The bytes a loop for digits copies. -/
theorem run_digits (done arg : List UInt8) : CopyBuffer.run Form.digits.goesOn done arg = arg.takeWhile isdigit := by
  induction arg generalizing done with
  | nil => rfl
  | cons c arg ih =>
    rw [CopyBuffer.run, List.takeWhile_cons]
    by_cases hc : isdigit c = true
    · rw [Form.goesOn, if_pos hc, if_pos hc, ih]
    · rw [Form.goesOn, if_neg hc, if_neg hc]

/-- `aNumber` is the copied bytes as a string, if they leave a byte for its end. -/
theorem cString_copyLoop {f : Form} {arg : List UInt8} (hfits : (CopyBuffer.run f.goesOn [] arg).length < 16) :
    cString (copyLoop f arg {}).buf.cells = CopyBuffer.run f.goesOn [] arg := by
  have hstored := @copyLoop_stored {} [] arg f Number.stored_nil
  rw [List.nil_append] at hstored
  have hzero : (0 : UInt8) ∉ CopyBuffer.run f.goesOn [] arg := zero_notMem_run
  generalize CopyBuffer.run f.goesOn [] arg = l at hstored hzero hfits ⊢
  have hcells : (copyLoop f arg {}).buf.cells.toList = l ++ 0 :: List.replicate (15 - l.length) 0 := by
    have hleft : 16 - l.length = (15 - l.length) + 1 := by omega
    rw [hstored.filled.cells, List.take_append, List.take_of_length_le (Nat.le_of_lt hfits), List.take_replicate,
      Nat.min_eq_left (Nat.sub_le 16 _), hleft, List.replicate_succ]
  have hall : ∀ c ∈ l, decide (c ≠ 0) = true := by
    intro c hc
    exact decide_eq_true fun h0 => hzero (h0 ▸ hc)
  rw [cString, hcells, List.takeWhile_append_of_pos hall, List.takeWhile_cons_of_neg (by simp), List.append_nil]

/-- What a tunable's command makes of a number. -/
def Tunable.reads (n : ℕ) : Tunable → Change
  | debugLevel => .vDebugLevel (if toInt n > 10 then 10 else toInt n)
  | flowSink => .vFlowSinkTimeDelta (.ofNat n)
  | qOcc => .vQueueOccupancyDelta (.ofNat n)
  | hopLate => .vHopLatencyDelta (.ofNat n)
  | flowLate => .vFlowLatencyDelta (.ofNat n)
  | rttThresh => .rttThreshold (toInt n)
  | rttFactor => .rttFactor (toInt n)

/-- The command converts the digits at the head of its argument. -/
theorem command_change (t : Tunable) {arg : List UInt8} (hfits : (arg.takeWhile isdigit).length < 16) :
    t.command.change arg = t.reads (decimal (arg.takeWhile isdigit)) := by
  have hrun := run_digits [] arg
  have hstring := @cString_copyLoop .digits arg (by rwa [hrun])
  rw [hrun] at hstring
  have hatoi : atoi (copyLoop .digits arg {}).buf.cells = toInt (decimal (arg.takeWhile isdigit)) := by
    rw [atoi_eq, hstring]
  have hstrtoul : strtoul (copyLoop .digits arg {}).buf.cells = decimal (arg.takeWhile isdigit) := by
    rw [strtoul, hstring]
  cases t with
  | debugLevel => rw [Tunable.command, Command.change, hatoi, Tunable.reads]
  | rttThresh => rw [Tunable.command, Command.change, hstrtoul, Tunable.reads]
  | rttFactor => rw [Tunable.command, Command.change, hstrtoul, Tunable.reads]
  | _ => rw [Tunable.command, Command.change, hstrtoul, Tunable.reads]

section Requests

variable {t : Tunable} {v : ShortValue} {aSecondPart : List UInt8} {headers : PlainHeaders} {c : Command}

/-- What `tuncli` appends: the command's text without its first bytes, and the value. -/
theorem start_eq (ht : tuncli (t.argv v.text) = some aSecondPart) :
    (clientRequest aSecondPart headers).line.start = bytes t.command.text ++ v.text ++ bytes " HTTP/1.1" := by
  have hline : bytes "GET" ++ bytes " " ++ (bytes "/" ++ aSecondPart) = bytes t.command.text ++ v.text := by
    cases t with
    | debugLevel =>
      rw [Tunable.argv, tuncli, if_pos rfl] at ht
      obtain ⟨-, ht⟩ := Option.ite_none_right_eq_some.mp ht
      rw [← Option.some.inj ht]
      rfl
    | _ =>
      rw [Tunable.argv, tuncli, if_pos (by decide)] at ht
      rw [← Option.some.inj ht]
      rfl
  calc (clientRequest aSecondPart headers).line.start
      = bytes "GET" ++ bytes " " ++ (bytes "/" ++ aSecondPart) ++ [] ++ bytes " " ++ bytes "HTTP/1.1" := rfl
    _ = bytes t.command.text ++ v.text ++ (bytes " " ++ bytes "HTTP/1.1") := by
      rw [hline, List.append_nil, List.append_assoc]

theorem text_notMem_zero (c : Command) : 0 ∉ bytes c.text := by cases c <;> decide

/-- The request's text, which no NUL cuts before the headers. -/
theorem text_eq (ht : tuncli (t.argv v.text) = some aSecondPart) :
    ∃ rest, pReqData (clientRequest aSecondPart headers).data =
        (clientRequest aSecondPart headers).line.text ++ rest ∧
      ∀ c : Command, strstr (bytes c.text) rest = false := by
  have hz : 0 ∉ (clientRequest aSecondPart headers).line.start := by
    rw [start_eq ht, List.mem_append, List.mem_append, not_or, not_or]
    exact ⟨⟨text_notMem_zero t.command, v.noNul⟩, by decide⟩
  refine ⟨pReqData (clientRequest aSecondPart headers).tail, ?_, fun c => ?_⟩
  · rw [data_eq headers.ne_nil, pReqData_of_not_nul hz]
  · have hplain := headers.plain c
    rw [Bool.eq_false_iff, Ne, strstr_iff] at hplain ⊢
    intro hin
    have htail : (clientRequest aSecondPart headers).tail = headers.headers.flatMap writeHeader ++ crlf := by
      rw [HttpRequest.tail]
      exact List.append_nil _
    rw [htail] at hin
    exact hplain (hin.trans (List.takeWhile_prefix _).isInfix)

/-- The command that the request selects. -/
theorem selected_line (ht : tuncli (t.argv v.text) = some aSecondPart) :
    (clientRequest aSecondPart headers).selected = t.first v.text := by
  obtain ⟨rest, htext, hrest⟩ := @text_eq t v aSecondPart headers ht
  have hfound : (fun c => strstr (bytes c.text) (pReqData (clientRequest aSecondPart headers).data)) =
      fun c => decide (c = t.command ∨ strstr (bytes c.text) v.text = true) := by
    funext c
    rw [Bool.eq_iff_iff, decide_eq_true_eq, htext, strstr_text, start_eq ht, strstr_line, hrest c]
    simp only [Bool.false_eq_true, or_false]
  rw [HttpRequest.selected, dispatch, hfound]
  rfl

/-- The argument of the tunable's own command begins with the value, and then a blank. -/
theorem argument_line (ht : tuncli (t.argv v.text) = some aSecondPart) :
    ∃ rest, (clientRequest aSecondPart headers).argument t.command = v.text ++ 32 :: rest := by
  obtain ⟨rest, htext, -⟩ := @text_eq t v aSecondPart headers ht
  have hoffset : t.command.argOffset = (bytes t.command.text).length := by cases t <;> rfl
  refine ⟨bytes "HTTP/1.1" ++ (clientRequest aSecondPart headers).line.ending ++ rest, ?_⟩
  rw [HttpRequest.argument, htext, hoffset, RequestLine.text, start_eq ht, List.append_assoc, List.append_assoc,
    List.append_assoc, List.drop_left]
  simp [bytes]

theorem digits_line (rest : List UInt8) : (v.text ++ 32 :: rest).takeWhile isdigit = v.text.takeWhile isdigit := by
  rw [List.takeWhile_append]
  have hblank : (32 :: rest).takeWhile isdigit = [] := List.takeWhile_cons_of_neg (by decide)
  rw [hblank, List.append_nil]
  by_cases hall : (v.text.takeWhile isdigit).length = v.text.length
  · rw [if_pos hall]
    exact ((List.takeWhile_prefix _).eq_of_length hall).symm
  · rw [if_neg hall]

/-- What the request asks for when no command is found before the tunable's. -/
theorem requested_own (ht : tuncli (t.argv v.text) = some aSecondPart) (hf : t.first v.text = some t.command) :
    requested (clientRequest aSecondPart headers).data = t.reads (decimal (v.text.takeWhile isdigit)) := by
  obtain ⟨rest, harg⟩ := @argument_line t v aSecondPart headers ht
  have hdigits := digits_line (v := v) rest
  rw [requested_of_selected ((selected_line ht).trans hf), harg,
    command_change t (by rw [hdigits]; exact v.fits), hdigits]

/-- A numeral has no command's text in it. -/
theorem first_of_numeral {w : List UInt8} (hn : Numeral w) : t.first w = some t.command := by
  have hno : ∀ c : Command, strstr (bytes c.text) w = false := by
    intro c
    rw [Bool.eq_false_iff, Ne, strstr_iff]
    intro hin
    obtain ⟨q, hq, -⟩ := text_shape c
    have hdigit := hn.2 71 (hin.subset (by rw [hq]; exact List.mem_cons_self))
    exact absurd hdigit (by decide)
  rw [Tunable.first]
  simp only [hno, Bool.false_eq_true, or_false]
  cases t <;> rfl

end Requests

/-! ### When the settings agree -/

section Agreement

variable {x y : Change} {t : Tunable} {v : ShortValue} {h : HttpRequest} {n : ℕ}

theorem settings_eq (s : Settings) (h : HttpRequest) :
    (checkReq s h.data).settings = ((requested h.data).apply s).1 := congrArg Prod.fst (effect_eq s h.data)

/-- Changes of settings are told apart by the settings. -/
theorem settings_inj (hx : ∀ m, x ≠ .run m) (hy : ∀ m, y ≠ .run m) :
    (∀ s, (x.apply s).1 = (y.apply s).1) ↔ x = y := by
  have hnone (z : Change) (hz : ∀ m, z ≠ .run m) (s : Settings) : (z.apply s).2 = [] := by
    cases z with
    | run m => exact absurd rfl (hz m)
    | _ => rfl
  rw [← Change.apply_inj]
  exact forall_congr' fun s => by rw [Prod.ext_iff, hnone x hx s, hnone y hy s, and_iff_left rfl]

/-- What changes no setting is nothing, or runs a command. -/
theorem leaves_iff : (∀ s, (x.apply s).1 = s) ↔ x = .nothing ∨ ∃ m, x = .run m := by
  by_cases hx : ∃ m, x = .run m
  · obtain ⟨m, rfl⟩ := hx
    exact ⟨fun _ => .inr ⟨m, rfl⟩, fun _ _ => rfl⟩
  · have hno : ∀ m, x ≠ .run m := fun m hm => hx ⟨m, hm⟩
    rw [or_iff_left hx, ← settings_inj hno fun _ => Change.noConfusion]
    rfl

theorem reads_ne (t : Tunable) (n : ℕ) : t.reads n ≠ .nothing ∧ ∀ m, t.reads n ≠ .run m := by
  cases t <;> exact ⟨Change.noConfusion, fun _ => Change.noConfusion⟩

theorem set_ne_run (t : Tunable) (n : ℕ) (m : MenuCommand) : t.set n ≠ .run m := by
  cases t <;> exact Change.noConfusion

theorem toInt_eq_iff : toInt n = n ↔ n < 2 ^ 31 := by
  unfold toInt
  rw [Int.bmod_def]
  omega

theorem toInt_clamped : (if toInt n > 10 then 10 else toInt n) = min (n : ℤ) 10 ↔
    n ≤ 10 ∨ 10 ≤ n % 2 ^ 32 ∧ n % 2 ^ 32 < 2 ^ 31 := by
  unfold toInt
  rw [Int.bmod_def]
  omega

/-- The numbers that are in the range and read as they are. -/
theorem exact_iff : t.Exact n ↔ t.InRange n ∧ t.reads n = t.set n := by
  cases t with
  | debugLevel =>
    rw [Tunable.reads, Tunable.set, Change.vDebugLevel.injEq, toInt_clamped, Tunable.InRange, true_and]
    rfl
  | rttThresh =>
    refine ⟨fun hlt => ⟨hlt, ?_⟩, And.left⟩
    have hint : toInt n = n := toInt_eq_iff.mpr hlt
    rw [Tunable.reads, Tunable.set, hint]
    rfl
  | rttFactor =>
    rw [Tunable.reads, Tunable.set, Change.rttFactor.injEq, toInt_eq_iff]
    exact (and_self_iff).symm
  | flowSink => exact ⟨fun hlt => ⟨hlt, rfl⟩, And.left⟩
  | qOcc => exact ⟨fun hlt => ⟨hlt, rfl⟩, And.left⟩
  | hopLate => exact ⟨fun hlt => ⟨hlt, rfl⟩, And.left⟩
  | flowLate => exact ⟨fun hlt => ⟨hlt, rfl⟩, And.left⟩

end Agreement

/-- The value is a numeral that is read as it is; or it is none, and the text
of a command that is looked for before is in it which changes no setting. -/
def Tunable.Meets (t : Tunable) (v : List UInt8) (h : HttpRequest) : Prop :=
  (Numeral v ∧ t.Exact (decimal v)) ∨
    (¬ Numeral v ∧ ∃ c, t.first v = some c ∧ c.LeavesSettings (h.argument c))

theorem agrees_iff {t : Tunable} {v : ShortValue} {aSecondPart : List UInt8} {headers : PlainHeaders}
    (ht : tuncli (t.argv v.text) = some aSecondPart) :
    t.Agrees v.text (clientRequest aSecondPart headers) ↔ t.Meets v.text (clientRequest aSecondPart headers) := by
  rw [Tunable.Agrees, Tunable.Meets]
  simp only [settings_eq]
  by_cases hn : Numeral v.text
  · -- the tunable's own command reads the whole value
    have hdigits : v.text.takeWhile isdigit = v.text := List.takeWhile_eq_self_iff.mpr hn.2
    have hreq := @requested_own t v aSecondPart headers ht (first_of_numeral hn)
    rw [hdigits] at hreq
    obtain ⟨hnothing, hrun⟩ := reads_ne t (decimal v.text)
    have hsets : ¬ ∀ s, ((t.reads (decimal v.text)).apply s).1 = s := by
      rw [leaves_iff]
      rintro (h | ⟨m, h⟩)
      · exact hnothing h
      · exact hrun m h
    rw [hreq, exact_iff, settings_inj hrun (set_ne_run t _)]
    constructor
    · intro ⟨hset, hleft⟩
      have hin : t.InRange (decimal v.text) := by
        by_contra hno
        exact hsets (hleft fun h => hno h.2)
      exact .inl ⟨hn, hin, hset ⟨hn, hin⟩⟩
    · rintro (⟨-, hin, heq⟩ | ⟨hno, -⟩)
      · exact ⟨fun _ => heq, fun h => absurd ⟨hn, hin⟩ h⟩
      · exact absurd hn hno
  · simp only [hn, false_and, not_false_eq_true, true_and, forall_true_left, false_imp_iff, false_or]
    rw [leaves_iff]
    cases hf : t.first v.text with
    | none =>
      have hsome : t.first v.text ≠ none := by
        rw [Tunable.first, Ne, List.find?_eq_none]
        intro hall
        exact hall t.command (mem_commands t.command) (decide_eq_true (.inl rfl))
      exact absurd hf hsome
    | some c =>
      rw [requested_of_selected ((selected_line ht).trans hf)]
      simp only [Option.some.injEq, exists_eq_left']
      rfl

/-! ### Runs of requests -/

/-- An invocation of `tuncli`. -/
structure Invocation where
  tunable : Tunable
  value : ShortValue
  headers : PlainHeaders

namespace Invocation

/-- The request that `tuncli` sends, if it accepts its arguments. -/
def request (e : Invocation) : Option HttpRequest :=
  (tuncli (e.tunable.argv e.value.text)).map fun aSecondPart => clientRequest aSecondPart e.headers

/-- What the invocation does to the daemon's settings. -/
def step (s : Settings) (e : Invocation) : Option Settings :=
  some (e.request.elim s fun h => (checkReq s h.data).settings)

/-- The request does to the settings what was asked for. -/
def Agrees (e : Invocation) : Prop := ∀ h ∈ e.request, e.tunable.Agrees e.value.text h

def Meets (e : Invocation) : Prop := ∀ h ∈ e.request, e.tunable.Meets e.value.text h

theorem agrees_iff (e : Invocation) : e.Agrees ↔ e.Meets := by
  refine forall₂_congr fun h hh => ?_
  obtain ⟨aSecondPart, ht, rfl⟩ := Option.map_eq_some_iff.mp (Option.mem_def.mp hh)
  exact TuningMod.agrees_iff ht

/-- Such an invocation keeps the debug level from 0 to 10. -/
theorem debugLevel_step {s s' : Settings} {e : Invocation} (he : e.Agrees)
    (hs : 0 ≤ s.vDebugLevel ∧ s.vDebugLevel ≤ 10) (hstep : step s e = some s') :
    0 ≤ s'.vDebugLevel ∧ s'.vDebugLevel ≤ 10 := by
  obtain rfl := Option.some.inj hstep
  cases hr : e.request with
  | none => exact hs
  | some h =>
    obtain ⟨hset, hleft⟩ := he h hr
    show 0 ≤ (checkReq s h.data).settings.vDebugLevel ∧ (checkReq s h.data).settings.vDebugLevel ≤ 10
    by_cases hn : Numeral e.value.text ∧ e.tunable.InRange (decimal e.value.text)
    · rw [hset hn s]
      cases e.tunable with
      | debugLevel =>
        show 0 ≤ min (decimal e.value.text : ℤ) 10 ∧ min (decimal e.value.text : ℤ) 10 ≤ 10
        omega
      | _ => exact hs
    · rw [hleft hn s]
      exact hs

/-- **When the command line and the daemon agree on numbers.** An invocation
that `tuncli` accepts sets its tunable to a numeral in the range and leaves
everything as it is for any other value if and only if the value is a numeral
read as it is, or is none and brings in an earlier command that changes no
setting. Along invocations of this kind the debug level stays from 0 to 10. -/
theorem numbers_agree (e : Invocation) (es : List Invocation) : (e.Agrees ↔ e.Meets) ∧
    (Runs.Steps step {} (fun _ _ e => e.Meets) es →
      Runs.Always step {} (fun _ s => 0 ≤ s.vDebugLevel ∧ s.vDebugLevel ≤ 10) es) := by
  refine ⟨agrees_iff e, fun hes => ?_⟩
  refine Runs.always_of_steps (C := fun _ _ e => e.Meets) ⟨by decide, by decide⟩ ?_ hes
  intro _ s e s' _ hs he hstep
  exact debugLevel_step ((agrees_iff e).mpr he) hs hstep

/-- A header that names the daemon's host. -/
def dtnHeaders : PlainHeaders := ⟨[(bytes "host", bytes "dtn")], by decide, fun c => by cases c <;> decide⟩

def noNumber : ShortValue := ⟨bytes "5x", by decide, by decide⟩

theorem not_numeral_noNumber : ¬ Numeral noNumber.text := fun h => absurd (h.2 120 (by decide)) (by decide)

def largeLevel : ShortValue := ⟨bytes "4294967295", by decide, by decide⟩

/-- The value 5x sets the queue occupancy delta to 5, and 4294967295 the debug
level to -1. -/
theorem numbers_disagree : ¬ Agrees ⟨.qOcc, noNumber, dtnHeaders⟩ ∧
    ¬ Runs.Always step {} (fun _ s => 0 ≤ s.vDebugLevel ∧ s.vDebugLevel ≤ 10)
      [⟨.debugLevel, largeLevel, dtnHeaders⟩] := by
  constructor
  · intro h
    have hleft := (h _ rfl).2 (fun hn => not_numeral_noNumber hn.1) {}
    have hdelta := congrArg Settings.vQueueOccupancyDelta hleft
    exact absurd hdelta (by decide +kernel)
  · intro h
    have hlast := (h.last rfl).1
    exact absurd hlast (by decide +kernel)

end Invocation

end TuningMod

/-
# The round trip times

`fDoRunFindHighestRtt` pings a destination, asks bpftrace for the round trip
times of the acknowledgements, and warns when the two differ by the factor and
one of them is above the threshold. It also looks at the CPUs and at ksoftirqd.
Each of the three has a time of its own to wait between two messages, but they
share `now_time`, and the warning that finds it at 0 is written at once.

A turn of the loop is a step. It brings what the other threads and the programs
give it, and the clock at its three readings: a host's clock is not set back,
and is past the first half minute of its epoch. Times are rationals.

Key definitions: `fFindRttUsingPing`, `highestRtt`, `RttThread.step`, `RttThread.Differs`.
Key theorems: `ping_average`, `highestRtt_numbers`, `RttThread.inv_step`, `RttThread.rtt_messages`.
-/
import TuningMod.UserConfig
import TuningMod.Numerals
import TuningMod.Lib.Fgets
import TuningMod.Lib.RateLimit
import TuningMod.Lib.Runs
import TuningMod.Lib.Search
import Mathlib.Algebra.Order.Field.Rat
import Mathlib.Tactic.Ring
import Mathlib.Tactic.Linarith

namespace TuningMod

open Search

/-! ### `ping` -/

/-- What stands behind `avg` between the first two slashes after the equals sign. -/
def avgValue (buffer : List UInt8) : Option (List UInt8) := do
  let foundstr ← find (bytes "avg") (cText buffer)
  let foundstr ← find [61] foundstr
  let foundstr ← find [47] foundstr
  if 47 ∈ foundstr.tail then some (foundstr.tail.takeWhile (· ≠ 47)) else none

/-- `strtod` on a decimal without an exponent. -/
def strtod (value : List UInt8) : ℚ :=
  let value := value.dropWhile isspace
  let digits := if value.head? = some 45 ∨ value.head? = some 43 then value.tail else value
  let fraction := if (digits.dropWhile isdigit).head? = some 46 then (digits.dropWhile isdigit).tail.takeWhile isdigit
    else []
  (if value.head? = some 45 then -1 else 1) *
    (decimal (digits.takeWhile isdigit) + decimal fraction / 10 ^ fraction.length)

/-- With what `ping` prints, if it can be started. A value that is too long for
its 32 bytes has no outcome. -/
def fFindRttUsingPing (aDestIp2 : List UInt8) (output : Option (List UInt8)) : Option ℚ :=
  if aDestIp2.headD 0 = 0 then some 0
  else match output with
    | none => some 0
    | some output =>
      match (Fgets.pieces 10 127 output).findSome? avgValue with
      | none => some 0
      | some value => if value.length < 32 then some (strtod value) else none

/-! ### `bpftrace` -/

/-- `sscanf(buffer, "%lu", &rtt)`, which leaves `rtt` as it is without a number. -/
def scanRtt (rtt : ℤ) (buffer : List UInt8) : ℤ :=
  let l := (cText buffer).dropWhile isspace
  let digits := (if l.head? = some 45 ∨ l.head? = some 43 then l.tail else l).takeWhile isdigit
  if digits = [] then rtt
  else if decimal digits ≥ 2 ^ 64 then -1
  else Int.bmod (if l.head? = some 45 then -decimal digits else decimal digits) 18446744073709551616

/-- `highest_rtt` behind these lines, with `rtt`. -/
def scanRtts (lines : List (List UInt8)) : ℤ × ℤ :=
  lines.foldl (fun s buffer => (scanRtt s.1 buffer, if scanRtt s.1 buffer > s.2 then scanRtt s.1 buffer else s.2))
    (0, 0)

def highestRtt (lines : List (List UInt8)) : ℤ := (scanRtts lines).2

/-! ### What the programs print -/

/-- Three digits. -/
def digits3 (n : ℕ) : List UInt8 := [n / 100 % 10, n / 10 % 10, n % 10].map fun d => (48 + d).toUInt8

/-- Microseconds as `"%ld.%03ld"` milliseconds. -/
def millis (n : ℕ) : List UInt8 := uText (n / 1000) ++ 46 :: digits3 n

/-- The last line of `ping`. -/
def pingSummary (least average greatest deviation : ℕ) : List UInt8 :=
  bytes "rtt min/avg/max/mdev = " ++ (millis least ++ 47 :: (millis average ++ 47 ::
    (millis greatest ++ 47 :: (millis deviation ++ bytes " ms"))))

section Printed

variable {n : ℕ} {c : UInt8} {l : List UInt8}

theorem digits3_spec (n : ℕ) : (∀ c ∈ digits3 n, isdigit c = true) ∧ decimal (digits3 n) = n % 1000 := by
  have hdigit : ∀ d < 10, isdigit (48 + d).toUInt8 = true ∧ (48 + d).toUInt8.toNat - 48 = d := by decide
  have h2 := hdigit (n / 100 % 10) (Nat.mod_lt _ (by decide))
  have h1 := hdigit (n / 10 % 10) (Nat.mod_lt _ (by decide))
  have h0 := hdigit (n % 10) (Nat.mod_lt _ (by decide))
  constructor
  · simp only [digits3, List.map_cons, List.map_nil, List.forall_mem_cons]
    exact ⟨h2.1, h1.1, h0.1, List.forall_mem_nil _⟩
  · simp only [digits3, decimal, List.map_cons, List.map_nil, List.foldl_cons, List.foldl_nil, h2.2, h1.2, h0.2]
    omega

/-- A text that begins with a number has no blanks and no sign in front. -/
theorem uText_append (n : ℕ) (l : List UInt8) : ∃ d w, uText n ++ l = d :: w ∧ isspace d = false ∧ d ≠ 45 ∧ d ≠ 43 := by
  obtain ⟨hne, hdigits⟩ := numeral_uText n
  obtain ⟨d, w, hdw⟩ := List.exists_cons_of_ne_nil hne
  have hd : isdigit d = true := hdigits d (by rw [hdw]; exact List.mem_cons_self)
  refine ⟨d, w ++ l, by rw [hdw]; rfl, isspace_digit hd, ?_, ?_⟩
  · rintro rfl
    cases hd
  · rintro rfl
    cases hd

theorem takeWhile_number (h : isdigit c = false) (l : List UInt8) :
    (uText n ++ c :: l).takeWhile isdigit = uText n ∧ (uText n ++ c :: l).dropWhile isdigit = c :: l := by
  have hc : ¬ isdigit c = true := by rw [h]; decide
  constructor
  · rw [List.takeWhile_append_of_pos fun d hd => isdigit_uText hd, List.takeWhile_cons_of_neg hc, List.append_nil]
  · rw [List.dropWhile_append_of_pos fun d hd => isdigit_uText hd, List.dropWhile_cons_of_neg hc]

/-- **Milliseconds are read as they were printed.** -/
theorem strtod_millis (n : ℕ) : strtod (millis n) = n / 1000 := by
  obtain ⟨d, w, hdw, hspace, hminus, hplus⟩ := uText_append (n / 1000) (46 :: digits3 n)
  obtain ⟨htake, hdrop⟩ := takeWhile_number (n := n / 1000) (c := 46) rfl (digits3 n)
  obtain ⟨hdigits, hvalue⟩ := digits3_spec n
  have hstrip : (millis n).dropWhile isspace = millis n := by
    rw [millis, hdw, List.dropWhile_cons_of_neg (by rw [hspace]; decide)]
  have hhead : (millis n).head? = some d := by rw [millis, hdw]; rfl
  have hfraction : (digits3 n).takeWhile isdigit = digits3 n := List.takeWhile_eq_self_iff.mpr hdigits
  have hsplit : (n : ℚ) = 1000 * ((n / 1000 : ℕ) : ℚ) + ((n % 1000 : ℕ) : ℚ) := by
    exact_mod_cast (Nat.div_add_mod n 1000).symm
  unfold strtod
  rw [hstrip]
  simp only [hhead, Option.some.injEq, hminus, hplus, or_self, if_false, one_mul]
  rw [millis, htake, hdrop, List.head?_cons, if_pos rfl, List.tail_cons, hfraction, hvalue, decimal_uText]
  change ((n / 1000 : ℕ) : ℚ) + ((n % 1000 : ℕ) : ℚ) / 10 ^ 3 = n / 1000
  rw [hsplit]
  ring

theorem mem_millis (h : c ∈ millis n) : c = 46 ∨ isdigit c = true := by
  rw [millis, List.mem_append, List.mem_cons] at h
  rcases h with h | rfl | h
  · exact .inr (isdigit_uText h)
  · exact .inl rfl
  · exact .inr ((digits3_spec n).1 c h)

theorem notMem_millis (hdot : c ≠ 46) (hdigit : isdigit c = false) : c ∉ millis n := by
  intro h
  rcases mem_millis h with rfl | h
  · exact hdot rfl
  · rw [h] at hdigit
    cases hdigit

theorem length_millis (hn : n < 10 ^ 20) : (millis n).length ≤ 21 := by
  have hlen : (uText (n / 1000)).length ≤ 17 := length_uText_le (by decide) (by omega)
  rw [millis, List.length_append, List.length_cons, digits3, List.length_map]
  change (uText (n / 1000)).length + 4 ≤ 21
  omega

theorem ping_first_parts : (97 : UInt8) ∉ bytes "rtt min/" ∧ (61 : UInt8) ∉ bytes "avg/max/mdev " ∧
    bytes "rtt min/avg/max/mdev = " = bytes "rtt min/" ++ (bytes "avg" ++ bytes "/max/mdev = ") ∧
      bytes "avg" ++ bytes "/max/mdev = " = bytes "avg/max/mdev " ++ [61, 32] := by decide +kernel

theorem plain_summary : ∀ c ∈ bytes "rtt min/avg/max/mdev = " ++ bytes " ms", c ≠ 10 ∧ c ≠ 0 := by decide +kernel

variable {least average greatest deviation : ℕ}

theorem mem_pingSummary (h : c ∈ pingSummary least average greatest deviation) : c ≠ 10 ∧ c ≠ 0 := by
  have hmillis : ∀ {n}, c ∈ millis n → c ≠ 10 ∧ c ≠ 0 := by
    intro n hc
    constructor <;> rintro rfl
    · exact notMem_millis (by decide) (by decide) hc
    · exact notMem_millis (by decide) (by decide) hc
  simp only [pingSummary, List.mem_append, List.mem_cons] at h
  rcases h with h | h | rfl | h | rfl | h | rfl | h | h
  · exact plain_summary c (List.mem_append_left _ h)
  · exact hmillis h
  · decide
  · exact hmillis h
  · decide
  · exact hmillis h
  · decide
  · exact hmillis h
  · exact plain_summary c (List.mem_append_right _ h)

/-- The average stands where it is looked for. -/
theorem avgValue_summary : avgValue (pingSummary least average greatest deviation ++ [10]) = some (millis average) := by
  obtain ⟨ha, heq, hfirst, hsecond⟩ := ping_first_parts
  have htext : cText (pingSummary least average greatest deviation ++ [10]) =
      pingSummary least average greatest deviation ++ [10] := by
    refine cText_eq fun c hc => ?_
    rcases List.mem_append.mp hc with hc | hc
    · exact (mem_pingSummary hc).2
    · rw [List.mem_singleton.mp hc]
      decide
  set rest := millis average ++ 47 :: (millis greatest ++ 47 :: (millis deviation ++ bytes " ms" ++ [10])) with hrest
  have hsplit : pingSummary least average greatest deviation ++ [10] =
      bytes "rtt min/" ++ (bytes "avg" ++ (bytes "/max/mdev = " ++ (millis least ++ 47 :: rest))) := by
    rw [pingSummary, hfirst, hrest]
    simp only [List.append_assoc, List.cons_append]
  have hequals : bytes "avg" ++ (bytes "/max/mdev = " ++ (millis least ++ 47 :: rest)) =
      bytes "avg/max/mdev " ++ ([61] ++ (32 :: (millis least ++ 47 :: rest))) := by
    rw [← List.append_assoc, hsecond, List.append_assoc]
    rfl
  have hslash : (47 : UInt8) ∉ 61 :: 32 :: millis least := by
    simp only [List.mem_cons, not_or]
    exact ⟨by decide, by decide, notMem_millis (by decide) (by decide)⟩
  have hfindAvg : find (bytes "avg") (bytes "rtt min/" ++ (bytes "avg" ++ (bytes "/max/mdev = " ++
      (millis least ++ 47 :: rest)))) = some (bytes "avg" ++ (bytes "/max/mdev = " ++ (millis least ++ 47 :: rest))) :=
    find_first ha
  have hfindEq : find [61] (bytes "avg/max/mdev " ++ ([61] ++ (32 :: (millis least ++ 47 :: rest)))) =
      some ([61] ++ (32 :: (millis least ++ 47 :: rest))) := find_first heq
  have hfindSlash : find [47] ((61 :: 32 :: millis least) ++ ([47] ++ rest)) = some ([47] ++ rest) := find_first hslash
  have htake : rest.takeWhile (· ≠ 47) = millis average := by
    rw [hrest, List.takeWhile_append_of_pos, List.takeWhile_cons_of_neg (by decide), List.append_nil]
    intro c hc
    rw [decide_eq_true_eq]
    rintro rfl
    exact notMem_millis (by decide) (by decide) hc
  have hmem : (47 : UInt8) ∈ rest := by
    rw [hrest]
    exact List.mem_append_right _ List.mem_cons_self
  rw [avgValue, htext, hsplit, hfindAvg]
  simp only [Option.bind_eq_bind, Option.bind_some]
  rw [hequals, hfindEq]
  simp only [Option.bind_some]
  change (find [47] ((61 :: 32 :: millis least) ++ ([47] ++ rest))).bind _ = _
  rw [hfindSlash, Option.bind_some]
  change (if 47 ∈ rest then some (rest.takeWhile (· ≠ 47)) else none) = _
  rw [if_pos hmem, htake]

/-- A line without the word has no value. -/
theorem avgValue_none (hz : 0 ∉ l) (h : ¬ bytes "avg" <:+: l) : avgValue (l ++ [10]) = none := by
  have htext : cText (l ++ [10]) = l ++ [10] := by
    refine cText_eq fun c hc => ?_
    rintro rfl
    rcases List.mem_append.mp hc with hc | hc
    · exact hz hc
    · cases List.mem_singleton.mp hc
  have hfind : find (bytes "avg") (l ++ [10]) = none := by
    rw [find_eq_none_iff, infix_append_cons (by decide), not_or]
    exact ⟨h, by decide⟩
  rw [avgValue, htext, hfind]
  rfl

/-- A line that `ping` prints before the last one. -/
structure PingLine (l : List UInt8) : Prop where
  one_line : 10 ∉ l
  noNul : 0 ∉ l
  fits : l.length < 127
  noAverage : ¬ bytes "avg" <:+: l

theorem length_summary (hn : ∀ n ∈ [least, average, greatest, deviation], n < 10 ^ 20) :
    (pingSummary least average greatest deviation).length < 127 := by
  simp only [List.forall_mem_cons] at hn
  obtain ⟨h1, h2, h3, h4, -⟩ := hn
  have h1 := length_millis h1
  have h2 := length_millis h2
  have h3 := length_millis h3
  have h4 := length_millis h4
  have hfirst : (bytes "rtt min/avg/max/mdev = ").length = 23 := by decide
  have hlast : (bytes " ms").length = 3 := by decide
  simp only [pingSummary, List.length_append, List.length_cons, hfirst, hlast]
  omega

/-- **The average that `ping` prints.** -/
theorem ping_average {aDestIp2 : List UInt8} {before : List (List UInt8)} (hdest : aDestIp2.headD 0 ≠ 0)
    (hbefore : ∀ l ∈ before, PingLine l) (hn : ∀ n ∈ [least, average, greatest, deviation], n < 10 ^ 20)
    (after : List UInt8) :
    fFindRttUsingPing aDestIp2 (some (before.flatMap (· ++ [10]) ++
      (pingSummary least average greatest deviation ++ 10 :: after))) = some ((average : ℚ) / 1000) := by
  have hpieces : (Fgets.pieces 10 127 (before.flatMap (· ++ [10]) ++
      (pingSummary least average greatest deviation ++ 10 :: after))).findSome? avgValue = some (millis average) := by
    induction before with
    | nil =>
      rw [List.flatMap_nil, List.nil_append, Fgets.pieces_line (fun h => (mem_pingSummary h).1 rfl) (length_summary hn),
        List.findSome?_cons, avgValue_summary]
    | cons l before ih =>
      rw [List.forall_mem_cons] at hbefore
      obtain ⟨hline, hbefore⟩ := hbefore
      rw [List.flatMap_cons, List.append_assoc, List.append_assoc, List.singleton_append,
        Fgets.pieces_line hline.one_line hline.fits, List.findSome?_cons, avgValue_none hline.noNul hline.noAverage]
      exact ih hbefore
  have hlen : (millis average).length < 32 :=
    Nat.lt_of_le_of_lt (length_millis (hn average (by simp))) (by decide)
  rw [fFindRttUsingPing, if_neg hdest, hpieces]
  dsimp only
  rw [if_pos hlen, strtod_millis]

/-- A number of bpftrace. -/
theorem scanRtt_number (rtt : ℤ) (hn : n < 2 ^ 63) : scanRtt rtt (uText n ++ [10]) = n := by
  obtain ⟨d, w, hdw, hspace, hminus, hplus⟩ := uText_append n [10]
  obtain ⟨htake, -⟩ := takeWhile_number (n := n) (c := 10) rfl []
  have hz : ∀ c ∈ uText n ++ [10], c ≠ 0 := by
    intro c hc
    rcases List.mem_append.mp hc with hc | hc
    · rintro rfl
      exact notMem_uText (by decide) hc
    · rw [List.mem_singleton.mp hc]
      decide
  have hstrip : (uText n ++ [10]).dropWhile isspace = uText n ++ [10] := by
    rw [hdw, List.dropWhile_cons_of_neg (by rw [hspace]; decide)]
  have hhead : (uText n ++ [10]).head? = some d := by rw [hdw]; rfl
  have hne : uText n ≠ [] := (numeral_uText n).1
  unfold scanRtt
  rw [cText_eq hz, hstrip]
  simp only [hhead, Option.some.injEq, hminus, hplus, or_self, if_false, htake, if_neg hne, decimal_uText]
  rw [if_neg (by omega), Int.bmod_eq_of_le (by omega) (by omega)]

/-- **The greatest of the numbers that bpftrace prints.** -/
theorem highestRtt_numbers {ns : List ℕ} (hns : ∀ n ∈ ns, n < 2 ^ 63) :
    highestRtt (ns.map fun n => uText n ++ [10]) = (ns.foldl max 0 : ℕ) := by
  have hfold : ∀ (rtt : ℤ) (highest : ℕ), ((ns.map fun n => uText n ++ [10]).foldl
      (fun s buffer => (scanRtt s.1 buffer, if scanRtt s.1 buffer > s.2 then scanRtt s.1 buffer else s.2))
        (rtt, (highest : ℤ))).2 = (ns.foldl max highest : ℕ) := by
    induction ns with
    | nil => intro rtt highest; rfl
    | cons n ns ih =>
      intro rtt highest
      rw [List.forall_mem_cons] at hns
      have hmax : (if (n : ℤ) > highest then (n : ℤ) else highest) = ((max highest n : ℕ) : ℤ) := by
        split_ifs <;> omega
      rw [List.map_cons, List.foldl_cons, List.foldl_cons, scanRtt_number rtt hns.1, hmax]
      exact ih hns.2 _ _
  exact hfold 0 0

end Printed

/-! ### The thread -/

/-- What a turn reads. -/
structure RttTurn where
  /-- `previous_average_tx_Gbits_per_sec` is not 0. -/
  traffic : Bool
  gUseApacheKafka : Bool
  vIamASrcDtn : Bool
  /-- The address of the slot that was found, if one was. -/
  slot : Option (List UInt8)
  aDestIp2 : List UInt8
  ping : Option (List UInt8)
  mpstat : Bool
  /-- `vIamASrcDtn` before bpftrace. -/
  stillSrcDtn : Bool
  bpftrace : Option (List UInt8)
  rttThreshold : ℚ
  rttFactor : ℤ
  /-- `vDebugLevel` where it is looked at for the CPUs, the warning and ksoftirqd. -/
  cpuLevel : ℤ
  rttLevel : ℤ
  ksoftLevel : ℤ
  cpuClock : ℤ
  rttClock : ℤ
  ksoftClock : ℤ

/-- The variables of the thread, whether it has returned, and the latest time
that the clock has shown. -/
structure RttThread where
  highestRttFromPing : ℚ := 0
  highestRttFromBpftrace : ℚ := 0
  nowTime : ℤ := 0
  rtt : RateLimit := {}
  cpumon : RateLimit := {}
  ksoftmsg : RateLimit := {}
  nompstat : Bool := false
  mpstatErrors : ℕ := 0
  returned : Bool := false
  clock : ℤ := 31

namespace RttThread

def secsToWaitRttMessage : ℤ := 30

def secsToWaitMonitorcpuMessage : ℤ := 10

def secsToWaitKsoftMessage : ℤ := 10

variable (s : RttThread) (e : RttTurn)

/-- `highest_rtt_from_ping` of the turn. Without traffic it is that of an earlier one. -/
def pinged : Option ℚ :=
  if ¬ e.traffic then some s.highestRttFromPing
  else if e.vIamASrcDtn ∧ ¬ e.gUseApacheKafka then
    match e.slot with
    | some aDestIp2 => fFindRttUsingPing aDestIp2 e.ping
    | none => some 0
  else if e.gUseApacheKafka ∧ e.aDestIp2.headD 0 ≠ 0 then fFindRttUsingPing e.aDestIp2 e.ping
  else some s.highestRttFromPing

/-- `fDoCpuMonitoring`, which gives `mpstat` up for good. -/
def fDoCpuMonitoring : RttThread :=
  if s.nompstat then s
  else if e.mpstat then s
  else { s with nompstat := true, mpstatErrors := s.mpstatErrors + 1 }

def monitorCpus : RttThread :=
  if e.traffic ∧ 2 < e.cpuLevel then
    let s' := { s with nowTime := e.cpuClock }
    if s.cpumon.Passes secsToWaitMonitorcpuMessage e.cpuClock then
      { s'.fDoCpuMonitoring e with cpumon := s.cpumon.pass e.cpuClock }
    else s'
  else s

/-- The two times differ enough for a warning. -/
def Differs (rttThreshold : ℚ) (rttFactor : ℤ) (ping bpftrace : ℚ) : Prop :=
  ping ≠ 0 ∧ (rttThreshold < ping ∨ rttThreshold < bpftrace) ∧
    (rttFactor * ping ≤ bpftrace ∨ rttFactor * bpftrace ≤ ping)

instance (rttThreshold : ℚ) (rttFactor : ℤ) (ping bpftrace : ℚ) :
    Decidable (Differs rttThreshold rttFactor ping bpftrace) :=
  inferInstanceAs (Decidable (_ ∧ (_ ∨ _) ∧ (_ ∨ _)))

/-- The warning, without a wait for the first of all messages. -/
def warn : RttThread :=
  if 0 < e.rttLevel then
    { s with
      nowTime := e.rttClock
      rtt := if s.nowTime = 0 then s.rtt.pass e.rttClock else s.rtt.ask secsToWaitRttMessage e.rttClock }
  else s

/-- What bpftrace printed, behind its first line. -/
def compare (lines : List (List UInt8)) : RttThread :=
  if highestRtt lines ≠ 0 then
    let s' := { s with highestRttFromBpftrace := highestRtt lines / 1000 }
    if Differs e.rttThreshold e.rttFactor s'.highestRttFromPing s'.highestRttFromBpftrace then s'.warn e else s'
  else s

def checkSoftirqd : RttThread :=
  if 0 < e.ksoftLevel then
    { s with nowTime := e.ksoftClock, ksoftmsg := s.ksoftmsg.ask secsToWaitKsoftMessage e.ksoftClock }
  else s

/-- The part of a turn that runs bpftrace. Without it, or if it prints nothing, the thread returns. -/
def trace : RttThread :=
  if ¬ e.stillSrcDtn ∧ ¬ e.gUseApacheKafka then s.checkSoftirqd e
  else match e.bpftrace.map (Fgets.pieces 10 127) with
    | none | some [] => { s with returned := true }
    | some (_ :: lines) => (s.compare e lines).checkSoftirqd e

def step : Option RttThread :=
  if s.returned ∨ ¬ (s.clock ≤ e.cpuClock ∧ e.cpuClock ≤ e.rttClock ∧ e.rttClock ≤ e.ksoftClock) then none
  else do
    let ping ← s.pinged e
    some { ({ s with highestRttFromPing := ping }.monitorCpus e).trace e with clock := e.ksoftClock }

/-! ### The messages -/

/-- The warning is due in a turn that leaves the thread in this state. -/
structure Due (t : RttThread) (e : RttTurn) : Prop where
  traced : e.stillSrcDtn = true ∨ e.gUseApacheKafka = true
  level : 0 < e.rttLevel
  printed : ∃ first lines, e.bpftrace.map (Fgets.pieces 10 127) = some (first :: lines) ∧ highestRtt lines ≠ 0
  differs : Differs e.rttThreshold e.rttFactor t.highestRttFromPing t.highestRttFromBpftrace

/-- What holds when the clock has shown `now`. -/
structure Inv (now : ℤ) (s : RttThread) : Prop where
  rtt : s.rtt.Kept secsToWaitRttMessage now
  cpumon : s.cpumon.Kept secsToWaitMonitorcpuMessage now
  ksoftmsg : s.ksoftmsg.Kept secsToWaitKsoftMessage now
  first : s.nowTime = 0 → s.rtt = {}
  clock : 31 ≤ now
  errors : s.mpstatErrors = if s.nompstat then 1 else 0

section Messages

variable {s t : RttThread} {e : RttTurn} {now : ℤ} {lines : List (List UInt8)}

theorem inv_initial : Inv 31 {} where
  rtt := RateLimit.kept_initial (by decide)
  cpumon := RateLimit.kept_initial (by decide)
  ksoftmsg := RateLimit.kept_initial (by decide)
  first _ := rfl
  clock := le_refl 31
  errors := rfl

theorem Inv.later (h : Inv now s) {clock : ℤ} (hnow : now ≤ clock) : Inv clock s :=
  ⟨h.rtt.later hnow, h.cpumon.later hnow, h.ksoftmsg.later hnow, h.first, h.clock.trans hnow, h.errors⟩

/-- It touches none of the messages. -/
theorem fDoCpuMonitoring_keeps (s : RttThread) (e : RttTurn)
    (h : s.mpstatErrors = if s.nompstat then 1 else 0) :
    ((s.fDoCpuMonitoring e).rtt = s.rtt ∧ (s.fDoCpuMonitoring e).ksoftmsg = s.ksoftmsg ∧
        (s.fDoCpuMonitoring e).nowTime = s.nowTime) ∧
      (s.fDoCpuMonitoring e).mpstatErrors = if (s.fDoCpuMonitoring e).nompstat then 1 else 0 := by
  by_cases hno : s.nompstat = true
  · rw [fDoCpuMonitoring, if_pos hno]
    exact ⟨⟨rfl, rfl, rfl⟩, h⟩
  · by_cases hmpstat : e.mpstat = true
    · rw [fDoCpuMonitoring, if_neg hno, if_pos hmpstat]
      exact ⟨⟨rfl, rfl, rfl⟩, h⟩
    · rw [fDoCpuMonitoring, if_neg hno, if_neg hmpstat]
      refine ⟨⟨rfl, rfl, rfl⟩, ?_⟩
      change s.mpstatErrors + 1 = 1
      rw [h, if_neg hno]

theorem Inv.monitorCpus (h : Inv now s) (hnow : now ≤ e.cpuClock) : Inv e.cpuClock (s.monitorCpus e) := by
  obtain ⟨hrtt, hcpu, hksoft, hfirst, hclock, herrors⟩ := h.later hnow
  have hpos : e.cpuClock ≠ 0 := by omega
  obtain ⟨⟨hkrtt, hkksoft, hknow⟩, hkerrors⟩ := fDoCpuMonitoring_keeps { s with nowTime := e.cpuClock } e herrors
  unfold RttThread.monitorCpus
  dsimp only
  split_ifs with htraffic hpass
  · refine ⟨?_, hcpu.pass (by decide) hpass, ?_, fun h0 => absurd (hknow.symm.trans h0) hpos, hclock, hkerrors⟩
    · rw [hkrtt]
      exact hrtt
    · rw [hkksoft]
      exact hksoft
  · exact ⟨hrtt, hcpu, hksoft, fun h0 => absurd h0 hpos, hclock, herrors⟩
  · exact ⟨hrtt, hcpu, hksoft, hfirst, hclock, herrors⟩

/-- The first warning passes as any other does. -/
theorem warn_rtt (h : Inv now s) (hnow : now ≤ e.rttClock) :
    (if s.nowTime = 0 then s.rtt.pass e.rttClock else s.rtt.ask secsToWaitRttMessage e.rttClock) =
      s.rtt.ask secsToWaitRttMessage e.rttClock := by
  split_ifs with h0
  · have hclock := h.clock
    have hpass : ({} : RateLimit).Passes secsToWaitRttMessage e.rttClock := by
      change 30 < e.rttClock - 0
      omega
    rw [h.first h0, RateLimit.ask, if_pos hpass]
  · rfl

theorem Inv.warn (h : Inv now s) (hnow : now ≤ e.rttClock) : Inv e.rttClock (s.warn e) := by
  have hrtt := warn_rtt h hnow
  have hkept : (s.rtt.ask secsToWaitRttMessage e.rttClock).Kept secsToWaitRttMessage e.rttClock :=
    h.rtt.ask (by decide) hnow
  obtain ⟨-, hcpu, hksoft, -, hclock, herrors⟩ := h.later hnow
  unfold RttThread.warn
  rw [hrtt]
  split_ifs with hlevel
  · refine ⟨hkept, hcpu, hksoft, fun h0 => ?_, hclock, herrors⟩
    change e.rttClock = 0 at h0
    omega
  · exact h.later hnow

theorem Inv.compare (h : Inv now s) (hnow : now ≤ e.rttClock) : Inv e.rttClock (s.compare e lines) := by
  have hvalue : Inv now { s with highestRttFromBpftrace := highestRtt lines / 1000 } :=
    ⟨h.rtt, h.cpumon, h.ksoftmsg, h.first, h.clock, h.errors⟩
  unfold RttThread.compare
  dsimp only
  split_ifs with hhighest hdiffers
  · exact hvalue.warn hnow
  · exact hvalue.later hnow
  · exact h.later hnow

theorem Inv.checkSoftirqd (h : Inv now s) (hnow : now ≤ e.ksoftClock) : Inv e.ksoftClock (s.checkSoftirqd e) := by
  have hkept : (s.ksoftmsg.ask secsToWaitKsoftMessage e.ksoftClock).Kept secsToWaitKsoftMessage e.ksoftClock :=
    h.ksoftmsg.ask (by decide) hnow
  obtain ⟨hrtt, hcpu, -, -, hclock, herrors⟩ := h.later hnow
  unfold RttThread.checkSoftirqd
  split_ifs with hlevel
  · refine ⟨hrtt, hcpu, hkept, fun h0 => ?_, hclock, herrors⟩
    change e.ksoftClock = 0 at h0
    omega
  · exact h.later hnow

theorem Inv.trace (h : Inv now s) (hrtt : now ≤ e.rttClock) (hksoft : e.rttClock ≤ e.ksoftClock) :
    Inv e.ksoftClock (s.trace e) := by
  unfold RttThread.trace
  split_ifs with hskip
  · exact h.checkSoftirqd (hrtt.trans hksoft)
  · rcases e.bpftrace.map (Fgets.pieces 10 127) with _ | _ | ⟨first, lines⟩
    · exact ⟨(h.later (hrtt.trans hksoft)).rtt, (h.later (hrtt.trans hksoft)).cpumon,
        (h.later (hrtt.trans hksoft)).ksoftmsg, h.first, (h.later (hrtt.trans hksoft)).clock, h.errors⟩
    · exact ⟨(h.later (hrtt.trans hksoft)).rtt, (h.later (hrtt.trans hksoft)).cpumon,
        (h.later (hrtt.trans hksoft)).ksoftmsg, h.first, (h.later (hrtt.trans hksoft)).clock, h.errors⟩
    · exact (h.compare hrtt).checkSoftirqd hksoft

@[simp] theorem checkSoftirqd_rtt (s : RttThread) (e : RttTurn) : (s.checkSoftirqd e).rtt = s.rtt ∧
    (s.checkSoftirqd e).highestRttFromPing = s.highestRttFromPing ∧
      (s.checkSoftirqd e).highestRttFromBpftrace = s.highestRttFromBpftrace := by
  unfold RttThread.checkSoftirqd
  split_ifs <;> exact ⟨rfl, rfl, rfl⟩

theorem warn_values (s : RttThread) (e : RttTurn) : (s.warn e).highestRttFromPing = s.highestRttFromPing ∧
    (s.warn e).highestRttFromBpftrace = s.highestRttFromBpftrace := by
  unfold RttThread.warn
  split_ifs <;> exact ⟨rfl, rfl⟩

/-- The two values that are compared are those that are left. -/
theorem compare_values (s : RttThread) (e : RttTurn) (hlines : highestRtt lines ≠ 0) :
    (s.compare e lines).highestRttFromPing = s.highestRttFromPing ∧
      (s.compare e lines).highestRttFromBpftrace = highestRtt lines / 1000 := by
  unfold RttThread.compare
  rw [if_pos hlines]
  dsimp only
  split_ifs
  · exact warn_values _ e
  · exact ⟨rfl, rfl⟩

/-- A warning that is due was written at most half a minute ago. -/
theorem trace_recent (h : Inv now s) (hrtt : now ≤ e.rttClock) (hdue : Due (s.trace e) e) :
    ∃ p ∈ (s.trace e).rtt.passed, e.rttClock - secsToWaitRttMessage ≤ p ∧ p ≤ e.rttClock := by
  obtain ⟨htraced, hlevel, ⟨first, lines, hprinted, hhighest⟩, hdiffers⟩ := hdue
  have hskip : ¬ (¬ e.stillSrcDtn = true ∧ ¬ e.gUseApacheKafka = true) := by tauto
  have htrace : s.trace e = (s.compare e lines).checkSoftirqd e := by
    unfold RttThread.trace
    rw [if_neg hskip, hprinted]
  obtain ⟨hlimit, hping, hbpftrace⟩ := checkSoftirqd_rtt (s.compare e lines) e
  obtain ⟨hcping, hcbpftrace⟩ := compare_values s e hhighest
  rw [htrace, hping, hbpftrace, hcping, hcbpftrace] at hdiffers
  have hvalue : Inv now { s with highestRttFromBpftrace := highestRtt lines / 1000 } :=
    ⟨h.rtt, h.cpumon, h.ksoftmsg, h.first, h.clock, h.errors⟩
  have hwarned : (s.compare e lines).rtt = s.rtt.ask secsToWaitRttMessage e.rttClock := by
    unfold RttThread.compare
    rw [if_pos hhighest]
    dsimp only
    rw [if_pos hdiffers, RttThread.warn, if_pos hlevel]
    exact warn_rtt hvalue hrtt
  have hclock := h.clock
  rw [htrace, hlimit, hwarned]
  exact h.rtt.recent (by decide) hrtt (show (30 : ℤ) < e.rttClock by omega)

/-- **A turn.** -/
theorem inv_step (h : Inv s.clock s) (hs : s.step e = some t) : Inv t.clock t ∧
    (Due t e → ∃ p ∈ t.rtt.passed, e.rttClock - secsToWaitRttMessage ≤ p ∧ p ≤ e.rttClock) := by
  rw [step] at hs
  split_ifs at hs with hno
  rw [not_or, not_not] at hno
  obtain ⟨-, hcpu, hrtt, hksoft⟩ := hno
  obtain ⟨ping, -, ht⟩ := Option.bind_eq_some_iff.mp hs
  obtain rfl := Option.some.inj ht
  have hvalue : Inv s.clock { s with highestRttFromPing := ping } :=
    ⟨h.rtt, h.cpumon, h.ksoftmsg, h.first, h.clock, h.errors⟩
  have hmonitor := hvalue.monitorCpus hcpu
  have htrace := hmonitor.trace hrtt hksoft
  refine ⟨⟨htrace.rtt, htrace.cpumon, htrace.ksoftmsg, htrace.first, htrace.clock, htrace.errors⟩, fun hdue => ?_⟩
  exact trace_recent hmonitor hrtt ⟨hdue.traced, hdue.level, hdue.printed, hdue.differs⟩

end Messages

/-- The turn pings this destination: that of the slot, or with Kafka the one in
`aDest_Ip2`. -/
def PingsTo (e : RttTurn) (aDestIp2 : List UInt8) : Prop :=
  (e.gUseApacheKafka = true ∧ e.aDestIp2 = aDestIp2) ∨
    (e.gUseApacheKafka = false ∧ e.vIamASrcDtn = true ∧ e.slot = some aDestIp2)

/-- A turn that finds traffic and a destination, and whose programs print what
they should. -/
structure Printed (e : RttTurn) (aDestIp2 : List UInt8) (average : ℕ) (ns : List ℕ) : Prop where
  traffic : e.traffic = true
  pings : PingsTo e aDestIp2
  address : aDestIp2.headD 0 ≠ 0
  traced : e.stillSrcDtn = true ∨ e.gUseApacheKafka = true
  ping : ∃ (before : List (List UInt8)) (least greatest deviation : ℕ) (after : List UInt8),
    (∀ l ∈ before, PingLine l) ∧ (∀ n ∈ [least, average, greatest, deviation], n < 10 ^ 20) ∧
      e.ping = some (before.flatMap (· ++ [10]) ++
        (pingSummary least average greatest deviation ++ 10 :: after))
  bpftrace : ∃ first : List UInt8, 10 ∉ first ∧ first.length < 127 ∧ (∀ n ∈ ns, n < 2 ^ 63) ∧
    e.bpftrace = some ((first :: ns.map uText).flatMap (· ++ [10]))

theorem monitorCpus_values (s : RttThread) (e : RttTurn) :
    (s.monitorCpus e).highestRttFromPing = s.highestRttFromPing := by
  unfold monitorCpus fDoCpuMonitoring
  dsimp only
  split_ifs <;> rfl

theorem pinged_destination (s : RttThread) {e : RttTurn} {aDestIp2 : List UInt8} (htraffic : e.traffic = true)
    (hpings : PingsTo e aDestIp2) (haddress : aDestIp2.headD 0 ≠ 0) :
    s.pinged e = fFindRttUsingPing aDestIp2 e.ping := by
  rw [pinged, if_neg (not_not.mpr htraffic)]
  rcases hpings with ⟨hkafka, rfl⟩ | ⟨hkafka, hsource, hslot⟩
  · rw [if_neg fun h => h.2 hkafka, if_pos ⟨hkafka, haddress⟩]
  · rw [if_pos ⟨hsource, by rw [hkafka]; decide⟩, hslot]

/-- **The values come from the programs.** The averages of `ping` and the
greatest of the times of bpftrace are what is compared. -/
theorem values_read {s t : RttThread} {e : RttTurn} {aDestIp2 : List UInt8} {average : ℕ} {ns : List ℕ}
    (hs : s.step e = some t) (h : Printed e aDestIp2 average ns) :
    t.highestRttFromPing = average / 1000 ∧
      (ns.foldl max 0 ≠ 0 → t.highestRttFromBpftrace = ((ns.foldl max 0 : ℕ) : ℚ) / 1000) := by
  obtain ⟨htraffic, hpings, haddress, htrace, hping, hbpftrace⟩ := h
  obtain ⟨before, least, greatest, deviation, after, hbefore, hn, hprinted⟩ := hping
  obtain ⟨first, hline, hfits, hns, htraced⟩ := hbpftrace
  have hpinged : s.pinged e = some ((average : ℚ) / 1000) := by
    rw [pinged_destination s htraffic hpings haddress, hprinted]
    exact ping_average haddress hbefore hn after
  have hpieces : e.bpftrace.map (Fgets.pieces 10 127) = some ((first :: ns.map uText).map (· ++ [10])) := by
    have hlines : ∀ l ∈ first :: ns.map uText, 10 ∉ l ∧ l.length < 127 := by
      rw [List.forall_mem_cons, List.forall_mem_map]
      refine ⟨⟨hline, hfits⟩, fun n hn => ⟨notMem_uText rfl, ?_⟩⟩
      have hlt := hns n hn
      exact Nat.lt_of_le_of_lt (length_uText_le (k := 19) (by decide) (by omega)) (by decide)
    rw [htraced, Option.map_some, Fgets.pieces_lines hlines]
  rw [step] at hs
  split_ifs at hs with hno
  rw [hpinged] at hs
  obtain rfl := Option.some.inj hs
  set u := { s with highestRttFromPing := (average : ℚ) / 1000 }.monitorCpus e with hu
  have hvalue : u.highestRttFromPing = average / 1000 := monitorCpus_values _ e
  have hcompared : u.trace e = (u.compare e (ns.map fun n => uText n ++ [10])).checkSoftirqd e := by
    have hskip : ¬ (¬ e.stillSrcDtn = true ∧ ¬ e.gUseApacheKafka = true) := by tauto
    rw [trace, if_neg hskip, hpieces]
    simp only [List.map_cons, List.map_map]
    rfl
  obtain ⟨-, hkping, hkbpftrace⟩ := checkSoftirqd_rtt (u.compare e (ns.map fun n => uText n ++ [10])) e
  have hhighest : highestRtt (ns.map fun n => uText n ++ [10]) = (ns.foldl max 0 : ℕ) := highestRtt_numbers hns
  constructor
  · change (u.trace e).highestRttFromPing = _
    rw [hcompared, hkping]
    by_cases hzero : highestRtt (ns.map fun n => uText n ++ [10]) ≠ 0
    · rw [(compare_values u e hzero).1, hvalue]
    · rw [compare, if_neg hzero, hvalue]
  · intro hne
    have hzero : highestRtt (ns.map fun n => uText n ++ [10]) ≠ 0 := by
      rw [hhighest]
      exact_mod_cast hne
    change (u.trace e).highestRttFromBpftrace = _
    rw [hcompared, hkbpftrace, (compare_values u e hzero).2, hhighest, Int.cast_natCast]

/-- A turn with an average of 0.341 ms, and of 5 ms for an acknowledgement. -/
def slowAcknowledgement : RttTurn where
  traffic := true
  gUseApacheKafka := false
  vIamASrcDtn := true
  slot := some (bytes "10.0.0.1")
  aDestIp2 := []
  ping := some ([bytes "PING 10.0.0.1 (10.0.0.1) 56(84) bytes of data."].flatMap (· ++ [10]) ++
    (pingSummary 314 341 366 21 ++ 10 :: []))
  mpstat := true
  stillSrcDtn := true
  bpftrace := some ((bytes "Attaching 4 probes..." :: [120, 5000, 75].map uText).flatMap (· ++ [10]))
  rttThreshold := 2
  rttFactor := 4
  cpuLevel := 1
  rttLevel := 1
  ksoftLevel := 1
  cpuClock := 1000
  rttClock := 1001
  ksoftClock := 1002

theorem slowAcknowledgement_lines : (∀ l ∈ [bytes "PING 10.0.0.1 (10.0.0.1) 56(84) bytes of data.",
    bytes "Attaching 4 probes..."], 10 ∉ l ∧ 0 ∉ l ∧ l.length < 127 ∧ ¬ bytes "avg" <:+: l) ∧
      (step {} slowAcknowledgement).isSome = true := by decide +kernel

theorem printed_slowAcknowledgement : Printed slowAcknowledgement (bytes "10.0.0.1") 341 [120, 5000, 75] := by
  obtain ⟨hlines, -⟩ := slowAcknowledgement_lines
  simp only [List.forall_mem_cons] at hlines
  obtain ⟨⟨hline, hz, hfits, havg⟩, ⟨hfirst, -, hlen, -⟩, -⟩ := hlines
  refine ⟨rfl, .inr ⟨rfl, rfl, rfl⟩, by decide, .inl rfl, ⟨_, 314, 366, 21, [], ?_, by decide, rfl⟩,
    ⟨_, hfirst, hlen, by decide, rfl⟩⟩
  exact List.forall_mem_singleton.mpr ⟨hline, hz, hfits, havg⟩

theorem values_read_slowAcknowledgement : ∃ t, step {} slowAcknowledgement = some t ∧
    t.highestRttFromPing = (341 : ℕ) / 1000 ∧ ([120, 5000, 75].foldl max 0 ≠ 0 →
      t.highestRttFromBpftrace = (([120, 5000, 75].foldl max 0 : ℕ) : ℚ) / 1000) := by
  obtain ⟨t, ht⟩ := Option.isSome_iff_exists.mp slowAcknowledgement_lines.2
  exact ⟨t, ht, values_read ht printed_slowAcknowledgement⟩

end RttThread
end TuningMod

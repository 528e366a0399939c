/-
# `check_req`: the HTTP commands

A request selects the first command whose text occurs anywhere in it. Fifteen
of the commands copy an argument from the request into the 16 bytes of
`aNumber`, each with its own loop: digits, digits with a dot (the rates stop
after the second), or an address, whose loop alone counts to 16. The argument
is read from a fixed offset of the request, wherever the command's text was
found.

The log and the interface's name are left out. `aNumber` takes no more than 16
digits, so that `atoi` and `strtoul` do not saturate; once a write has gone
past `aNumber`, or it is not terminated, what the model computes from it means
nothing.

Key definitions: `Command`, `dispatch`, `copyLoop`, `handle`, `checkReq`.
Key theorems: `copyLoop_stored`, `zero_notMem_run`.
-/
import TuningMod.Lib.CopyBuffer
import TuningMod.PeerMsg
import Mathlib.Algebra.Ring.Nat
import Mathlib.Data.Rat.Defs
import Mathlib.Tactic.Common

namespace TuningMod

def bytes (s : String) : List UInt8 := s.toList.map fun c => c.toNat.toUInt8

/-- Whether `pat` occurs in `s`. -/
def strstr (pat : List UInt8) : List UInt8 → Bool
  | [] => pat.isEmpty
  | c :: s => pat.isPrefixOf (c :: s) || strstr pat s

def isdigit (c : UInt8) : Bool := 48 ≤ c && c ≤ 57

def isDot (c : UInt8) : Bool := c = 46

/-! ### The commands -/

inductive Command where
  | t | pc | d | r | lOn | lOff
  | ctFlowSink | ctQOcc | ctRetransRate | ctPacingRate | ctHopLate | ctFlowLate
  | rttThresh | rttFactor | kafIp4 | bRx | bTx | bSockRxBuff | bSockTxBuff
deriving DecidableEq, Repr

def Command.text : Command → String
  | t => "GET /-t"
  | pc => "GET /-pc"
  | d => "GET /-d#"
  | r => "GET /-r#"
  | lOn => "GET /-l#on"
  | lOff => "GET /-l#off"
  | ctFlowSink => "GET /-ct#flow_sink#"
  | ctQOcc => "GET /-ct#q_occ#"
  | ctRetransRate => "GET /-ct#retrans_rate#"
  | ctPacingRate => "GET /-ct#pacing_rate#"
  | ctHopLate => "GET /-ct#hop_late#"
  | ctFlowLate => "GET /-ct#flow_late#"
  | rttThresh => "GET /-rtt#thresh#"
  | rttFactor => "GET /-rtt#factor#"
  | kafIp4 => "GET /-kaf#ip4#"
  | bRx => "GET /-b#rx#"
  | bTx => "GET /-b#tx#"
  | bSockRxBuff => "GET /-b#sock_rx_buff#"
  | bSockTxBuff => "GET /-b#sock_tx_buff#"

/-- The commands in the order in which they are looked for. -/
def commands : List Command :=
  [.t, .pc, .d, .r, .lOn, .lOff, .ctFlowSink, .ctQOcc, .ctRetransRate, .ctPacingRate, .ctHopLate,
    .ctFlowLate, .rttThresh, .rttFactor, .kafIp4, .bRx, .bTx, .bSockRxBuff, .bSockTxBuff]

def dispatch (text : List UInt8) : Option Command :=
  commands.find? fun c => strstr (bytes c.text) text

/-- Where the argument starts; the text for `-r` is that of `-d`. -/
def Command.argOffset : Command → ℕ
  | r => (bytes d.text).length
  | c => (bytes c.text).length

/-! ### Copying the argument -/

/-- `aNumber` and the variables of the loops. -/
structure Number where
  buf : CopyBuffer UInt8 16 := { cells := .replicate 16 0 }
  countdots : ℕ := 0

def Number.store (n : Number) (c : UInt8) : Number where
  buf := n.buf.put c
  countdots := if isDot c then n.countdots + 1 else n.countdots

/-- The three loops. -/
inductive Form where
  | digits | rate | address
deriving DecidableEq, Repr

def Form.continues : Form → Number → UInt8 → Bool
  | digits, _, c => isdigit c
  | rate, n, c => (isdigit c || isDot c) && n.countdots ≤ 1
  | address, n, c => (isdigit c || isDot c) && n.buf.count < 16

/-- The end of the request is neither a digit nor a dot. -/
def copyLoop (f : Form) : List UInt8 → Number → Number
  | [], n => n
  | c :: p, n => if f.continues n c then copyLoop f p (n.store c) else n

/-! ### Reading `aNumber` -/

/-- The functions that read `aNumber` as a string. -/
inductive Reader where
  | atoi | strtoul | sscanf | inetAton | sprintf
deriving DecidableEq, Repr

/-- What a command does with `aNumber`. -/
inductive BufferUse where
  | write (index : ℕ)
  | handed (reader : Reader) (aNumber : Vector UInt8 16)
deriving DecidableEq

/-- The string in a buffer. -/
def cString (a : Vector UInt8 16) : List UInt8 := a.toList.takeWhile fun c => c ≠ 0

def decimal (l : List UInt8) : ℕ := l.foldl (fun n c => 10 * n + (c.toNat - 48)) 0

/-- A decimal numeral. -/
def Numeral (l : List UInt8) : Prop := l ≠ [] ∧ ∀ c ∈ l, isdigit c = true

instance : DecidablePred Numeral := fun l =>
  decidable_of_iff (l ≠ [] ∧ l.all isdigit = true) (and_congr_right fun _ => List.all_eq_true)

/-- The value as an `int`. -/
def atoi (a : Vector UInt8 16) : ℤ := Int.bmod (decimal (cString a)) (2 ^ 32)

def strtoul (a : Vector UInt8 16) : ℕ := decimal (cString a)

/-- `sscanf` with `%lf`, on digits with at most one dot. -/
def sscanfLf (a : Vector UInt8 16) : ℚ :=
  let whole := (cString a).takeWhile fun c => !isDot c
  let fraction := ((cString a).dropWhile fun c => !isDot c).drop 1
  decimal whole + decimal fraction / 10 ^ fraction.length

/-- One part of an address: octal if it starts with a 0. -/
def inetPart (l : List UInt8) : Option ℕ :=
  if l = [] then none
  else if l.head? = some 48 then
    if l.all fun c => c ≤ 55 then some (l.foldl (fun n c => 8 * n + (c.toNat - 48)) 0) else none
  else some (decimal l)

/-- The parts between the dots. -/
def inetParts : List UInt8 → List (List UInt8)
  | [] => [[]]
  | c :: l => if isDot c then [] :: inetParts l else (inetParts l).modifyHead fun part => c :: part

/-- The address in host order, from its one to four parts; the last part fills
the bytes that are left. -/
def inetAddr : List ℕ → Option ℕ
  | [a] => if a < 2 ^ 32 then some a else none
  | [a, b] => if a < 256 ∧ b < 2 ^ 24 then some (a * 2 ^ 24 + b) else none
  | [a, b, c] => if a < 256 ∧ b < 256 ∧ c < 2 ^ 16 then some (a * 2 ^ 24 + b * 2 ^ 16 + c) else none
  | [a, b, c, d] =>
    if a < 256 ∧ b < 256 ∧ c < 256 ∧ d < 256 then some (a * 2 ^ 24 + b * 2 ^ 16 + c * 2 ^ 8 + d) else none
  | _ => none

/-- `inp.s_addr`, in network order. -/
def inetAton (a : Vector UInt8 16) : Option UInt32 := do
  let parts ← (inetParts (cString a)).mapM inetPart
  let addr ← inetAddr parts
  return htonl (.ofNat addr)

/-- `sprintf` with `%08X`. -/
def hex8 (x : UInt32) : List UInt8 :=
  (List.range 8).map fun i =>
    let digit := x.toNat / 16 ^ (7 - i) % 16
    (if digit < 10 then 48 + digit else 55 + digit).toUInt8

/-! ### What the commands do -/

/-- What the commands read and change. -/
structure Settings where
  vDebugLevel : ℤ := 1
  vUseRetransmissionRate : ℤ := 0
  gTuningMode : Bool := false
  vFlowSinkTimeDelta : UInt32 := 4000000000
  vQueueOccupancyDelta : UInt32 := 415
  vRetransmissionRateThreshold : ℚ := 2 / 1000
  vMaxPacingRate : ℚ := 9 / 10
  vHopLatencyDelta : UInt32 := 500000
  vFlowLatencyDelta : UInt32 := 500000
  rttThreshold : ℚ := 2
  rttFactor : ℤ := 4
  gUseApacheKafka : Bool := false
  aKafkaDestIp2Binary : List UInt8 := []
  aDestIp2Binary : List UInt8 := []
  aDestIp2 : List UInt8 := []
deriving DecidableEq

/-- The commands run with `system`. -/
inductive MenuCommand where
  | applyAllRecommendedSettings
  | ethtoolRx (aNumber : List UInt8)
  | ethtoolTx (aNumber : List UInt8)
  | sysctlRmemMax (aNumber : List UInt8)
  | sysctlWmemMax (aNumber : List UInt8)
deriving DecidableEq, Repr

/-- What `aResp` says. -/
inductive Response where
  | tuningApplied | counters | learningOn | learningOff | somethingElse
  | debugLevel (old new : ℤ)
  | useRetransmissionRate (old new : ℤ)
  | delta (old new : UInt32)
  | rate (old new : ℚ)
  | invalidRate (aNumber : List UInt8)
  | rttThreshold (old new : ℚ)
  | rttFactor (old new : ℤ)
  | kafkaNotSet
  | invalidAddress (aNumber : List UInt8)
  | usingAddress (aNumber : List UInt8)
  | sizeChanged (aNumber : List UInt8)
deriving DecidableEq

/-- The outcome of a request. -/
structure Handled where
  settings : Settings
  uses : List BufferUse := []
  ran : List MenuCommand := []
  aResp : Response

/-- The uses of `aNumber` when it is filled and then handed on. -/
def Number.handedTo (n : Number) (readers : List Reader) : List BufferUse :=
  n.buf.writes.map .write ++ readers.map fun reader => .handed reader n.buf.cells

/-- A command that sets one of the `__u32` deltas. -/
def changeDelta (s : Settings) (arg : List UInt8) (get : Settings → UInt32)
    (set : UInt32 → Settings) : Handled :=
  let n := copyLoop .digits arg {}
  let vNew := UInt32.ofNat (strtoul n.buf.cells)
  { settings := set vNew, uses := n.handedTo [.strtoul], aResp := .delta (get s) vNew }

/-- A command that sets a rate, which may have one dot. -/
def changeRate (s : Settings) (arg : List UInt8) (old : ℚ) (set : ℚ → Settings) : Handled :=
  let n := copyLoop .rate arg {}
  if n.countdots > 1 then
    { settings := s, uses := n.handedTo [.sprintf], aResp := .invalidRate (cString n.buf.cells) }
  else
    let vNew := sscanfLf n.buf.cells
    { settings := set vNew, uses := n.handedTo [.sscanf], aResp := .rate old vNew }

/-- A command that passes its argument to `ethtool` or `sysctl`: `aNumber` goes
into the response and into the command. -/
def changeSize (s : Settings) (arg : List UInt8) (command : List UInt8 → MenuCommand) : Handled :=
  let n := copyLoop .digits arg {}
  { settings := s
    uses := n.handedTo [.sprintf, .sprintf]
    ran := [command (cString n.buf.cells)]
    aResp := .sizeChanged (cString n.buf.cells) }

def changeDebugLevel (s : Settings) (arg : List UInt8) : Handled :=
  let n := copyLoop .digits arg {}
  let vNewDebugLevel := if atoi n.buf.cells > 10 then 10 else atoi n.buf.cells
  { settings := { s with vDebugLevel := vNewDebugLevel }
    uses := n.handedTo [.atoi]
    aResp := .debugLevel s.vDebugLevel vNewDebugLevel }

/-- A number past the range of `int` can be negative, and then stays as it is. -/
def changeUseRetransmissionRate (s : Settings) (arg : List UInt8) : Handled :=
  let n := copyLoop .digits arg {}
  let vNew := if atoi n.buf.cells > 0 then 1 else atoi n.buf.cells
  { settings := { s with vUseRetransmissionRate := vNew }
    uses := n.handedTo [.atoi]
    aResp := .useRetransmissionRate s.vUseRetransmissionRate vNew }

/-- `vNewRttThreshold` is an `int`. -/
def changeRttThreshold (s : Settings) (arg : List UInt8) : Handled :=
  let n := copyLoop .digits arg {}
  let vNew := Int.bmod (strtoul n.buf.cells) (2 ^ 32)
  { settings := { s with rttThreshold := vNew }
    uses := n.handedTo [.strtoul]
    aResp := .rttThreshold s.rttThreshold vNew }

def changeRttFactor (s : Settings) (arg : List UInt8) : Handled :=
  let n := copyLoop .digits arg {}
  let vNew := Int.bmod (strtoul n.buf.cells) (2 ^ 32)
  { settings := { s with rttFactor := vNew }
    uses := n.handedTo [.strtoul]
    aResp := .rttFactor s.rttFactor vNew }

def useKafkaAddress (s : Settings) (arg : List UInt8) : Handled :=
  let n := copyLoop .address arg {}
  if !s.gUseApacheKafka then { settings := s, uses := n.handedTo [], aResp := .kafkaNotSet }
  else
    match inetAton n.buf.cells with
    | none =>
      { settings := s
        uses := n.handedTo [.inetAton, .sprintf]
        aResp := .invalidAddress (cString n.buf.cells) }
    | some sAddr =>
      { settings := { s with
          aKafkaDestIp2Binary := hex8 sAddr
          aDestIp2Binary := hex8 sAddr
          aDestIp2 := cString n.buf.cells }
        uses := n.handedTo [.inetAton, .sprintf]
        aResp := .usingAddress (cString n.buf.cells) }

def handle (s : Settings) (arg : List UInt8) : Command → Handled
  | .t => { settings := s, ran := [.applyAllRecommendedSettings], aResp := .tuningApplied }
  | .pc => { settings := s, aResp := .counters }
  | .d => changeDebugLevel s arg
  | .r => changeUseRetransmissionRate s arg
  | .lOn => { settings := { s with gTuningMode := false }, aResp := .learningOn }
  | .lOff => { settings := { s with gTuningMode := true }, aResp := .learningOff }
  | .ctFlowSink => changeDelta s arg (·.vFlowSinkTimeDelta) fun x => { s with vFlowSinkTimeDelta := x }
  | .ctQOcc => changeDelta s arg (·.vQueueOccupancyDelta) fun x => { s with vQueueOccupancyDelta := x }
  | .ctRetransRate =>
    changeRate s arg s.vRetransmissionRateThreshold fun x => { s with vRetransmissionRateThreshold := x }
  | .ctPacingRate =>
    changeRate s arg (s.vMaxPacingRate * 100) fun x => { s with vMaxPacingRate := x / 100 }
  | .ctHopLate => changeDelta s arg (·.vHopLatencyDelta) fun x => { s with vHopLatencyDelta := x }
  | .ctFlowLate => changeDelta s arg (·.vFlowLatencyDelta) fun x => { s with vFlowLatencyDelta := x }
  | .rttThresh => changeRttThreshold s arg
  | .rttFactor => changeRttFactor s arg
  | .kafIp4 => useKafkaAddress s arg
  | .bRx => changeSize s arg .ethtoolRx
  | .bTx => changeSize s arg .ethtoolTx
  | .bSockRxBuff => changeSize s arg .sysctlRmemMax
  | .bSockTxBuff => changeSize s arg .sysctlWmemMax

/-- The data of a request as a string, which ends at its first NUL. -/
def pReqData (data : List UInt8) : List UInt8 := data.takeWhile fun c => c ≠ 0

def checkReq (s : Settings) (data : List UInt8) : Handled :=
  match dispatch (pReqData data) with
  | none => { settings := s, aResp := .somethingElse }
  | some c => handle s ((pReqData data).drop c.argOffset) c

/-! ### What the loops copy -/

/-- When a loop goes on, told by the bytes it has copied. -/
def Form.goesOn : Form → List UInt8 → UInt8 → Bool
  | digits, _, c => isdigit c
  | rate, done, c => (isdigit c || isDot c) && done.countP isDot ≤ 1
  | address, done, c => (isdigit c || isDot c) && done.length < 16

/-- The bytes `done` have been copied to `aNumber`. -/
structure Number.Stored (n : Number) (done : List UInt8) : Prop where
  filled : n.buf.Filled 0 done
  dots : n.countdots = done.countP isDot

section Loops

variable {n : Number} {done arg : List UInt8} {f : Form} {c : UInt8}

theorem Number.stored_nil : Number.Stored {} [] := ⟨CopyBuffer.filled_nil, rfl⟩

theorem Number.Stored.store (h : n.Stored done) : (n.store c).Stored (done ++ [c]) := by
  refine ⟨h.filled.put, ?_⟩
  rw [Number.store, h.dots, List.countP_append, List.countP_singleton]
  by_cases hc : isDot c = true <;> simp [hc]

theorem continues_eq (h : n.Stored done) : f.continues n c = f.goesOn done c := by
  cases f with
  | digits => rfl
  | rate => rw [Form.continues, Form.goesOn, h.dots]
  | address => rw [Form.continues, Form.goesOn, h.filled.count]

theorem copyLoop_stored (h : n.Stored done) :
    (copyLoop f arg n).Stored (done ++ CopyBuffer.run f.goesOn done arg) := by
  induction arg generalizing n done with
  | nil => simpa [copyLoop, CopyBuffer.run] using h
  | cons c p ih =>
    rw [copyLoop, CopyBuffer.run, continues_eq h]
    by_cases hc : f.goesOn done c = true
    · rw [if_pos hc, if_pos hc, List.append_cons]
      exact ih h.store
    · rw [if_neg hc, if_neg hc, List.append_nil]
      exact h

/-- Nothing copied ends the string. -/
theorem zero_notMem_run : (0 : UInt8) ∉ CopyBuffer.run f.goesOn done arg := by
  intro h
  obtain ⟨d, hd⟩ := CopyBuffer.mem_run h
  cases f <;> simp [Form.goesOn, isdigit, isDot] at hd

end Loops

end TuningMod

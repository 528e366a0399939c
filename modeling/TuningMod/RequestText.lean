/-
# The text of a request, and what it asks for

`check_req` reads the request as `http_req2str` of facil.io prints it: the
request line, the headers and the body in one text, or "null" for a request
without headers. What it does with the settings and which commands it runs is a
`Change`, a function of the text alone, and different changes differ.

A command's text has no byte of a line's end in it, so that it is found in the
request line or behind it, not across.

Key definitions: `HttpRequest`, `httpReq2str`, `Change.apply`, `Command.change`.
Key theorems: `strstr_iff`, `effect_eq`, `apply_inj`.
-/
import TuningMod.CheckReq
import TuningMod.Lib.Search
import Mathlib.Tactic.NormNum

namespace TuningMod

/-! ### `http_req2str` -/

/-- The first line of a request, as facil.io keeps it. -/
structure RequestLine where
  method : List UInt8
  path : List UInt8
  query : Option (List UInt8)
  version : List UInt8
  deriving DecidableEq

/-- A request; a header with several values is listed once for each. -/
structure HttpRequest where
  line : RequestLine
  headers : List (List UInt8 × List UInt8)
  body : Option (List UInt8)
  deriving DecidableEq

def crlf : List UInt8 := [13, 10]

/-- The line as it is printed: the version is at least 1.1. -/
def RequestLine.start (l : RequestLine) : List UInt8 :=
  let target := l.method ++ bytes " " ++ l.path ++ (l.query.elim [] fun query => bytes "?" ++ query)
  if l.version.length < 6 ∨ l.version[5]? ≠ some 49 then target ++ bytes " HTTP/1.1"
  else target ++ bytes " " ++ l.version

/-- The end of the line: 10 of the 11 bytes of " HTTP/1.1" and CR LF are written
in place of a version that is not 1.x. -/
def RequestLine.ending (l : RequestLine) : List UInt8 :=
  if l.version.length < 6 ∨ l.version[5]? ≠ some 49 then [13] else crlf

/-- The line with its end. -/
def RequestLine.text (l : RequestLine) : List UInt8 := l.start ++ l.ending

theorem RequestLine.ending_cases (l : RequestLine) : l.ending = [13] ∨ l.ending = [13, 10] := by
  unfold ending
  split_ifs
  · exact .inl rfl
  · exact .inr rfl

/-- `write_header`. -/
def writeHeader (header : List UInt8 × List UInt8) : List UInt8 := header.1 ++ bytes ":" ++ header.2 ++ crlf

/-- What is printed behind the request line. -/
def HttpRequest.tail (h : HttpRequest) : List UInt8 := h.headers.flatMap writeHeader ++ crlf ++ h.body.getD []

def httpReq2str (h : HttpRequest) : Option (List UInt8) :=
  if h.headers = [] then none else some (h.line.text ++ h.tail)

/-- `fiobj_obj2cstr` of the printed request. -/
def HttpRequest.data (h : HttpRequest) : List UInt8 := (httpReq2str h).getD (bytes "null")

/-! ### What a request asks for -/

/-- What a command does once its argument is read. -/
inductive Change where
  | nothing
  | run (command : MenuCommand)
  | vDebugLevel (new : ℤ)
  | vUseRetransmissionRate (new : ℤ)
  | gTuningMode (new : Bool)
  | vFlowSinkTimeDelta (new : UInt32)
  | vQueueOccupancyDelta (new : UInt32)
  | vRetransmissionRateThreshold (new : ℚ)
  | vMaxPacingRate (new : ℚ)
  | vHopLatencyDelta (new : UInt32)
  | vFlowLatencyDelta (new : UInt32)
  | rttThreshold (new : ℚ)
  | rttFactor (new : ℤ)
  | destination (binary text : List UInt8)
  deriving DecidableEq

/-- The settings after it and the commands it runs. -/
def Change.apply (s : Settings) : Change → Settings × List MenuCommand
  | nothing => (s, [])
  | run command => (s, [command])
  | vDebugLevel new => ({ s with vDebugLevel := new }, [])
  | vUseRetransmissionRate new => ({ s with vUseRetransmissionRate := new }, [])
  | gTuningMode new => ({ s with gTuningMode := new }, [])
  | vFlowSinkTimeDelta new => ({ s with vFlowSinkTimeDelta := new }, [])
  | vQueueOccupancyDelta new => ({ s with vQueueOccupancyDelta := new }, [])
  | vRetransmissionRateThreshold new => ({ s with vRetransmissionRateThreshold := new }, [])
  | vMaxPacingRate new => ({ s with vMaxPacingRate := new }, [])
  | vHopLatencyDelta new => ({ s with vHopLatencyDelta := new }, [])
  | vFlowLatencyDelta new => ({ s with vFlowLatencyDelta := new }, [])
  | rttThreshold new => ({ s with rttThreshold := new }, [])
  | rttFactor new => ({ s with rttFactor := new }, [])
  | destination binary text =>
    (if s.gUseApacheKafka then
      { s with aKafkaDestIp2Binary := binary, aDestIp2Binary := binary, aDestIp2 := text }
    else s, [])

/-- A number converted to `int`. -/
def toInt (n : ℕ) : ℤ := Int.bmod n 4294967296

theorem atoi_eq (a : Vector UInt8 16) : atoi a = toInt (decimal (cString a)) := by
  unfold atoi toInt
  norm_num

/-- A rate that is read, or nothing after a second dot. -/
def rateChange (arg : List UInt8) (change : ℚ → Change) : Change :=
  let n := copyLoop .rate arg {}
  if n.countdots > 1 then .nothing else change (sscanfLf n.buf.cells)

/-- What a command asks for with this argument. -/
def Command.change (arg : List UInt8) : Command → Change
  | t => .run .applyAllRecommendedSettings
  | pc => .nothing
  | d => .vDebugLevel (if atoi (copyLoop .digits arg {}).buf.cells > 10 then 10 else atoi (copyLoop .digits arg {}).buf.cells)
  | r =>
    .vUseRetransmissionRate
      (if atoi (copyLoop .digits arg {}).buf.cells > 0 then 1 else atoi (copyLoop .digits arg {}).buf.cells)
  | lOn => .gTuningMode false
  | lOff => .gTuningMode true
  | ctFlowSink => .vFlowSinkTimeDelta (.ofNat (strtoul (copyLoop .digits arg {}).buf.cells))
  | ctQOcc => .vQueueOccupancyDelta (.ofNat (strtoul (copyLoop .digits arg {}).buf.cells))
  | ctRetransRate => rateChange arg .vRetransmissionRateThreshold
  | ctPacingRate => rateChange arg fun x => .vMaxPacingRate (x / 100)
  | ctHopLate => .vHopLatencyDelta (.ofNat (strtoul (copyLoop .digits arg {}).buf.cells))
  | ctFlowLate => .vFlowLatencyDelta (.ofNat (strtoul (copyLoop .digits arg {}).buf.cells))
  | rttThresh => .rttThreshold (toInt (strtoul (copyLoop .digits arg {}).buf.cells))
  | rttFactor => .rttFactor (toInt (strtoul (copyLoop .digits arg {}).buf.cells))
  | kafIp4 =>
    match inetAton (copyLoop .address arg {}).buf.cells with
    | none => .nothing
    | some sAddr => .destination (hex8 sAddr) (cString (copyLoop .address arg {}).buf.cells)
  | bRx => .run (.ethtoolRx (cString (copyLoop .digits arg {}).buf.cells))
  | bTx => .run (.ethtoolTx (cString (copyLoop .digits arg {}).buf.cells))
  | bSockRxBuff => .run (.sysctlRmemMax (cString (copyLoop .digits arg {}).buf.cells))
  | bSockTxBuff => .run (.sysctlWmemMax (cString (copyLoop .digits arg {}).buf.cells))

/-- What a request does besides answering. -/
def Handled.effect (h : Handled) : Settings × List MenuCommand := (h.settings, h.ran)

/-- The text asks for a change of the settings it is applied to. -/
def requested (data : List UInt8) : Change :=
  match dispatch (pReqData data) with
  | none => .nothing
  | some c => c.change ((pReqData data).drop c.argOffset)

section Effects

variable {s : Settings} {arg : List UInt8}

theorem changeRate_effect {old : ℚ} {set : ℚ → Settings} {change : ℚ → Change}
    (h : ∀ x, (change x).apply s = (set x, [])) :
    (changeRate s arg old set).effect = (rateChange arg change).apply s := by
  rw [changeRate, rateChange]
  by_cases hdots : (copyLoop .rate arg {}).countdots > 1
  · rw [if_pos hdots, if_pos hdots]
    rfl
  · rw [if_neg hdots, if_neg hdots, h]
    rfl

theorem useKafkaAddress_effect : (useKafkaAddress s arg).effect = (Command.kafIp4.change arg).apply s := by
  rw [useKafkaAddress, Command.change]
  cases hk : s.gUseApacheKafka with
  | false => cases inetAton (copyLoop .address arg {}).buf.cells <;> simp [Handled.effect, Change.apply, hk]
  | true => cases inetAton (copyLoop .address arg {}).buf.cells <;> simp [Handled.effect, Change.apply, hk]

/-- A command does what it asks for. -/
theorem handle_effect (c : Command) : (handle s arg c).effect = (c.change arg).apply s := by
  cases c with
  | ctRetransRate =>
    apply changeRate_effect
    intro x
    rfl
  | ctPacingRate =>
    show (changeRate s arg _ _).effect = (rateChange arg fun x => .vMaxPacingRate (x / 100)).apply s
    apply changeRate_effect
    intro x
    rfl
  | kafIp4 => exact useKafkaAddress_effect
  | _ => rfl

/-- **What `check_req` does** is what the text asks for, applied to the settings. -/
theorem effect_eq (s : Settings) (data : List UInt8) : (checkReq s data).effect = (requested data).apply s := by
  rw [checkReq, requested]
  cases dispatch (pReqData data) with
  | none => rfl
  | some c => exact handle_effect c

end Effects

/-! ### Different changes -/

namespace Change

/-- Two settings that differ in everything a change can set. -/
def before : Settings := { gUseApacheKafka := true }

def otherBefore : Settings where
  vDebugLevel := 2
  vUseRetransmissionRate := 1
  gTuningMode := true
  vFlowSinkTimeDelta := 0
  vQueueOccupancyDelta := 0
  vRetransmissionRateThreshold := 0
  vMaxPacingRate := 0
  vHopLatencyDelta := 0
  vFlowLatencyDelta := 0
  rttThreshold := 0
  rttFactor := 0
  gUseApacheKafka := true
  aDestIp2 := [0]

/-- The change, told by the settings it leads to from `before` and `otherBefore`:
what it sets is the same in both. -/
def recover (f : Settings → Settings × List MenuCommand) : Change :=
  let a := (f before).1
  let b := (f otherBefore).1
  match (f before).2 with
  | command :: _ => .run command
  | [] =>
    if a.vDebugLevel = b.vDebugLevel then .vDebugLevel a.vDebugLevel
    else if a.vUseRetransmissionRate = b.vUseRetransmissionRate then .vUseRetransmissionRate a.vUseRetransmissionRate
    else if a.gTuningMode = b.gTuningMode then .gTuningMode a.gTuningMode
    else if a.vFlowSinkTimeDelta = b.vFlowSinkTimeDelta then .vFlowSinkTimeDelta a.vFlowSinkTimeDelta
    else if a.vQueueOccupancyDelta = b.vQueueOccupancyDelta then .vQueueOccupancyDelta a.vQueueOccupancyDelta
    else if a.vRetransmissionRateThreshold = b.vRetransmissionRateThreshold then
      .vRetransmissionRateThreshold a.vRetransmissionRateThreshold
    else if a.vMaxPacingRate = b.vMaxPacingRate then .vMaxPacingRate a.vMaxPacingRate
    else if a.vHopLatencyDelta = b.vHopLatencyDelta then .vHopLatencyDelta a.vHopLatencyDelta
    else if a.vFlowLatencyDelta = b.vFlowLatencyDelta then .vFlowLatencyDelta a.vFlowLatencyDelta
    else if a.rttThreshold = b.rttThreshold then .rttThreshold a.rttThreshold
    else if a.rttFactor = b.rttFactor then .rttFactor a.rttFactor
    else if a.aDestIp2 = b.aDestIp2 then .destination a.aDestIp2Binary a.aDestIp2
    else .nothing

theorem recover_apply (x : Change) : recover (fun s => x.apply s) = x := by
  cases x <;> simp [recover, apply, before, otherBefore]

/-- **Different changes differ** in some settings. -/
theorem apply_inj {x y : Change} : (∀ s, x.apply s = y.apply s) ↔ x = y := by
  refine ⟨fun h => ?_, fun h s => by rw [h]⟩
  calc x = recover (fun s => x.apply s) := (recover_apply x).symm
    _ = recover (fun s => y.apply s) := by rw [funext h]
    _ = y := recover_apply y

end Change

/-! ### Where a command's text is found -/

theorem strstr_iff {pat text : List UInt8} : strstr pat text = true ↔ pat <:+: text := by
  induction text with
  | nil => rw [strstr, List.isEmpty_iff, List.infix_nil]
  | cons c text ih => rw [strstr, Bool.or_eq_true, List.isPrefixOf_iff_prefix, ih, List.infix_cons_iff]

/-- No command's text has an end of a line in it. -/
theorem Command.text_notMem (c : Command) : 13 ∉ bytes c.text ∧ 10 ∉ bytes c.text ∧ bytes c.text ≠ [] := by
  cases c <;> decide

/-- A command's text occurs in the request line or behind it. -/
theorem strstr_text (l : RequestLine) (rest : List UInt8) (c : Command) :
    strstr (bytes c.text) (l.text ++ rest) = true ↔
      strstr (bytes c.text) l.start = true ∨ strstr (bytes c.text) rest = true := by
  obtain ⟨hcr, hlf, hne⟩ := c.text_notMem
  rw [strstr_iff, strstr_iff, strstr_iff, RequestLine.text, List.append_assoc]
  rcases l.ending_cases with hend | hend
  · rw [hend, List.singleton_append, Search.infix_append_cons hcr]
  · have hlater : bytes c.text <:+: [] ++ 10 :: rest ↔ bytes c.text <:+: rest := by
      rw [Search.infix_append_cons hlf, List.infix_nil, or_iff_right hne]
    rw [hend, List.cons_append, Search.infix_append_cons hcr]
    exact or_congr_right hlater

end TuningMod

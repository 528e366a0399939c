/-
# The trigger logic of a destination DTN

What a destination does with the hop samples of the INT sink: `sample_func`
arms a timer when a hop is congested and disarms it when one is not, the
timer's handler sends the source a QINFO, and after a QINFO the first
uncongested sample (or the idle detection) sends it a RESET_PACING or CLEANUP.
A step is one hop record, one timer expiry, one bitrate measurement, one '-r'
request or one change of the thresholds, each atomic.

The kernel's side of a timer is `none` (disarmed) or the number of the step
that armed it; all timers are one-shot, and only an armed one expires.
`timer_settime` succeeds.

Key definitions: `Trigger`, `Trigger.hopTrigger`, `Trigger.idleDetection`, `Trigger.step`.
Key theorems: `hopTrigger_both`, `hopTrigger_userInfo`, `hopTrigger_below`, `run_now`.
-/
import TuningMod.Outbox

namespace TuningMod

/-- `struct int_hop_metadata`, in network byte order. -/
structure IntHopMetadata where
  switchId : UInt32 := 0
  ingressPortId : UInt16 := 0
  egressPortId : UInt16 := 0
  hopLatency : UInt32 := 0
  queueInfo : UInt32
  ingressTime : UInt32
  egressTime : UInt32
  deriving DecidableEq, Repr

namespace IntHopMetadata

variable [ByteOrder]

/-- `Qinfo`: the low 24 bits are the queue occupancy. -/
def qinfo (md : IntHopMetadata) : UInt32 := ntohl md.queueInfo &&& 0xffffff

/-- `hop_hop_latency_threshold`. -/
def hopLatencyThreshold (md : IntHopMetadata) : UInt32 := ntohl md.egressTime - ntohl md.ingressTime

end IntHopMetadata

/-- The thresholds a hop sample is compared with; an operator can change them. -/
structure Thresholds where
  vHOPLATENCYDELTA : UInt32 := 500000
  vQUEUEOCCUPANCYDELTA : UInt32 := 415
  deriving DecidableEq, Repr

namespace Thresholds

variable [ByteOrder] (th : Thresholds)

/-- The hop is above both thresholds. -/
def overBoth (md : IntHopMetadata) : Bool :=
  th.vHOPLATENCYDELTA < md.hopLatencyThreshold && th.vQUEUEOCCUPANCYDELTA < md.qinfo

/-- The hop is above the queue occupancy threshold. -/
def overQueue (md : IntHopMetadata) : Bool := th.vQUEUEOCCUPANCYDELTA < md.qinfo

theorem overQueue_of_overBoth {md : IntHopMetadata} (h : th.overBoth md = true) :
    th.overQueue md = true := by
  simp only [overBoth, Bool.and_eq_true] at h
  exact h.2

end Thresholds

/-- The destination's trigger state. The `int` flags are `Bool`, a timer is
the step that armed it, and `sent` is what was published to the outbox. -/
structure Trigger where
  thresholds : Thresholds := {}
  vqTimerIsSet : Bool := false
  vUseRetransmissionRate : Bool := false
  vCanStartEvaluationTimer : Bool := true
  vSentPacingOver : Bool := false
  vTwiceInaRow : Bool := false
  sqOCCTimerIDData : STimerData := {}
  currHopKeyHopIndex : UInt32 := 0
  srcIpAddr : UInt32 := 0
  dstIpAddr : UInt32 := 0
  qOCCHopTimerID : Option ℕ := none
  qOCCTimerID : Option ℕ := none
  qEvaluationTimerID : Option ℕ := none
  now : ℕ := 0
  sent : List Produce := []
  deriving DecidableEq, Repr

inductive TriggerEvent where
  | sample (hopKey : HopKey) (md : IntHopMetadata)
  | qOCCHopTimer
  | qOCCTimer
  | qEvaluationTimer
  | measurement (txKbits rxKbits : ℕ)
  | useRetransmissionRate (on : Bool)
  | changeThresholds (th : Thresholds)
  deriving DecidableEq, Repr

/-- A hop record of the flow from 10.0.0.`src` to 10.0.0.9. -/
def sampleFrom (src : UInt32) (queueInfo egressTime : UInt32) : TriggerEvent :=
  .sample { flowKey := { srcIp := htonl (0x0a000000 + src), dstIp := htonl 0x0a000009 }, hopIndex := 0 }
    { queueInfo := htonl queueInfo, ingressTime := 0, egressTime := htonl egressTime }

namespace Trigger

/-! ### The functions -/

section Functions

variable [ByteOrder] (gUseApacheKafka : Bool)

def fStartEvaluationTimer (t : Trigger) : Trigger :=
  { t with
    qEvaluationTimerID := some t.now
    vCanStartEvaluationTimer := false
    vSentPacingOver := !gUseApacheKafka || t.vSentPacingOver }

/-- What is stored for a timer's handler when a sample arms the timer. -/
def timerData (pHopKey : HopKey) (vQinfo vHopDelay : UInt32) : STimerData :=
  { srcIpAddr := ntohl pHopKey.flowKey.srcIp
    dstIpAddr := ntohl pHopKey.flowKey.dstIp
    vQinfo := vQinfo
    vHopDelay := vHopDelay }

def evaluateQOccAndHopDelay (t : Trigger) (pHopKey : HopKey) (vQinfo vHopDelay : UInt32) : Trigger :=
  if !t.vqTimerIsSet then
    { t with
      qOCCHopTimerID := some t.now
      vqTimerIsSet := true
      currHopKeyHopIndex := pHopKey.hopIndex
      sqOCCTimerIDData := timerData pHopKey vQinfo vHopDelay }
  else t

def evaluateQOccUserInfo (t : Trigger) (pHopKey : HopKey) (vQinfo : UInt32) : Trigger :=
  if !t.vqTimerIsSet then
    { t with
      qOCCTimerID := some t.now
      vqTimerIsSet := true
      currHopKeyHopIndex := pHopKey.hopIndex
      sqOCCTimerIDData := timerData pHopKey vQinfo 0 }
  else t

/-- The cancel site of `sample_func`: `qOCC_TimerID` is disarmed only while
`vUseRetransmissionRate` is on. -/
def cancelTimers (t : Trigger) : Trigger :=
  if t.vqTimerIsSet then
    { t with
      qOCCTimerID := if t.vUseRetransmissionRate then none else t.qOCCTimerID
      qOCCHopTimerID := none
      vqTimerIsSet := false }
  else t

/-- The reset site of `sample_func`. -/
def resetPacing (t : Trigger) (hopKey : HopKey) : Trigger :=
  if t.vSentPacingOver && t.vCanStartEvaluationTimer then
    { t with sent := t.sent ++ [.sendResetPacingMsg hopKey], vSentPacingOver := false }
  else t

/-- The threshold part of `sample_func`'s hop loop. -/
def hopTrigger (t : Trigger) (hopKey : HopKey) (md : IntHopMetadata) : Trigger :=
  if t.thresholds.vHOPLATENCYDELTA < md.hopLatencyThreshold &&
      t.thresholds.vQUEUEOCCUPANCYDELTA < md.qinfo then
    t.evaluateQOccAndHopDelay hopKey md.qinfo md.hopLatencyThreshold
  else if t.vUseRetransmissionRate && t.thresholds.vQUEUEOCCUPANCYDELTA < md.qinfo then
    t.evaluateQOccUserInfo hopKey md.qinfo
  else t.cancelTimers.resetPacing hopKey

/-- One hop record. The globals `src_ip_addr` and `dst_ip_addr` are the
addresses of the last record's flow; the start message of a new source is in
`PeerTables`. -/
def sampleFunc (t : Trigger) (hopKey : HopKey) (md : IntHopMetadata) : Trigger :=
  { t.hopTrigger hopKey md with
    srcIpAddr := ntohl hopKey.flowKey.srcIp
    dstIpAddr := ntohl hopKey.flowKey.dstIp }

def qOCCHopTimerIDHandler (t : Trigger) : Trigger :=
  let t := { t with vqTimerIsSet := false }
  if t.vCanStartEvaluationTimer then
    fStartEvaluationTimer gUseApacheKafka
      { t with sent := t.sent ++ [.qOCCHopTimerIDHandler t.sqOCCTimerIDData] }
  else t

def qOCCTimerIDHandler (t : Trigger) : Trigger :=
  let t := { t with vqTimerIsSet := false }
  if t.vCanStartEvaluationTimer then
    fStartEvaluationTimer gUseApacheKafka
      { t with sent := t.sent ++ [.qOCCTimerIDHandler t.sqOCCTimerIDData] }
  else t

def qEvaluationTimerIDHandler (t : Trigger) : Trigger := { t with vCanStartEvaluationTimer := true }

/-- The idle detection of `fDoRunGetThresholds`, without the part that resets
this host's own pacing (`Pacing`). -/
def idleDetection (t : Trigger) : Trigger :=
  let t := if t.vqTimerIsSet then
    { t with qOCCTimerID := none, qOCCHopTimerID := none, vqTimerIsSet := false } else t
  let t := if !t.vCanStartEvaluationTimer && t.vTwiceInaRow then
    { t with qEvaluationTimerID := none, vCanStartEvaluationTimer := true } else t
  let t := if t.vSentPacingOver && t.vTwiceInaRow && t.vCanStartEvaluationTimer then
    { t with sent := t.sent ++ [.sendResetCleanUpPacingMsg t.srcIpAddr], vSentPacingOver := false }
    else t
  { t with vTwiceInaRow := true }

def measurement (t : Trigger) (txKbits rxKbits : ℕ) : Trigger :=
  if txKbits = 0 ∧ rxKbits = 0 then t.idleDetection else { t with vTwiceInaRow := false }

/-- What an event does, if it can happen: a timer expires only while armed,
and is disarmed when its handler runs. -/
def act (t : Trigger) : TriggerEvent → Option Trigger
  | .sample k md => some (t.sampleFunc k md)
  | .qOCCHopTimer =>
    if t.qOCCHopTimerID.isSome then
      some (qOCCHopTimerIDHandler gUseApacheKafka { t with qOCCHopTimerID := none })
    else none
  | .qOCCTimer =>
    if t.qOCCTimerID.isSome then
      some (qOCCTimerIDHandler gUseApacheKafka { t with qOCCTimerID := none })
    else none
  | .qEvaluationTimer =>
    if t.qEvaluationTimerID.isSome then
      some (qEvaluationTimerIDHandler { t with qEvaluationTimerID := none })
    else none
  | .measurement tx rx => some (t.measurement tx rx)
  | .useRetransmissionRate on => some { t with vUseRetransmissionRate := on }
  | .changeThresholds th => some { t with thresholds := th }

def step (t : Trigger) (e : TriggerEvent) : Option Trigger :=
  (t.act gUseApacheKafka e).map fun t' => { t' with now := t.now + 1 }

end Functions

/-! ### The branches of a hop sample -/

section Branches

variable {t : Trigger} {k : HopKey} {md : IntHopMetadata}

@[simp] theorem resetPacing_vqTimerIsSet : (t.resetPacing k).vqTimerIsSet = t.vqTimerIsSet := by
  unfold resetPacing; split <;> rfl

@[simp] theorem resetPacing_qOCCHopTimerID : (t.resetPacing k).qOCCHopTimerID = t.qOCCHopTimerID := by
  unfold resetPacing; split <;> rfl

@[simp] theorem resetPacing_qOCCTimerID : (t.resetPacing k).qOCCTimerID = t.qOCCTimerID := by
  unfold resetPacing; split <;> rfl

@[simp] theorem resetPacing_data : (t.resetPacing k).sqOCCTimerIDData = t.sqOCCTimerIDData := by
  unfold resetPacing; split <;> rfl

variable [ByteOrder]

/-- The sample takes one of the two branches that may arm a timer. -/
def congested (t : Trigger) (md : IntHopMetadata) : Bool :=
  t.thresholds.overBoth md || (t.vUseRetransmissionRate && t.thresholds.overQueue md)

theorem hopTrigger_both (h : t.thresholds.overBoth md = true) :
    t.hopTrigger k md = t.evaluateQOccAndHopDelay k md.qinfo md.hopLatencyThreshold :=
  if_pos h

theorem hopTrigger_userInfo (h : t.thresholds.overBoth md = false)
    (hu : (t.vUseRetransmissionRate && t.thresholds.overQueue md) = true) :
    t.hopTrigger k md = t.evaluateQOccUserInfo k md.qinfo := by
  have hb : ¬ (t.thresholds.vHOPLATENCYDELTA < md.hopLatencyThreshold &&
      t.thresholds.vQUEUEOCCUPANCYDELTA < md.qinfo) := by
    simpa [Thresholds.overBoth] using h
  rw [hopTrigger, if_neg hb]
  exact if_pos hu

/-- The branch that cancels the timers. -/
theorem hopTrigger_below (h : t.congested md = false) :
    t.hopTrigger k md = t.cancelTimers.resetPacing k := by
  obtain ⟨hb, hu⟩ := Bool.or_eq_false_iff.mp h
  have hb' : ¬ (t.thresholds.vHOPLATENCYDELTA < md.hopLatencyThreshold &&
      t.thresholds.vQUEUEOCCUPANCYDELTA < md.qinfo) := by
    simpa [Thresholds.overBoth] using hb
  have hu' : ¬ (t.vUseRetransmissionRate && t.thresholds.vQUEUEOCCUPANCYDELTA < md.qinfo) := by
    simpa [Thresholds.overQueue] using hu
  rw [hopTrigger, if_neg hb', if_neg hu']

end Branches

/-! ### Steps -/

section Steps

variable [ByteOrder] {kafka : Bool} {t t' : Trigger} {e : TriggerEvent}

/-- A step is the event's action and a tick of the step counter. -/
theorem step_eq (h : t.step kafka e = some t') :
    ∃ u, t.act kafka e = some u ∧ t' = { u with now := t.now + 1 } := by
  obtain ⟨u, hu, rfl⟩ := Option.map_eq_some_iff.mp h
  exact ⟨u, hu, rfl⟩

/-- A sample is processed whatever the state. -/
theorem step_sample {k : HopKey} {md : IntHopMetadata}
    (h : t.step kafka (.sample k md) = some t') :
    t' = { t.sampleFunc k md with now := t.now + 1 } := by
  obtain ⟨u, hu, rfl⟩ := step_eq h
  rw [show u = t.sampleFunc k md from (Option.some.inj hu).symm]

theorem step_qOCCHopTimer (h : t.step kafka .qOCCHopTimer = some t') :
    t.qOCCHopTimerID.isSome = true ∧
      t' = { qOCCHopTimerIDHandler kafka { t with qOCCHopTimerID := none } with now := t.now + 1 } := by
  obtain ⟨u, hu, rfl⟩ := step_eq h
  obtain ⟨ha, hs⟩ := Option.ite_none_right_eq_some.mp hu
  obtain rfl := Option.some.inj hs
  exact ⟨ha, rfl⟩

theorem step_qOCCTimer (h : t.step kafka .qOCCTimer = some t') :
    t.qOCCTimerID.isSome = true ∧
      t' = { qOCCTimerIDHandler kafka { t with qOCCTimerID := none } with now := t.now + 1 } := by
  obtain ⟨u, hu, rfl⟩ := step_eq h
  obtain ⟨ha, hs⟩ := Option.ite_none_right_eq_some.mp hu
  obtain rfl := Option.some.inj hs
  exact ⟨ha, rfl⟩

theorem step_qEvaluationTimer (h : t.step kafka .qEvaluationTimer = some t') :
    t.qEvaluationTimerID.isSome = true ∧
      t' = { t with qEvaluationTimerID := none, vCanStartEvaluationTimer := true, now := t.now + 1 } := by
  obtain ⟨u, hu, rfl⟩ := step_eq h
  obtain ⟨ha, hs⟩ := Option.ite_none_right_eq_some.mp hu
  obtain rfl := Option.some.inj hs
  exact ⟨ha, rfl⟩

theorem step_measurement {tx rx : ℕ} (h : t.step kafka (.measurement tx rx) = some t') :
    t' = { t.measurement tx rx with now := t.now + 1 } := by
  obtain ⟨u, hu, rfl⟩ := step_eq h
  rw [show u = t.measurement tx rx from (Option.some.inj hu).symm]

/-- An armed trigger timer can expire. -/
theorem step_qOCCHopTimer_some (kafka : Bool) (ha : t.qOCCHopTimerID.isSome = true) :
    ∃ t', t.step kafka .qOCCHopTimer = some t' :=
  ⟨_, by rw [step, act, if_pos ha, Option.map_some]⟩

theorem step_qOCCTimer_some (kafka : Bool) (ha : t.qOCCTimerID.isSome = true) :
    ∃ t', t.step kafka .qOCCTimer = some t' :=
  ⟨_, by rw [step, act, if_pos ha, Option.map_some]⟩

theorem step_qEvaluationTimer_some (kafka : Bool) (ha : t.qEvaluationTimerID.isSome = true) :
    ∃ t', t.step kafka .qEvaluationTimer = some t' :=
  ⟨_, by rw [step, act, if_pos ha, Option.map_some]⟩

theorem step_now (h : t.step kafka e = some t') : t'.now = t.now + 1 := by
  obtain ⟨u, _, rfl⟩ := step_eq h
  rfl

/-- The step counter counts the events. -/
theorem run_now {es : List TriggerEvent} (h : Runs.run (step kafka) {} es = some t) :
    t.now = es.length := by
  refine Runs.history_inv (P := fun es t => t.now = es.length) rfl (fun pre t e t' _ hp hs => ?_) h
  rw [step_now hs, hp, List.length_append, List.length_singleton]

end Steps

end Trigger
end TuningMod

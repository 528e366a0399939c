/-
# A message from the hop sample to the source's handler

The addresses of a hop sample are exchanged byte by byte when the timer is
armed or the reset is built, again when the message is sent and again when it
is decoded; the text to connect to is taken between the first two. What comes
out is the address of the sample in network order, as `accept` stores it, so
that the lookup in `aDest_Dtn_IPs` finds exactly the peer the sample names. The
two hosts have the same byte order, which of the two does not matter. A message
whose source is 0.0.0.0 is not sent.

A timer's message is about the last sample that armed a timer; a `qOCC_TimerID`
that was left armed can expire after another one has.

Key definitions: `PeerMsg.toBytes`, `fDoRunSendMessageToPeerSend`, `Arrives`, `Trigger.arms`.
Key theorems: `ofBytes_toBytes`, `arrives_of_request`, `run_data`, `codec_exact`.
-/
import TuningMod.Addresses
import TuningMod.Messages
import TuningMod.Pacing
import TuningMod.PeerStream
import TuningMod.TriggerSends
import TuningMod.TriggerTimers

namespace TuningMod

/-! ### The struct on the wire -/

/-- A word of `n` bytes in memory. -/
def wordBytes [ByteOrder] (n w : ℕ) : List UInt8 := LittleEndian.inMemory (LittleEndian.bytes n w)

/-- The struct in memory, which `Writen` sends as it is. -/
def PeerMsg.toBytes [ByteOrder] (m : PeerMsg) (padding : Vector UInt8 4) : List UInt8 :=
  wordBytes 4 m.msgNo.toNat ++ wordBytes 4 m.seqNo.toNat ++ wordBytes 4 m.value.toNat ++
    wordBytes 4 m.hopLatency.toNat ++ wordBytes 4 m.queueOccupancy.toNat ++ wordBytes 4 m.switchId.toNat ++
    wordBytes 2 m.vlanId.toNat ++ m.timestamp ++ m.msg ++ wordBytes 4 m.srcIpAddr.toNat ++
    wordBytes 4 m.dstIpAddr.toNat ++ wordBytes 4 m.vHopDelay.toNat ++ padding.toList ++
    wordBytes 8 m.pts.toNat ++ wordBytes 8 m.ptimes.toNat ++ wordBytes 8 m.pm.toNat

section Wire

open LittleEndian

variable [ByteOrder]

theorem wordAt_eq (r : List UInt8) (offset n : ℕ) : wordAt r offset n = value (inMemory ((r.drop offset).take n)) :=
  rfl

@[simp] theorem length_wordBytes (n w : ℕ) : (wordBytes n w).length = n := by
  rw [wordBytes, length_inMemory, length_bytes]

theorem value_wordBytes {n w : ℕ} (h : w < 256 ^ n) : value (inMemory (wordBytes n w)) = w := by
  rw [wordBytes, inMemory_inMemory, value_bytes_of_lt h]

theorem value_u32 (x : UInt32) : UInt32.ofNat (value (inMemory (wordBytes 4 x.toNat))) = x := by
  rw [value_wordBytes x.toNat_lt, UInt32.ofNat_toNat]

theorem value_u16 (x : UInt16) : UInt16.ofNat (value (inMemory (wordBytes 2 x.toNat))) = x := by
  rw [value_wordBytes x.toNat_lt, UInt16.ofNat_toNat]

theorem value_u64 (x : UInt64) : UInt64.ofNat (value (inMemory (wordBytes 8 x.toNat))) = x := by
  rw [value_wordBytes x.toNat_lt, UInt64.ofNat_toNat]

variable {m : PeerMsg} {padding : Vector UInt8 4}

theorem length_toBytes (h : m.Sized) : (m.toBytes padding).length = sizeofPeerMsg := by
  simp [PeerMsg.toBytes, h.timestamp, h.msg, msCtimeBufLen, msgBufLen, sizeofPeerMsg]

/-- The receiver reads the struct that was sent, whatever the padding. -/
theorem ofBytes_toBytes (h : m.Sized) : PeerMsg.ofBytes (m.toBytes padding) = m := by
  have htime : m.timestamp.length = 48 := h.timestamp
  have hmsg : m.msg.length = 70 := h.msg
  unfold PeerMsg.toBytes PeerMsg.ofBytes
  simp [wordAt_eq, drop_field, htime, hmsg, value_u32, value_u16, value_u64, msCtimeBufLen, msgBufLen,
    List.take_of_length_le]

end Wire

/-! ### Sending and decoding -/

/-- `fDoRunSendMessageToPeer` with the message it has taken: the address it
connects to and the struct it then writes, unless the source is zero or
`Connect` fails. -/
def fDoRunSendMessageToPeerSend [ByteOrder] (connect : UInt32 → Bool) (sMsg2 : PeerMsg) : Option (UInt32 × PeerMsg) :=
  if sMsg2.srcIpAddr ≠ 0 then do
    let sAddr ← inetPton (ipText sMsg2.srcIpAddr)
    if connect sAddr then
      some (sAddr, { sMsg2 with
        srcIpAddr := htonl sMsg2.srcIpAddr
        dstIpAddr := htonl sMsg2.dstIpAddr })
    else none
  else none

/-- The message goes to the host with the address `src`, and on a connection
that carries it and nothing else `process_request` does `request`, once. -/
def Arrives [ByteOrder] (connect : UInt32 → Bool) (m : PeerMsg) (src : UInt32) (request : PeerRequest) : Prop :=
  ∃ wire, fDoRunSendMessageToPeerSend connect m = some (htonl src, wire) ∧
    ∀ (padding : Vector UInt8 4) (c : Conn) (fromCli : Vector UInt8 sizeofPeerMsg),
      c.stream = wire.toBytes padding → c.tail 0 = .eof →
        ∃ fuel, ∀ more ≥ fuel, processRequest more c fromCli = [request]

/-- Every message that the sender takes from this producer arrives so. -/
def Produce.Exact [ByteOrder] (p : Produce) (connect : UInt32 → Bool) (src : UInt32) (request : PeerRequest) : Prop :=
  ∀ (es : List OutboxEvent) (u : Traffic) (n : ℕ) (m : PeerMsg),
    Runs.run Traffic.step Traffic.initial es = some u → (Traffic.producers es)[n]? = some p →
      u.taken[n]? = some m → Arrives connect m src request

/-- The peer with this address is in the table. -/
def PacingEnv.Attached [ByteOrder] (env : PacingEnv) (ipAddr : UInt32) : Prop :=
  ∃ sAddr ∈ env.aDestDtnIPs, sAddr ≠ 0 ∧ ntohl sAddr = ipAddr

section Arrival

variable [ByteOrder] {connect : UInt32 → Bool} {m : PeerMsg} {src : UInt32}

/-- A struct alone on a connection is acted on once. -/
theorem processRequest_single (h : m.Sized) {padding : Vector UInt8 4} {c : Conn}
    {fromCli : Vector UInt8 sizeofPeerMsg} (hs : c.stream = m.toBytes padding) (he : c.tail 0 = .eof) :
    ∃ fuel, ∀ more ≥ fuel, processRequest more c fromCli = [peerRequest m] := by
  have hlen : c.stream.length = sizeofPeerMsg := by rw [hs, length_toBytes h]
  have hclean : EndsClean c := ⟨he, by rw [hlen]⟩
  have hrecords : records sizeofPeerMsg c.stream = [c.stream] := by
    rw [Records.records_of_le (by decide) (Nat.le_of_eq hlen.symm), List.take_of_length_le (Nat.le_of_eq hlen),
      List.drop_of_length_le (Nat.le_of_eq hlen), Records.records_of_lt (by decide)]
  obtain ⟨fuel, hacts⟩ : Frames peerRequest (fun fuel => processRequest fuel c fromCli) c := by
    refine (frames_iff Vector.length_toList).mpr ⟨fun _ _ => rfl, Or.inl hclean⟩
  refine ⟨fuel, fun more hmore => ?_⟩
  calc processRequest more c fromCli
      = (records sizeofPeerMsg c.stream).map fun r => peerRequest (.ofBytes r) := hacts more hmore
    _ = [peerRequest m] := by rw [hrecords, hs, List.map_singleton, ofBytes_toBytes h]

/-- A message with the source's address in network order goes to that source. -/
theorem send_eq (hm : m.srcIpAddr = ntohl src) (hsrc : src ≠ 0) (hconn : connect (htonl src) = true) :
    fDoRunSendMessageToPeerSend connect m =
      some (htonl src, { m with srcIpAddr := htonl m.srcIpAddr, dstIpAddr := htonl m.dstIpAddr }) := by
  have hne : m.srcIpAddr ≠ 0 := by
    rw [hm]
    exact mt ntohl_eq_zero.mp hsrc
  have haddr : m.srcIpAddr = htonl src := hm
  rw [fDoRunSendMessageToPeerSend, if_pos hne, inetPton_ipText, haddr]
  exact if_pos hconn

/-- It arrives there, and its addresses are decoded to what they were before it was sent. -/
theorem arrives_of_request (h : m.Sized) (hm : m.srcIpAddr = ntohl src) (hsrc : src ≠ 0)
    (hconn : connect (htonl src) = true) : Arrives connect m src
      (peerRequest { m with srcIpAddr := htonl m.srcIpAddr, dstIpAddr := htonl m.dstIpAddr }) := by
  have hsized : PeerMsg.Sized { m with srcIpAddr := htonl m.srcIpAddr, dstIpAddr := htonl m.dstIpAddr } :=
    ⟨h.timestamp, h.msg⟩
  exact ⟨_, send_eq hm hsrc hconn, fun _ _ _ hs he => processRequest_single hsized hs he⟩

/-- A message with source zero is not sent. -/
theorem send_zero (hm : m.srcIpAddr = 0) : fDoRunSendMessageToPeerSend connect m = none :=
  if_neg (not_not.mpr hm)

/-- The table's addresses are in network order. -/
theorem found_iff (env : PacingEnv) (ipAddr : UInt32) : env.found (htonl ipAddr) = true ↔ env.Attached ipAddr := by
  rw [PacingEnv.found, List.any_eq_true]
  refine exists_congr fun sAddr => and_congr_right fun _ => ?_
  rw [Bool.and_eq_true, decide_eq_true_eq, decide_eq_true_eq]
  refine and_congr_right fun _ => ⟨fun h => ?_, fun h => ?_⟩
  · rw [← h, ntohl_htonl]
  · rw [← h]
    exact ntohl_ntohl sAddr

end Arrival

/-! ### From the sample to the message -/

namespace Trigger

/-- The timer that a sample arms. -/
def arms [ByteOrder] (t : Trigger) : TriggerEvent → Option TriggerEvent
  | .sample _ md =>
    if t.vqTimerIsSet then none
    else if t.thresholds.overBoth md then some .qOCCHopTimer
    else if t.vUseRetransmissionRate && t.thresholds.overQueue md then some .qOCCTimer
    else none
  | _ => none

/-- The hop delay that goes with a timer. -/
def reportedDelay [ByteOrder] (md : IntHopMetadata) : TriggerEvent → UInt32
  | .qOCCHopTimer => md.hopLatencyThreshold
  | _ => 0

section Samples

variable [ByteOrder] {kafka : Bool} {t t' u : Trigger} {k : HopKey} {md : IntHopMetadata} {e timer : TriggerEvent}

/-- A sample that arms a timer leaves its data for the handler. -/
theorem data_of_arms (h : t.step kafka (.sample k md) = some t') (ha : t.arms (.sample k md) = some timer) :
    t'.sqOCCTimerIDData = timerData k md.qinfo (reportedDelay md timer) := by
  cases step_timers h with
  | armHop hb hf _ _ _ hd =>
    obtain rfl : .qOCCHopTimer = timer := by simpa [arms, hf, hb] using ha
    exact hd
  | armQOcc hb hu hq hf _ _ _ hd =>
    obtain rfl : .qOCCTimer = timer := by simpa [arms, hf, hb, hu, hq] using ha
    exact hd
  | cancel _ hset _ _ _ _ => simp [arms, hset] at ha
  | keep hc _ _ _ _ =>
    -- such a sample arms nothing: the flag is set, or neither branch is taken
    cases hf : t.vqTimerIsSet with
    | true => simp [arms, hf] at ha
    | false =>
      rw [hf] at hc
      obtain ⟨hb, hu⟩ := Bool.or_eq_false_iff.mp hc
      simp only [arms, hf, hb, hu] at ha
      cases ha
  | other hs _ _ _ _ => exact absurd rfl (hs k md)

/-- Only a sample that arms a timer changes the data. -/
theorem data_kept (h : t.step kafka e = some t') (ha : t.arms e = none) :
    t'.sqOCCTimerIDData = t.sqOCCTimerIDData := by
  cases step_timers h with
  | armHop hb hf => simp [arms, hf, hb] at ha
  | armQOcc hb hu hq hf => simp [arms, hf, hb, hu, hq] at ha
  | cancel _ _ _ _ _ hd => exact hd
  | keep _ _ _ _ hd => exact hd
  | hopExpiry _ _ _ _ hd => exact hd
  | qOccExpiry _ _ _ _ hd => exact hd
  | idle _ _ _ _ hd => exact hd
  | other _ _ _ _ hd => exact hd

theorem run_data {later : List TriggerEvent} (hr : Runs.run (step kafka) t later = some u)
    (ha : Runs.Steps (step kafka) t (fun _ s e => s.arms e = none) later) :
    u.sqOCCTimerIDData = t.sqOCCTimerIDData := by
  refine (Runs.always_of_steps (I := fun _ s => s.sqOCCTimerIDData = t.sqOCCTimerIDData) rfl ?_ ha).last hr
  intro pre s e s' _ hi hc hs
  exact (data_kept hs hc).trans hi

/-- The message of a timer's handler is about what the data says. -/
theorem congestion_exact {connect : UInt32 → Bool} {p : Produce} (hm : u.congestionMsg timer = some p)
    (hd : u.sqOCCTimerIDData = timerData k md.qinfo (reportedDelay md timer)) (hsrc : k.flowKey.srcIp ≠ 0)
    (hconn : connect (htonl k.flowKey.srcIp) = true) :
    p.Exact connect k.flowKey.srcIp
      (.qinfo md.qinfo (reportedDelay md timer) (htonl k.flowKey.srcIp) (htonl k.flowKey.dstIp)) := by
  intro es w n m hrun hp htaken
  obtain ⟨seqNo, slot, hsized, rfl⟩ := Traffic.taken_fill hrun hp htaken
  have hfill := hsized.fill p seqNo
  cases timer with
  | qOCCHopTimer =>
    obtain rfl := Option.some.inj (Option.ite_none_right_eq_some.mp hm).2
    rw [hd] at hfill ⊢
    have harr := arrives_of_request hfill rfl hsrc hconn
    simpa [Produce.fill, peerRequest, timerData, reportedDelay, htonl] using harr
  | qOCCTimer =>
    obtain rfl := Option.some.inj (Option.ite_none_right_eq_some.mp hm).2
    rw [hd] at hfill ⊢
    have harr := arrives_of_request hfill rfl hsrc hconn
    simpa [Produce.fill, peerRequest, timerData, reportedDelay, htonl] using harr
  | _ => cases hm

/-- The RESET_PACING of a sample. -/
theorem released_exact {connect : UInt32 → Bool} {p : Produce} (hm : t.released (.sample k md) = some p)
    (hsrc : k.flowKey.srcIp ≠ 0) (hconn : connect (htonl k.flowKey.srcIp) = true) :
    p.Exact connect k.flowKey.srcIp (.resetPacing (htonl k.flowKey.srcIp) (htonl k.flowKey.dstIp)) := by
  intro es w n m hrun hp htaken
  obtain ⟨seqNo, slot, hsized, rfl⟩ := Traffic.taken_fill hrun hp htaken
  have hfill := hsized.fill p seqNo
  obtain rfl := Option.some.inj (Option.ite_none_right_eq_some.mp hm).2
  have harr := arrives_of_request hfill rfl hsrc hconn
  have hno : resetPacingMsg ≠ qinfoMsg := by decide
  simpa [Produce.fill, peerRequest, htonl, hno] using harr

end Samples

/-- **The message codec is exact**, between two hosts of either byte order that
have the same one. The sample `(k, md)` has the source `srcIp`,
not 0.0.0.0, to which a connection can be made. If it arms a timer and that
timer expires before another sample has armed one, the handler's message
reaches the host `srcIp`, whose `process_request` calls `fDoQinfoAssessment2`
with the sample's queue occupancy and hop delay (0 for `qOCC_TimerID`). If it
causes a RESET, that message reaches the host and calls `fDoResetPacing2`. Both
pass a destination address that is found in `aDest_Dtn_IPs` just if the peer
`dstIp` is in it. -/
theorem codec_exact [ByteOrder] {kafka : Bool} (connect : UInt32 → Bool) {t t' u : Trigger} {k : HopKey}
    {md : IntHopMetadata} {later : List TriggerEvent} (hsample : t.step kafka (.sample k md) = some t')
    (hlater : Runs.run (step kafka) t' later = some u) (hsrc : k.flowKey.srcIp ≠ 0)
    (hconn : connect (htonl k.flowKey.srcIp) = true) :
    (∀ timer p, t.arms (.sample k md) = some timer →
      Runs.Steps (step kafka) t' (fun _ s e => s.arms e = none) later → u.congestionMsg timer = some p →
      p.Exact connect k.flowKey.srcIp
        (.qinfo md.qinfo (reportedDelay md timer) (htonl k.flowKey.srcIp) (htonl k.flowKey.dstIp))) ∧
    (∀ p, t.released (.sample k md) = some p →
      p.Exact connect k.flowKey.srcIp (.resetPacing (htonl k.flowKey.srcIp) (htonl k.flowKey.dstIp))) ∧
    ∀ env : PacingEnv, env.found (htonl k.flowKey.dstIp) = true ↔ env.Attached k.flowKey.dstIp := by
  refine ⟨fun timer p ha hkeep hm => ?_, fun p hm => released_exact hm hsrc hconn,
    fun env => found_iff env k.flowKey.dstIp⟩
  exact congestion_exact hm ((run_data hlater hkeep).trans (data_of_arms hsample ha)) hsrc hconn

/-- The flow from `src` to 10.0.0.9, addresses in host order. -/
def flowFrom (src : UInt32) : HopKey := { flowKey := { srcIp := src, dstIp := 0x0a000009 } }

def hopAbove : IntHopMetadata := { queueInfo := htonl 500, ingressTime := 0, egressTime := htonl 600000 }

/-- A sample whose timer expires next. -/
theorem sample_then_expiry (src : UInt32) : ∃ t', step false {} (.sample (flowFrom src) hopAbove) = some t' ∧
    t'.congestionMsg .qOCCHopTimer = some (.qOCCHopTimerIDHandler (timerData (flowFrom src) 500 600000)) := by
  have hcongested : ({} : Thresholds).overBoth hopAbove = true := by decide
  have hq : hopAbove.qinfo = 500 := by decide
  have hd : hopAbove.hopLatencyThreshold = 600000 := by decide
  refine ⟨_, rfl, ?_⟩
  rw [sampleFunc, hopTrigger_both hcongested, hq, hd]
  rfl

theorem codec_exact_hopAbove : ∃ t' p, step false {} (.sample (flowFrom 0x0a000001) hopAbove) = some t' ∧
    t'.congestionMsg .qOCCHopTimer = some p ∧
    p.Exact (fun _ => true) 0x0a000001 (.qinfo 500 600000 0x0100000a 0x0900000a) := by
  obtain ⟨t', hs, hm⟩ := sample_then_expiry 0x0a000001
  have harms : arms {} (.sample (flowFrom 0x0a000001) hopAbove) = some .qOCCHopTimer := by decide
  have hexact := (codec_exact (fun _ => true) hs (Runs.run_nil _ t') (by decide) rfl).1 _ _ harms
    Runs.Steps.nil hm
  exact ⟨t', _, hs, hm, hexact⟩

/-- '-r' on and a sample with a long queue, which arms `qOCC_TimerID`. -/
def longQueue : TriggerEvent :=
  .sample (flowFrom 0x0a000001) { queueInfo := htonl 500, ingressTime := 0, egressTime := 0 }

/-- '-r' off, an uncongested sample, and a congested one of another flow: `qOCC_TimerID` is
still armed, and its data is the other flow's. -/
def otherFlowArms : List TriggerEvent :=
  [.useRetransmissionRate false,
    .sample (flowFrom 0x0a000001) { queueInfo := 0, ingressTime := 0, egressTime := 0 },
    .sample (flowFrom 0x0a000002) hopAbove]

/-- A message of this producer that the sender takes. -/
theorem taken_first (p : Produce) : ∃ u m, Runs.run Traffic.step Traffic.initial [.produce p, .take] = some u ∧
    u.taken[0]? = some m ∧ ∃ seqNo slot, m = p.fill seqNo slot := by
  cases p with
  | _ => exact ⟨_, _, rfl, rfl, _, {}, rfl⟩

/-- A producer whose messages are not sent to the source is not exact. -/
theorem not_exact_of_send {p : Produce} {src : UInt32} {request : PeerRequest}
    (h : ∀ seqNo slot wire, fDoRunSendMessageToPeerSend (fun _ => true) (p.fill seqNo slot) ≠
      some (htonl src, wire)) : ¬ p.Exact (fun _ => true) src request := by
  intro hexact
  obtain ⟨u, m, hrun, htaken, seqNo, slot, rfl⟩ := taken_first p
  obtain ⟨wire, hsend, -⟩ := hexact _ u 0 _ hrun rfl htaken
  exact h seqNo slot wire hsend

/-- The message of a sample with source zero is not sent, and a timer that
another sample's data was left for reports that sample to its source. -/
theorem codec_inexact :
    (∃ t' p, step false {} (.sample (flowFrom 0) hopAbove) = some t' ∧
      t'.congestionMsg .qOCCHopTimer = some p ∧
      ¬ p.Exact (fun _ => true) 0 (.qinfo 500 600000 0 0x0900000a)) ∧
    ∃ t t' u p, Runs.run (step false) {} [.useRetransmissionRate true] = some t ∧
      step false t longQueue = some t' ∧ t.arms longQueue = some .qOCCTimer ∧
      Runs.run (step false) t' otherFlowArms = some u ∧ u.congestionMsg .qOCCTimer = some p ∧
      ¬ p.Exact (fun _ => true) 0x0a000001 (.qinfo 500 0 0x0100000a 0x0900000a) := by
  constructor
  · obtain ⟨t', hs, hm⟩ := sample_then_expiry 0
    refine ⟨t', _, hs, hm, not_exact_of_send fun seqNo slot wire hsend => ?_⟩
    rw [send_zero ntohl_zero] at hsend
    cases hsend
  · have hrun : (Runs.run (step false) { vUseRetransmissionRate := true, now := 1 } (longQueue :: otherFlowArms)).bind
        (fun u => u.congestionMsg .qOCCTimer) = some (.qOCCTimerIDHandler (timerData (flowFrom 0x0a000002) 500 600000)) := by
      decide
    obtain ⟨u, hu, hm⟩ := Option.bind_eq_some_iff.mp hrun
    obtain ⟨t', hs, hlater⟩ := Option.bind_eq_some_iff.mp hu
    refine ⟨_, t', u, _, rfl, hs, by decide, hlater, hm, not_exact_of_send fun seqNo slot wire hsend => ?_⟩
    have hother : (flowFrom 0x0a000002).flowKey.srcIp ≠ 0 := by decide
    rw [send_eq rfl hother rfl] at hsend
    have hdiffer : htonl (flowFrom 0x0a000002).flowKey.srcIp ≠ htonl 0x0a000001 := by decide
    exact hdiffer (congrArg Prod.fst (Option.some.inj hsend))

end Trigger
end TuningMod

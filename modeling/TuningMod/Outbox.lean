/-
# The ring of outgoing messages

`sMsg` with its indices `sMsgsIn` and `sMsgsOut`, the five critical sections
that publish a message (both trigger-timer handlers, `SendResetPacingMsg`,
`SendResetCleanUpPacingMsg` and the new-source branch of `sample_func`) and the
one in `fDoRunSendMessageToPeer` that takes one. A section that waits on a
condition variable cannot happen yet (`none`).

The ring is `Ring` with `SMSGS_BUFFER_SIZE` cells (`produce_eq`, `take_eq`), so
the library's rules give that it is a queue: whatever the interleaving, the
consumer takes the published slot contents in order, each once (`outbox_fifo`).

Key definitions: `Outbox`, `Produce.run`, `fDoRunSendMessageToPeerTake`, `Traffic.step`.
Key theorems: `produce_eq`, `traffic_fifo`, `outbox_fifo`.
-/
import TuningMod.PeerMsg
import TuningMod.Lib.Ring
import TuningMod.Lib.Runs

namespace TuningMod

/-- `SMSGS_BUFFER_SIZE`. -/
def smsgsBufferSize : ℕ := 20

/-- The ring and the two sequence counters. -/
structure Outbox where
  sMsg : ℕ → PeerMsg
  sMsgsIn : ℕ
  sMsgsOut : ℕ
  sMsgSeqNo : UInt32
  sMsgSeqNoConn : UInt32

namespace Outbox

/-- The ring after `main` has cleared it. -/
def initial : Outbox := ⟨fun _ => {}, 0, 0, 0, 0⟩

/-- The test of the producers' `while`: they wait on `empty`. -/
def full (o : Outbox) : Bool := (o.sMsgsIn + 1) % smsgsBufferSize = o.sMsgsOut

/-- Fill the slot at `sMsgsIn` and move on. -/
def publish (o : Outbox) (f : PeerMsg → PeerMsg) : Outbox :=
  { o with
    sMsg := Function.update o.sMsg o.sMsgsIn (f (o.sMsg o.sMsgsIn))
    sMsgsIn := (o.sMsgsIn + 1) % smsgsBufferSize }

/-- Copy the slot at `sMsgsOut` and move on. -/
def fetch (o : Outbox) : PeerMsg × Outbox :=
  (o.sMsg o.sMsgsOut, { o with sMsgsOut := (o.sMsgsOut + 1) % smsgsBufferSize })

/-! ### The critical sections -/

variable [ByteOrder]

def qOCCHopTimerIDHandlerSend (d : STimerData) (o : Outbox) : Option Outbox :=
  if o.full then none
  else
    let seq := o.sMsgSeqNo + 1
    some { o.publish fun m =>
      { m with
        msg := strcpy m.msg "Hello there!!! This is a Qinfo with HopD msg...\n"
        msgNo := htonl qinfoMsg
        value := htonl d.vQinfo
        vHopDelay := htonl d.vHopDelay
        srcIpAddr := d.srcIpAddr
        dstIpAddr := d.dstIpAddr
        seqNo := htonl seq } with sMsgSeqNo := seq }

/-- `srcIpAddr` is the global `src_ip_addr`: the source of the last sample. -/
def sendResetCleanUpPacingMsg (srcIpAddr : UInt32) (o : Outbox) : Option Outbox :=
  if o.full then none
  else
    let seq := o.sMsgSeqNo + 1
    some { o.publish fun m =>
      { m with
        msg := strcpy m.msg "Hello there!!! This is a Reset CleanUp Pacing msg...\n"
        msgNo := htonl cleanupResetPacingMsg
        value := 0
        vHopDelay := 0
        srcIpAddr := srcIpAddr
        dstIpAddr := 0
        seqNo := htonl seq } with sMsgSeqNo := seq }

def sendResetPacingMsg (pHopKey : HopKey) (o : Outbox) : Option Outbox :=
  if o.full then none
  else
    let seq := o.sMsgSeqNo + 1
    some { o.publish fun m =>
      { m with
        msg := strcpy m.msg "Hello there!!! This is a Reset Pacing msg...\n"
        msgNo := htonl resetPacingMsg
        value := 0
        vHopDelay := 0
        srcIpAddr := ntohl pHopKey.flowKey.srcIp
        dstIpAddr := ntohl pHopKey.flowKey.dstIp
        seqNo := htonl seq } with sMsgSeqNo := seq }

def qOCCTimerIDHandlerSend (d : STimerData) (o : Outbox) : Option Outbox :=
  if o.full then none
  else
    let seq := o.sMsgSeqNo + 1
    some { o.publish fun m =>
      { m with
        msg := strcpy m.msg "Hello there!!! This is a Qinfo msg...\n"
        msgNo := htonl qinfoMsg
        value := htonl d.vQinfo
        vHopDelay := 0
        srcIpAddr := d.srcIpAddr
        dstIpAddr := d.dstIpAddr
        seqNo := htonl seq } with sMsgSeqNo := seq }

/-- The start message of `sample_func`. It has a counter of its own, and it
leaves the slot's `vHopDelay` as it was. -/
def startOfTraffic (hopKey : HopKey) (o : Outbox) : Option Outbox :=
  if o.full then none
  else
    let seq := o.sMsgSeqNoConn + 1
    some { o.publish fun m =>
      { m with
        msg := strcpy m.msg "Hello there!!! This is a Start of Traffic  msg...\n"
        msgNo := htonl testMsg
        value := 0
        vlanId := htons hopKey.flowKey.vlanId
        srcIpAddr := ntohl hopKey.flowKey.srcIp
        dstIpAddr := ntohl hopKey.flowKey.dstIp
        seqNo := htonl seq } with sMsgSeqNoConn := seq }

/-- The consumer waits on `full` while the indices are equal. -/
def fDoRunSendMessageToPeerTake (o : Outbox) : Option (PeerMsg × Outbox) :=
  if o.sMsgsIn = o.sMsgsOut then none else some o.fetch

end Outbox

/-- A critical section that publishes a message. -/
inductive Produce where
  | qOCCHopTimerIDHandler (d : STimerData)
  | sendResetCleanUpPacingMsg (srcIpAddr : UInt32)
  | sendResetPacingMsg (pHopKey : HopKey)
  | qOCCTimerIDHandler (d : STimerData)
  | startOfTraffic (hopKey : HopKey)
  deriving DecidableEq, Repr

def Produce.run [ByteOrder] : Produce → Outbox → Option Outbox
  | .qOCCHopTimerIDHandler d => Outbox.qOCCHopTimerIDHandlerSend d
  | .sendResetCleanUpPacingMsg a => Outbox.sendResetCleanUpPacingMsg a
  | .sendResetPacingMsg k => Outbox.sendResetPacingMsg k
  | .qOCCTimerIDHandler d => Outbox.qOCCTimerIDHandlerSend d
  | .startOfTraffic k => Outbox.startOfTraffic k

/-! ### The ring behind the outbox -/

namespace Outbox

/-- The outbox as a ring of `PeerMsg`. -/
def toRing (o : Outbox) : Ring PeerMsg := ⟨o.sMsg, o.sMsgsIn, o.sMsgsOut⟩

theorem full_iff (o : Outbox) : o.full = true ↔ Ring.Full smsgsBufferSize o.toRing := by
  simp [full, Ring.Full, toRing]

/-- What one producer does: it waits on a full ring, else it puts one message
in the next slot. -/
theorem produce_eq [ByteOrder] {p : Produce} {o o' : Outbox} (h : p.run o = some o') :
    ¬ Ring.Full smsgsBufferSize o.toRing ∧
      o'.toRing = Ring.put smsgsBufferSize o.toRing (o'.sMsg o.sMsgsIn) := by
  cases p with
  | _ =>
    simp only [Produce.run, qOCCHopTimerIDHandlerSend, sendResetCleanUpPacingMsg, sendResetPacingMsg,
      qOCCTimerIDHandlerSend, startOfTraffic] at h
    split at h
    · cases h
    · rename_i hf
      cases h
      refine ⟨fun hF => hf ((full_iff o).mpr hF), ?_⟩
      simp [toRing, Ring.put, publish]

/-- What the consumer does: it waits on an empty ring, else it takes the
oldest message. -/
theorem take_eq {o o' : Outbox} {m : PeerMsg} (h : fDoRunSendMessageToPeerTake o = some (m, o')) :
    ¬ Ring.Empty o.toRing ∧ o'.toRing = Ring.take smsgsBufferSize o.toRing ∧ m = o.sMsg o.sMsgsOut := by
  unfold fDoRunSendMessageToPeerTake at h
  split at h
  · cases h
  · rename_i he
    cases h
    exact ⟨he, rfl, rfl⟩

end Outbox

/-! ### Producers and consumer, interleaved -/

inductive OutboxEvent where
  | produce (p : Produce)
  | take
  deriving DecidableEq, Repr

/-- The outbox with what was published to it and what was taken from it. -/
structure Traffic where
  box : Outbox
  published : List PeerMsg
  taken : List PeerMsg

namespace Traffic

def initial : Traffic := ⟨Outbox.initial, [], []⟩

/-- One critical section. The published content is the slot as the producer
leaves it. -/
def step [ByteOrder] (t : Traffic) : OutboxEvent → Option Traffic
  | .produce p => (p.run t.box).map fun b =>
      { t with box := b, published := t.published ++ [b.sMsg t.box.sMsgsIn] }
  | .take => (Outbox.fDoRunSendMessageToPeerTake t.box).map fun mb =>
      { t with box := mb.2, taken := t.taken ++ [mb.1] }

/-- The outbox is a ring, and it is the queue of what is published and not
yet taken. -/
structure Good (t : Traffic) : Prop where
  ok : Ring.Ok smsgsBufferSize t.box.toRing
  fifo : Ring.Fifo smsgsBufferSize t.box.toRing t.published t.taken

theorem good_initial : Good initial where
  ok := ⟨by decide, by decide⟩
  fifo := by simp [Ring.Fifo, initial, Ring.pending, Ring.used, Outbox.toRing, Outbox.initial]

theorem good_step [ByteOrder] {t t' : Traffic} {e : OutboxEvent} (h : Good t) (hs : step t e = some t') : Good t' := by
  cases e with
  | produce p =>
    obtain ⟨b, hb, rfl⟩ := Option.map_eq_some_iff.mp hs
    obtain ⟨hf, hr⟩ := Outbox.produce_eq hb
    exact ⟨hr ▸ Ring.put_ok h.ok _, hr ▸ h.fifo.put h.ok hf _⟩
  | take =>
    obtain ⟨⟨m, b⟩, hb, rfl⟩ := Option.map_eq_some_iff.mp hs
    obtain ⟨he, hr, rfl⟩ := Outbox.take_eq hb
    exact ⟨hr ▸ Ring.take_ok h.ok, hr ▸ h.fifo.take h.ok he⟩

theorem traffic_fifo [ByteOrder] {es : List OutboxEvent} {t : Traffic}
    (h : Runs.run step initial es = some t) : Good t :=
  Runs.history_inv (P := fun _ => Good) good_initial (fun _ _ _ _ _ hg hs => good_step hg hs) h

/-- The slot of the `i`-th message that is published and not yet taken. -/
def pendingSlot (b : Outbox) (i : ℕ) : ℕ := (b.sMsgsOut + i) % smsgsBufferSize

/-- **The ring of outgoing messages is a FIFO without loss.** In every run of
the producers and the consumer: the indices stay in the ring, at most
`SMSGS_BUFFER_SIZE - 1` messages are pending, what the consumer took is a
prefix of what the producers published and the rest waits in the ring in
order, and no producer writes a slot whose message is not yet taken. -/
theorem outbox_fifo (es : List OutboxEvent) :
    Runs.Always step initial (fun _ t =>
      t.box.sMsgsIn ≤ smsgsBufferSize - 1 ∧ t.box.sMsgsOut ≤ smsgsBufferSize - 1 ∧
      t.published.length - t.taken.length ≤ smsgsBufferSize - 1 ∧
      t.taken <+: t.published ∧
      t.published = t.taken ++ (List.range (t.published.length - t.taken.length)).map
        fun i => t.box.sMsg (pendingSlot t.box i)) es ∧
    Runs.Steps step initial (fun _ t e =>
      ∀ p b', e = .produce p → p.run t.box = some b' →
        (∀ i < t.published.length - t.taken.length, pendingSlot t.box i ≠ t.box.sMsgsIn) ∧
        ∀ j ≠ t.box.sMsgsIn, b'.sMsg j = t.box.sMsg j) es := by
  have hused : ∀ t, Good t → t.published.length - t.taken.length = Ring.used smsgsBufferSize t.box.toRing := by
    intro t h
    have hlen := congrArg List.length h.fifo
    simp only [List.length_append, Ring.length_pending] at hlen
    omega
  constructor
  · intro pre suf t _ hr
    have hg := traffic_fifo hr
    have hw : t.box.sMsgsIn < smsgsBufferSize := hg.ok.wr_lt
    have hrd : t.box.sMsgsOut < smsgsBufferSize := hg.ok.rd_lt
    rw [hused t hg]
    refine ⟨by omega, by omega, Ring.used_le hg.ok, hg.fifo.isPrefix, ?_⟩
    exact hg.fifo
  · intro pre e suf t t' _ hr _ p b' _ hb
    have hg := traffic_fifo hr
    obtain ⟨_, hput⟩ := Outbox.produce_eq hb
    refine ⟨fun i hi => ?_, fun j hj => ?_⟩
    · rw [hused t hg] at hi
      exact Ring.put_fresh hg.ok hi
    · have hcells := congrArg (fun r => Ring.cells r j) hput
      simpa [Ring.put, Outbox.toRing, Function.update_of_ne hj] using hcells

end Traffic
end TuningMod

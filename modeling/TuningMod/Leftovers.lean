/-
# What a message carries of earlier ones

A producer writes some fields of the memory its message is built in, a text and
its terminator, and leaves the rest: in a slot of the ring what the messages 20,
40, ... before left there, in the local variables of `fDoHpnRead` and
`fDoHpnReadAll` what the stack holds. Two messages of the same event, made with
the same counters, are the same bytes exactly if the memory left by the producer
is the same; and for a slot that is a function of its earlier producers
(`residue`).

Key definitions: `Making.bytes`, `Making.rest`, `residue`, `Sending.step`.
Key theorems: `bytes_eq_iff`, `run_filled`, `no_leftovers`.
-/
import TuningMod.Messages
import TuningMod.PeerCodec

namespace TuningMod

/-! ### The memory of a message -/

/-- `HPNSSH_READ_FS` and `HPNSSH_READALL_FS`. -/
def hpnsshReadFs : UInt32 := 133
def hpnsshReadAllFs : UInt32 := 144

/-- The memory a message is built in: the struct with its padding, and for the
replies to HPN clients the array that the time of the hop record was printed to. -/
structure Memory where
  msg : PeerMsg := {}
  sized : msg.Sized := by exact PeerMsg.sized_zero
  padding : Vector UInt8 4 := .replicate 4 0
  msCtimeBuf : Vector UInt8 48 := .replicate 48 0

/-- What a reply says: the time as text, and the values. -/
structure Reply where
  time : { l : List UInt8 // l.length < msCtimeBufLen }
  hopLatency : UInt32
  queueOccupancy : UInt32
  switchId : UInt32
  deriving DecidableEq

/-- The event that produces a message. -/
inductive Making where
  | ring (p : Produce)
  | hpnRead (r : Reply)
  | hpnReadAll (r : Reply)
  deriving DecidableEq

/-- A text printed into an array, with its terminator. -/
def printed (dst : List UInt8) (text : List UInt8) : List UInt8 := text ++ 0 :: dst.drop (text.length + 1)

/-- What `fDoHpnReadAll` copies into `msg`. -/
def readAllText : String := "Hello there!!! Got your ReadAll message..., Here's some data\n"

/-- `sRetMsg` of `fDoHpnRead`, or `sRetMsg2`. -/
def fDoHpnReadMsg (r : Reply) (m : Memory) : PeerMsg :=
  { m.msg with
    msgNo := htonl hpnsshMsg
    value := htonl hpnsshReadFs
    timestamp := printed m.msCtimeBuf.toList r.time.1
    hopLatency := htonl r.hopLatency
    queueOccupancy := htonl r.queueOccupancy
    switchId := htonl r.switchId }

/-- `sRetMsg` of `fDoHpnReadAll`, or `sRetMsg2`, with its sequence number. -/
def fDoHpnReadAllMsg (r : Reply) (seqNo : UInt32) (m : Memory) : PeerMsg :=
  { m.msg with
    msg := strcpy m.msg.msg readAllText
    msgNo := htonl hpnsshMsg
    value := htonl hpnsshReadAllFs
    timestamp := printed m.msCtimeBuf.toList r.time.1
    hopLatency := htonl r.hopLatency
    queueOccupancy := htonl r.queueOccupancy
    switchId := htonl r.switchId
    seqNo := htonl seqNo }

/-- The two sequence counters. -/
structure Counters where
  sMsgSeqNo : UInt32
  sMsgSeqNoConn : UInt32
  deriving DecidableEq

def Outbox.counters (o : Outbox) : Counters := ⟨o.sMsgSeqNo, o.sMsgSeqNoConn⟩

/-- The number a producer draws. -/
def Counters.draw (cs : Counters) : Produce → UInt32
  | .startOfTraffic _ => cs.sMsgSeqNoConn + 1
  | _ => cs.sMsgSeqNo + 1

/-- The struct a producer makes in a memory. -/
def Making.fill (cs : Counters) (m : Memory) : Making → PeerMsg
  | .ring p => p.fill (cs.draw p) m.msg
  | .hpnRead r => fDoHpnReadMsg r m
  | .hpnReadAll r => fDoHpnReadAllMsg r (cs.sMsgSeqNo + 1) m

/-- The struct that `fDoRunSendMessageToPeer` writes for one it has taken. -/
def PeerMsg.sent (m : PeerMsg) : PeerMsg :=
  { m with srcIpAddr := htonl m.srcIpAddr, dstIpAddr := htonl m.dstIpAddr }

/-- The bytes that are sent. -/
def Making.bytes (cs : Counters) (m : Memory) : Making → List UInt8
  | .ring p => (p.fill (cs.draw p) m.msg).sent.toBytes m.padding
  | .hpnRead r => (fDoHpnReadMsg r m).toBytes m.padding
  | .hpnReadAll r => (fDoHpnReadAllMsg r (cs.sMsgSeqNo + 1) m).toBytes m.padding

/-! ### What a producer leaves -/

/-- The part of a slot that the producer does not write. -/
def Produce.rest (m : PeerMsg) (p : Produce) : PeerMsg :=
  let left := { m with
    msgNo := 0, seqNo := 0, value := 0, srcIpAddr := 0, dstIpAddr := 0
    msg := m.msg.drop (p.text.length + 1) }
  match p with
  | .startOfTraffic _ => { left with vlanId := 0 }
  | _ => { left with vHopDelay := 0 }

/-- What `fDoHpnRead` does not write of `sRetMsg`. -/
def hpnReadRest (m : PeerMsg) : PeerMsg :=
  { m with msgNo := 0, value := 0, timestamp := [], hopLatency := 0, queueOccupancy := 0, switchId := 0 }

def hpnReadAllRest (m : PeerMsg) : PeerMsg :=
  { hpnReadRest m with seqNo := 0, msg := m.msg.drop (readAllText.length + 1) }

/-- The memory left by a producer: of the struct, of the array of the time
behind its text, and the padding. -/
def Making.rest (m : Memory) : Making → PeerMsg × List UInt8 × Vector UInt8 4
  | .ring p => (p.rest m.msg, [], m.padding)
  | .hpnRead r => (hpnReadRest m.msg, m.msCtimeBuf.toList.drop (r.time.1.length + 1), m.padding)
  | .hpnReadAll r => (hpnReadAllRest m.msg, m.msCtimeBuf.toList.drop (r.time.1.length + 1), m.padding)

section Rest

variable {m m' : PeerMsg} {a b : Memory} {cs : Counters} {p : Produce} {q : UInt32}

theorem printed_inj {dst dst' text : List UInt8} :
    printed dst text = printed dst' text ↔ dst.drop (text.length + 1) = dst'.drop (text.length + 1) := by
  rw [printed, printed, List.append_cancel_left_eq, List.cons.injEq, and_iff_right rfl]

theorem strcpy_inj {dst dst' : List UInt8} {src : String} :
    strcpy dst src = strcpy dst' src ↔ dst.drop (src.length + 1) = dst'.drop (src.length + 1) := by
  rw [strcpy, strcpy, List.append_cancel_left_eq, List.cons.injEq, and_iff_right rfl]

/-- Two slots filled by the same producer with the same number are equal just
if what it left of them is. -/
theorem produce_fill_eq_iff : p.fill q m = p.fill q m' ↔ p.rest m = p.rest m' := by
  cases p <;> simp [Produce.fill, Produce.rest, strcpy_inj]

theorem length_printed {dst text : List UInt8} (h : text.length < dst.length) :
    (printed dst text).length = dst.length := by
  rw [printed, List.length_append, List.length_cons, List.length_drop]
  omega

theorem Making.sized_fill (cs : Counters) (a : Memory) (k : Making) : (k.fill cs a).Sized := by
  have htime (r : Reply) : (printed a.msCtimeBuf.toList r.time.1).length = msCtimeBufLen := by
    have hlt : r.time.1.length < a.msCtimeBuf.toList.length := by
      rw [Vector.length_toList]
      exact r.time.2
    rw [length_printed hlt, Vector.length_toList]
    rfl
  cases k with
  | ring p => exact a.sized.fill p _
  | hpnRead r => exact ⟨htime r, a.sized.msg⟩
  | hpnReadAll r =>
    have hlt : readAllText.length < a.msg.msg.length := by
      rw [a.sized.msg]
      decide +kernel
    exact ⟨htime r, (length_strcpy hlt).trans a.sized.msg⟩

/-- Two structs made by the same event with the same counters, and their
paddings, are equal just if what was left of the memory is. -/
theorem fill_eq_iff (cs : Counters) (k : Making) :
    (k.fill cs a = k.fill cs b ∧ a.padding = b.padding) ↔ k.rest a = k.rest b := by
  cases k with
  | ring p => simp [Making.fill, Making.rest, produce_fill_eq_iff]
  | hpnRead r =>
    simp only [Making.fill, Making.rest, fDoHpnReadMsg, hpnReadRest, printed_inj, PeerMsg.mk.injEq, Prod.mk.injEq]
    tauto
  | hpnReadAll r =>
    simp only [Making.fill, Making.rest, fDoHpnReadAllMsg, hpnReadAllRest, hpnReadRest, printed_inj, strcpy_inj,
      PeerMsg.mk.injEq, Prod.mk.injEq]
    tauto

/-- Structs with different fields or padding are different bytes. -/
theorem toBytes_inj {pad pad' : Vector UInt8 4} (h : m.Sized) (h' : m'.Sized) :
    m.toBytes pad = m'.toBytes pad' ↔ m = m' ∧ pad = pad' := by
  refine ⟨fun heq => ?_, fun ⟨hm, hp⟩ => by rw [hm, hp]⟩
  have hm : m = m' := by
    have hread := congrArg PeerMsg.ofBytes heq
    rwa [ofBytes_toBytes h, ofBytes_toBytes h'] at hread
  subst hm
  refine ⟨rfl, ?_⟩
  simp only [PeerMsg.toBytes, List.append_left_inj, List.append_right_inj] at heq
  exact Vector.toList_inj.mp heq

theorem sent_sent (m : PeerMsg) : m.sent.sent = m := by simp [PeerMsg.sent, htonl, ntohl_ntohl]

theorem sent_inj : m.sent = m'.sent ↔ m = m' := by
  refine ⟨fun h => ?_, congrArg PeerMsg.sent⟩
  rw [← sent_sent m, h, sent_sent]

/-- **What is sent twice by the same event.** With the same counters it is the
same bytes just if what was left of the memory is. -/
theorem bytes_eq_iff (k : Making) : k.bytes cs a = k.bytes cs b ↔ k.rest a = k.rest b := by
  have ha := k.sized_fill cs a
  have hb := k.sized_fill cs b
  rw [← fill_eq_iff cs]
  cases k with
  | ring p =>
    have hsent : (p.fill (cs.draw p) a.msg).sent.Sized := ⟨ha.timestamp, ha.msg⟩
    have hsent' : (p.fill (cs.draw p) b.msg).sent.Sized := ⟨hb.timestamp, hb.msg⟩
    rw [Making.bytes, Making.bytes, toBytes_inj hsent hsent', sent_inj]
    rfl
  | hpnRead r => exact toBytes_inj ha hb
  | hpnReadAll r => exact toBytes_inj ha hb

end Rest

/-! ### What earlier messages leave in a slot -/

/-- The message without the fields that every producer writes. -/
def PeerMsg.blank (m : PeerMsg) : PeerMsg :=
  { m with msgNo := 0, seqNo := 0, value := 0, srcIpAddr := 0, dstIpAddr := 0 }

/-- What the producers that have had the slot leave in it for the next one. -/
def residue (ps : List Produce) : PeerMsg := ps.foldl (fun m p => (p.fill 0 m).blank) {}

/-- The producers that have had slot `i`: those of the messages `i`, `i + 20`, ... -/
def slotProducers (ps : List Produce) (i : ℕ) : List Produce :=
  (ps.zipIdx.filter fun pn => pn.2 % smsgsBufferSize = i).map Prod.fst

section Residue

variable {ps : List Produce} {p : Produce} {q q' : UInt32} {m m' : PeerMsg}

theorem PeerMsg.Sized.blank (h : m.Sized) : m.blank.Sized := ⟨h.timestamp, h.msg⟩

theorem fill_blank : p.fill q m.blank = p.fill q m := by cases p <;> rfl

theorem blank_fill : (p.fill q m).blank = (p.fill q' m).blank := by cases p <;> rfl

theorem residue_append : residue (ps ++ [p]) = (p.fill 0 (residue ps)).blank := by
  rw [residue, List.foldl_append]
  rfl

theorem sized_residue : (residue ps).Sized := by
  induction ps using List.reverseRecOn with
  | nil => exact PeerMsg.sized_zero
  | append_singleton ps p ih =>
    rw [residue_append]
    exact (ih.fill p 0).blank

theorem slotProducers_append (i : ℕ) : slotProducers (ps ++ [p]) i =
    if ps.length % smsgsBufferSize = i then slotProducers ps i ++ [p] else slotProducers ps i := by
  rw [slotProducers, List.zipIdx_append, List.filter_append, List.map_append]
  by_cases h : ps.length % smsgsBufferSize = i <;> simp [slotProducers, h]

end Residue

/-- The memory of the next message in the ring. -/
def slotMemory (ps : List Produce) : Memory :=
  { msg := residue (slotProducers ps (ps.length % smsgsBufferSize)), sized := sized_residue }

/-! ### The messages of a run -/

/-- A message being made, with the counters before it and the memory it is made in. -/
structure Draft where
  making : Making
  counters : Counters
  memory : Memory

/-- A message that was sent. -/
structure Message extends Draft where
  bytes : List UInt8

/-- Producing into the ring, sending the oldest message of it, and the replies
to HPN clients, made in any memory. -/
inductive SendingEvent where
  | produce (p : Produce)
  | take
  | hpnRead (r : Reply) (memory : Memory)
  | hpnReadAll (r : Reply) (memory : Memory)

/-- The ring's traffic with the drafts of what was published, and the replies. -/
structure Sending where
  traffic : Traffic := .initial
  drafts : List Draft := []
  replies : List Message := []

namespace Sending

/-- The producers so far. -/
def produced (s : Sending) : List Produce :=
  s.drafts.filterMap fun d => match d.making with
    | .ring p => some p
    | _ => none

/-- `fDoHpnReadAll` draws its number from the ring's counter. -/
def bump (t : Traffic) : Traffic := { t with box := { t.box with sMsgSeqNo := t.box.sMsgSeqNo + 1 } }

def reply (s : Sending) (k : Making) (a : Memory) : Sending :=
  { s with replies := s.replies ++ [{
      making := k, counters := s.traffic.box.counters, memory := a
      bytes := k.bytes s.traffic.box.counters a }] }

def step (s : Sending) : SendingEvent → Option Sending
  | .produce p => (s.traffic.step (.produce p)).map fun t =>
      { s with
        traffic := t
        drafts := s.drafts ++ [⟨.ring p, s.traffic.box.counters, slotMemory s.produced⟩] }
  | .take => (s.traffic.step .take).map fun t => { s with traffic := t }
  | .hpnRead r a => some (s.reply (.hpnRead r) a)
  | .hpnReadAll r a => some { s.reply (.hpnReadAll r) a with traffic := bump s.traffic }

/-- What was sent: the `n`-th message taken from the ring is that of the
`n`-th producer. -/
def messages (s : Sending) : List Message :=
  (s.drafts.zip s.traffic.taken).map (fun (d, m) =>
    { toDraft := d, bytes := m.sent.toBytes d.memory.padding }) ++ s.replies

/-- The slots hold what their producers left, the published messages are their
drafts, and so are the replies. -/
structure Filled (s : Sending) : Prop where
  good : s.traffic.Good
  sMsgsIn_eq : s.traffic.box.sMsgsIn = s.produced.length % smsgsBufferSize
  slots : ∀ i < smsgsBufferSize, (s.traffic.box.sMsg i).blank = residue (slotProducers s.produced i)
  published : List.Forall₂
    (fun d m => ∃ p, d.making = .ring p ∧ m = d.making.fill d.counters d.memory) s.drafts s.traffic.published
  replies : ∀ x ∈ s.replies, x.bytes = x.making.bytes x.counters x.memory

variable {s s' : Sending} {e : SendingEvent}

theorem filled_initial : Filled {} where
  good := Traffic.good_initial
  sMsgsIn_eq := rfl
  slots _ _ := rfl
  published := .nil
  replies _ hx := absurd hx List.not_mem_nil

theorem counter_eq (p : Produce) (o : Outbox) : p.counter o + 1 = o.counters.draw p := by cases p <;> rfl

/-- A producer fills the slot that `slotMemory` describes. -/
theorem Filled.produce {p : Produce} {b : Outbox} (h : Filled s) (hb : p.run s.traffic.box = some b) :
    b.sMsg = Function.update s.traffic.box.sMsg s.traffic.box.sMsgsIn
      (p.fill (s.traffic.box.counters.draw p) (slotMemory s.produced).msg) := by
  have hslot := h.slots s.traffic.box.sMsgsIn h.good.ok.wr_lt
  have hmem : (slotMemory s.produced).msg = (s.traffic.box.sMsg s.traffic.box.sMsgsIn).blank := by
    rw [hslot, h.sMsgsIn_eq]
    rfl
  rw [Produce.run_fill hb, hmem, fill_blank, counter_eq]

theorem filled_produce {p : Produce} {t : Traffic} (h : Filled s)
    (ht : s.traffic.step (.produce p) = some t) :
    Filled { s with traffic := t, drafts := s.drafts ++ [⟨.ring p, s.traffic.box.counters, slotMemory s.produced⟩] } := by
  have hgood := Traffic.good_step h.good ht
  obtain ⟨b, hb, rfl⟩ := Option.map_eq_some_iff.mp ht
  obtain ⟨-, hput⟩ := Outbox.produce_eq hb
  have hin : b.sMsgsIn = (s.traffic.box.sMsgsIn + 1) % smsgsBufferSize := congrArg Ring.wr hput
  have hcells := h.produce hb
  have hproduced : produced { s with
      traffic := { s.traffic with box := b, published := s.traffic.published ++ [b.sMsg s.traffic.box.sMsgsIn] }
      drafts := s.drafts ++ [⟨.ring p, s.traffic.box.counters, slotMemory s.produced⟩] } = s.produced ++ [p] := by
    simp [produced]
  refine ⟨hgood, ?_, fun i hi => ?_, ?_, h.replies⟩
  · rw [hproduced, List.length_append, List.length_singleton]
    show b.sMsgsIn = _
    rw [hin, h.sMsgsIn_eq, Nat.mod_add_mod]
  · rw [hproduced, slotProducers_append, ← h.sMsgsIn_eq]
    show (b.sMsg i).blank = _
    rw [hcells]
    by_cases hin : s.traffic.box.sMsgsIn = i
    · rw [if_pos hin, ← hin, Function.update_self, residue_append, h.sMsgsIn_eq]
      exact blank_fill
    · rw [if_neg hin, Function.update_of_ne (Ne.symm hin)]
      exact h.slots i hi
  · refine List.rel_append h.published (.cons ⟨p, rfl, ?_⟩ .nil)
    rw [hcells, Function.update_self]
    rfl

theorem filled_step (h : Filled s) (hs : s.step e = some s') : Filled s' := by
  cases e with
  | produce p =>
    obtain ⟨t, ht, rfl⟩ := Option.map_eq_some_iff.mp hs
    exact filled_produce h ht
  | take =>
    obtain ⟨t, ht, rfl⟩ := Option.map_eq_some_iff.mp hs
    have hgood := Traffic.good_step h.good ht
    obtain ⟨⟨m, b⟩, hb, rfl⟩ := Option.map_eq_some_iff.mp ht
    obtain ⟨-, hring, -⟩ := Outbox.take_eq hb
    have hcells : b.sMsg = s.traffic.box.sMsg := congrArg Ring.cells hring
    have hin : b.sMsgsIn = s.traffic.box.sMsgsIn := congrArg Ring.wr hring
    refine ⟨hgood, hin.trans h.sMsgsIn_eq, fun i hi => ?_, h.published, h.replies⟩
    show (b.sMsg i).blank = _
    rw [hcells]
    exact h.slots i hi
  | hpnRead r a =>
    obtain rfl := Option.some.inj hs
    refine ⟨h.good, h.sMsgsIn_eq, h.slots, h.published, fun x hx => ?_⟩
    rcases List.mem_append.mp hx with hx | hx
    · exact h.replies x hx
    · rw [List.mem_singleton.mp hx]
  | hpnReadAll r a =>
    obtain rfl := Option.some.inj hs
    refine ⟨⟨⟨h.good.ok.wr_lt, h.good.ok.rd_lt⟩, h.good.fifo⟩, h.sMsgsIn_eq, h.slots, h.published, fun x hx => ?_⟩
    rcases List.mem_append.mp hx with hx | hx
    · exact h.replies x hx
    · rw [List.mem_singleton.mp hx]

theorem run_filled {es : List SendingEvent} (h : Runs.run step {} es = some s) : Filled s :=
  Runs.history_inv (P := fun _ => Filled) filled_initial (fun _ _ _ _ _ hf hs => filled_step hf hs) h

/-- Every message that is sent is what its event makes of its memory. -/
theorem Filled.bytes_eq (h : Filled s) {x : Message} (hx : x ∈ s.messages) :
    x.bytes = x.making.bytes x.counters x.memory := by
  rcases List.mem_append.mp hx with hx | hx
  · obtain ⟨⟨d, m⟩, hdm, rfl⟩ := List.mem_map.mp hx
    obtain ⟨n, hn, hget⟩ := List.mem_iff_getElem.mp hdm
    obtain ⟨hdrafts, htaken⟩ := Nat.lt_min.mp (List.length_zip ▸ hn)
    rw [List.getElem_zip, Prod.mk.injEq] at hget
    obtain ⟨rfl, rfl⟩ := hget
    -- the `n`-th message taken is the `n`-th published
    obtain ⟨rest, hrest⟩ := h.good.fifo.isPrefix
    have hpub : s.traffic.published[n]? = some s.traffic.taken[n] := by
      rw [← hrest, List.getElem?_append_left htaken, List.getElem?_eq_getElem htaken]
    obtain ⟨hlt, hpub⟩ := List.getElem?_eq_some_iff.mp hpub
    obtain ⟨p, hp, hm⟩ := (List.forall₂_iff_get.mp h.published).2 n hdrafts hlt
    show s.traffic.taken[n].sent.toBytes _ = _
    rw [← hpub]
    change s.traffic.published[n] = s.drafts[n].making.fill s.drafts[n].counters s.drafts[n].memory at hm
    change s.drafts[n].making = .ring p at hp
    show _ = s.drafts[n].making.bytes s.drafts[n].counters s.drafts[n].memory
    rw [hm, hp]
    rfl
  · exact h.replies x hx

/-- The messages that a run sends. -/
def messagesOf (es : List SendingEvent) : List Message := ((Runs.run step {} es).map messages).getD []

theorem bytes_of_mem {es : List SendingEvent} {x : Message} (hx : x ∈ messagesOf es) :
    x.bytes = x.making.bytes x.counters x.memory := by
  cases hr : Runs.run step {} es with
  | none =>
    rw [messagesOf, hr] at hx
    exact absurd hx List.not_mem_nil
  | some s =>
    rw [messagesOf, hr] at hx
    exact (run_filled hr).bytes_eq hx

/-- **When messages carry no leftovers.** In any two runs, the messages of the
same event, made with the same counters, are the same bytes if and only if the
same was left in their memory where the event writes nothing: in the ring by
the earlier producers of the slot (`slotMemory`), in the replies to HPN clients
by what the stack held. -/
theorem no_leftovers (es es' : List SendingEvent) :
    (∀ x ∈ messagesOf es, ∀ y ∈ messagesOf es', x.making = y.making → x.counters = y.counters →
      x.bytes = y.bytes) ↔
    ∀ x ∈ messagesOf es, ∀ y ∈ messagesOf es', x.making = y.making → x.counters = y.counters →
      x.making.rest x.memory = y.making.rest y.memory := by
  refine forall₂_congr fun x hx => forall₂_congr fun y hy => forall₂_congr fun hk hc => ?_
  rw [bytes_of_mem hx, bytes_of_mem hy, ← hk, ← hc]
  exact bytes_eq_iff x.making

/-- A start of traffic on this VLAN, and twenty resets for one source. -/
def afterVlan (vlanId : UInt16) : List SendingEvent :=
  let start : Produce := .startOfTraffic ⟨{ vlanId := vlanId, srcIp := 0x0a000001, dstIp := 0x0a000009 }, 0⟩
  (start :: List.replicate 20 (.sendResetCleanUpPacingMsg 0x0100000a)).flatMap fun p => [.produce p, .take]

/-- The last reset goes into the start message's slot, and carries its VLAN. -/
theorem leftover_vlan : ∃ x ∈ messagesOf (afterVlan 5), ∃ y ∈ messagesOf (afterVlan 0),
    x.making = y.making ∧ x.counters = y.counters ∧ x.bytes ≠ y.bytes := by
  refine ⟨_, List.get_mem (messagesOf (afterVlan 5)) ⟨20, by decide +kernel⟩, _,
    List.get_mem (messagesOf (afterVlan 0)) ⟨20, by decide +kernel⟩, ?_⟩
  decide +kernel

end Sending
end TuningMod

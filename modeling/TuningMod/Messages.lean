/-
# What the producers write into a slot

Each producer of the outgoing ring overwrites some fields of the slot it gets
and the first bytes of its text array, and leaves the rest as it was. `fill`
says which; every message that is taken from the ring is a slot filled so by
its producer.

Key definitions: `Produce.fill`, `PeerMsg.Sized`, `Traffic.producers`, `Traffic.Written`.
Key theorems: `Produce.run_fill`, `Traffic.taken_fill`.
-/
import TuningMod.Outbox
import Mathlib.Data.List.Forall2

namespace TuningMod

/-! ### One producer -/

namespace Produce

/-- What the producer copies into `msg`. -/
def text : Produce → String
  | qOCCHopTimerIDHandler _ => "Hello there!!! This is a Qinfo with HopD msg...\n"
  | sendResetCleanUpPacingMsg _ => "Hello there!!! This is a Reset CleanUp Pacing msg...\n"
  | sendResetPacingMsg _ => "Hello there!!! This is a Reset Pacing msg...\n"
  | qOCCTimerIDHandler _ => "Hello there!!! This is a Qinfo msg...\n"
  | startOfTraffic _ => "Hello there!!! This is a Start of Traffic  msg...\n"

/-- The counter the producer takes its sequence number from. -/
def counter (o : Outbox) : Produce → UInt32
  | startOfTraffic _ => o.sMsgSeqNoConn
  | _ => o.sMsgSeqNo

/-- The slot after the producer, with the sequence number it has drawn. -/
def fill [ByteOrder] (seqNo : UInt32) (slot : PeerMsg) : Produce → PeerMsg
  | p@(qOCCHopTimerIDHandler d) =>
    { slot with
      msg := strcpy slot.msg p.text, msgNo := htonl qinfoMsg, seqNo := htonl seqNo
      value := htonl d.vQinfo, vHopDelay := htonl d.vHopDelay
      srcIpAddr := d.srcIpAddr, dstIpAddr := d.dstIpAddr }
  | p@(sendResetCleanUpPacingMsg a) =>
    { slot with
      msg := strcpy slot.msg p.text, msgNo := htonl cleanupResetPacingMsg, seqNo := htonl seqNo
      value := 0, vHopDelay := 0, srcIpAddr := a, dstIpAddr := 0 }
  | p@(sendResetPacingMsg k) =>
    { slot with
      msg := strcpy slot.msg p.text, msgNo := htonl resetPacingMsg, seqNo := htonl seqNo
      value := 0, vHopDelay := 0
      srcIpAddr := ntohl k.flowKey.srcIp, dstIpAddr := ntohl k.flowKey.dstIp }
  | p@(qOCCTimerIDHandler d) =>
    { slot with
      msg := strcpy slot.msg p.text, msgNo := htonl qinfoMsg, seqNo := htonl seqNo
      value := htonl d.vQinfo, vHopDelay := 0
      srcIpAddr := d.srcIpAddr, dstIpAddr := d.dstIpAddr }
  | p@(startOfTraffic k) =>
    { slot with
      msg := strcpy slot.msg p.text, msgNo := htonl testMsg, seqNo := htonl seqNo
      value := 0, vlanId := htons k.flowKey.vlanId
      srcIpAddr := ntohl k.flowKey.srcIp, dstIpAddr := ntohl k.flowKey.dstIp }

variable {p : Produce} {o o' : Outbox}

/-- A producer fills its slot and touches no other. -/
theorem run_fill [ByteOrder] (h : p.run o = some o') :
    o'.sMsg = Function.update o.sMsg o.sMsgsIn (p.fill (p.counter o + 1) (o.sMsg o.sMsgsIn)) := by
  cases p with
  | _ =>
    simp only [run, Outbox.qOCCHopTimerIDHandlerSend, Outbox.sendResetCleanUpPacingMsg,
      Outbox.sendResetPacingMsg, Outbox.qOCCTimerIDHandlerSend, Outbox.startOfTraffic] at h
    obtain ⟨-, hs⟩ := Option.ite_none_left_eq_some.mp h
    obtain rfl := Option.some.inj hs
    rfl

end Produce

/-! ### The arrays of a message -/

/-- The arrays have the lengths the struct gives them. -/
structure PeerMsg.Sized (m : PeerMsg) : Prop where
  timestamp : m.timestamp.length = msCtimeBufLen
  msg : m.msg.length = msgBufLen

theorem PeerMsg.sized_zero : PeerMsg.Sized {} := ⟨rfl, rfl⟩

/-- Every text fits into `msg`, with its terminator. -/
theorem Produce.length_text (p : Produce) : p.text.length < msgBufLen := by
  cases p <;> (rw [text]; decide +kernel)

theorem length_strcpy {dst : List UInt8} {src : String} (h : src.length < dst.length) :
    (strcpy dst src).length = dst.length := by
  have hsrc : (cBytes src).length = src.length := by
    rw [cBytes, List.length_map, String.length_toList]
  rw [strcpy, List.length_append, List.length_cons, List.length_drop, hsrc]
  omega

theorem PeerMsg.Sized.fill [ByteOrder] {slot : PeerMsg} (h : slot.Sized) (p : Produce) (seqNo : UInt32) :
    (p.fill seqNo slot).Sized := by
  have hlen : (strcpy slot.msg p.text).length = msgBufLen := by
    rw [length_strcpy (h.msg ▸ p.length_text), h.msg]
  cases p <;> exact ⟨h.timestamp, hlen⟩

/-! ### The messages of a run -/

namespace Traffic

/-- The producers of a run, in order. -/
def producers (es : List OutboxEvent) : List Produce :=
  es.filterMap fun
    | .produce p => some p
    | .take => none

/-- The published messages are the producers' fills of some earlier slot
contents, and every slot keeps the lengths of its arrays. -/
structure Written [ByteOrder] (ps : List Produce) (t : Traffic) : Prop where
  sized : ∀ i, (t.box.sMsg i).Sized
  filled : List.Forall₂ (fun p m => ∃ seqNo slot, slot.Sized ∧ m = p.fill seqNo slot) ps t.published

theorem written_initial [ByteOrder] : Written [] initial where
  sized _ := PeerMsg.sized_zero
  filled := .nil

theorem written_step [ByteOrder] {es : List OutboxEvent} {t t' : Traffic} {e : OutboxEvent}
    (h : Written (producers es) t) (hs : step t e = some t') : Written (producers (es ++ [e])) t' := by
  cases e with
  | produce p =>
    obtain ⟨b, hb, rfl⟩ := Option.map_eq_some_iff.mp hs
    have hcells := Produce.run_fill hb
    have hslot := (h.sized t.box.sMsgsIn).fill p (p.counter t.box + 1)
    refine ⟨fun i => ?_, ?_⟩
    · show (b.sMsg i).Sized
      rw [hcells]
      by_cases hi : i = t.box.sMsgsIn
      · rw [hi, Function.update_self]
        exact hslot
      · rw [Function.update_of_ne hi]
        exact h.sized i
    · have hlast : producers (es ++ [.produce p]) = producers es ++ [p] := by simp [producers]
      rw [hlast]
      have hnew : b.sMsg t.box.sMsgsIn =
          p.fill (p.counter t.box + 1) (t.box.sMsg t.box.sMsgsIn) := by
        rw [hcells, Function.update_self]
      exact List.rel_append h.filled (.cons ⟨_, _, h.sized t.box.sMsgsIn, hnew⟩ .nil)
  | take =>
    obtain ⟨⟨m, b⟩, hb, rfl⟩ := Option.map_eq_some_iff.mp hs
    obtain ⟨-, hring, -⟩ := Outbox.take_eq hb
    have hcells : b.sMsg = t.box.sMsg := congrArg Ring.cells hring
    have hlast : producers (es ++ [.take]) = producers es := by simp [producers]
    refine ⟨fun i => ?_, ?_⟩
    · show (b.sMsg i).Sized
      rw [hcells]
      exact h.sized i
    · rw [hlast]
      exact h.filled

theorem run_written [ByteOrder] {es : List OutboxEvent} {t : Traffic} (h : Runs.run step initial es = some t) :
    Written (producers es) t :=
  Runs.history_inv (P := fun es t => Written (producers es) t) written_initial
    (fun _ _ _ _ _ hw hs => written_step hw hs) h

/-- The `n`-th message taken is a slot as the `n`-th producer has filled it. -/
theorem taken_fill [ByteOrder] {es : List OutboxEvent} {t : Traffic} (h : Runs.run step initial es = some t)
    {n : ℕ} {p : Produce} {m : PeerMsg} (hp : (producers es)[n]? = some p) (hm : t.taken[n]? = some m) :
    ∃ seqNo slot, slot.Sized ∧ m = p.fill seqNo slot := by
  obtain ⟨rest, hrest⟩ := (traffic_fifo h).fifo.isPrefix
  have hpub : t.published[n]? = some m := by
    rw [← hrest, List.getElem?_append_left (List.getElem?_eq_some_iff.mp hm).1, hm]
  have hfilled := (run_written h).filled
  obtain ⟨hn, rfl⟩ := List.getElem?_eq_some_iff.mp hp
  obtain ⟨hn', rfl⟩ := List.getElem?_eq_some_iff.mp hpub
  exact (List.forall₂_iff_get.mp hfilled).2 n hn hn'

end Traffic
end TuningMod

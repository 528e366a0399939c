/-
# From the producers to the handlers of the sources

A destination's handlers put their messages into the ring, the sender takes
them out, opens a connection to the source of each and writes the message, and
the source handles the connection in a child process. Put together over a whole
run: what the sources act on are the events of the producers, in the order the
producers went through the ring, each once, each at the source it names and with
the values it was made with. Left out are exactly the messages with the source
0.0.0.0 and those whose connection cannot be made.

A connection here carries the whole message and ends after it. How the bytes are
cut, the rest of the slot and the padding do not matter.

Key definitions: `Produce.source`, `Produce.request`, `connections`, `Reaches`.
Key theorems: `send_fill`, `peer_sessions`.
-/
import TuningMod.Leftovers

namespace TuningMod

/-! ### What a producer asks for -/

/-- The address of the source, as the message has it. -/
def Produce.source : Produce → UInt32
  | qOCCHopTimerIDHandler d => d.srcIpAddr
  | sendResetCleanUpPacingMsg a => a
  | sendResetPacingMsg k => ntohl k.flowKey.srcIp
  | qOCCTimerIDHandler d => d.srcIpAddr
  | startOfTraffic k => ntohl k.flowKey.srcIp

/-- What the source is to do. -/
def Produce.request : Produce → PeerRequest
  | qOCCHopTimerIDHandler d => .qinfo d.vQinfo d.vHopDelay d.srcIpAddr d.dstIpAddr
  | sendResetCleanUpPacingMsg a => .cleanupResetPacing a
  | sendResetPacingMsg k => .resetPacing (ntohl k.flowKey.srcIp) (ntohl k.flowKey.dstIp)
  | qOCCTimerIDHandler d => .qinfo d.vQinfo 0 d.srcIpAddr d.dstIpAddr
  | startOfTraffic k => .test (ntohl k.flowKey.srcIp) (ntohl k.flowKey.dstIp)

section Fill

variable {p : Produce} {q : UInt32} {slot : PeerMsg}

@[simp] theorem srcIpAddr_fill : (p.fill q slot).srcIpAddr = p.source := by cases p <;> rfl

/-- Sent and decoded, the filled slot is the producer's request. -/
theorem peerRequest_sent_fill : peerRequest (p.fill q slot).sent = p.request := by
  have hreset : resetPacingMsg ≠ qinfoMsg := by decide
  have htest : testMsg ≠ qinfoMsg ∧ testMsg ≠ resetPacingMsg := by decide
  have hcleanup : cleanupResetPacingMsg ≠ qinfoMsg ∧ cleanupResetPacingMsg ≠ resetPacingMsg ∧
      cleanupResetPacingMsg ≠ testMsg := by decide
  cases p with
  | qOCCHopTimerIDHandler d => simp [peerRequest, Produce.fill, PeerMsg.sent, Produce.request]
  | sendResetCleanUpPacingMsg a => simp [peerRequest, Produce.fill, PeerMsg.sent, Produce.request, hcleanup]
  | sendResetPacingMsg k => simp [peerRequest, Produce.fill, PeerMsg.sent, Produce.request, hreset]
  | qOCCTimerIDHandler d => simp [peerRequest, Produce.fill, PeerMsg.sent, Produce.request]
  | startOfTraffic k => simp [peerRequest, Produce.fill, PeerMsg.sent, Produce.request, htest]

/-- The sender's connection for a filled slot. -/
theorem send_fill (connect : UInt32 → Bool) : fDoRunSendMessageToPeerSend connect (p.fill q slot) =
    if p.source ≠ 0 ∧ connect p.source = true then some (p.source, (p.fill q slot).sent) else none := by
  rw [fDoRunSendMessageToPeerSend, srcIpAddr_fill]
  by_cases hzero : p.source = 0
  · rw [if_neg (not_not.mpr hzero), if_neg fun h => h.1 hzero]
  · rw [if_pos hzero, inetPton_ipText]
    by_cases hconn : connect p.source = true
    · rw [if_pos ⟨hzero, hconn⟩]
      simp [hconn, PeerMsg.sent]
    · rw [if_neg fun h => hconn h.2]
      simp [hconn]

end Fill

/-! ### The connections of a run -/

/-- `connect n a` says whether the `n`-th message gets its connection to `a`. -/
def sendTaken (connect : ℕ → UInt32 → Bool) (mn : PeerMsg × ℕ) : Option (UInt32 × PeerMsg) :=
  fDoRunSendMessageToPeerSend (connect mn.2) mn.1

/-- The connections the sender makes for the messages it takes: the address, and
the struct it writes. -/
def connections (connect : ℕ → UInt32 → Bool) (taken : List PeerMsg) : List (UInt32 × PeerMsg) :=
  taken.zipIdx.filterMap (sendTaken connect)

/-- The message of the `n`-th producer gets to its source. -/
def Reaches (connect : ℕ → UInt32 → Bool) (pn : Produce × ℕ) : Bool :=
  pn.1.source ≠ 0 && connect pn.2 pn.1.source

/-- A connection that carries the struct and ends after it. -/
def Carries (w : UInt32 × PeerMsg) (c : Conn) : Prop :=
  (∃ padding, c.stream = w.2.toBytes padding) ∧ c.tail 0 = .eof

section Sessions

variable {connect : ℕ → UInt32 → Bool} {ps : List Produce} {ms : List PeerMsg}

/-- Every message is a slot its producer has filled. -/
def FilledBy (ps : List Produce) (ms : List PeerMsg) : Prop :=
  List.Forall₂ (fun p m => ∃ seqNo slot, slot.Sized ∧ m = Produce.fill seqNo slot p) ps ms

/-- The connections are those of the messages that reach their source. -/
theorem connections_filled (h : FilledBy ps ms) (k : ℕ) :
    List.Forall₂ (fun pn w => ∃ seqNo slot, slot.Sized ∧ w = (pn.1.source, (Produce.fill seqNo slot pn.1).sent))
      ((ps.zipIdx k).filter (Reaches connect))
      ((ms.zipIdx k).filterMap (sendTaken connect)) := by
  induction h generalizing k with
  | nil => exact .nil
  | @cons p m ps ms hm _ ih =>
    obtain ⟨seqNo, slot, hsized, rfl⟩ := hm
    have hsend : sendTaken connect (Produce.fill seqNo slot p, k) = _ := send_fill (connect k)
    rw [List.zipIdx_cons, List.zipIdx_cons]
    by_cases hr : p.source ≠ 0 ∧ connect k p.source = true
    · rw [if_pos hr] at hsend
      rw [List.filter_cons_of_pos (by simpa [Reaches] using hr), List.filterMap_cons_some hsend]
      exact .cons ⟨seqNo, slot, hsized, rfl⟩ (ih (k + 1))
    · rw [if_neg hr] at hsend
      rw [List.filter_cons_of_neg (by simpa [Reaches] using hr), List.filterMap_cons_none hsend]
      exact ih (k + 1)

theorem filledBy_taken {es : List OutboxEvent} {u : Traffic} (h : Runs.run Traffic.step Traffic.initial es = some u) :
    FilledBy ((Traffic.producers es).take u.taken.length) u.taken := by
  have hle : u.taken.length ≤ (Traffic.producers es).length := by
    rw [(Traffic.run_written h).filled.length_eq]
    exact (Traffic.traffic_fifo h).fifo.isPrefix.length_le
  refine List.forall₂_iff_get.mpr ⟨by rw [List.length_take, Nat.min_eq_left hle], fun n hn hn' => ?_⟩
  rw [List.length_take, Nat.min_eq_left hle] at hn
  refine Traffic.taken_fill h ?_ (List.getElem?_eq_getElem hn')
  rw [List.get_eq_getElem, List.getElem_take]
  exact List.getElem?_eq_getElem (by omega)

/-- What the children do on connections that carry the structs of producers. -/
theorem requests_carried {pns : List (Produce × ℕ)} {ws : List (UInt32 × PeerMsg)} {cs : List Conn}
    (hw : List.Forall₂ (fun pn w => ∃ seqNo slot, slot.Sized ∧ w = (pn.1.source, (Produce.fill seqNo slot pn.1).sent))
      pns ws)
    (hc : List.Forall₂ Carries ws cs) (fromCli : Vector UInt8 sizeofPeerMsg) :
    ws.map Prod.fst = pns.map (fun pn => pn.1.source) ∧
      ∃ fuel, ∀ more ≥ fuel, cs.map (fun c => processRequest more c fromCli) = pns.map fun pn => [pn.1.request] := by
  induction hw generalizing cs with
  | nil =>
    cases hc
    exact ⟨rfl, 0, fun _ _ => rfl⟩
  | @cons pn w pns ws hpn _ ih =>
    cases hc with
    | @cons _ c _ cs hcarry hrest =>
      obtain ⟨seqNo, slot, hsized, rfl⟩ := hpn
      obtain ⟨⟨padding, hstream⟩, heof⟩ := hcarry
      obtain ⟨hsources, fuel, hfuel⟩ := ih hrest
      have hfill := hsized.fill pn.1 seqNo
      have hsent : (Produce.fill seqNo slot pn.1).sent.Sized := ⟨hfill.timestamp, hfill.msg⟩
      obtain ⟨fuel', hfuel'⟩ : ∃ fuel', ∀ more ≥ fuel', processRequest more c fromCli = [peerRequest _] :=
        processRequest_single hsent hstream heof
      refine ⟨by rw [List.map_cons, List.map_cons, hsources], max fuel fuel', fun more hmore => ?_⟩
      rw [List.map_cons, List.map_cons, hfuel' more (le_trans (le_max_right _ _) hmore),
        hfuel more (le_trans (le_max_left _ _) hmore), peerRequest_sent_fill]

end Sessions

/-- **From the producers to the sources' handlers.** In every run of the ring:
the sender's connections go, in the order of the producers, to the sources of
the messages that reach one; and the child process for each of them acts once,
on what the producer asked for. -/
theorem peer_sessions {es : List OutboxEvent} {u : Traffic} (h : Runs.run Traffic.step Traffic.initial es = some u)
    {connect : ℕ → UInt32 → Bool} {cs : List Conn} (hc : List.Forall₂ Carries (connections connect u.taken) cs)
    (fromCli : Vector UInt8 sizeofPeerMsg) :
    let reached := ((Traffic.producers es).take u.taken.length).zipIdx.filter (Reaches connect)
    (connections connect u.taken).map Prod.fst = reached.map (fun pn => pn.1.source) ∧
      ∃ fuel, ∀ more ≥ fuel,
        cs.map (fun c => processRequest more c fromCli) = reached.map fun pn => [pn.1.request] :=
  requests_carried (connections_filled (filledBy_taken h) 0) hc fromCli

/-- A congestion message is sent while a message without a source waits, and is left out. -/
def twoMessages : List OutboxEvent :=
  [.produce (.qOCCTimerIDHandler { srcIpAddr := 0x0100000a, dstIpAddr := 0x0200000a, vQinfo := 7 }),
    .produce (.sendResetCleanUpPacingMsg 0), .take, .produce (.sendResetCleanUpPacingMsg 0x0100000a), .take, .take]

/-- A connection on which the struct comes at once. -/
def carrying (m : PeerMsg) : Conn where
  chunks := if h : m.toBytes (.replicate 4 0) = [] then [] else [.data ⟨_, h⟩]
  tail := fun _ => .eof

theorem carries_carrying (a : UInt32) (m : PeerMsg) : Carries (a, m) (carrying m) := by
  refine ⟨⟨.replicate 4 0, ?_⟩, rfl⟩
  unfold carrying Conn.stream
  split
  · next h => rw [h, List.flatMap_nil]
  · rw [List.flatMap_singleton]
    rfl

theorem peer_sessions_two : ∃ u, Runs.run Traffic.step Traffic.initial twoMessages = some u ∧
    ∃ fuel, ∀ more ≥ fuel, ((connections (fun _ _ => true) u.taken).map fun w => carrying w.2).map
        (fun c => processRequest more c (.replicate _ 0)) =
      [[.qinfo 7 0 0x0100000a 0x0200000a], [.cleanupResetPacing 0x0100000a]] := by
  have hrun : ∃ u, Runs.run Traffic.step Traffic.initial twoMessages = some u := ⟨_, rfl⟩
  obtain ⟨u, hu⟩ := hrun
  have hcarry : List.Forall₂ Carries (connections (fun _ _ => true) u.taken)
      ((connections (fun _ _ => true) u.taken).map fun w => carrying w.2) :=
    List.forall₂_map_right_iff.mpr (List.forall₂_same.mpr fun w _ => carries_carrying w.1 w.2)
  have htaken : u.taken.length = 3 := by
    cases hu
    rfl
  obtain ⟨-, fuel, hfuel⟩ := peer_sessions hu hcarry (.replicate _ 0)
  refine ⟨u, hu, fuel, fun more hmore => ?_⟩
  rw [hfuel more hmore, htaken]
  rfl

end TuningMod

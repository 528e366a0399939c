/-
# A session of a monitoring client

On the connection of a client that has sent START and READALL the daemon's
thread writes the answer to START and then, for each publication it takes, one
or two readings, each a `struct PeerMsg` made in a local variable. The client
reads them one by one and shows what they say. Between the two the bytes are
cut as the calls of `write` and `read` happen to cut them, and the connection
may break.

What the client shows are the readings its thread has taken, in order, each
once and with the values it was taken with, up to some point; it is all of them
if everything was written and the connection ends with an end of file. With the
invariant of the readings it follows that a client shows hop records that
happened. What the client makes of an incomplete record at the end is left out
here.

Key definitions: `Reading.reply`, `Hpn.readingsOf`, `HpnAnswers`, `clientLines`.
Key theorems: `requestLoop_take`, `requests_of_client`, `session_shown`, `session_real`.
-/
import TuningMod.HpnReadings
import TuningMod.Leftovers
import TuningMod.Lib.ShortWrites
import TuningMod.MonitorClient

namespace TuningMod

/-! ### The daemon's messages -/

/-- `fDoHpnStart`: the message is cleared first. -/
def fDoHpnStartMsg : PeerMsg :=
  { msg := strcpy (List.replicate msgBufLen 0) "Hello there!!! Got your start message...\n"
    msgNo := htonl hpnsshMsg
    value := htonl 199 }

/-- What `fDoHpnReadAll` makes of a reading, in a variable that holds `left`. -/
def Reading.reply (r : Reading) (seqNo : UInt32) (left : PeerMsg) : PeerMsg :=
  { left with
    msg := strcpy left.msg readAllText
    msgNo := htonl hpnsshMsg
    value := htonl hpnsshReadAllFs
    timestamp := r.timestamp.val
    hopLatency := htonl r.values.hopLatency.val
    queueOccupancy := htonl r.values.queueOccupancy.val
    switchId := htonl r.values.switchId.val
    seqNo := htonl seqNo }

/-- The same message as that of a time printed into the array. -/
theorem fDoHpnReadAllMsg_eq (r : Reply) (seqNo : UInt32) (m : Memory) : fDoHpnReadAllMsg r seqNo m =
    Reading.reply ⟨⟨printed m.msCtimeBuf.toList r.time.1, none⟩,
      ⟨r.hopLatency, none⟩, ⟨r.queueOccupancy, none⟩, ⟨r.switchId, none⟩⟩ seqNo m.msg := rfl

/-- The readings that the thread of a READALL client has taken. -/
def Hpn.readingsOf (s : Hpn) (client : ℕ) : List Reading :=
  (s.delivered.filter fun d => d.client = client ∧ d.readAll).flatMap HpnDelivery.readings

/-- The records written for the readings: the numbers, what the variables held
and the padding are whatever they are. -/
def HpnAnswers (readings : List Reading) (answers : List (List UInt8)) : Prop :=
  List.Forall₂ (fun r bytes => ∃ seqNo left padding, left.Sized ∧ bytes = (r.reply seqNo left).toBytes padding)
    readings answers

/-! ### What the client shows -/

/-- What is printed of a message: the time up to its terminator, and the numbers. -/
structure ShownReading where
  timestamp : List UInt8
  switchId : UInt32
  queueOccupancy : UInt32
  hopLatency : UInt32
  deriving DecidableEq, Repr

def PeerMsg.shown (m : PeerMsg) : ShownReading where
  timestamp := m.timestamp.takeWhile (· ≠ 0)
  switchId := ntohl m.switchId
  queueOccupancy := ntohl m.queueOccupancy
  hopLatency := ntohl m.hopLatency

def Reading.shown (r : Reading) : ShownReading where
  timestamp := r.timestamp.val.takeWhile (· ≠ 0)
  switchId := r.values.switchId.val
  queueOccupancy := r.values.queueOccupancy.val
  hopLatency := r.values.hopLatency.val

inductive ClientLine where
  | read (r : ShownReading)
  | readAll (r : ShownReading)
  | timeout (r : ShownReading)
  | invalidValue (val : UInt32)
  | invalidMessage (seqNo : UInt32)
  deriving DecidableEq, Repr

/-- The four functions of the client for a message with a value, which print
the reading above debug level 0, or 1. -/
def fDoHpnFromServer (vDebugLevel : ℕ) (fromServer : PeerMsg) : List ClientLine :=
  let val := ntohl fromServer.value
  if val = hpnsshReadFs then if vDebugLevel > 0 then [.read fromServer.shown] else []
  else if val = hpnsshReadAllFs then if vDebugLevel > 0 then [.readAll fromServer.shown] else []
  else if val = 199 then []
  else if val = 166 then if vDebugLevel > 1 then [.timeout fromServer.shown] else []
  else [.invalidValue val]

/-- What `process_request_fs` and `process_request_fs2` print for a message. -/
def clientAct (vDebugLevel : ℕ) (fromCli : PeerMsg) : List ClientLine :=
  if ntohl fromCli.msgNo = hpnsshMsg then fDoHpnFromServer vDebugLevel fromCli
  else [.invalidMessage (ntohl fromCli.seqNo)]

/-- The client on its connection until SIGINT: `process_request_fs`, and
`fuel` rounds of the loop of `process_request_fs2`, with their uninitialised
buffers. -/
def clientLines (vDebugLevel fuel : ℕ) (c : Conn) (stack stack2 : Vector UInt8 sizeofPeerMsg) : List ClientLine :=
  let (n, fromCli, c) := readn c sizeofPeerMsg stack.toList
  (if n = 0 then [] else clientAct vDebugLevel (.ofBytes fromCli)) ++
    (requestLoop (fun _ => true) fuel c stack2.toList).flatMap fun r => clientAct vDebugLevel (.ofBytes r)

/-! ### Reading the complete records -/

section Records

variable {c : Conn} {buf : List UInt8} {returns : ℕ → Bool}

/-- As many rounds as there are complete records act on the records in order,
if the actions before the last come back. -/
theorem requestLoop_take : ∀ (fuel : ℕ) {c : Conn} {buf : List UInt8} {returns : ℕ → Bool},
    buf.length = sizeofPeerMsg → fuel ≤ c.stream.length / sizeofPeerMsg →
      (∀ i, i + 1 < fuel → returns i = true) →
        requestLoop returns fuel c buf = (records sizeofPeerMsg c.stream).take fuel
  | 0, _, _, _, _, _, _ => rfl
  | fuel + 1, c, buf, returns, hbuf, hfuel, hret => by
    have hle : sizeofPeerMsg ≤ c.stream.length := by
      unfold sizeofPeerMsg at hfuel ⊢
      omega
    obtain ⟨c', hstream, -, hround⟩ := @requestLoop_record returns c buf hle hbuf
    have hlen : (c.stream.take sizeofPeerMsg).length = sizeofPeerMsg := List.length_take_of_le hle
    rw [hround, Records.records_of_le (by decide) hle, List.take_succ_cons, ← hstream]
    congr 1
    have hfuel' : fuel ≤ c'.stream.length / sizeofPeerMsg := by
      rw [hstream, List.length_drop]
      unfold sizeofPeerMsg at hfuel hle ⊢
      omega
    cases fuel with
    | zero =>
      rw [List.take_zero]
      split <;> rfl
    | succ fuel =>
      rw [if_pos (hret 0 (by omega))]
      exact requestLoop_take (fuel + 1) hlen hfuel' fun i hi => hret (i + 1) (by omega)

/-- The messages whose records have come whole, of those written to a connection. -/
theorem records_stream {calls : List ShortWrites.Call} {ms : List (List UInt8)}
    (hms : ∀ m ∈ ms, m.length = sizeofPeerMsg) (hc : c.stream = ShortWrites.stream calls ms) :
    records sizeofPeerMsg c.stream = ms.take (c.stream.length / sizeofPeerMsg) := by
  rw [hc]
  exact ShortWrites.records_isPrefix (by decide) hms (ShortWrites.stream_isPrefix ms calls)

end Records

/-! ### What the daemon is asked -/

/-- **The daemon is asked for all readings.** Whatever the client's run was and
however its bytes are cut, the daemon's thread acts on START first and then on
READALL only, as far as records have come whole and the actions come back. -/
theorem requests_of_client {es : List ClientEvent} {k : MonitorClient} (h : Runs.run MonitorClient.step {} es = some k)
    {wire : List (List UInt8)}
    (hw : List.Forall₂ (fun m bytes => ∃ padding, bytes = PeerMsg.toBytes m padding) k.sent wire)
    {calls : List ShortWrites.Call} {c : Conn} (hc : c.stream = ShortWrites.stream calls wire)
    {fuel : ℕ} (hfuel : fuel ≤ c.stream.length / sizeofPeerMsg) {returns : ℕ → Bool}
    (hret : ∀ i, i + 1 < fuel → returns i = true) (fromCli : Vector UInt8 sizeofPeerMsg) :
    doProcessHpnClientReq returns fuel c fromCli =
      (List.range fuel).map fun i => if i = 0 then .start else .readAll := by
  have hinv : MonitorClient.Inv es k :=
    Runs.history_inv MonitorClient.inv_initial (fun _ _ _ _ _ hi hs => MonitorClient.inv_step hi hs) h
  have hget : ∀ (i : ℕ) (bytes : List UInt8), wire[i]? = some bytes →
      bytes.length = sizeofPeerMsg ∧ hpnRequest (.ofBytes bytes) = if i = 0 then .start else .readAll := by
    intro i bytes hi
    have hlt : i < k.sent.length := by
      rw [hw.length_eq]
      exact (List.getElem?_eq_some_iff.mp hi).1
    obtain ⟨padding, hbytes⟩ := (List.forall₂_iff_get.mp hw).2 i hlt (List.getElem?_eq_some_iff.mp hi).1
    obtain ⟨hlt', hi⟩ := List.getElem?_eq_some_iff.mp hi
    have hm := hinv.sent i (k.sent.get ⟨i, hlt⟩) (List.getElem?_eq_getElem hlt)
    have heq : bytes = (k.sent.get ⟨i, hlt⟩).toBytes padding := hi.symm.trans hbytes
    rw [heq]
    exact ⟨length_toBytes hm.sized, by rw [ofBytes_toBytes hm.sized, hm.request]⟩
  have hlen : ∀ bytes ∈ wire, bytes.length = sizeofPeerMsg := fun bytes hb => by
    obtain ⟨i, hi⟩ := List.getElem?_of_mem hb
    exact (hget i bytes hi).1
  rw [doProcessHpnClientReq, requestLoop_take fuel Vector.length_toList hfuel hret, records_stream hlen hc,
    List.take_take, Nat.min_eq_left hfuel]
  have hcount : fuel ≤ wire.length := by
    have hrecords := congrArg List.length (records_stream hlen hc)
    rw [records, List.length_map, List.length_range, List.length_take] at hrecords
    omega
  refine List.ext_getElem? fun i => ?_
  rcases Nat.lt_or_ge i fuel with hi | hi
  · have hsome : wire[i]? = some (wire.get ⟨i, by omega⟩) := List.getElem?_eq_getElem _
    rw [List.getElem?_map, List.getElem?_take_of_lt hi, hsome, Option.map_some, (hget i _ hsome).2,
      List.getElem?_map, List.getElem?_range hi, Option.map_some]
  · rw [List.getElem?_eq_none (by rw [List.length_map, List.length_take]; omega),
      List.getElem?_eq_none (by rw [List.length_map, List.length_range]; omega)]

/-- The first message goes out in two pieces, with a signal between them. -/
def cutCalls : List ShortWrites.Call :=
  [.takes ⟨100, by decide⟩, .interrupted, .takes ⟨200, by decide⟩, .takes ⟨184, by decide⟩, .takes ⟨184, by decide⟩]

/-- The bytes of a client that has sent START and one READALL. -/
def twoRequests : List UInt8 :=
  (((Runs.run MonitorClient.step {} [.round false, .returned, .round false]).map MonitorClient.sent).getD []).flatMap
    fun m => m.toBytes (.replicate 4 0)

theorem requests_of_client_two :
    doProcessHpnClientReq (fun i => i = 0) 2 ⟨[.data ⟨twoRequests, by decide +kernel⟩], fun _ => .eof⟩
        (.replicate _ 0) =
      (List.range 2).map fun i => if i = 0 then .start else .readAll := by
  have hrun : Runs.run MonitorClient.step {} [.round false, .returned, .round false] = some _ := rfl
  refine requests_of_client hrun (.cons ⟨.replicate 4 0, rfl⟩ (.cons ⟨.replicate 4 0, rfl⟩ .nil))
    (show _ = ShortWrites.stream cutCalls _ from ?_) (by decide +kernel) ?_ _
  · decide +kernel
  · intro i hi
    obtain rfl : i = 0 := by omega
    rfl

/-! ### What the client is shown -/

/-- The array that the time of a hop record is printed to. -/
def HpnEvent.TimeSized : HpnEvent → Prop
  | .hop _ _ msCtimeBuf => msCtimeBuf.length = msCtimeBufLen
  | _ => True

def Reading.TimeSized (r : Reading) : Prop := r.timestamp.val.length = msCtimeBufLen

namespace Hpn

/-- All times are arrays of the same length. -/
structure TimesSized (s : Hpn) : Prop where
  min : s.min.reading.TimeSized
  max : s.max.reading.TimeSized
  first : s.sHpnRetMsg.TimeSized
  delivered : ∀ d ∈ s.delivered, ∀ r ∈ d.readings, r.TimeSized

variable {s s' : Hpn} {e : HpnEvent}

theorem timesSized_initial : TimesSized {} where
  min := rfl
  max := rfl
  first := rfl
  delivered _ h := by cases h

theorem TimesSized.extreme (h : TimesSized s) : ∀ side, (s.extreme side).reading.TimeSized
  | .min => h.min
  | .max => h.max

theorem TimesSized.readings (h : TimesSized s) {r : Reading}
    (hr : r ∈ s.fDoHpnReadReadings ∨ r ∈ s.fDoHpnReadAllReadings) : r.TimeSized := by
  rcases mem_readings hr with rfl | ⟨side, -, rfl⟩
  · exact h.first
  · exact h.extreme side

theorem TimesSized.publish (h : TimesSized s) : TimesSized s.publish := by
  rcases publish_cases s with ⟨-, heq⟩ | ⟨-, first, side, heq⟩ | ⟨side, -, heq⟩
  · rw [heq]
    exact h
  · rw [heq]
    exact { h with first := h.extreme first }
  · rw [heq]
    exact { h with first := h.extreme side }

theorem TimesSized.deliver (h : TimesSized s) {client : ℕ} {all : Bool} {readings : List Reading}
    (hr : ∀ r ∈ readings, r.TimeSized) : TimesSized (s.deliver client all readings) where
  min := h.min
  max := h.max
  first := h.first
  delivered d hd r hmem := by
    rcases List.mem_append.mp hd with hd | hd
    · exact h.delivered d hd r hmem
    · rw [List.mem_singleton.mp hd] at hmem
      exact hr r hmem

theorem timesSized_step (h : TimesSized s) (he : e.TimeSized) (hs : s.step e = some s') : TimesSized s' := by
  cases e with
  | hop md clk msCtimeBuf =>
    obtain rfl := Option.some.inj hs
    refine ⟨?_, ?_, h.first, h.delivered⟩
    · show (if _ then Extreme.ofRecord _ _ else s.min).reading.TimeSized
      split
      · exact he
      · exact h.min
    · show (if _ then Extreme.ofRecord _ _ else s.max).reading.TimeSized
      split
      · exact he
      · exact h.max
  | pollReturns ok =>
    obtain rfl := Option.some.inj hs
    have hpub : TimesSized (if ok then s.publish else s) := by
      split
      · exact h.publish
      · exact h
    exact { hpub with }
  | read client =>
    obtain ⟨-, rfl⟩ := step_read hs
    exact h.deliver fun r hr => h.readings (Or.inl hr)
  | readAll client =>
    obtain ⟨-, -, rfl⟩ := step_readAll hs
    exact h.deliver fun r hr => h.readings (Or.inr hr)
  | connect client =>
    obtain rfl := step_connect hs
    exact { h with }
  | disconnect client =>
    obtain rfl := step_disconnect hs
    exact { h with }

theorem run_timesSized {es : List HpnEvent} (hr : Runs.run step {} es = some s) (hes : ∀ e ∈ es, e.TimeSized) :
    TimesSized s := by
  refine (Runs.always_of_steps (I := fun _ => TimesSized) (C := fun _ _ e => e.TimeSized) timesSized_initial
    (fun _ _ _ _ _ h he hs => timesSized_step h he hs) ?_).last hr
  intro pre e suf _ _ heq _ _
  exact hes e (by rw [heq]; simp)

theorem timeSized_readingsOf (h : TimesSized s) {client : ℕ} : ∀ r ∈ s.readingsOf client, r.TimeSized := by
  intro r hr
  obtain ⟨d, hd, hmem⟩ := List.mem_flatMap.mp hr
  exact h.delivered d (List.mem_of_mem_filter hd) r hmem

end Hpn

section Shown

variable {r : Reading} {left : PeerMsg} {seqNo : UInt32} {vDebugLevel : ℕ}

theorem sized_reply (h : r.TimeSized) (hleft : left.Sized) : (r.reply seqNo left).Sized where
  timestamp := h
  msg := by
    have hlt : readAllText.length < left.msg.length := by
      rw [hleft.msg]
      decide +kernel
    exact (length_strcpy hlt).trans hleft.msg

/-- Of a reading's message the client shows the reading. -/
theorem clientAct_reply (h : 0 < vDebugLevel) : clientAct vDebugLevel (r.reply seqNo left) = [.readAll r.shown] := by
  have hno : ntohl (r.reply seqNo left).msgNo = hpnsshMsg := ntohl_htonl _
  have hvalue : ntohl (r.reply seqNo left).value = hpnsshReadAllFs := ntohl_htonl _
  have hother : hpnsshReadAllFs ≠ hpnsshReadFs := by decide
  have hshown : (r.reply seqNo left).shown = r.shown := by
    simp [PeerMsg.shown, Reading.shown, Reading.reply]
  rw [clientAct, if_pos hno, fDoHpnFromServer, hvalue]
  simp only [if_neg hother, if_true, if_pos h, hshown]

/-- The answer to START is not shown. -/
theorem clientAct_start : clientAct vDebugLevel fDoHpnStartMsg = [] := by
  have hno : ntohl fDoHpnStartMsg.msgNo = hpnsshMsg := ntohl_htonl _
  have hvalue : ntohl fDoHpnStartMsg.value = 199 := ntohl_htonl _
  rw [clientAct, if_pos hno, fDoHpnFromServer, hvalue]
  rfl

theorem length_answers {readings : List Reading} {answers : List (List UInt8)} (ha : HpnAnswers readings answers)
    (hsized : ∀ r ∈ readings, r.TimeSized) : ∀ bytes ∈ answers, bytes.length = sizeofPeerMsg := by
  induction ha with
  | nil =>
    intro bytes hb
    cases hb
  | @cons r bytes readings answers hr _ ih =>
    obtain ⟨seqNo, left, padding, hleft, rfl⟩ := hr
    intro bytes' hb
    rcases List.mem_cons.mp hb with rfl | hb
    · exact length_toBytes (sized_reply (hsized r List.mem_cons_self) hleft)
    · exact ih (fun r hr => hsized r (List.mem_cons_of_mem _ hr)) bytes' hb

/-- Of the first answers the client shows the first readings. -/
theorem shown_answers {readings : List Reading} {answers : List (List UInt8)} (ha : HpnAnswers readings answers)
    (hsized : ∀ r ∈ readings, r.TimeSized) (hlevel : 0 < vDebugLevel) (n : ℕ) :
    ((answers.take n).flatMap fun bytes => clientAct vDebugLevel (.ofBytes bytes)) =
      (readings.take n).map fun r => .readAll r.shown := by
  induction ha generalizing n with
  | nil => simp
  | @cons r bytes readings answers hr _ ih =>
    obtain ⟨seqNo, left, padding, hleft, rfl⟩ := hr
    cases n with
    | zero => rfl
    | succ n =>
      rw [List.take_succ_cons, List.take_succ_cons, List.flatMap_cons, List.map_cons,
        ofBytes_toBytes (sized_reply (hsized r List.mem_cons_self) hleft), clientAct_reply hlevel,
        ih fun r hr => hsized r (List.mem_cons_of_mem _ hr)]
      rfl

end Shown

section Session

variable {s : Hpn} {es : List HpnEvent} {client : ℕ} {answers : List (List UInt8)} {padding : Vector UInt8 4}
  {calls : List ShortWrites.Call} {c : Conn} {vDebugLevel : ℕ} {stack stack2 : Vector UInt8 sizeofPeerMsg}

theorem sized_fDoHpnStartMsg : fDoHpnStartMsg.Sized := ⟨rfl, by decide +kernel⟩

/-- The client reads the answer to START, and goes on with the records behind it. -/
theorem clientLines_eq (hsized : ∀ bytes ∈ answers, bytes.length = sizeofPeerMsg)
    (hc : c.stream = ShortWrites.stream calls (fDoHpnStartMsg.toBytes padding :: answers))
    (hle : sizeofPeerMsg ≤ c.stream.length) :
    ∃ c' : Conn, c'.stream = c.stream.drop sizeofPeerMsg ∧ c'.tail = c.tail ∧
      records sizeofPeerMsg c'.stream = answers.take (c.stream.length / sizeofPeerMsg - 1) ∧
      ∀ fuel, clientLines vDebugLevel fuel c stack stack2 =
        (requestLoop (fun _ => true) fuel c' stack2.toList).flatMap fun r => clientAct vDebugLevel (.ofBytes r) := by
  have hall : ∀ bytes ∈ fDoHpnStartMsg.toBytes padding :: answers, bytes.length = sizeofPeerMsg := by
    intro bytes hb
    rcases List.mem_cons.mp hb with rfl | hb
    · exact length_toBytes sized_fDoHpnStartMsg
    · exact hsized bytes hb
  have hrecords := records_stream hall hc
  obtain ⟨n, hn⟩ : ∃ n, c.stream.length / sizeofPeerMsg = n + 1 :=
    ⟨c.stream.length / sizeofPeerMsg - 1, by unfold sizeofPeerMsg at hle ⊢; omega⟩
  rw [Records.records_of_le (by decide) hle, hn, List.take_succ_cons, List.cons.injEq] at hrecords
  obtain ⟨c', hread, hstream, htail⟩ := readn_record hle stack.length_toList
  refine ⟨c', hstream, htail, ?_, fun fuel => ?_⟩
  · rw [hstream, hrecords.2, hn, Nat.add_sub_cancel]
  · rw [clientLines, hread]
    simp only
    rw [if_neg (by decide), hrecords.1, ofBytes_toBytes sized_fDoHpnStartMsg, clientAct_start, List.nil_append]

/-- The first rounds show the first readings. -/
theorem clientLines_take (hsized : ∀ r ∈ s.readingsOf client, r.TimeSized)
    (ha : HpnAnswers (s.readingsOf client) answers)
    (hc : c.stream = ShortWrites.stream calls (fDoHpnStartMsg.toBytes padding :: answers))
    (hlevel : 0 < vDebugLevel) {fuel : ℕ} (hfuel : fuel + 1 ≤ c.stream.length / sizeofPeerMsg) :
    clientLines vDebugLevel fuel c stack stack2 =
      ((s.readingsOf client).take fuel).map fun r => .readAll r.shown := by
  have hle : sizeofPeerMsg ≤ c.stream.length := by
    unfold sizeofPeerMsg at hfuel ⊢
    omega
  obtain ⟨c', hstream, -, hrecords, hlines⟩ := clientLines_eq (length_answers ha hsized) hc hle
  have hfuel' : fuel ≤ c'.stream.length / sizeofPeerMsg := by
    rw [hstream, List.length_drop]
    unfold sizeofPeerMsg at hfuel hle ⊢
    omega
  rw [hlines, requestLoop_take fuel Vector.length_toList hfuel' fun _ _ => rfl, hrecords, List.take_take,
    shown_answers ha hsized hlevel, Nat.min_eq_left (by omega)]

/-- A connection that ends behind the last answer shows all readings. -/
theorem clientLines_all (hsized : ∀ r ∈ s.readingsOf client, r.TimeSized)
    (ha : HpnAnswers (s.readingsOf client) answers)
    (hc : c.stream = ShortWrites.stream calls (fDoHpnStartMsg.toBytes padding :: answers))
    (hlevel : 0 < vDebugLevel) (hfull : c.stream.length = sizeofPeerMsg * (answers.length + 1))
    (heof : c.tail 0 = .eof) : ∃ fuel, ∀ more ≥ fuel, clientLines vDebugLevel more c stack stack2 =
      (s.readingsOf client).map fun r => .readAll r.shown := by
  have hle : sizeofPeerMsg ≤ c.stream.length := by
    rw [hfull]
    exact Nat.le_mul_of_pos_right _ (Nat.succ_pos _)
  obtain ⟨c', hstream, htail, hrecords, hlines⟩ := clientLines_eq (length_answers ha hsized) hc hle
  have hclean : EndsClean c' := by
    refine ⟨htail ▸ heof, ?_⟩
    rw [hstream, List.length_drop, hfull]
    exact ⟨answers.length, by rw [Nat.mul_succ, Nat.add_sub_cancel]⟩
  obtain ⟨fuel, hframes⟩ : Frames id (fun fuel => (requestLoop (fun _ => true) fuel c' stack2.toList).map fun r =>
      id (PeerMsg.ofBytes r)) c' := (frames_iff stack2.length_toList).mpr ⟨fun _ _ => rfl, Or.inl hclean⟩
  refine ⟨fuel, fun more hmore => ?_⟩
  have hcount : c.stream.length / sizeofPeerMsg - 1 = answers.length := by
    rw [hfull, Nat.mul_div_cancel_left _ (by decide), Nat.add_sub_cancel]
  have hall := hframes more hmore
  simp only [id] at hall
  calc clientLines vDebugLevel more c stack stack2
      = ((requestLoop (fun _ => true) more c' stack2.toList).map fun r => PeerMsg.ofBytes r).flatMap
          (clientAct vDebugLevel) := by rw [hlines, List.flatMap_map]
    _ = (records sizeofPeerMsg c'.stream).flatMap fun r => clientAct vDebugLevel (.ofBytes r) := by
        rw [hall, List.flatMap_map]
    _ = ((s.readingsOf client).take answers.length).map fun r => .readAll r.shown := by
        rw [hrecords, hcount, shown_answers ha hsized hlevel]
    _ = (s.readingsOf client).map fun r => .readAll r.shown := by
        rw [← ha.length_eq, List.take_length]

/-- **What a client is shown.** In whatever pieces the answers are written and
read: the first rounds, as many as records have come whole, show the first
readings the client's thread has taken, in order. If all was written and the
connection then ends, the client shows all readings and nothing else. -/
theorem session_shown (hr : Runs.run Hpn.step {} es = some s) (hes : ∀ e ∈ es, e.TimeSized)
    (ha : HpnAnswers (s.readingsOf client) answers)
    (hc : c.stream = ShortWrites.stream calls (fDoHpnStartMsg.toBytes padding :: answers))
    (hlevel : 0 < vDebugLevel) (stack stack2 : Vector UInt8 sizeofPeerMsg) :
    (∀ fuel, fuel + 1 ≤ c.stream.length / sizeofPeerMsg →
      clientLines vDebugLevel fuel c stack stack2 =
        ((s.readingsOf client).take fuel).map fun r => .readAll r.shown) ∧
    (c.stream.length = sizeofPeerMsg * (answers.length + 1) → c.tail 0 = .eof →
      ∃ fuel, ∀ more ≥ fuel, clientLines vDebugLevel more c stack stack2 =
        (s.readingsOf client).map fun r => .readAll r.shown) := by
  have hsized : ∀ r ∈ s.readingsOf client, r.TimeSized := Hpn.timeSized_readingsOf (Hpn.run_timesSized hr hes)
  exact ⟨fun _ hfuel => clientLines_take hsized ha hc hlevel hfuel,
    fun hfull heof => clientLines_all hsized ha hc hlevel hfull heof⟩

/-- The record that a hop event is, and what the client would show of it. -/
def HpnEvent.record? : HpnEvent → Option HopRecord
  | .hop md clk msCtimeBuf => some (.ofMetadata md clk msCtimeBuf)
  | _ => none

def HopRecord.shown (r : HopRecord) : ShownReading where
  timestamp := r.msCtimeBuf.takeWhile (· ≠ 0)
  switchId := r.switchId
  queueOccupancy := r.qinfo
  hopLatency := r.hopLatency

theorem Hpn.records_publish (s : Hpn) : s.publish.records = s.records := by
  rcases Hpn.publish_cases s with ⟨-, heq⟩ | ⟨-, first, side, heq⟩ | ⟨side, -, heq⟩ <;> rw [heq] <;> rfl

/-- The records are those of the hop events. -/
theorem Hpn.run_records (hr : Runs.run Hpn.step {} es = some s) :
    s.records.map Prod.snd = es.filterMap HpnEvent.record? := by
  refine Runs.history_inv (P := fun es s => s.records.map Prod.snd = es.filterMap HpnEvent.record?) rfl ?_ hr
  intro pre s e s' _ hi hs
  rw [List.filterMap_append, ← hi]
  cases e with
  | hop md clk msCtimeBuf =>
    obtain rfl := Option.some.inj hs
    exact List.map_append
  | pollReturns ok =>
    obtain rfl := Option.some.inj hs
    rw [List.filterMap_cons_none rfl, List.filterMap_nil, List.append_nil]
    show (if ok then s.publish else s).records.map Prod.snd = _
    split
    · rw [Hpn.records_publish]
    · rfl
  | read client =>
    obtain ⟨-, rfl⟩ := Hpn.step_read hs
    exact (List.append_nil _).symm
  | readAll client =>
    obtain ⟨-, -, rfl⟩ := Hpn.step_readAll hs
    exact (List.append_nil _).symm
  | connect client =>
    obtain rfl := Hpn.step_connect hs
    exact (List.append_nil _).symm
  | disconnect client =>
    obtain rfl := Hpn.step_disconnect hs
    exact (List.append_nil _).symm

/-- **What is shown has happened.** In a run in which no hop record is noted
over the time of a second reading, and no window with one hop record of the
greatest queue occupancy is published, every line that a client shows in the
first rounds, as many as records have come whole, is one hop record of the run:
its time, its switch and its two values. -/
theorem session_real (hr : Runs.run Hpn.step {} es = some s) (hes : ∀ e ∈ es, e.TimeSized)
    (hclean : Runs.Steps Hpn.step {} (fun _ s e => ¬ s.Overwrites e ∧ ¬ s.LoneMaximum e) es)
    (ha : HpnAnswers (s.readingsOf client) answers)
    (hc : c.stream = ShortWrites.stream calls (fDoHpnStartMsg.toBytes padding :: answers))
    (hlevel : 0 < vDebugLevel) (stack stack2 : Vector UInt8 sizeofPeerMsg) {fuel : ℕ}
    (hfuel : fuel + 1 ≤ c.stream.length / sizeofPeerMsg) :
    ∀ line ∈ clientLines vDebugLevel fuel c stack stack2, ∃ md clk msCtimeBuf,
      .hop md clk msCtimeBuf ∈ es ∧ line = .readAll (HopRecord.ofMetadata md clk msCtimeBuf).shown := by
  have hinv : Hpn.Inv s := (Runs.always_of_steps (I := fun _ => Hpn.Inv) Hpn.inv_initial
    (fun _ _ _ _ _ hi hstep hs => Hpn.inv_step hi hstep.1 hstep.2 hs) hclean).last hr
  rw [clientLines_take (Hpn.timeSized_readingsOf (Hpn.run_timesSized hr hes)) ha hc hlevel hfuel]
  intro line hline
  obtain ⟨r, hmem, rfl⟩ := List.mem_map.mp hline
  obtain ⟨d, hd, hrd⟩ := List.mem_flatMap.mp (List.mem_of_mem_take hmem)
  obtain ⟨w, n, hop, hn, rfl⟩ := hinv.delivered d (List.mem_of_mem_filter hd) r hrd
  have hhop : hop ∈ es.filterMap HpnEvent.record? := by
    rw [← Hpn.run_records hr]
    exact List.mem_map_of_mem (f := Prod.snd) (List.mem_of_getElem? hn)
  obtain ⟨e, he, hrec⟩ := List.mem_filterMap.mp hhop
  cases e with
  | hop md clk msCtimeBuf =>
    obtain rfl := Option.some.inj hrec
    exact ⟨md, clk, msCtimeBuf, he, rfl⟩
  | _ => cases hrec

end Session

/-! ### A session -/

/-- One client, one window of two hop records, and one pass of the client's thread. -/
def oneWindow : List HpnEvent :=
  [.connect 1, .hop (Hpn.hopOf 5 3) 10 (List.replicate msCtimeBufLen 65),
    .hop (Hpn.hopOf 9 4) 11 (List.replicate msCtimeBufLen 66), .pollReturns true, .readAll 1]

/-- What the window's readings are sent as, with cleared variables. -/
def oneWindowAnswers : List (List UInt8) :=
  ((Runs.run Hpn.step {} oneWindow).map fun s => s.readingsOf 1).elim [] fun readings =>
    readings.map fun r => (r.reply 1 {}).toBytes (.replicate 4 0)

def oneWindowStream : List UInt8 :=
  ShortWrites.stream cutCalls (fDoHpnStartMsg.toBytes (.replicate 4 0) :: oneWindowAnswers)

/-- A connection on which all comes at once. -/
def oneWindowConn : Conn where
  chunks := [.data ⟨oneWindowStream, by decide +kernel⟩]
  tail := fun _ => .eof

theorem timeSized_oneWindow : ∀ e ∈ oneWindow, e.TimeSized := by
  intro e he
  simp only [oneWindow, List.mem_cons, List.not_mem_nil, or_false] at he
  rcases he with rfl | rfl | rfl | rfl | rfl <;> trivial

theorem session_shown_oneWindow : ∃ s, Runs.run Hpn.step {} oneWindow = some s ∧ (s.readingsOf 1).length = 2 ∧
    ∃ fuel, ∀ more ≥ fuel, clientLines 1 more oneWindowConn (.replicate _ 0) (.replicate _ 0) =
      (s.readingsOf 1).map fun r => .readAll r.shown := by
  refine ⟨_, rfl, by decide +kernel, ?_⟩
  have hrun : Runs.run Hpn.step {} oneWindow = some _ := rfl
  refine (session_shown hrun timeSized_oneWindow (show HpnAnswers _ oneWindowAnswers from ?_)
    (show _ = ShortWrites.stream cutCalls (fDoHpnStartMsg.toBytes (.replicate 4 0) :: _) from ?_)
    Nat.one_pos _ _).2 ?_ rfl
  · exact .cons ⟨1, {}, .replicate 4 0, PeerMsg.sized_zero, rfl⟩
      (.cons ⟨1, {}, .replicate 4 0, PeerMsg.sized_zero, rfl⟩ .nil)
  · show oneWindowStream ++ [] = _
    rw [List.append_nil]
    rfl
  · decide +kernel

/-- Nothing goes wrong in the window. -/
theorem clean_oneWindow : Runs.Steps Hpn.step {} (fun _ s e => ¬ s.Overwrites e ∧ ¬ s.LoneMaximum e) oneWindow := by
  unfold oneWindow
  iterate 5
    refine Runs.Steps.cons ⟨?_, ?_⟩ fun t ht => ?_
    · rintro ⟨md, clk, msCtimeBuf, side, he, hpts, hex⟩
      first | (cases he; done) | cases hpts
    · rintro ⟨he, hsingle, hzero⟩
      first | (cases he; done) | exact absurd hzero (by decide)
    cases ht
  exact Runs.Steps.nil

theorem session_real_oneWindow :
    clientLines 1 2 oneWindowConn (.replicate _ 0) (.replicate _ 0) ≠ [] ∧
      ∀ line ∈ clientLines 1 2 oneWindowConn (.replicate _ 0) (.replicate _ 0), ∃ md clk msCtimeBuf,
        .hop md clk msCtimeBuf ∈ oneWindow ∧ line = .readAll (HopRecord.ofMetadata md clk msCtimeBuf).shown := by
  refine ⟨by decide +kernel, ?_⟩
  have hrun : Runs.run Hpn.step {} oneWindow = some _ := rfl
  refine session_real hrun timeSized_oneWindow clean_oneWindow
    (show HpnAnswers (Hpn.readingsOf _ 1) oneWindowAnswers from ?_)
    (show _ = ShortWrites.stream cutCalls (fDoHpnStartMsg.toBytes (.replicate 4 0) :: _) from ?_) Nat.one_pos _ _
    (by decide +kernel)
  · exact .cons ⟨1, {}, .replicate 4 0, PeerMsg.sized_zero, rfl⟩
      (.cons ⟨1, {}, .replicate 4 0, PeerMsg.sized_zero, rfl⟩ .nil)
  · show oneWindowStream ++ [] = _
    rw [List.append_nil]
    rfl

end TuningMod

/-
# Reading messages from a connection

`process_request` and, for HPN clients, `doProcessHpnClientReq` read one
`struct PeerMsg` after the other with `Readn` and act on each, until `Readn`
returns 0. `readn` calls `read` until the record is complete or the stream has
ended; it returns -1 on a read error and the bytes it got at the end of the
stream, and the callers compare the result with 0 only. What is in the buffer
then is acted on: bytes of an incomplete record over the one before.

A connection is what the calls of `read` return: pieces of the stream, shorter
than asked for or not, EINTR in between, and after the stream an end of file or
an error for each call that follows. `fDoHpnRead` comes back with one reading,
`fDoHpnReadAll` only when the client has gone; whether an action comes back is a
parameter. No action takes bytes from the stream.

Key definitions: `Conn`, `readn`, `requestLoop`, `processRequest`, `Frames`, `EndsClean`.
Key theorems: `readn_record`, `readn_end`, `frames_iff`, `peer_stream_framing`.
-/
import TuningMod.PeerMsg
import TuningMod.Lib.Records
import Mathlib.Data.Int.Notation
import Mathlib.Tactic.Common

namespace TuningMod

/-! ### `struct PeerMsg` from its bytes -/

/-- `sizeof(struct PeerMsg)`. -/
def sizeofPeerMsg : ℕ := 184

/-- A word of `n` bytes at an offset. -/
def wordAt [ByteOrder] (r : List UInt8) (offset : ℕ) (n : ℕ) : ℕ :=
  LittleEndian.value (LittleEndian.inMemory ((r.drop offset).take n))

/-- The fields at their offsets; four bytes before the pointers are padding. -/
def PeerMsg.ofBytes [ByteOrder] (r : List UInt8) : PeerMsg where
  msgNo := .ofNat (wordAt r 0 4)
  seqNo := .ofNat (wordAt r 4 4)
  value := .ofNat (wordAt r 8 4)
  hopLatency := .ofNat (wordAt r 12 4)
  queueOccupancy := .ofNat (wordAt r 16 4)
  switchId := .ofNat (wordAt r 20 4)
  vlanId := .ofNat (wordAt r 24 2)
  timestamp := (r.drop 26).take msCtimeBufLen
  msg := (r.drop 74).take msgBufLen
  srcIpAddr := .ofNat (wordAt r 144 4)
  dstIpAddr := .ofNat (wordAt r 148 4)
  vHopDelay := .ofNat (wordAt r 152 4)
  pts := .ofNat (wordAt r 160 8)
  ptimes := .ofNat (wordAt r 168 8)
  pm := .ofNat (wordAt r 176 8)

/-! ### `readn` -/

/-- What a call of `read` finds: a piece of the stream, or a signal. -/
inductive Chunk where
  | data (piece : { l : List UInt8 // l ≠ [] })
  | eintr

def Chunk.bytes : Chunk → List UInt8
  | data piece => piece.1
  | eintr => []

inductive Ending where
  | eof | error
deriving DecidableEq, Repr

/-- A connection: what comes of the stream, and what each call of `read` returns after it. -/
structure Conn where
  chunks : List Chunk
  tail : ℕ → Ending

/-- The byte stream of the connection. -/
def Conn.stream (c : Conn) : List UInt8 := c.chunks.flatMap Chunk.bytes

/-- The loop of `readn` up to the end of the stream: the bytes it puts at `ptr`,
what is left to come, and `nleft`. A piece longer than `nleft` is cut. -/
def gather : List Chunk → ℕ → List UInt8 × List Chunk × ℕ
  | cs, 0 => ([], cs, 0)
  | [], nleft + 1 => ([], [], nleft + 1)
  | .eintr :: cs, nleft + 1 => gather cs (nleft + 1)
  | .data piece :: cs, nleft + 1 =>
    if h : piece.1.length ≤ nleft + 1 then
      let (got, rest, left) := gather cs (nleft + 1 - piece.1.length)
      (piece.1 ++ got, rest, left)
    else
      (piece.1.take (nleft + 1), .data ⟨piece.1.drop (nleft + 1), by simpa using h⟩ :: cs, 0)

/-- `readn(fd, buf, n)`, and `Readn`, which only logs the error: the result, the
buffer and the connection after it. -/
def readn (c : Conn) (n : ℕ) (buf : List UInt8) : ℤ × List UInt8 × Conn :=
  let (got, rest, nleft) := gather c.chunks n
  let buf := got ++ buf.drop got.length
  if nleft = 0 then ((n : ℤ), buf, { c with chunks := rest })
  else
    let after : Conn := { chunks := rest, tail := fun i => c.tail (i + 1) }
    match c.tail 0 with
    | .eof => ((n : ℤ) - nleft, buf, after)
    | .error => (-1, buf, after)

/-! ### The loops over the messages -/

/-- The loop of both functions for `fuel` rounds: the contents of `from_cli` that
are acted on. `returns i` says whether the action of round `i` comes back. -/
def requestLoop (returns : ℕ → Bool) : ℕ → Conn → List UInt8 → List (List UInt8)
  | 0, _, _ => []
  | fuel + 1, c, fromCli =>
    let (n, fromCli, c) := readn c sizeofPeerMsg fromCli
    if n = 0 then []
    else fromCli :: if returns 0 then requestLoop (fun i => returns (i + 1)) fuel c fromCli else []

/-- What `process_request` does with a message. -/
inductive PeerRequest where
  | qinfo (value vHopDelay srcIp destIp : UInt32)
  | resetPacing (srcIp destIp : UInt32)
  | test (srcIp destIp : UInt32)
  | cleanupResetPacing (srcIp : UInt32)
  | unknown
deriving DecidableEq, Repr

def peerRequest [ByteOrder] (fromCli : PeerMsg) : PeerRequest :=
  let srcIp := ntohl fromCli.srcIpAddr
  let destIp := ntohl fromCli.dstIpAddr
  if ntohl fromCli.msgNo = qinfoMsg then
    .qinfo (ntohl fromCli.value) (ntohl fromCli.vHopDelay) srcIp destIp
  else if ntohl fromCli.msgNo = resetPacingMsg then .resetPacing srcIp destIp
  else if ntohl fromCli.msgNo = testMsg then .test srcIp destIp
  else if ntohl fromCli.msgNo = cleanupResetPacingMsg then .cleanupResetPacing srcIp
  else .unknown

/-- What `doProcessHpnClientReq` does with a message. -/
inductive HpnRequest where
  | read | readAll | shutdown | start
  | invalid (val : UInt32)
  | unknown
deriving DecidableEq, Repr

def hpnRequest [ByteOrder] (fromCli : PeerMsg) : HpnRequest :=
  if ntohl fromCli.msgNo = hpnsshMsg then
    if ntohl fromCli.value = 33 then .read
    else if ntohl fromCli.value = 44 then .readAll
    else if ntohl fromCli.value = 55 then .shutdown
    else if ntohl fromCli.value = 99 then .start
    else .invalid (ntohl fromCli.value)
  else .unknown

/-- The actions of a `process_request` always come back. -/
def processRequest [ByteOrder] (fuel : ℕ) (c : Conn) (fromCli : Vector UInt8 sizeofPeerMsg) : List PeerRequest :=
  (requestLoop (fun _ => true) fuel c fromCli.toList).map fun r => peerRequest (.ofBytes r)

def doProcessHpnClientReq [ByteOrder] (returns : ℕ → Bool) (fuel : ℕ) (c : Conn)
    (fromCli : Vector UInt8 sizeofPeerMsg) : List HpnRequest :=
  (requestLoop returns fuel c fromCli.toList).map fun r => hpnRequest (.ofBytes r)

/-- From some round on, the actions are those on the complete records of the
stream, and stay so. -/
def Frames [ByteOrder] {β : Type} (act : PeerMsg → β) (actions : ℕ → List β) (c : Conn) : Prop :=
  ∃ fuel, ∀ more ≥ fuel, actions more = (records sizeofPeerMsg c.stream).map fun r => act (.ofBytes r)

/-- The stream ends with a complete record and an end of file. -/
structure EndsClean (c : Conn) : Prop where
  eof : c.tail 0 = .eof
  complete : sizeofPeerMsg ∣ c.stream.length

/-! ### What `readn` reads -/

section Readn

variable {c : Conn} {cs : List Chunk} {n : ℕ} {buf : List UInt8}

/-- The loop reads the next `nleft` bytes of the stream, or what there is, however it is cut. -/
theorem gather_spec : (gather cs n).1 = (cs.flatMap Chunk.bytes).take n ∧
    (gather cs n).2.1.flatMap Chunk.bytes = (cs.flatMap Chunk.bytes).drop n ∧
    (gather cs n).2.2 = n - (cs.flatMap Chunk.bytes).length := by
  induction cs generalizing n with
  | nil => cases n <;> simp [gather]
  | cons chunk cs ih =>
    cases n with
    | zero => simp [gather]
    | succ n =>
      cases chunk with
      | eintr => exact ih
      | data piece =>
        rw [gather, List.flatMap_cons, Chunk.bytes]
        by_cases h : piece.1.length ≤ n + 1
        · obtain ⟨hgot, hrest, hleft⟩ := @ih (n + 1 - piece.1.length)
          rw [dif_pos h]
          refine ⟨?_, ?_, ?_⟩
          · rw [List.take_append, List.take_of_length_le h, ← hgot]
          · rw [List.drop_append, List.drop_of_length_le h, List.nil_append, ← hrest]
          · rw [List.length_append, Nat.sub_add_eq, ← hleft]
        · rw [dif_neg h]
          refine ⟨?_, ?_, ?_⟩
          · rw [List.take_append_of_le_length (by omega)]
          · rw [List.drop_append_of_le_length (by omega), List.flatMap_cons, Chunk.bytes]
          · show 0 = _
            rw [List.length_append]
            omega

/-- While a record is left it is read whole. -/
theorem readn_record (h : n ≤ c.stream.length) (hbuf : buf.length = n) :
    ∃ c' : Conn, readn c n buf = ((n : ℤ), c.stream.take n, c') ∧ c'.stream = c.stream.drop n ∧ c'.tail = c.tail := by
  have hspec := @gather_spec c.chunks n
  rcases hg : gather c.chunks n with ⟨got, rest, nleft⟩
  rw [hg] at hspec
  obtain ⟨hgot, hrest, hleft⟩ := hspec
  have hzero : nleft = 0 := hleft.trans (Nat.sub_eq_zero_of_le h)
  have hlen : got.length = n := by
    rw [show got = c.stream.take n from hgot]
    exact List.length_take_of_le h
  refine ⟨{ c with chunks := rest }, ?_, hrest, rfl⟩
  rw [readn, hg]
  simp only
  rw [if_pos hzero, hlen, List.drop_of_length_le (Nat.le_of_eq hbuf), List.append_nil]
  exact congrArg (fun l => ((n : ℤ), l, ({ c with chunks := rest } : Conn))) hgot

/-- With no complete record left, 0 is returned only at an end of file after a
complete record. -/
theorem readn_end (h : c.stream.length < n) :
    (readn c n buf).1 = 0 ↔ c.tail 0 = .eof ∧ c.stream = [] := by
  obtain ⟨-, -, hleft⟩ := @gather_spec c.chunks n
  have hlt : (c.chunks.flatMap Chunk.bytes).length < n := h
  have hnz : (gather c.chunks n).2.2 ≠ 0 := by omega
  rw [readn]
  simp only
  rw [if_neg hnz]
  cases ht : c.tail 0 with
  | error => simp
  | eof =>
    rw [hleft]
    simp only [true_and]
    rw [← List.length_eq_zero_iff]
    show (n : ℤ) - ((n - c.stream.length : ℕ) : ℤ) = 0 ↔ _
    omega

end Readn

/-! ### Framing -/

section Framing

variable {returns : ℕ → Bool} {c : Conn} {buf : List UInt8} {β : Type} {act : PeerMsg → β} {fuel : ℕ}

/-- Nothing more is acted on after the complete records: the stream ends clean,
or the action on the last record does not come back. -/
def StopsInTime (returns : ℕ → Bool) (c : Conn) : Prop :=
  EndsClean c ∨ ∃ i, i + 1 = (records sizeofPeerMsg c.stream).length ∧ returns i = false

/-- The actions on all complete records but the last come back. -/
def GoesThrough (returns : ℕ → Bool) (c : Conn) : Prop :=
  ∀ i, i + 1 < (records sizeofPeerMsg c.stream).length → returns i = true

/-- A round with a record left acts on it, and goes on with the rest if the action comes back. -/
theorem requestLoop_record (h : sizeofPeerMsg ≤ c.stream.length) (hbuf : buf.length = sizeofPeerMsg) :
    ∃ c' : Conn, c'.stream = c.stream.drop sizeofPeerMsg ∧ c'.tail = c.tail ∧
      ∀ fuel, requestLoop returns (fuel + 1) c buf = c.stream.take sizeofPeerMsg ::
        if returns 0 then
          requestLoop (fun i => returns (i + 1)) fuel c' (c.stream.take sizeofPeerMsg)
        else [] := by
  obtain ⟨c', hread, hstream, htail⟩ := readn_record h hbuf
  refine ⟨c', hstream, htail, fun fuel => ?_⟩
  rw [requestLoop, hread]
  simp [sizeofPeerMsg]

/-- Without a record left nothing is acted on just if the stream ends clean. -/
theorem requestLoop_end (h : c.stream.length < sizeofPeerMsg) :
    requestLoop returns (fuel + 1) c buf = [] ↔ EndsClean c := by
  have hclean : EndsClean c ↔ c.tail 0 = .eof ∧ c.stream = [] := by
    constructor
    · intro hc
      exact ⟨hc.eof, List.eq_nil_of_length_eq_zero (Nat.eq_zero_of_dvd_of_lt hc.complete h)⟩
    · rintro ⟨heof, hnil⟩
      have hdvd : sizeofPeerMsg ∣ c.stream.length := by
        rw [hnil]
        exact Nat.dvd_zero _
      exact ⟨heof, hdvd⟩
  rw [hclean, ← @readn_end c sizeofPeerMsg buf h, requestLoop]
  by_cases hn : (readn c sizeofPeerMsg buf).1 = 0
  · simp [hn]
  · simp [hn]

variable {c' : Conn}

theorem endsClean_rest (hle : sizeofPeerMsg ≤ c.stream.length)
    (hstream : c'.stream = c.stream.drop sizeofPeerMsg) (htail : c'.tail = c.tail) :
    EndsClean c' ↔ EndsClean c := by
  have hdvd : sizeofPeerMsg ∣ c'.stream.length ↔ sizeofPeerMsg ∣ c.stream.length := by
    rw [hstream, List.length_drop]
    unfold sizeofPeerMsg at hle ⊢
    omega
  constructor
  · intro h
    exact ⟨htail ▸ h.eof, hdvd.mp h.complete⟩
  · intro h
    exact ⟨htail ▸ h.eof, hdvd.mpr h.complete⟩

/-- The actions on a record and those on the rest, when the first one comes back. -/
theorem framing_rest (hret : returns 0 = true) (hclean : EndsClean c' ↔ EndsClean c)
    (hlen : (records sizeofPeerMsg c.stream).length = (records sizeofPeerMsg c'.stream).length + 1) :
    (GoesThrough (fun i => returns (i + 1)) c' ↔ GoesThrough returns c) ∧
      (StopsInTime (fun i => returns (i + 1)) c' ↔ StopsInTime returns c) := by
  unfold GoesThrough StopsInTime
  rw [hclean, hlen]
  refine ⟨⟨fun h i hi => ?_, fun h i hi => h (i + 1) (by omega)⟩, or_congr_right ⟨?_, ?_⟩⟩
  · cases i with
    | zero => exact hret
    | succ i => exact h i (by omega)
  · rintro ⟨i, hi, hfalse⟩
    exact ⟨i + 1, by omega, hfalse⟩
  · rintro ⟨i, hi, hfalse⟩
    cases i with
    | zero => simp [hret] at hfalse
    | succ i => exact ⟨i, by omega, hfalse⟩

/-- An action that does not come back is the last one. -/
theorem framing_stuck (hret : returns 0 = false)
    (hlen : (records sizeofPeerMsg c.stream).length = (records sizeofPeerMsg c'.stream).length + 1) :
    GoesThrough returns c ∧ StopsInTime returns c ↔ records sizeofPeerMsg c'.stream = [] := by
  unfold GoesThrough StopsInTime
  rw [hlen]
  constructor
  · rintro ⟨hgoes, -⟩
    by_contra hne
    have hpos : 0 < (records sizeofPeerMsg c'.stream).length := List.length_pos_iff.mpr hne
    simp [hgoes 0 (by omega)] at hret
  · intro hnil
    rw [hnil]
    exact ⟨fun i hi => absurd hi (by simp), Or.inr ⟨0, rfl, hret⟩⟩

/-- With no record left the framing is right just if the stream ends clean. -/
theorem frames_short [ByteOrder] (hlt : c.stream.length < sizeofPeerMsg) :
    Frames act (fun fuel => (requestLoop returns fuel c buf).map fun r => act (.ofBytes r)) c ↔
      EndsClean c := by
  unfold Frames
  rw [Records.records_of_lt hlt]
  simp only [List.map_nil, List.map_eq_nil_iff]
  constructor
  · rintro ⟨fuel, hacts⟩
    exact (requestLoop_end hlt).mp (hacts (fuel + 1) (Nat.le_succ fuel))
  · intro hclean
    refine ⟨1, fun more hmore => ?_⟩
    obtain ⟨m, rfl⟩ : ∃ m, more = m + 1 := ⟨more - 1, by omega⟩
    exact (requestLoop_end hlt).mpr hclean

/-- A round that acts on the first record leaves the framing of the rest. -/
theorem frames_cons [ByteOrder] {rest : ℕ → List (List UInt8)}
    (hround : ∀ fuel, requestLoop returns (fuel + 1) c buf = c.stream.take sizeofPeerMsg :: rest fuel)
    (hrec : records sizeofPeerMsg c.stream =
      c.stream.take sizeofPeerMsg :: records sizeofPeerMsg c'.stream) :
    Frames act (fun fuel => (requestLoop returns fuel c buf).map fun r => act (.ofBytes r)) c ↔
      Frames act (fun fuel => (rest fuel).map fun r => act (.ofBytes r)) c' := by
  unfold Frames
  beta_reduce
  rw [hrec]
  constructor
  · rintro ⟨fuel, hacts⟩
    refine ⟨fuel, fun more hmore => ?_⟩
    have hnext := hacts (more + 1) (by omega)
    rw [hround, List.map_cons, List.map_cons] at hnext
    exact (List.cons.inj hnext).2
  · rintro ⟨fuel, hacts⟩
    refine ⟨fuel + 1, fun more hmore => ?_⟩
    obtain ⟨m, rfl⟩ : ∃ m, more = m + 1 := ⟨more - 1, by omega⟩
    rw [hround, List.map_cons, List.map_cons, hacts m (by omega)]

/-- The framing of one connection, by the number of its records. -/
theorem frames_iff [ByteOrder] (hbuf : buf.length = sizeofPeerMsg) :
    Frames act (fun fuel => (requestLoop returns fuel c buf).map fun r => act (.ofBytes r)) c ↔
      GoesThrough returns c ∧ StopsInTime returns c := by
  induction hk : c.stream.length / sizeofPeerMsg generalizing returns c buf with
  | zero =>
    have hlt : c.stream.length < sizeofPeerMsg := by
      unfold sizeofPeerMsg at hk ⊢
      omega
    rw [frames_short hlt]
    simp [GoesThrough, StopsInTime, Records.records_of_lt hlt]
  | succ k ih =>
    have hle : sizeofPeerMsg ≤ c.stream.length := by
      by_contra hc
      rw [Nat.div_eq_of_lt (by omega)] at hk
      cases hk
    obtain ⟨c', hstream, htail, hround⟩ := @requestLoop_record returns c buf hle hbuf
    have hrec : records sizeofPeerMsg c.stream =
        c.stream.take sizeofPeerMsg :: records sizeofPeerMsg c'.stream := by
      rw [hstream]
      exact Records.records_of_le (by decide) hle
    have hlen : (records sizeofPeerMsg c.stream).length = (records sizeofPeerMsg c'.stream).length + 1 := by
      rw [hrec, List.length_cons]
    rw [frames_cons hround hrec]
    by_cases hret : returns 0 = true
    · -- the rest is a connection of its own, with one record less
      have hk' : c'.stream.length / sizeofPeerMsg = k := by
        rw [hstream, List.length_drop]
        unfold sizeofPeerMsg at hk hle ⊢
        omega
      obtain ⟨hgoes, hstops⟩ := framing_rest hret (endsClean_rest hle hstream htail) hlen
      simp only [if_pos hret]
      rw [← hgoes, ← hstops]
      exact ih (List.length_take_of_le hle) hk'
    · simp only [if_neg hret]
      rw [framing_stuck (Bool.not_eq_true _ ▸ hret) hlen]
      simp only [Frames, List.map_nil, List.nil_eq, List.map_eq_nil_iff]
      exact ⟨fun ⟨fuel, hnil⟩ => hnil fuel (Nat.le_refl _), fun hnil => ⟨0, fun _ _ => hnil⟩⟩

end Framing

/-- **When the messages of a stream are acted on.** For every stream and every
way it comes in pieces, `process_request` acts on exactly its complete records,
in order, each once, and on nothing after them if and only if the stream ends
with an end of file after a complete record; for `doProcessHpnClientReq` the
actions before the last must come back, and one that does not come back on the
last record may take the place of the clean end. -/
theorem peer_stream_framing (c : Conn) (fromCli : Vector UInt8 sizeofPeerMsg) (returns : ℕ → Bool) :
    (Frames peerRequest (fun fuel => processRequest fuel c fromCli) c ↔ EndsClean c) ∧
      (Frames hpnRequest (fun fuel => doProcessHpnClientReq returns fuel c fromCli) c ↔
        GoesThrough returns c ∧ StopsInTime returns c) := by
  have hlen : fromCli.toList.length = sizeofPeerMsg := Vector.length_toList
  refine ⟨?_, frames_iff hlen⟩
  have hback : GoesThrough (fun _ => true) c ∧ StopsInTime (fun _ => true) c ↔ EndsClean c := by
    simp [GoesThrough, StopsInTime]
  rw [← hback]
  exact frames_iff hlen

/-- A RESET_PACING message. -/
def resetRecord : { l : List UInt8 // l ≠ [] } :=
  ⟨[0, 0, 0, 3] ++ List.replicate 180 0, by simp⟩

/-- The message, then an error, after which the connection is closed. -/
def brokenConn : Conn where
  chunks := [.data resetRecord]
  tail := fun i => if i = 0 then .error else .eof

/-- The message, the first byte of another one, and the end of the stream. -/
def truncatedConn : Conn where
  chunks := [.data resetRecord, .eintr, .data ⟨[0], by simp⟩]
  tail := fun _ => .eof

/-- The one message of the stream resets the pacing twice. -/
theorem lastRecord_actedOnTwice :
    (∀ c ∈ [brokenConn, truncatedConn],
      processRequest 5 c (.replicate _ 0) = [.resetPacing 0 0, .resetPacing 0 0] ∧
        (records sizeofPeerMsg c.stream).length = 1) ∧
    ¬ ∀ c fromCli returns, Frames peerRequest (fun fuel => processRequest fuel c fromCli) c ∧
      Frames hpnRequest (fun fuel => doProcessHpnClientReq returns fuel c fromCli) c := by
  refine ⟨by decide +kernel, fun h => ?_⟩
  have hframes := (h brokenConn (.replicate _ 0) fun _ => true).1
  rcases ((frames_iff Vector.length_toList).mp hframes).2 with hclean | ⟨i, -, hfalse⟩
  · cases hclean.eof
  · cases hfalse

end TuningMod

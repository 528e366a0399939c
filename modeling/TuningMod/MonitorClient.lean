/-
# The monitoring client

`myclient.c` connects to the HPN listener, sends START, and after the answer
READALL; then it shows the readings that come until the connection ends or
SIGINT has been caught, and sends READALL again, or exits. The value that says
what to send next is turned to network order in place before it is sent. It is
set anew after each answer, but not when the connection fails: the `goto` that
would try again ends in `exit(1)`.

A step is a signal, the part of a round up to the message, or the return of
`process_request_fs` or `process_request_fs2`. Only READALL makes the client
look at `vShutdown`. The log is left out.

Key definitions: `MonitorClient`, `MonitorClient.step`, `MonitorClient.Inv`.
Key theorems: `MonitorClient.inv_step`, `MonitorClient.client_requests`.
-/
import TuningMod.Lib.Runs
import TuningMod.Messages
import TuningMod.PeerStream

namespace TuningMod

def hpnsshRead : UInt32 := 33
def hpnsshReadAll : UInt32 := 44
def hpnsshShutdown : UInt32 := 55
def hpnsshStart : UInt32 := 99

/-- Where the client is. -/
inductive ClientPoint where
  | cliAgain
  /-- In `process_request_fs` or `process_request_fs2`, after the message with this value. -/
  | processing (value : UInt32)
  | exited (status : ℕ)
  deriving DecidableEq, Repr

structure MonitorClient where
  hpnMsg2 : PeerMsg := { value := hpnsshStart }
  hpnMsgSeqNo : UInt32 := 0
  vShutdown : Bool := false
  point : ClientPoint := .cliAgain
  sent : List PeerMsg := []
  deriving DecidableEq

inductive ClientEvent where
  | sigint
  | round (connectFails : Bool)
  | returned
  deriving DecidableEq, Repr

namespace MonitorClient

/-- A message is sent, its value in network order. -/
def strCli (k : MonitorClient) (m : PeerMsg) : MonitorClient :=
  { k with
    hpnMsg2 := { m with value := htonl m.value }
    sent := k.sent ++ [{ m with value := htonl m.value }]
    point := .processing m.value }

/-- From `cli_again` to the answer. -/
def round (k : MonitorClient) (connectFails : Bool) : MonitorClient :=
  let m : PeerMsg := { k.hpnMsg2 with
    msgNo := htonl hpnsshMsg
    seqNo := htonl (k.hpnMsgSeqNo + 1)
    msg := strcpy k.hpnMsg2.msg "This is a START message" }
  let k := { k with hpnMsgSeqNo := k.hpnMsgSeqNo + 1, hpnMsg2 := m }
  if m.value = hpnsshStart then
    if connectFails then { k with hpnMsg2 := { m with value := htonl m.value } } else k.strCli m
  else if m.value = hpnsshShutdown then { k with point := .exited 0 }
  else if m.value = hpnsshRead then k.strCli m
  else if m.value = hpnsshReadAll then k.strCli { m with msg := strcpy m.msg "This is a READALL message" }
  else { k with point := .exited 1 }

/-- What follows the answer to the message with `value`. -/
def processed (k : MonitorClient) (value : UInt32) : MonitorClient :=
  if value = hpnsshStart then { k with hpnMsg2 := { k.hpnMsg2 with value := hpnsshReadAll }, point := .cliAgain }
  else if k.vShutdown then
    { k with hpnMsg2 := { k.hpnMsg2 with value := hpnsshShutdown }, vShutdown := false, point := .cliAgain }
  else { k with hpnMsg2 := { k.hpnMsg2 with value := value }, point := .cliAgain }

def step (k : MonitorClient) : ClientEvent → Option MonitorClient
  | .sigint =>
    match k.point with
    | .exited _ => none
    | _ => some { k with vShutdown := true }
  | .round connectFails =>
    match k.point with
    | .cliAgain => some (k.round connectFails)
    | _ => none
  | .returned =>
    match k.point with
    | .processing value => some (k.processed value)
    | _ => none

/-! ### What the client has sent -/

/-- The message with number `i`, counted from 0. -/
structure RightMessage (i : ℕ) (m : PeerMsg) : Prop where
  seqNo : m.seqNo = htonl (.ofNat (i + 1))
  request : hpnRequest m = if i = 0 then .start else .readAll
  sized : m.Sized

/-- The number of the last message is the number of messages. -/
def Counted (k : MonitorClient) : Prop := k.hpnMsgSeqNo = .ofNat k.sent.length

/-- How far the client has come. -/
inductive Stage (es : List ClientEvent) (k : MonitorClient) : Prop
  | begin : k.point = .cliAgain → k.hpnMsg2.value = hpnsshStart → k.sent = [] → k.Counted → Stage es k
  | refused : k.point = .cliAgain → k.hpnMsg2.value = htonl hpnsshStart → k.sent = [] → Stage es k
  | starting : k.point = .processing hpnsshStart → k.sent ≠ [] → k.Counted → Stage es k
  | started : k.point = .cliAgain → k.hpnMsg2.value = hpnsshReadAll → k.sent ≠ [] → k.Counted → Stage es k
  | reading : k.point = .processing hpnsshReadAll → 1 < k.sent.length → k.Counted → Stage es k
  | stopping : k.point = .cliAgain → k.hpnMsg2.value = hpnsshShutdown → 1 < k.sent.length → .sigint ∈ es → Stage es k
  | stopped : k.point = .exited 0 → 1 < k.sent.length → .sigint ∈ es → Stage es k
  | failed : k.point = .exited 1 → k.sent = [] → Stage es k

structure Inv (es : List ClientEvent) (k : MonitorClient) : Prop where
  stage : Stage es k
  sent : ∀ (i : ℕ) (m : PeerMsg), k.sent[i]? = some m → RightMessage i m
  sized : k.hpnMsg2.Sized
  shutdown : k.vShutdown = true → .sigint ∈ es

section Step

variable {es : List ClientEvent} {k k' : MonitorClient} {e : ClientEvent}

theorem inv_initial : Inv [] {} where
  stage := .begin rfl rfl rfl rfl
  sent i m h := by cases h
  sized := ⟨rfl, rfl⟩
  shutdown h := by cases h

theorem Counted.next (h : k.Counted) (m : PeerMsg) : k.hpnMsgSeqNo + 1 = .ofNat (k.sent ++ [m]).length := by
  rw [List.length_append, List.length_singleton, UInt32.ofNat_add, ← h]
  rfl

theorem sized_strcpy {m : PeerMsg} {text : String} (h : m.Sized) (ht : text.length < msgBufLen) :
    PeerMsg.Sized { m with msg := strcpy m.msg text } :=
  ⟨h.timestamp, (length_strcpy (h.msg ▸ ht)).trans h.msg⟩

/-- The message of a round before its value is looked at. -/
def prepared (k : MonitorClient) : PeerMsg :=
  { k.hpnMsg2 with
    msgNo := htonl hpnsshMsg
    seqNo := htonl (k.hpnMsgSeqNo + 1)
    msg := strcpy k.hpnMsg2.msg "This is a START message" }

theorem sized_prepared (h : k.hpnMsg2.Sized) : k.prepared.Sized := by
  have hs := @sized_strcpy _ "This is a START message" h (by decide)
  exact ⟨hs.timestamp, hs.msg⟩

/-- The next message has the next number, and says what its value says. -/
theorem rightMessage_prepared (hk : k.Counted) {m : PeerMsg} (hseq : m.seqNo = k.prepared.seqNo)
    (hno : m.msgNo = k.prepared.msgNo) (hm : m.Sized)
    (hv : m.value = if k.sent = [] then htonl hpnsshStart else htonl hpnsshReadAll) :
    RightMessage k.sent.length m where
  seqNo := by
    rw [hseq, UInt32.ofNat_add, ← hk]
    rfl
  request := by
    have hmsg : ntohl m.msgNo = hpnsshMsg := by
      rw [hno]
      show ntohl (htonl hpnsshMsg) = hpnsshMsg
      decide
    rw [hpnRequest, if_pos hmsg, hv]
    by_cases hnil : k.sent = []
    · rw [if_pos hnil, hnil]
      decide
    · rw [if_neg hnil, if_neg (mt List.eq_nil_of_length_eq_zero hnil)]
      decide
  sized := hm

/-- The messages so far, and the next one. -/
theorem sent_strCli (h : Inv es k) {m : PeerMsg} (hm : RightMessage k.sent.length { m with value := htonl m.value })
    (k₀ : MonitorClient) (hk₀ : k₀.sent = k.sent) (i : ℕ) (m' : PeerMsg)
    (hi : (k₀.strCli m).sent[i]? = some m') : RightMessage i m' := by
  have hsent : (k₀.strCli m).sent = k.sent ++ [{ m with value := htonl m.value }] := by
    rw [← hk₀]
    rfl
  rw [hsent] at hi
  rcases Nat.lt_or_ge i k.sent.length with hlt | hge
  · rw [List.getElem?_append_left hlt] at hi
    exact h.sent i m' hi
  · rw [List.getElem?_append_right hge] at hi
    obtain ⟨hlt, rfl⟩ := List.getElem?_eq_some_iff.mp hi
    have hzero : i - k.sent.length = 0 := by
      rw [List.length_singleton] at hlt
      omega
    obtain rfl : i = k.sent.length := by omega
    simpa using hm

theorem round_eq (k : MonitorClient) (connectFails : Bool) : k.round connectFails =
    let m := k.prepared
    let k := { k with hpnMsgSeqNo := k.hpnMsgSeqNo + 1, hpnMsg2 := m }
    if m.value = hpnsshStart then
      if connectFails then { k with hpnMsg2 := { m with value := htonl m.value } } else k.strCli m
    else if m.value = hpnsshShutdown then { k with point := .exited 0 }
    else if m.value = hpnsshRead then k.strCli m
    else if m.value = hpnsshReadAll then k.strCli { m with msg := strcpy m.msg "This is a READALL message" }
    else { k with point := .exited 1 } := rfl

theorem inv_round (h : Inv es k) (hp : k.point = .cliAgain) (connectFails : Bool) :
    Inv (es ++ [.round connectFails]) (k.round connectFails) := by
  have hshut : k.vShutdown = true → .sigint ∈ es ++ [.round connectFails] := fun hv =>
    List.mem_append_left _ (h.shutdown hv)
  have hsized := sized_prepared h.sized
  rw [round_eq]
  cases h.stage with
  | begin _ hv hnil hc =>
    have hvalue : k.prepared.value = hpnsshStart := hv
    simp only [if_pos hvalue]
    cases connectFails with
    | true => exact ⟨.refused hp (congrArg htonl hvalue) hnil, h.sent, ⟨hsized.timestamp, hsized.msg⟩, hshut⟩
    | false =>
      have hm : RightMessage k.sent.length { k.prepared with value := htonl k.prepared.value } := by
        refine rightMessage_prepared hc rfl rfl ⟨hsized.timestamp, hsized.msg⟩ ?_
        rw [if_pos hnil, hvalue]
      refine ⟨.starting ?_ (by simp [strCli]) ?_, sent_strCli h hm _ rfl, ⟨hsized.timestamp, hsized.msg⟩, hshut⟩
      · rw [← hvalue]
        rfl
      · exact hc.next _
  | refused _ hv hnil =>
    have hvalue : k.prepared.value = htonl hpnsshStart := hv
    have hother : htonl hpnsshStart ≠ hpnsshStart ∧ htonl hpnsshStart ≠ hpnsshShutdown ∧
        htonl hpnsshStart ≠ hpnsshRead ∧ htonl hpnsshStart ≠ hpnsshReadAll := by decide
    simp only [hvalue, if_neg hother.1, if_neg hother.2.1, if_neg hother.2.2.1, if_neg hother.2.2.2]
    exact ⟨.failed rfl hnil, h.sent, hsized, hshut⟩
  | started _ hv hne hc =>
    have hvalue : k.prepared.value = hpnsshReadAll := hv
    have hother : k.prepared.value ≠ hpnsshStart ∧ k.prepared.value ≠ hpnsshShutdown ∧
        k.prepared.value ≠ hpnsshRead := by
      rw [hvalue]
      decide
    simp only [if_neg hother.1, if_neg hother.2.1, if_neg hother.2.2, if_pos hvalue]
    have hsized' := @sized_strcpy _ "This is a READALL message" hsized (by decide)
    have hm : RightMessage k.sent.length
        { k.prepared with
          msg := strcpy k.prepared.msg "This is a READALL message", value := htonl k.prepared.value } := by
      refine rightMessage_prepared hc rfl rfl ⟨hsized'.timestamp, hsized'.msg⟩ ?_
      rw [if_neg hne, hvalue]
    refine ⟨.reading ?_ ?_ ?_, sent_strCli h hm _ rfl, ⟨hsized'.timestamp, hsized'.msg⟩, hshut⟩
    · show ClientPoint.processing k.prepared.value = _
      rw [hvalue]
    · show 1 < (k.sent ++ [_]).length
      have hpos : 0 < k.sent.length := List.length_pos_iff.mpr hne
      rw [List.length_append, List.length_singleton]
      omega
    · exact hc.next _
  | stopping _ hv hlen hsig =>
    have hvalue : k.prepared.value = hpnsshShutdown := hv
    have hother : hpnsshShutdown ≠ hpnsshStart := by decide
    simp only [hvalue, if_neg hother, if_true]
    exact ⟨.stopped rfl hlen (List.mem_append_left _ hsig), h.sent, hsized, hshut⟩
  | starting hp' | reading hp' | stopped hp' | failed hp' =>
    rw [hp] at hp'
    cases hp'

theorem inv_processed (h : Inv es k) {value : UInt32} (hp : k.point = .processing value) :
    Inv (es ++ [.returned]) (k.processed value) := by
  have hshut : k.vShutdown = true → .sigint ∈ es ++ [.returned] := fun hv =>
    List.mem_append_left _ (h.shutdown hv)
  have hsized : ∀ v, PeerMsg.Sized { k.hpnMsg2 with value := v } := fun _ => ⟨h.sized.timestamp, h.sized.msg⟩
  unfold processed
  cases h.stage with
  | starting hp' hne hc =>
    obtain rfl := ClientPoint.processing.inj (hp'.symm.trans hp)
    rw [if_pos rfl]
    exact ⟨.started rfl rfl hne hc, h.sent, hsized _, hshut⟩
  | reading hp' hlen hc =>
    obtain rfl := ClientPoint.processing.inj (hp'.symm.trans hp)
    rw [if_neg (by decide)]
    by_cases hv : k.vShutdown = true
    · rw [if_pos hv]
      exact ⟨.stopping rfl rfl hlen (hshut hv), h.sent, hsized _, fun hf => by cases hf⟩
    · rw [if_neg hv]
      have hne : k.sent ≠ [] := fun hnil => by
        rw [hnil] at hlen
        cases hlen
      exact ⟨.started rfl rfl hne hc, h.sent, hsized _, hshut⟩
  | begin hp' | refused hp' | started hp' | stopping hp' | stopped hp' | failed hp' =>
    rw [hp] at hp'
    cases hp'

theorem inv_sigint (h : Inv es k) (hp : ∀ n, k.point ≠ .exited n) :
    Inv (es ++ [.sigint]) { k with vShutdown := true } := by
  refine ⟨?_, h.sent, h.sized, fun _ => by simp⟩
  cases h.stage with
  | begin hp' hv hnil hc => exact .begin hp' hv hnil hc
  | refused hp' hv hnil => exact .refused hp' hv hnil
  | starting hp' hne hc => exact .starting hp' hne hc
  | started hp' hv hne hc => exact .started hp' hv hne hc
  | reading hp' hlen hc => exact .reading hp' hlen hc
  | stopping hp' hv hlen hsig => exact .stopping hp' hv hlen (List.mem_append_left _ hsig)
  | stopped hp' => exact absurd hp' (hp 0)
  | failed hp' => exact absurd hp' (hp 1)

theorem inv_step (h : Inv es k) (hs : k.step e = some k') : Inv (es ++ [e]) k' := by
  cases e with
  | sigint =>
    rw [step] at hs
    split at hs
    · cases hs
    · next hp =>
      cases hs
      exact inv_sigint h fun n hn => hp n hn
  | round connectFails =>
    rw [step] at hs
    split at hs
    · next hp =>
      cases hs
      exact inv_round h hp connectFails
    · cases hs
  | returned =>
    rw [step] at hs
    split at hs
    · next hp =>
      cases hs
      exact inv_processed h hp
    · cases hs

end Step

/-- **What the client asks for.** In every run the client sends START and then
only READALL, with the numbers 1, 2, 3 and so on. It exits with status 1 only
if it never got a connection, and with status 0 only after it has sent a READALL
and caught SIGINT; READ is never sent. -/
theorem client_requests {es : List ClientEvent} {k : MonitorClient} (h : Runs.run step {} es = some k) :
    (∀ (i : ℕ) (m : PeerMsg), k.sent[i]? = some m →
      m.seqNo = htonl (.ofNat (i + 1)) ∧ hpnRequest m = if i = 0 then .start else .readAll) ∧
    ∀ status, k.point = .exited status →
      status = 1 ∧ k.sent = [] ∨ status = 0 ∧ 1 < k.sent.length ∧ .sigint ∈ es := by
  have hinv : Inv es k := Runs.history_inv inv_initial (fun _ _ _ _ _ hi hs => inv_step hi hs) h
  refine ⟨fun i m hm => ⟨(hinv.sent i m hm).seqNo, (hinv.sent i m hm).request⟩, fun status hp => ?_⟩
  cases hinv.stage with
  | stopped hp' hlen hsig =>
    obtain rfl := ClientPoint.exited.inj (hp'.symm.trans hp)
    exact Or.inr ⟨rfl, hlen, hsig⟩
  | failed hp' hnil =>
    obtain rfl := ClientPoint.exited.inj (hp'.symm.trans hp)
    exact Or.inl ⟨rfl, hnil⟩
  | begin hp' | refused hp' | starting hp' | started hp' | reading hp' | stopping hp' =>
    rw [hp] at hp'
    cases hp'

/-- A session that reads twice and is stopped. -/
def stoppedSession : List ClientEvent :=
  [.round false, .returned, .round false, .returned, .round false, .sigint, .returned, .round false]

theorem client_requests_stopped : ∃ k, Runs.run step {} stoppedSession = some k ∧ k.point = .exited 0 ∧
    (∀ (i : ℕ) (m : PeerMsg), k.sent[i]? = some m →
      m.seqNo = htonl (.ofNat (i + 1)) ∧ hpnRequest m = if i = 0 then .start else .readAll) :=
  ⟨_, rfl, by decide +kernel, (client_requests (show Runs.run step {} stoppedSession = some _ from rfl)).1⟩

end MonitorClient
end TuningMod

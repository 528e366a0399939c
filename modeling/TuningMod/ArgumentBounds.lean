/-
# The arguments of the HTTP commands and `aNumber`

Only the loop for an address counts the bytes it copies, and it counts to 16,
which leaves no byte for the terminator. Where an argument has 16 bytes or more
that the loop of its command copies, a write lands past `aNumber` or `aNumber`
is read without a terminator; the one exception is the address that is copied
and not used because `gUseApacheKafka` is 0.

Key definitions: `BufferUse.Safe`, `Form.TooLong`, `ArgumentFits`.
Key theorems: `tooLong_iff`, `handle_uses`, `argument_in_bounds`.
-/
import TuningMod.CheckReq

namespace TuningMod

/-- A write is inside `aNumber`, and what is handed on is terminated. -/
def BufferUse.Safe : BufferUse → Prop
  | write i => i < 16
  | handed _ a => 0 ∈ a.toList

instance : DecidablePred BufferUse.Safe := fun u => by
  cases u <;> unfold BufferUse.Safe <;> infer_instance

/-! ### Which arguments are too long -/

/-- The bytes a loop copies. -/
def Form.copies : Form → UInt8 → Bool
  | digits, c => isdigit c
  | _, c => isdigit c || isDot c

/-- The argument begins with 16 bytes that the loop copies; for a rate there is
no second dot before the last of them. -/
structure Form.TooLong (f : Form) (arg : List UInt8) : Prop where
  long : 16 ≤ arg.length
  copied : ∀ c ∈ arg.take 16, f.copies c = true
  dots : f = .rate → (arg.take 15).countP isDot ≤ 1

/-- The loop of a command that has an argument. -/
def Command.form : Command → Option Form
  | t | pc | lOn | lOff => none
  | ctRetransRate | ctPacingRate => some .rate
  | kafIp4 => some .address
  | _ => some .digits

/-- The argument of the command is not too long, or it is an address that is
not used. -/
def Command.Fits (s : Settings) (arg : List UInt8) (c : Command) : Prop :=
  ∀ f, c.form = some f → ¬ f.TooLong arg ∨ (c = .kafIp4 ∧ s.gUseApacheKafka = false)

/-- The argument of the command that the request selects fits. -/
def ArgumentFits (s : Settings) (data : List UInt8) : Prop :=
  ∀ c, dispatch (pReqData data) = some c → c.Fits s ((pReqData data).drop c.argOffset)

section Arguments

variable {f : Form} {arg : List UInt8}

theorem copies_of_goesOn {done : List UInt8} {c : UInt8} (h : f.goesOn done c = true) : f.copies c = true := by
  cases f with
  | digits => exact h
  | rate => exact (Bool.and_eq_true _ _ ▸ h).1
  | address => exact (Bool.and_eq_true _ _ ▸ h).1

/-- Among the first 16 bytes the loop is stopped by a byte it does not copy or,
for a rate, after a second dot. -/
theorem goesOn_take {i : ℕ} {c : UInt8} (hi : i < 16) (hc : f.copies c = true)
    (hdots : f = .rate → (arg.take 15).countP isDot ≤ 1) : f.goesOn (arg.take i) c = true := by
  cases f with
  | digits => exact hc
  | rate =>
    have hsub : (arg.take i).countP isDot ≤ (arg.take 15).countP isDot :=
      (List.take_sublist_take_left (by omega)).countP_le
    have hle := hdots rfl
    rw [Form.goesOn, Bool.and_eq_true, decide_eq_true_eq]
    exact ⟨hc, hsub.trans hle⟩
  | address =>
    rw [Form.goesOn, Bool.and_eq_true, decide_eq_true_eq, List.length_take]
    exact ⟨hc, by omega⟩

/-- Which arguments have 16 bytes or more that are copied. -/
theorem tooLong_iff : f.TooLong arg ↔ 16 ≤ (CopyBuffer.run f.goesOn [] arg).length := by
  rw [CopyBuffer.le_length_run]
  simp only [List.nil_append]
  constructor
  · intro h i hi
    have hlt : i < arg.length := Nat.lt_of_lt_of_le hi h.long
    refine ⟨arg[i], List.getElem?_eq_getElem hlt, goesOn_take hi (h.copied _ ?_) h.dots⟩
    exact List.mem_take_iff_getElem.mpr ⟨i, by omega, rfl⟩
  · intro h
    obtain ⟨last, hlast, hgoes⟩ := h 15 (by omega)
    obtain ⟨hlt, -⟩ := List.getElem?_eq_some_iff.mp hlast
    refine ⟨hlt, fun c hc => ?_, fun hf => ?_⟩
    · obtain ⟨i, hi, rfl⟩ := List.mem_take_iff_getElem.mp hc
      obtain ⟨x, hx, hx'⟩ := h i (by omega)
      rw [List.getElem?_eq_getElem (by omega)] at hx
      cases hx
      exact copies_of_goesOn hx'
    · subst hf
      rw [Form.goesOn, Bool.and_eq_true, decide_eq_true_eq] at hgoes
      exact hgoes.2

/-- The loop for an address stops after 16 bytes. -/
theorem address_run_le : (CopyBuffer.run Form.address.goesOn [] arg).length ≤ 16 := by
  by_contra hc
  have hlong : 17 ≤ (CopyBuffer.run Form.address.goesOn [] arg).length := by omega
  obtain ⟨x, hx, hgoes⟩ := CopyBuffer.le_length_run.mp hlong 16 (by omega)
  obtain ⟨hlt, -⟩ := List.getElem?_eq_some_iff.mp hx
  rw [Form.goesOn, Bool.and_eq_true, decide_eq_true_eq, List.nil_append, List.length_take] at hgoes
  omega

end Arguments

/-! ### What the commands do with `aNumber` -/

section Uses

variable {s : Settings} {arg : List UInt8} {c : Command} {f : Form}

/-- A command with an argument fills `aNumber` in its loop and hands it on,
except for an address that is not used; the others do not use it. -/
theorem handle_uses (s : Settings) (arg : List UInt8) (c : Command) :
    match c.form with
    | none => (handle s arg c).uses = []
    | some f => ∃ readers, (handle s arg c).uses = (copyLoop f arg {}).handedTo readers ∧
        (readers = [] ↔ c = .kafIp4 ∧ s.gUseApacheKafka = false) := by
  cases c with
  | t | pc | lOn | lOff => rfl
  | d | r => exact ⟨[.atoi], rfl, by simp⟩
  | ctFlowSink | ctQOcc | ctHopLate | ctFlowLate | rttThresh | rttFactor => exact ⟨[.strtoul], rfl, by simp⟩
  | bRx | bTx | bSockRxBuff | bSockTxBuff => exact ⟨[.sprintf, .sprintf], rfl, by simp⟩
  | ctRetransRate | ctPacingRate =>
    simp only [Command.form, handle, changeRate]
    by_cases hd : (copyLoop .rate arg {}).countdots > 1
    · rw [if_pos hd]
      exact ⟨[.sprintf], rfl, by simp⟩
    · rw [if_neg hd]
      exact ⟨[.sscanf], rfl, by simp⟩
  | kafIp4 =>
    simp only [Command.form, handle, useKafkaAddress]
    cases hk : s.gUseApacheKafka with
    | false => exact ⟨[], rfl, by simp⟩
    | true =>
      refine ⟨[.inetAton, .sprintf], ?_, by simp⟩
      cases inetAton (copyLoop .address arg {}).buf.cells <;> rfl

/-- The uses are safe if the run that is copied fits, with room for the
terminator where `aNumber` is read. -/
theorem handedTo_safe_iff (readers : List Reader) :
    (∀ u ∈ (copyLoop f arg {}).handedTo readers, u.Safe) ↔
      (CopyBuffer.run f.goesOn [] arg).length ≤ 16 ∧
        (readers ≠ [] → (CopyBuffer.run f.goesOn [] arg).length < 16) := by
  have hstored : (copyLoop f arg {}).Stored ([] ++ CopyBuffer.run f.goesOn [] arg) :=
    copyLoop_stored Number.stored_nil
  rw [List.nil_append] at hstored
  have hwrites := hstored.filled.inBounds_iff
  have hterm := hstored.filled.terminated_iff zero_notMem_run
  rw [← hwrites, ← hterm, Number.handedTo]
  constructor
  · intro h
    refine ⟨fun i hi => h (.write i) ?_, fun hne => ?_⟩
    · exact List.mem_append_left _ (List.mem_map_of_mem hi)
    · obtain ⟨reader, hr⟩ := List.exists_mem_of_ne_nil _ hne
      exact h (.handed reader _) (List.mem_append_right _ (List.mem_map_of_mem hr))
  · rintro ⟨hin, hread⟩ u hu
    rcases List.mem_append.mp hu with hu | hu
    · obtain ⟨i, hi, rfl⟩ := List.mem_map.mp hu
      exact hin i hi
    · obtain ⟨reader, hr, rfl⟩ := List.mem_map.mp hu
      exact hread (List.ne_nil_of_mem hr)

/-- A command uses `aNumber` safely just if its argument fits. -/
theorem handle_safe_iff : (∀ u ∈ (handle s arg c).uses, u.Safe) ↔ c.Fits s arg := by
  have huses := handle_uses s arg c
  unfold Command.Fits
  cases hf : c.form with
  | none =>
    rw [hf] at huses
    simp only at huses
    rw [huses]
    simp
  | some f =>
    rw [hf] at huses
    obtain ⟨readers, huses, hreaders⟩ := huses
    have hfits : (∀ g, some f = some g → ¬ g.TooLong arg ∨ readers = []) ↔
        (¬ f.TooLong arg ∨ readers = []) := by simp
    rw [huses, handedTo_safe_iff, ← hreaders, hfits, tooLong_iff]
    by_cases hr : readers = []
    · -- an address that is not used
      have hlen : (CopyBuffer.run f.goesOn [] arg).length ≤ 16 := by
        rw [(hreaders.mp hr).1] at hf
        cases hf
        exact address_run_le
      simp [hr, hlen]
    · rw [Nat.not_le, or_iff_left hr]
      refine ⟨fun h => h.2 hr, fun h => ⟨h.le, fun _ => h⟩⟩

end Uses

/-- **Which requests keep `aNumber` in bounds.** On any request every write is
inside `aNumber`, and it is terminated wherever it is read, if and only if the
argument of the command that the request selects fits. -/
theorem argument_in_bounds (s : Settings) (data : List UInt8) :
    (∀ u ∈ (checkReq s data).uses, u.Safe) ↔ ArgumentFits s data := by
  unfold checkReq ArgumentFits
  cases dispatch (pReqData data) with
  | none => simp
  | some c => simp [handle_safe_iff]

/-- Seventeen digits for the debug level are written past `aNumber`; sixteen
are read without a terminator. -/
theorem longDebugLevel_unsafe :
    .write 16 ∈ (checkReq {} (bytes "GET /-d#11111111111111111 HTTP/1.1")).uses ∧
      (∃ a, .handed .atoi a ∈ (checkReq {} (bytes "GET /-d#1111111111111111 HTTP/1.1")).uses ∧ 0 ∉ a.toList) ∧
      ¬ (∀ s data, ∀ u ∈ (checkReq s data).uses, u.Safe) := by
  refine ⟨by decide +kernel, ⟨.replicate 16 49, by decide +kernel⟩, fun h => ?_⟩
  have hw : BufferUse.write 16 ∈ (checkReq {} (bytes "GET /-d#11111111111111111 HTTP/1.1")).uses := by
    decide +kernel
  exact absurd (h _ _ _ hw) (by decide)

end TuningMod

/-
# The ring buffers of the NIC

`ethtool --show-ring` lists the largest sizes and then the current ones.
`fDoRingBufferSize`, the same in both programs, takes the digits of the lines
with RX: and TX: in them, and the second line for TX is the last one it needs.
Then it recommends the largest size if that is above the current one and the
NIC has 100 Gb/s: not more than 8192 if the current size is below that, and the
current size if it is above. If it is 8192 neither of the two tests is true.

A scan that leaves its line, more than 255 digits and a size without a line
have no outcome.

Key definitions: `scanSize`, `ringLine`, `cappedSize`, `Program.fDoRingBufferSize`, `Capped`.
Key theorems: `cappedSize_eq`, `ringTuning_size`, `fDoRingBufferSize_eq`, `capped_iff`.
-/
import TuningMod.SystemTuning

namespace TuningMod

open KeyValues

inductive RingSide where
  | rx | tx
  deriving DecidableEq

/-! ### Reading the listing -/

/-- The counters and the four arrays, which are not initialized. -/
structure RingListing where
  rxcount : ℕ := 0
  txcount : ℕ := 0
  sRXMAXValue : Option (List UInt8) := none
  sRXCURRValue : Option (List UInt8) := none
  sTXMAXValue : Option (List UInt8) := none
  sTXCURRValue : Option (List UInt8) := none

/-- The first digits on a line. -/
def scanSize (line : List UInt8) : Option (List UInt8) := do
  let (_, p) ← scanWhile (fun c => !isdigit c) (line ++ [0])
  let (digits, _) ← scanWhile isdigit p
  intoArray digits

/-- `strstr(line, "RX:")`. -/
def hasRX (line : List UInt8) : Bool := strstr (bytes "RX:") (cText line)

/-- `strstr(line, "TX:")`. -/
def hasTX (line : List UInt8) : Bool := strstr (bytes "TX:") (cText line)

/-- One turn of the loop, and whether it is the last one. -/
def ringLine (s : RingListing) (line : List UInt8) : Option (RingListing × Bool) :=
  if hasRX line ∧ s.rxcount = 0 then
    (scanSize line).map fun v => ({ s with rxcount := s.rxcount + 1, sRXMAXValue := some v }, false)
  else if hasRX line then
    (scanSize line).map fun v => ({ s with rxcount := s.rxcount + 1, sRXCURRValue := some v }, false)
  else if hasTX line ∧ s.txcount = 0 then
    (scanSize line).map fun v => ({ s with txcount := s.txcount + 1, sTXMAXValue := some v }, false)
  else if hasTX line then
    (scanSize line).map fun v => ({ s with txcount := s.txcount + 1, sTXCURRValue := some v }, true)
  else some (s, false)

/-- The loop over the listing, and whether it was left by its `break`. -/
def ringLines (s : RingListing) : List (List UInt8) → Option (RingListing × Bool)
  | [] => some (s, false)
  | line :: lines => do
    let (s, last) ← ringLine s line
    if last then return (s, true) else ringLines s lines

/-! ### The recommendation -/

/-- `cfg_max_val` and `cfg_cur_val`. -/
structure RingSize where
  cfgMaxVal : ℤ
  cfgCurVal : ℤ

/-- The arrays of a side as numbers. -/
def RingListing.sizes (s : RingListing) : RingSide → Option RingSize
  | .rx => do return ⟨atoiText (← s.sRXMAXValue), atoiText (← s.sRXCURRValue)⟩
  | .tx => do return ⟨atoiText (← s.sTXMAXValue), atoiText (← s.sTXCURRValue)⟩

/-- The size that is recommended. -/
def cappedSize (netDeviceSpeed : ℤ) (v : RingSize) : Option ℤ :=
  if v.cfgMaxVal > v.cfgCurVal then
    if netDeviceSpeed < 100000 then none
    else
      let cfgMaxVal := if v.cfgMaxVal > 8192 ∧ v.cfgCurVal < 8192 then 8192 else v.cfgMaxVal
      some (if cfgMaxVal > 8192 ∧ v.cfgCurVal > 8192 then v.cfgCurVal else cfgMaxVal)
  else none

/-- The four copies of it. -/
def Program.ringSize : Program → RingSide → ℤ → RingSize → Option ℤ
  | daemon, .rx => cappedSize
  | daemon, .tx => cappedSize
  | standAlone, .rx => cappedSize
  | standAlone, .tx => cappedSize

/-- `ethtool -G`, with the side and the size. -/
structure RingCommand where
  side : RingSide
  size : ℤ
  deriving DecidableEq

structure RingEnv where
  netDeviceSpeed : ℤ
  gApplyNicTuning : UInt8 := 110

/-- The commands run, `aApplyNicDefTun2DArray`, and the two globals. -/
structure RingTuning where
  ran : List RingCommand := []
  saved : List RingCommand := []
  netDeviceRxRingBuffCfgMaxVal : ℤ := 0
  netDeviceTxRingBuffCfgMaxVal : ℤ := 0

/-- Run the command, or save it in case the operator wants to apply it from the menu. -/
def RingTuning.apply (env : RingEnv) (t : RingTuning) (c : RingCommand) : RingTuning :=
  if env.gApplyNicTuning = 121 then { t with ran := t.ran ++ [c] } else { t with saved := t.saved ++ [c] }

/-- One side. -/
def Program.ringSide (p : Program) (env : RingEnv) (side : RingSide) (v : RingSize) (t : RingTuning) : RingTuning :=
  let t := match side with
    | .rx => { t with netDeviceRxRingBuffCfgMaxVal := v.cfgMaxVal }
    | .tx => { t with netDeviceTxRingBuffCfgMaxVal := v.cfgMaxVal }
  (p.ringSize side env.netDeviceSpeed v).elim t fun size => t.apply env ⟨side, size⟩

/-- What is done with the sizes: RX first. -/
def Program.ringTuning (p : Program) (env : RingEnv) (v : RingSide → RingSize) : RingTuning :=
  p.ringSide env .tx (v .tx) (p.ringSide env .rx (v .rx) {})

def Program.fDoRingBufferSize (p : Program) (env : RingEnv) (lines : List (List UInt8)) : Option RingTuning := do
  let (s, last) ← ringLines {} lines
  if last then do
    let rx ← s.sizes .rx
    let tx ← s.sizes .tx
    return p.ringTuning env fun | .rx => rx | .tx => tx
  else return {}

/-- All commands for a side, run or saved. -/
def RingTuning.commands (t : RingTuning) (side : RingSide) : List RingCommand :=
  (t.ran ++ t.saved).filter fun c => c.side = side

/-- There is one command for the side, with a size from the current to the
largest one that is not above 8192 unless it is the current one. -/
def Capped (t : RingTuning) (side : RingSide) (v : RingSize) : Prop :=
  ∃ r, t.commands side = [⟨side, r⟩] ∧ v.cfgCurVal ≤ r ∧ r ≤ v.cfgMaxVal ∧ (r ≤ 8192 ∨ r = v.cfgCurVal)

/-! ### The size in the command -/

section Size

variable {p : Program} {env : RingEnv} {side : RingSide} {v : RingSize} {t : RingTuning}

/-- **The two tests.** -/
theorem cappedSize_eq {netDeviceSpeed : ℤ} (hspeed : 100000 ≤ netDeviceSpeed) (hlt : v.cfgCurVal < v.cfgMaxVal) :
    cappedSize netDeviceSpeed v = some (if v.cfgCurVal < 8192 then min v.cfgMaxVal 8192
      else if v.cfgCurVal = 8192 then v.cfgMaxVal else v.cfgCurVal) := by
  unfold cappedSize
  rw [if_pos hlt, if_neg (by omega)]
  dsimp only
  rw [Option.some.injEq]
  rcases Int.lt_trichotomy v.cfgCurVal 8192 with hcur | hcur | hcur
  · have hsecond : ∀ max : ℤ, ¬ (max > 8192 ∧ v.cfgCurVal > 8192) := fun _ => by omega
    rw [if_neg (hsecond _), if_pos hcur]
    split_ifs <;> omega
  · have hfirst : ¬ (v.cfgMaxVal > 8192 ∧ v.cfgCurVal < 8192) := by omega
    have hsecond : ¬ (v.cfgMaxVal > 8192 ∧ v.cfgCurVal > 8192) := by omega
    rw [if_neg hfirst, if_neg hsecond, if_neg (by omega), if_pos hcur]
  · have hfirst : ¬ (v.cfgMaxVal > 8192 ∧ v.cfgCurVal < 8192) := by omega
    have hsecond : v.cfgMaxVal > 8192 ∧ v.cfgCurVal > 8192 := by omega
    rw [if_neg hfirst, if_pos hsecond, if_neg (by omega), if_neg (by omega)]

theorem ringSize_eq (p : Program) (side : RingSide) : p.ringSize side = cappedSize := by
  cases p <;> cases side <;> rfl

/-- The command for a side is the one for its size. -/
theorem ringTuning_size (p : Program) (env : RingEnv) (v : RingSide → RingSize) (side : RingSide) :
    (p.ringTuning env v).commands side =
      (cappedSize env.netDeviceSpeed (v side)).toList.map fun size => ⟨side, size⟩ := by
  unfold Program.ringTuning Program.ringSide RingTuning.apply
  rw [ringSize_eq, ringSize_eq]
  -- all commands are run, or all are saved
  by_cases hy : env.gApplyNicTuning = 121
  · cases side <;> cases cappedSize env.netDeviceSpeed (v .rx) <;> cases cappedSize env.netDeviceSpeed (v .tx) <;>
      simp [RingTuning.commands, hy]
  · cases side <;> cases cappedSize env.netDeviceSpeed (v .rx) <;> cases cappedSize env.netDeviceSpeed (v .tx) <;>
      simp [RingTuning.commands, hy]

/-- What the function does once the listing is read. -/
theorem fDoRingBufferSize_eq {lines : List (List UInt8)} {s : RingListing} {rx tx : RingSize}
    (hread : ringLines {} lines = some (s, true)) (hrx : s.sizes .rx = some rx) (htx : s.sizes .tx = some tx) :
    p.fDoRingBufferSize env lines = some (p.ringTuning env fun | .rx => rx | .tx => tx) := by
  rw [Program.fDoRingBufferSize, hread]
  simp only [Option.bind_eq_bind, Option.bind_some, if_true, hrx, htx]
  rfl

end Size

/-- **The cap is respected** for each side in both programs, exactly if the
current size is not 8192. -/
theorem capped_iff (p : Program) (env : RingEnv) (v : RingSide → RingSize) (side : RingSide)
    (hspeed : 100000 ≤ env.netDeviceSpeed) (h0 : 0 ≤ (v side).cfgCurVal)
    (hlt : (v side).cfgCurVal < (v side).cfgMaxVal) :
    Capped (p.ringTuning env v) side (v side) ↔ (v side).cfgCurVal ≠ 8192 := by
  unfold Capped
  rw [ringTuning_size, cappedSize_eq hspeed hlt]
  constructor
  · rintro ⟨r, hr, hcur, hmax, hcap⟩ h8192
    rw [if_neg (by omega), if_pos h8192] at hr
    obtain rfl : (v side).cfgMaxVal = r := by simpa using hr
    omega
  · intro hne
    refine ⟨_, rfl, ?_⟩
    split_ifs <;> omega

/-- A listing of a NIC that can have 16384, and has 8192. -/
def ring8192 : List (List UInt8) :=
  [bytes "Ring parameters for eth100:\n", bytes "Pre-set maximums:\n", bytes "RX:\t\t16384\n",
    bytes "TX:\t\t16384\n", bytes "Current hardware settings:\n", bytes "RX:\t\t8192\n", bytes "TX:\t\t8192\n"]

/-- Both sides of it. -/
def sizes8192 (_ : RingSide) : RingSize := ⟨16384, 8192⟩

theorem capped_1024 : Capped (Program.daemon.ringTuning ⟨100000, 121⟩ fun _ => ⟨8192, 1024⟩) .rx ⟨8192, 1024⟩ ↔
    (1024 : ℤ) ≠ 8192 :=
  capped_iff .daemon ⟨100000, 121⟩ (fun _ => ⟨8192, 1024⟩) .rx (by decide) (by decide) (by decide)

/-- At 8192 the command sets 16384. -/
theorem not_capped_8192 : ((Program.daemon.fDoRingBufferSize ⟨100000, 121⟩ ring8192).map RingTuning.ran =
      some [⟨.rx, 16384⟩, ⟨.tx, 16384⟩]) ∧
    ¬ Capped (Program.daemon.ringTuning ⟨100000, 121⟩ sizes8192) .rx (sizes8192 .rx) := by
  refine ⟨by decide +kernel, ?_⟩
  rintro ⟨r, hr, -, -, hcap⟩
  have hcommands : (Program.daemon.ringTuning ⟨100000, 121⟩ sizes8192).commands .rx = [⟨.rx, 16384⟩] := by
    decide +kernel
  rw [hcommands] at hr
  obtain rfl : 16384 = r := by simpa using hr
  exact absurd hcap (by decide)

end TuningMod

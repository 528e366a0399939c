/-
# Messages between DTNs

`struct PeerMsg` of `unp.h`, the flow and hop keys of `filter_defs.h` and the
data the trigger timers keep, with the byte order conversions the daemon
applies to them. They depend on the byte order of the host, which is
little-endian where it is not a variable. A C string that is copied into a
message overwrites only its own bytes and the terminating zero (`strcpy`): the
rest of the array keeps what an earlier message left there.

Key definitions: `PeerMsg`, `HopKey`, `STimerData`, `ntohl`, `strcpy`.
-/
import TuningMod.Lib.LittleEndian
import Mathlib.Data.List.Basic

namespace TuningMod

/-! ### Byte order -/

/-- The hosts are little-endian, where nothing else is said. -/
instance littleEndian : ByteOrder := ⟨false⟩

/-- The bytes of a 32-bit word in the other order. -/
def bswap32 (x : UInt32) : UInt32 :=
  (x &&& 0xff000000) >>> 24 ||| (x &&& 0xff0000) >>> 8 ||| (x &&& 0xff00) <<< 8 ||| (x &&& 0xff) <<< 24

/-- The bytes of a 16-bit word in the other order. -/
def bswap16 (x : UInt16) : UInt16 := x >>> 8 ||| x <<< 8

section Conversions

variable [ByteOrder]

/-- Network order is big-endian. -/
def ntohl (x : UInt32) : UInt32 := if ByteOrder.bigEndian then x else bswap32 x

def htonl (x : UInt32) : UInt32 := ntohl x

def htons (x : UInt16) : UInt16 := if ByteOrder.bigEndian then x else bswap16 x

end Conversions

example : ntohl 0x0a000001 = 0x0100000a := by decide

/-! ### Keys -/

/-- `struct flow_key`. -/
structure FlowKey where
  switchId : UInt32 := 0
  egressPort : UInt16 := 0
  vlanId : UInt16 := 0
  srcIp : UInt32
  dstIp : UInt32
  srcPort : UInt16 := 0
  dstPort : UInt16 := 0
  deriving DecidableEq, Repr

/-- `struct hop_key`. -/
structure HopKey where
  flowKey : FlowKey
  hopIndex : UInt32 := 0
  deriving DecidableEq, Repr

/-- `sTimerData_t`: what a trigger timer's handler will report. -/
structure STimerData where
  srcIpAddr : UInt32 := 0
  dstIpAddr : UInt32 := 0
  vQinfo : UInt32 := 0
  vHopDelay : UInt32 := 0
  deriving DecidableEq, Repr

/-! ### `struct PeerMsg` -/

def testMsg : UInt32 := 0
def qinfoMsg : UInt32 := 1
def hpnsshMsg : UInt32 := 2
def resetPacingMsg : UInt32 := 3
def cleanupResetPacingMsg : UInt32 := 4

/-- `MS_CTIME_BUF_LEN`. -/
def msCtimeBufLen : ℕ := 48

/-- The length of the `msg` array. -/
def msgBufLen : ℕ := 70

/-- `struct PeerMsg`; the last three fields are pointers. -/
structure PeerMsg where
  msgNo : UInt32 := 0
  seqNo : UInt32 := 0
  value : UInt32 := 0
  hopLatency : UInt32 := 0
  queueOccupancy : UInt32 := 0
  switchId : UInt32 := 0
  vlanId : UInt16 := 0
  timestamp : List UInt8 := List.replicate msCtimeBufLen 0
  msg : List UInt8 := List.replicate msgBufLen 0
  srcIpAddr : UInt32 := 0
  dstIpAddr : UInt32 := 0
  vHopDelay : UInt32 := 0
  pts : UInt64 := 0
  ptimes : UInt64 := 0
  pm : UInt64 := 0
  deriving DecidableEq, Repr

/-- The bytes of a C string literal, without the terminating zero. -/
def cBytes (s : String) : List UInt8 := s.toList.map fun c => .ofNat c.toNat

/-- `strcpy(dst, src)` into an array. -/
def strcpy (dst : List UInt8) (src : String) : List UInt8 :=
  cBytes src ++ 0 :: dst.drop (src.length + 1)

end TuningMod

/-
# Readings for the HPN clients

While a call of `perf_buffer__poll` runs, `sample_func` notes the hop records
with the least and the greatest queue occupancy of the poll window. When the
call returns the collector publishes one or two of them in `sHpnRetMsg` and
`sHpnRetMsg2`, under `hpn_ret_mutex`, and sets `hpnretcdone`; a client's thread
that finds it set takes them and clears it. The first reading is copied with
its timestamp. Of the second only a pointer to the timestamp is published,
which says by being set that there is a second reading and which a reader
follows later, while `sample_func` goes on with the next window.

A step is one hop record, one return of `perf_buffer__poll` with the
publication and the start of the next window, one pass of `fDoHpnRead` or
`fDoHpnReadAll` through its critical section, or a client that comes or goes.
Which hop record a value was taken from is kept beside it.

Key definitions: `HopRecord`, `Hpn`, `Hpn.publish`, `Hpn.step`, `Hpn.Single`.
Key theorems: `Hpn.publish_cases`, `Hpn.step_read`, `Hpn.step_readAll`.
-/
import TuningMod.Trigger
import Mathlib.Data.Int.Notation

namespace TuningMod

/-- A value, and the number of the hop record it was taken from. -/
structure Traced (α : Type) where
  val : α
  origin : Option ℕ := none
  deriving DecidableEq, Repr

/-- What `sample_func` has of a hop record when it looks for the extremes. -/
structure HopRecord where
  clk : ℤ
  msCtimeBuf : List UInt8
  qinfo : UInt32
  hopLatency : UInt32
  switchId : UInt32
  deriving DecidableEq, Repr

def HopRecord.ofMetadata (md : IntHopMetadata) (clk : ℤ) (msCtimeBuf : List UInt8) : HopRecord where
  clk := clk
  msCtimeBuf := msCtimeBuf
  qinfo := md.qinfo
  hopLatency := md.hopLatencyThreshold
  switchId := ntohl md.switchId

/-- `QINFO_START_MIN_VALUE`. -/
def qinfoStartMinValue : UInt32 := 0xffffff

/-- What a reading says beside its time. -/
structure Values where
  hopLatency : Traced UInt32 := ⟨0, none⟩
  queueOccupancy : Traced UInt32 := ⟨0, none⟩
  switchId : Traced UInt32 := ⟨0, none⟩
  deriving DecidableEq, Repr

/-- A reading as a client gets it. -/
structure Reading where
  timestamp : Traced (List UInt8) := ⟨List.replicate msCtimeBufLen 0, none⟩
  values : Values := {}
  deriving DecidableEq, Repr

/-- The variables `qinfo_..._min`, and those `..._max`. -/
structure Extreme where
  clk : ℤ := 0
  value : Traced UInt32
  hopLatency : Traced UInt32 := ⟨0, none⟩
  switchId : Traced UInt32 := ⟨0, none⟩
  msCtimeBuf : Traced (List UInt8) := ⟨List.replicate msCtimeBufLen 0, none⟩
  deriving DecidableEq, Repr

namespace Extreme

def values (e : Extreme) : Values := ⟨e.hopLatency, e.value, e.switchId⟩

def reading (e : Extreme) : Reading := ⟨e.msCtimeBuf, e.values⟩

/-- All five variables from record `n`. -/
def ofRecord (n : ℕ) (r : HopRecord) : Extreme where
  clk := r.clk
  value := ⟨r.qinfo, some n⟩
  hopLatency := ⟨r.hopLatency, some n⟩
  switchId := ⟨r.switchId, some n⟩
  msCtimeBuf := ⟨r.msCtimeBuf, some n⟩

end Extreme

/-- The reading that is the `n`-th hop record. -/
def HopRecord.reading (r : HopRecord) (n : ℕ) : Reading := (Extreme.ofRecord n r).reading

inductive Side where
  | min | max
  deriving DecidableEq, Repr

/-- What one pass of a client's thread delivers, with the number of the
publication and of the poll window it was made of. -/
structure HpnDelivery where
  client : ℕ
  readAll : Bool
  publication : ℕ
  window : ℕ
  readings : List Reading
  deriving DecidableEq, Repr

structure Hpn where
  perfBufferPollStart : Bool := true
  min : Extreme := { value := ⟨qinfoStartMinValue, none⟩ }
  max : Extreme := { value := ⟨0, none⟩ }
  sHpnRetMsg : Reading := {}
  sHpnRetMsg2 : Values := {}
  /-- `sHpnRetMsg2.pts`: the buffer it points to. -/
  pts : Option Side := none
  hpnretcdone : Bool := false
  /-- The clients that have asked for all readings. -/
  clients : List ℕ := []
  /-- The number of the poll window, and each hop record with its window. -/
  window : ℕ := 0
  records : List (ℕ × HopRecord) := []
  /-- How many publications there were, and the window of the last. -/
  publications : ℕ := 0
  publishedWindow : ℕ := 0
  /-- Each publication with each client that has been connected since it. -/
  owed : List (ℕ × ℕ) := []
  delivered : List HpnDelivery := []
  deriving DecidableEq, Repr

inductive HpnEvent where
  | hop (md : IntHopMetadata) (clk : ℤ) (msCtimeBuf : List UInt8)
  /-- `perf_buffer__poll` returns, with an error or not. -/
  | pollReturns (ok : Bool)
  | read (client : ℕ)
  | readAll (client : ℕ)
  | connect (client : ℕ)
  | disconnect (client : ℕ)
  deriving DecidableEq, Repr

namespace Hpn

/-! ### The functions -/

def extreme (s : Hpn) : Side → Extreme
  | .min => s.min
  | .max => s.max

/-- The record is the least, or the greatest, of its window so far. The first
record of a window is never the greatest. -/
def isExtreme (s : Hpn) (r : HopRecord) : Side → Bool
  | .min => r.qinfo < s.min.value.val
  | .max => r.qinfo > s.max.value.val && !s.perfBufferPollStart

/-- `sample_func` on one hop record. -/
def sampleHop (s : Hpn) (r : HopRecord) : Hpn :=
  { s with
    min := if s.isExtreme r .min then .ofRecord s.records.length r else s.min
    max := if s.isExtreme r .max then .ofRecord s.records.length r else s.max
    perfBufferPollStart := false
    records := s.records ++ [(s.window, r)] }

/-- Publish one reading: `sHpnRetMsg2` stays as it is. -/
def publishOne (s : Hpn) (e : Extreme) : Hpn :=
  { s with
    sHpnRetMsg := e.reading
    hpnretcdone := true
    publications := s.publications + 1
    publishedWindow := s.window
    owed := s.owed ++ s.clients.map fun c => (s.publications + 1, c) }

def publishTwo (s : Hpn) (e second : Extreme) (side : Side) : Hpn :=
  { s.publishOne e with sHpnRetMsg2 := second.values, pts := some side }

/-- The publication of `fDoRunBpfCollectionPerfEventArray2`. -/
def publish (s : Hpn) : Hpn :=
  if !s.perfBufferPollStart then
    if s.min.value.val ≠ qinfoStartMinValue ∧ s.max.value.val ≠ 0 then
      if s.min.clk ≤ s.max.clk then s.publishTwo s.min s.max .max else s.publishTwo s.max s.min .min
    else if s.min.value.val ≠ qinfoStartMinValue then s.publishOne s.min
    else s.publishOne s.max
  else s

/-- The start of the next poll window. -/
def startPoll (s : Hpn) : Hpn :=
  { s with
    perfBufferPollStart := true
    min := { s.min with value := ⟨qinfoStartMinValue, none⟩ }
    max := { s.max with value := ⟨0, none⟩ }
    window := s.window + 1 }

/-- `sRetMsg2`: its time is what the pointer leads to when it is read. -/
def second (s : Hpn) (side : Side) : Reading := ⟨(s.extreme side).msCtimeBuf, s.sHpnRetMsg2⟩

/-- A pass through the critical section of a client's thread. -/
def deliver (s : Hpn) (client : ℕ) (readAll : Bool) (readings : List Reading) : Hpn :=
  { s with
    hpnretcdone := false
    pts := none
    delivered := s.delivered ++ [⟨client, readAll, s.publications, s.publishedWindow, readings⟩] }

/-- With two readings `fDoHpnRead` sends the second. -/
def fDoHpnReadReadings (s : Hpn) : List Reading :=
  match s.pts with
  | some side => [s.second side]
  | none => [s.sHpnRetMsg]

def fDoHpnReadAllReadings (s : Hpn) : List Reading :=
  match s.pts with
  | some side => [s.sHpnRetMsg, s.second side]
  | none => [s.sHpnRetMsg]

/-- A reader waits while `hpnretcdone` is 0. -/
def step (s : Hpn) : HpnEvent → Option Hpn
  | .hop md clk msCtimeBuf => some (s.sampleHop (.ofMetadata md clk msCtimeBuf))
  | .pollReturns ok => some (if ok then s.publish else s).startPoll
  | .read client =>
    if s.hpnretcdone ∧ client ∉ s.clients then some (s.deliver client false s.fDoHpnReadReadings) else none
  | .readAll client =>
    if s.hpnretcdone ∧ client ∈ s.clients then some (s.deliver client true s.fDoHpnReadAllReadings) else none
  | .connect client =>
    if client ∉ s.clients then some { s with clients := s.clients ++ [client] } else none
  | .disconnect client =>
    if client ∈ s.clients then
      some { s with
        clients := s.clients.filter fun c => c ≠ client
        owed := s.owed.filter fun pc => pc.2 ≠ client }
    else none

/-! ### What a step does -/

/-- The value of an extreme before its window has one. -/
def start : Side → UInt32
  | .min => qinfoStartMinValue
  | .max => 0

/-- A publication has one reading: the window has no least record, or no greatest. -/
def Single (s : Hpn) (side : Side) : Prop :=
  s.perfBufferPollStart = false ∧
    match side with
    | .min => s.min.value.val ≠ start .min ∧ s.max.value.val = start .max
    | .max => s.min.value.val = start .min

variable {s s' : Hpn} {client : ℕ}

/-- A record that is no extreme leaves the variables of that side. -/
theorem extreme_sampleHop (s : Hpn) (r : HopRecord) (side : Side) :
    (s.sampleHop r).extreme side = if s.isExtreme r side then .ofRecord s.records.length r else s.extreme side := by
  cases side <;> rfl

@[simp] theorem extreme_publishOne (s : Hpn) (e : Extreme) (side : Side) :
    (s.publishOne e).extreme side = s.extreme side := by
  cases side <;> rfl

@[simp] theorem extreme_publishTwo (s : Hpn) (e e' : Extreme) (side side' : Side) :
    (s.publishTwo e e' side').extreme side = s.extreme side := by
  cases side <;> rfl

@[simp] theorem extreme_deliver (s : Hpn) (all : Bool) (readings : List Reading) (side : Side) :
    (s.deliver client all readings).extreme side = s.extreme side := by
  cases side <;> rfl

/-- The time that the second reading points to changes with the buffer only. -/
theorem second_sampleHop {r : HopRecord} {side : Side} (h : s.isExtreme r side = false) :
    (s.sampleHop r).second side = s.second side := by
  unfold second
  rw [extreme_sampleHop, h]
  rfl

@[simp] theorem second_publishOne (s : Hpn) (e : Extreme) (side : Side) :
    (s.publishOne e).second side = s.second side := by
  cases side <;> rfl

@[simp] theorem second_publishTwo (s : Hpn) (e : Extreme) (side : Side) :
    (s.publishTwo e (s.extreme side) side).second side = (s.extreme side).reading := by
  cases side <;> rfl

@[simp] theorem second_startPoll (s : Hpn) (side : Side) : s.startPoll.second side = s.second side := by
  cases side <;> rfl

theorem publish_single {side : Side} (h : s.Single side) : s.publish = s.publishOne (s.extreme side) := by
  obtain ⟨hp, hside⟩ := h
  cases side with
  | min =>
    have hmin : s.min.value.val ≠ qinfoStartMinValue := hside.1
    have hmax : s.max.value.val = 0 := hside.2
    simp [publish, hp, hmin, hmax, extreme]
  | max =>
    have hmin : s.min.value.val = qinfoStartMinValue := hside
    simp [publish, hp, hmin, extreme]

/-- A publication has no reading, two, or one. -/
theorem publish_cases (s : Hpn) :
    (s.perfBufferPollStart = true ∧ s.publish = s) ∨
    ((∀ side, (s.extreme side).value.val ≠ start side) ∧
      ∃ first side, s.publish = s.publishTwo (s.extreme first) (s.extreme side) side) ∨
    ∃ side, s.Single side ∧ s.publish = s.publishOne (s.extreme side) := by
  cases hp : s.perfBufferPollStart with
  | true => exact Or.inl ⟨rfl, by simp [publish, hp]⟩
  | false =>
    right
    by_cases hboth : s.min.value.val ≠ qinfoStartMinValue ∧ s.max.value.val ≠ 0
    · left
      refine ⟨fun side => ?_, ?_⟩
      · cases side with
        | min => exact hboth.1
        | max => exact hboth.2
      · by_cases hclk : s.min.clk ≤ s.max.clk
        · exact ⟨.min, .max, by simp [publish, hp, hboth, hclk, extreme]⟩
        · exact ⟨.max, .min, by simp [publish, hp, hboth, hclk, extreme]⟩
    · right
      by_cases hmin : s.min.value.val ≠ qinfoStartMinValue
      · have hmax : s.max.value.val = 0 := by
          by_contra hne
          exact hboth ⟨hmin, hne⟩
        have hsingle : s.Single .min := ⟨hp, hmin, hmax⟩
        exact ⟨.min, hsingle, publish_single hsingle⟩
      · have hsingle : s.Single .max := ⟨hp, not_not.mp hmin⟩
        exact ⟨.max, hsingle, publish_single hsingle⟩

theorem step_read (h : s.step (.read client) = some s') :
    s.hpnretcdone = true ∧ s' = s.deliver client false s.fDoHpnReadReadings := by
  obtain ⟨⟨hdone, -⟩, hs⟩ := Option.ite_none_right_eq_some.mp h
  exact ⟨hdone, (Option.some.inj hs).symm⟩

theorem step_readAll (h : s.step (.readAll client) = some s') :
    s.hpnretcdone = true ∧ client ∈ s.clients ∧ s' = s.deliver client true s.fDoHpnReadAllReadings := by
  obtain ⟨⟨hdone, hc⟩, hs⟩ := Option.ite_none_right_eq_some.mp h
  exact ⟨hdone, hc, (Option.some.inj hs).symm⟩

theorem step_connect (h : s.step (.connect client) = some s') : s' = { s with clients := s.clients ++ [client] } := by
  obtain ⟨-, hs⟩ := Option.ite_none_right_eq_some.mp h
  exact (Option.some.inj hs).symm

theorem step_disconnect (h : s.step (.disconnect client) = some s') : s' = { s with
    clients := s.clients.filter fun c => c ≠ client
    owed := s.owed.filter fun pc => pc.2 ≠ client } := by
  obtain ⟨-, hs⟩ := Option.ite_none_right_eq_some.mp h
  exact (Option.some.inj hs).symm

end Hpn

end TuningMod

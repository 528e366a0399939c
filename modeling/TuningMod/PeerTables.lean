/-
# The peer tables

`aSrc_Dtn_IPs` holds the sources this host receives from, `aDest_Dtn_IPs` the
destinations it sends to. A hop sample or an accepted connection looks its
address up and takes the first free slot if it is new; the housekeeping timer
clears the slots not seen for `vHouseTime` seconds. Every index written is
logged; a write outside the table is a write to some other object, which is
not modelled.

The tables, their counters and the two role flags agree in every state of a
run exactly if every new address finds a free slot: with the table full the
first free index is 0, and the code writes to slot -1.

Key definitions: `PeerTable`, `PeerTable.attach`, `PeerTable.sweep`, `Peers.step`, `Peers.Ok`.
Key theorems: `attach_ok`, `not_ok_of_full`, `sweep_ok`, `peer_tables`.
-/
import TuningMod.Lib.Runs
import TuningMod.Lib.Slots
import TuningMod.Outbox
import Mathlib.Data.Int.Notation
import Mathlib.Tactic.Common

namespace TuningMod

def maxNumIpAttached : ℕ := 10
def vHouseTime : ℤ := 18

/-- The fields of `sSrc_Dtn_IPs_t` and `sDest_Dtn_IPs_t` that both tables use. -/
structure Slot where
  ipAddr : UInt32 := 0
  currentlyExist : Bool := false
  lastTimeIp : ℤ := 0
  deriving DecidableEq, Repr

/-- One of the two tables, with its counter and the indices written so far. -/
structure PeerTable where
  slots : List Slot := List.replicate maxNumIpAttached {}
  size : slots.length = maxNumIpAttached := by rfl
  current : UInt32 := 0
  written : List ℤ := []
  deriving DecidableEq

namespace PeerTable

/-! ### The functions -/

def addrs (t : PeerTable) : List UInt32 := t.slots.map Slot.ipAddr

/-- Write slot `i`. -/
def write (t : PeerTable) (i : ℤ) (f : Slot → Slot) : PeerTable :=
  { t with
    slots := if 0 ≤ i then t.slots.modify i.toNat f else t.slots
    size := by split <;> simp [t.size]
    written := t.written ++ [i] }

/-- The loop over a table and what follows it, as `sample_func` and
`fDoRunGetMessageFromPeer` have it: the table and whether the address was
found. `First_IP_Index_Not_Exist` is 1-based, and decremented here. -/
def attach (t : PeerTable) (ipAddr : UInt32) (clk : ℤ) : PeerTable × Bool :=
  match Slots.scan 0 ipAddr t.addrs 0 0 with
  | (some i, _) => (t.write i fun s => { s with currentlyExist := true, lastTimeIp := clk }, true)
  | (none, first) =>
    let t := t.write ((first : ℤ) - 1) fun _ =>
      { ipAddr := ipAddr, currentlyExist := true, lastTimeIp := clk }
    ({ t with current := t.current + 1 }, false)

/-- The loop of `tHouseKeeping_TimerID_Handler` from slot `i` on: `clk i` is
the clock read at slot `i`, `current` the counter so far. -/
def sweepSlots (clk : ℕ → ℤ) : ℕ → List Slot → UInt32 → List Slot × UInt32
  | _, [], current => ([], current)
  | i, s :: ss, current =>
    if s.ipAddr ≠ 0 ∧ clk i - s.lastTimeIp ≥ vHouseTime then
      let (ss', current') := sweepSlots clk (i + 1) ss (current - 1)
      ({} :: ss', current')
    else
      let (ss', current') := sweepSlots clk (i + 1) ss current
      (s :: ss', current')

theorem length_sweepSlots (clk : ℕ → ℤ) : ∀ (i : ℕ) (ss : List Slot) (current : UInt32),
    (sweepSlots clk i ss current).1.length = ss.length
  | _, [], _ => rfl
  | i, s :: ss, current => by
    unfold sweepSlots
    split
    · simp [length_sweepSlots clk (i + 1) ss]
    · simp [length_sweepSlots clk (i + 1) ss]

def sweep (t : PeerTable) (clk : ℕ → ℤ) : PeerTable :=
  { t with
    slots := (sweepSlots clk 0 t.slots t.current).1
    size := by rw [length_sweepSlots, t.size]
    current := (sweepSlots clk 0 t.slots t.current).2 }

end PeerTable

/-- Both tables, the role flags and the start messages published. -/
structure Peers where
  src : PeerTable := {}
  dest : PeerTable := {}
  vIamADestDtn : Bool := false
  vIamASrcDtn : Bool := false
  sent : List Produce := []
  deriving DecidableEq

inductive PeerEvent where
  | sample (hopKey : HopKey) (clk : ℤ)
  | accept (peeraddr : { a : UInt32 // a ≠ 0 }) (clk : ℤ)
  | houseKeeping (srcClk destClk : ℕ → ℤ)

namespace Peers

/-- `new_traffic` is set or cleared before it is tested, by whether the address
was found. -/
def sampleFunc (p : Peers) (hopKey : HopKey) (clk : ℤ) : Peers :=
  let (src, found) := p.src.attach (ntohl hopKey.flowKey.srcIp) clk
  if found then { p with src := src }
  else { p with src := src, vIamADestDtn := true, sent := p.sent ++ [.startOfTraffic hopKey] }

def acceptPeer (p : Peers) (peeraddr : UInt32) (clk : ℤ) : Peers :=
  { p with dest := (p.dest.attach peeraddr clk).1, vIamASrcDtn := true }

/-- The first half of the housekeeping. -/
def houseKeepSources (p : Peers) (clk : ℕ → ℤ) : Peers :=
  if p.vIamADestDtn then
    let src := p.src.sweep clk
    { p with src := src, vIamADestDtn := if src.current = 0 then false else p.vIamADestDtn }
  else p

/-- The second half. -/
def houseKeepDestinations (p : Peers) (clk : ℕ → ℤ) : Peers :=
  if p.vIamASrcDtn then
    let dest := p.dest.sweep clk
    { p with dest := dest, vIamASrcDtn := if dest.current = 0 then false else p.vIamASrcDtn }
  else p

def tHouseKeepingTimerIDHandler (p : Peers) (srcClk destClk : ℕ → ℤ) : Peers :=
  (p.houseKeepSources srcClk).houseKeepDestinations destClk

def step (p : Peers) : PeerEvent → Option Peers
  | .sample hopKey clk => some (p.sampleFunc hopKey clk)
  | .accept peeraddr clk => some (p.acceptPeer peeraddr clk)
  | .houseKeeping srcClk destClk => some (p.tHouseKeepingTimerIDHandler srcClk destClk)

end Peers

/-! ### What a table keeps -/

namespace PeerTable

/-- Every index written is a slot's, the addresses are distinct, and the
counter counts them. -/
structure Ok (t : PeerTable) : Prop where
  written : ∀ i ∈ t.written, 0 ≤ i ∧ i ≤ 9
  distinct : Slots.Distinct 0 t.addrs
  current : t.current.toNat = Slots.occupied 0 t.addrs

/-- The address is in the table, or a slot is free. -/
def HasRoom (t : PeerTable) (ipAddr : UInt32) : Prop := ipAddr ∈ t.addrs ∨ 0 ∈ t.addrs

variable {t : PeerTable} {ipAddr : UInt32} {clk : ℤ}

theorem length_addrs (t : PeerTable) : t.addrs.length = 10 := by
  rw [addrs, List.length_map, t.size]
  rfl

/-- A write that keeps the slot's address. -/
theorem addrs_write_keep {i : ℤ} {f : Slot → Slot} (hf : ∀ s, (f s).ipAddr = s.ipAddr) :
    (t.write i f).addrs = t.addrs := by
  unfold write addrs
  dsimp only
  split
  · refine List.ext_getElem? fun j => ?_
    rw [List.getElem?_map, List.getElem?_modify, List.getElem?_map]
    cases t.slots[j]? with
    | none => rfl
    | some s =>
      by_cases hj : i.toNat = j
      · simp [hj, hf]
      · simp [hj]
  · rfl

/-- A write that fills slot `k`. -/
theorem addrs_write_slot {k : ℕ} {s : Slot} :
    (t.write k fun _ => s).addrs = t.addrs.set k s.ipAddr := by
  unfold write addrs
  dsimp only
  rw [if_pos (Int.natCast_nonneg k), Int.toNat_natCast]
  refine List.ext_getElem? fun j => ?_
  rw [List.getElem?_map, List.getElem?_modify, List.getElem?_set, List.getElem?_map, List.length_map]
  by_cases hj : k = j
  · subst hj
    rcases Nat.lt_or_ge k t.slots.length with hlt | hge
    · simp [hlt]
    · simp [Nat.not_lt.mpr hge]
  · rw [if_neg hj]
    simp [hj]

/-- What `attach` does: it finds the address, takes a free slot, or writes to slot -1. -/
inductive AttachStep (t : PeerTable) (ipAddr : UInt32) (t' : PeerTable) : Bool → Prop
  | found (i : ℕ) : ipAddr ∈ t.addrs → i < 10 → t'.addrs = t.addrs → t'.current = t.current →
      t'.written = t.written ++ [(i : ℤ)] → AttachStep t ipAddr t' true
  | inserted (k : ℕ) : ipAddr ∉ t.addrs → k < 10 → t.addrs[k]? = some 0 → t'.addrs = t.addrs.set k ipAddr →
      t'.current = t.current + 1 → t'.written = t.written ++ [(k : ℤ)] → AttachStep t ipAddr t' false
  | full : ipAddr ∉ t.addrs → 0 ∉ t.addrs → t'.written = t.written ++ [-1] → AttachStep t ipAddr t' false

theorem attach_step (t : PeerTable) (ipAddr : UInt32) (clk : ℤ) :
    AttachStep t ipAddr (t.attach ipAddr clk).1 (t.attach ipAddr clk).2 := by
  have hlt : ∀ (k : ℕ) a, t.addrs[k]? = some a → k < 10 := fun k a hk => by
    rw [← length_addrs t]
    exact (List.getElem?_eq_some_iff.mp hk).1
  unfold attach
  rcases hs : Slots.scan 0 ipAddr t.addrs 0 0 with ⟨o, first⟩
  cases o with
  | some i =>
    obtain ⟨k, hk, hget⟩ := Slots.scan_found (by rw [hs] : (Slots.scan 0 ipAddr t.addrs 0 0).1 = some i)
    obtain rfl : k = i := by omega
    exact .found k (List.mem_of_getElem? hget) (hlt k _ hget) (addrs_write_keep fun _ => rfl) rfl rfl
  | none =>
    have hmem : ipAddr ∉ t.addrs := Slots.scan_none_iff.mp (by rw [hs])
    have hfirst := @Slots.scan_first _ _ 0 ipAddr t.addrs 0 hmem
    rw [hs] at hfirst
    rcases hfirst with ⟨hfree, h0⟩ | ⟨k, hk, hget⟩
    · refine .full hmem hfree ?_
      obtain rfl : first = 0 := h0
      rfl
    · obtain rfl : first = k + 1 := by simpa using hk
      have hi : ((k + 1 : ℕ) : ℤ) - 1 = k := by omega
      refine .inserted k hmem (hlt k _ hget) hget ?_ rfl ?_
      · show (t.write (((k + 1 : ℕ) : ℤ) - 1) _).addrs = _
        rw [hi]
        exact addrs_write_slot
      · show t.written ++ [((k + 1 : ℕ) : ℤ) - 1] = _
        rw [hi]

/-! ### Invariants of a table -/

theorem ok_initial : Ok {} where
  written := by simp
  distinct := by
    intro i j a hi _ ha
    obtain ⟨s, hs, rfl⟩ := List.mem_map.mp (List.mem_of_getElem? hi)
    rw [List.eq_of_mem_replicate hs] at ha
    exact absurd rfl ha
  current := by decide

/-- One more index that is a slot's. -/
theorem Ok.written_snoc (h : t.Ok) {k : ℕ} (hk : k < 10) : ∀ i ∈ t.written ++ [(k : ℤ)], 0 ≤ i ∧ i ≤ 9 := by
  intro i hi
  rcases List.mem_append.mp hi with hi | hi
  · exact h.written i hi
  · rw [List.mem_singleton.mp hi]
    omega

/-- With a slot for the address, the table and its counter keep agreeing. -/
theorem attach_ok (h : t.Ok) (hroom : t.HasRoom ipAddr) (clk : ℤ) :
    (t.attach ipAddr clk).1.Ok ∧
      (if (t.attach ipAddr clk).2 then (t.attach ipAddr clk).1.current = t.current
        else (t.attach ipAddr clk).1.current ≠ 0) := by
  have hs := attach_step t ipAddr clk
  revert hs
  generalize t.attach ipAddr clk = r
  obtain ⟨t', found⟩ := r
  rintro (⟨i, hmem, hi, haddrs, hcur, hwr⟩ | ⟨k, hmem, hk, hget, haddrs, hcur, hwr⟩ | ⟨hmem, hfree, _⟩)
  · have hdistinct : Slots.Distinct 0 t'.addrs := by
      rw [haddrs]
      exact h.distinct
    have hcount : t'.current.toNat = Slots.occupied 0 t'.addrs := by
      rw [hcur, haddrs]
      exact h.current
    exact ⟨⟨hwr ▸ h.written_snoc hi, hdistinct, hcount⟩, hcur⟩
  · -- a free slot would have matched the address 0
    have hne : ipAddr ≠ 0 := fun h0 => hmem (h0 ▸ List.mem_of_getElem? hget)
    have hocc : Slots.occupied 0 t'.addrs = Slots.occupied 0 t.addrs + 1 := by
      rw [haddrs]
      exact Slots.occupied_set_free hget hne
    have hle : Slots.occupied 0 t.addrs ≤ 10 := length_addrs t ▸ Slots.occupied_le
    have hcount : t'.current.toNat = Slots.occupied 0 t'.addrs := by
      rw [hcur, UInt32.toNat_add, h.current, hocc]
      exact Nat.mod_eq_of_lt (by show Slots.occupied 0 t.addrs + 1 < 2 ^ 32; omega)
    have hdistinct : Slots.Distinct 0 t'.addrs := by
      rw [haddrs]
      exact Slots.distinct_set h.distinct hmem
    refine ⟨⟨hwr ▸ h.written_snoc hk, hdistinct, hcount⟩, fun h0 => ?_⟩
    replace h0 : t'.current = 0 := h0
    have hzero : 0 = Slots.occupied 0 t.addrs + 1 := by
      rw [← hocc, ← hcount, h0]
      rfl
    omega
  · rcases hroom with hm | hf
    · exact absurd hm hmem
    · exact absurd hf hfree

/-- An occupied table after an address other than 0 is attached. -/
theorem attach_current (h : t.Ok) (hroom : t.HasRoom ipAddr) (hne : ipAddr ≠ 0) (clk : ℤ) :
    (t.attach ipAddr clk).1.current ≠ 0 := by
  have hcur := (attach_ok h hroom clk).2
  have hs := attach_step t ipAddr clk
  revert hcur hs
  generalize t.attach ipAddr clk = r
  obtain ⟨t', found⟩ := r
  intro hcur hs
  cases found with
  | false => exact hcur
  | true =>
    cases hs with
    | found i hmem _ _ hc _ =>
      intro h0
      have hpos := Slots.occupied_pos_of_mem hmem hne
      replace h0 : t'.current = 0 := h0
      rw [← h.current, ← hc, h0] at hpos
      exact absurd hpos (by decide)

/-- With the table full and the address new, slot -1 is written. -/
theorem not_ok_of_full (hroom : ¬ t.HasRoom ipAddr) (clk : ℤ) : ¬ (t.attach ipAddr clk).1.Ok := by
  rw [HasRoom, not_or] at hroom
  have hs := attach_step t ipAddr clk
  revert hs
  generalize t.attach ipAddr clk = r
  obtain ⟨t', found⟩ := r
  rintro (⟨i, hmem, _⟩ | ⟨k, _, _, hget, _⟩ | ⟨_, _, hwr⟩)
  · exact absurd hmem hroom.1
  · exact absurd (List.mem_of_getElem? hget) hroom.2
  · intro h
    have hmem : (-1 : ℤ) ∈ t'.written := by
      rw [hwr]
      simp
    have hneg := (h.written (-1) hmem).1
    omega

/-- The housekeeping counts each slot down that it clears. -/
theorem sweepSlots_current (clk : ℕ → ℤ) : ∀ (i k : ℕ) (ss : List Slot) (current : UInt32),
    current.toNat = k + Slots.occupied 0 (ss.map Slot.ipAddr) →
    (sweepSlots clk i ss current).2.toNat =
      k + Slots.occupied 0 ((sweepSlots clk i ss current).1.map Slot.ipAddr)
  | _, _, [], _, hc => hc
  | i, k, s :: ss, current, hc => by
    rw [List.map_cons, Slots.occupied_cons] at hc
    unfold sweepSlots
    by_cases hev : s.ipAddr ≠ 0 ∧ clk i - s.lastTimeIp ≥ vHouseTime
    · rw [if_pos hev.1] at hc
      rw [if_pos hev]
      have hone : (1 : UInt32) ≤ current := by
        rw [UInt32.le_iff_toNat_le, hc]
        show 1 ≤ _
        omega
      have hsub : (current - 1).toNat = k + Slots.occupied 0 (ss.map Slot.ipAddr) := by
        rw [UInt32.toNat_sub_of_le _ _ hone, hc]
        show _ - 1 = _
        omega
      have hrest := sweepSlots_current clk (i + 1) k ss (current - 1) hsub
      rw [hrest, List.map_cons, Slots.occupied_cons]
      rfl
    · rw [if_neg hev]
      rw [← Nat.add_assoc, Nat.add_right_comm] at hc
      have hrest := sweepSlots_current clk (i + 1) _ ss current hc
      dsimp only
      rw [hrest, List.map_cons, Slots.occupied_cons, Nat.add_assoc, Nat.add_comm (ite _ _ _)]

/-- A slot that it leaves occupied is as it was. -/
theorem sweepSlots_cleared (clk : ℕ → ℤ) : ∀ (i : ℕ) (ss : List Slot) (current : UInt32) (j : ℕ) (a : UInt32),
    ((sweepSlots clk i ss current).1.map Slot.ipAddr)[j]? = some a → a ≠ 0 → (ss.map Slot.ipAddr)[j]? = some a
  | _, [], _, _, _, hj, _ => hj
  | i, s :: ss, current, j, a, hj, ha => by
    unfold sweepSlots at hj
    by_cases hev : s.ipAddr ≠ 0 ∧ clk i - s.lastTimeIp ≥ vHouseTime
    · rw [if_pos hev] at hj
      cases j with
      | zero =>
        cases hj
        exact absurd rfl ha
      | succ j => exact sweepSlots_cleared clk (i + 1) ss (current - 1) j a hj ha
    · rw [if_neg hev] at hj
      cases j with
      | zero => exact hj
      | succ j => exact sweepSlots_cleared clk (i + 1) ss current j a hj ha

theorem sweep_ok (h : t.Ok) (clk : ℕ → ℤ) : (t.sweep clk).Ok := by
  have hcount : t.current.toNat = 0 + Slots.occupied 0 t.addrs := by rw [h.current, Nat.zero_add]
  have hcurrent := sweepSlots_current clk 0 0 t.slots t.current hcount
  rw [Nat.zero_add] at hcurrent
  exact ⟨h.written, Slots.distinct_of_cleared h.distinct (sweepSlots_cleared clk 0 t.slots t.current), hcurrent⟩

end PeerTable

/-! ### Both tables -/

namespace Peers

/-- Both tables are in order, and each role flag says whether its table is occupied. -/
structure Ok (p : Peers) : Prop where
  src : p.src.Ok
  dest : p.dest.Ok
  destRole : p.vIamADestDtn = true ↔ 0 < p.src.current
  srcRole : p.vIamASrcDtn = true ↔ 0 < p.dest.current

/-- A new address finds a free slot. -/
def HasRoom (p : Peers) : PeerEvent → Prop
  | .sample hopKey _ => p.src.HasRoom (ntohl hopKey.flowKey.srcIp)
  | .accept peeraddr _ => p.dest.HasRoom peeraddr
  | .houseKeeping _ _ => True

section Step

variable {p p' : Peers} {e : PeerEvent}

theorem ok_initial : Ok {} where
  src := PeerTable.ok_initial
  dest := PeerTable.ok_initial
  destRole := by decide
  srcRole := by decide

theorem pos_iff_ne_zero {c : UInt32} : 0 < c ↔ c ≠ 0 := by
  rw [UInt32.lt_iff_toNat_lt, ← UInt32.toNat_inj.ne]
  show 0 < c.toNat ↔ c.toNat ≠ 0
  omega

theorem sample_ok (h : p.Ok) (hopKey : HopKey) (clk : ℤ)
    (hroom : p.src.HasRoom (ntohl hopKey.flowKey.srcIp)) : (p.sampleFunc hopKey clk).Ok := by
  have hs := PeerTable.attach_ok h.src hroom clk
  unfold sampleFunc
  revert hs
  generalize p.src.attach (ntohl hopKey.flowKey.srcIp) clk = r
  obtain ⟨src, found⟩ := r
  rintro ⟨hok, hcur⟩
  cases found
  · exact ⟨hok, h.dest, iff_of_true rfl (pos_iff_ne_zero.mpr hcur), h.srcRole⟩
  · refine ⟨hok, h.dest, ?_, h.srcRole⟩
    rw [if_pos rfl] at hcur
    show p.vIamADestDtn = true ↔ 0 < src.current
    rw [hcur]
    exact h.destRole

theorem accept_ok (h : p.Ok) (peeraddr : { a : UInt32 // a ≠ 0 }) (clk : ℤ)
    (hroom : p.dest.HasRoom peeraddr) : (p.acceptPeer peeraddr clk).Ok := by
  have hok := (PeerTable.attach_ok h.dest hroom clk).1
  have hcur := PeerTable.attach_current h.dest hroom peeraddr.2 clk
  exact ⟨h.src, hok, h.destRole, iff_of_true rfl (pos_iff_ne_zero.mpr hcur)⟩

theorem houseKeepSources_ok (h : p.Ok) (clk : ℕ → ℤ) : (p.houseKeepSources clk).Ok := by
  unfold houseKeepSources
  by_cases hd : p.vIamADestDtn = true
  · rw [if_pos hd]
    refine ⟨PeerTable.sweep_ok h.src clk, h.dest, ?_, h.srcRole⟩
    rw [pos_iff_ne_zero]
    by_cases hc : (p.src.sweep clk).current = 0
    · simp [hc]
    · simp [hc, hd]
  · rw [if_neg hd]
    exact h

theorem houseKeepDestinations_ok (h : p.Ok) (clk : ℕ → ℤ) : (p.houseKeepDestinations clk).Ok := by
  unfold houseKeepDestinations
  by_cases hr : p.vIamASrcDtn = true
  · rw [if_pos hr]
    refine ⟨h.src, PeerTable.sweep_ok h.dest clk, h.destRole, ?_⟩
    rw [pos_iff_ne_zero]
    by_cases hc : (p.dest.sweep clk).current = 0
    · simp [hc]
    · simp [hc, hr]
  · rw [if_neg hr]
    exact h

theorem step_ok (h : p.Ok) (hroom : p.HasRoom e) (hs : p.step e = some p') : p'.Ok := by
  cases e with
  | sample hopKey clk =>
    cases hs
    exact sample_ok h hopKey clk hroom
  | accept peeraddr clk =>
    cases hs
    exact accept_ok h peeraddr clk hroom
  | houseKeeping srcClk destClk =>
    cases hs
    exact houseKeepDestinations_ok (houseKeepSources_ok h srcClk) destClk

theorem not_ok_of_not_hasRoom (hroom : ¬ p.HasRoom e) (hs : p.step e = some p') : ¬ p'.Ok := by
  cases e with
  | sample hopKey clk =>
    cases hs
    have hbad := PeerTable.not_ok_of_full hroom clk
    intro h
    refine hbad ?_
    have hsrc := h.src
    unfold sampleFunc at hsrc
    dsimp only at hsrc
    split at hsrc <;> exact hsrc
  | accept peeraddr clk =>
    cases hs
    exact fun h => PeerTable.not_ok_of_full hroom clk h.dest
  | houseKeeping srcClk destClk => exact absurd trivial hroom

end Step

/-- **The peer tables.** Indices, addresses, counters and role flags are in
order in every state of a run, exactly if every address that is sampled or
accepted is in its table already or finds a free slot. -/
theorem peer_tables (es : List PeerEvent) :
    Runs.Always step {} (fun _ => Ok) es ↔ Runs.Steps step {} (fun _ => HasRoom) es := by
  refine Runs.always_iff_steps (I := fun _ => Ok) ok_initial (fun pre p e p' _ h hc hs => ?_)
    (fun _ _ _ h => h) (fun pre p e p' _ _ hc hs => ?_) es
  · exact step_ok h hc hs
  · exact not_ok_of_not_hasRoom hc hs

/-- A hop sample of the flow from 10.0.0.`i`. -/
def sampleOf (i : ℕ) : PeerEvent :=
  .sample { flowKey := { srcIp := htonl (0x0a000000 + .ofNat i), dstIp := htonl 0x0a0000ff }, hopIndex := 0 } 0

/-- Eleven sources, none of them evicted. -/
def elevenSources : List PeerEvent := (List.range' 1 11).map sampleOf

theorem elevenSources_overflow : ¬ Runs.Always step {} (fun _ => Ok) elevenSources := by
  intro h
  have hrun : ∃ p, Runs.run step {} elevenSources = some p ∧ (-1) ∈ p.src.written ∧ p.src.current = 11 :=
    ⟨_, rfl, by decide +kernel, by decide +kernel⟩
  obtain ⟨p, hp, hw, _⟩ := hrun
  have hneg := ((h.last hp).src.written (-1) hw).1
  omega

end Peers
end TuningMod

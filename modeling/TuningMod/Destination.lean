/-
# The two forms of the current destination

`aDest_Ip2` is the text of the destination's address and `aDest_Ip2_Binary` its
number as eight hexadecimal digits; the retransmissions are looked up by the
second, the round trip time and the bandwidth by the first. A peer's connection
and the command for Kafka write both. A client's connection to the HPNSSH
listener writes only the second, so that from then on they disagree unless the
client is the destination itself, or there is none yet.

Key definitions: `Settings.DestinationAgrees`, `Destination.step`, `Destination.FromElsewhere`.
Key theorems: `hex8_inj`, `destination_requested`, `destination_agrees`.
-/
import TuningMod.Addresses
import TuningMod.Lib.Runs
import TuningMod.RequestLine

namespace TuningMod

/-! ### The hexadecimal form -/

section Hex

/-- The digit in the place of `16 ^ k`. -/
def hexDigit (n k : ℕ) : ℕ := n / 16 ^ k % 16

/-- Numbers with the same digits below `16 ^ k` are the same modulo it. -/
theorem mod_eq_of_hexDigits {m n : ℕ} : ∀ k, (∀ i < k, hexDigit m i = hexDigit n i) → m % 16 ^ k = n % 16 ^ k
  | 0, _ => by rw [pow_zero, Nat.mod_one, Nat.mod_one]
  | k + 1, h => by
    have ih := mod_eq_of_hexDigits k fun i hi => h i (by omega)
    have hk : m / 16 ^ k % 16 = n / 16 ^ k % 16 := h k (Nat.lt_succ_self k)
    rw [Nat.mod_pow_succ, Nat.mod_pow_succ, ih, hk]

/-- A digit's character tells the digit. -/
theorem hexChar_inj : ∀ a < 16, ∀ b < 16,
    (if a < 10 then 48 + a else 55 + a).toUInt8 = (if b < 10 then 48 + b else 55 + b).toUInt8 → a = b := by
  decide +kernel

/-- Different addresses have different hexadecimal forms. -/
theorem hex8_inj {x y : UInt32} : hex8 x = hex8 y ↔ x = y := by
  refine ⟨fun h => ?_, congrArg hex8⟩
  have hdigits : ∀ i < 8, hexDigit x.toNat i = hexDigit y.toNat i := by
    intro i hi
    have hchar := List.map_inj_left.mp h (7 - i) (List.mem_range.mpr (by omega))
    rw [show 7 - (7 - i) = i by omega] at hchar
    exact hexChar_inj _ (Nat.mod_lt _ (by omega)) _ (Nat.mod_lt _ (by omega)) hchar
  have hmod := mod_eq_of_hexDigits 8 hdigits
  have hx : x.toNat < 16 ^ 8 := x.toNat_lt
  have hy : y.toNat < 16 ^ 8 := y.toNat_lt
  rw [Nat.mod_eq_of_lt hx, Nat.mod_eq_of_lt hy] at hmod
  exact UInt32.toNat_inj.mp hmod

end Hex

/-! ### What writes the destination -/

/-- A destination that is set is the same in both forms. -/
def Settings.DestinationAgrees (s : Settings) : Prop :=
  s.aDestIp2 ≠ [] → ∃ sAddr, inetAtonText s.aDestIp2 = some sAddr ∧ s.aDestIp2Binary = hex8 sAddr

/-- Connections with the peer's address, unless `getpeername` fails, and HTTP
requests. -/
inductive DestinationEvent where
  | peer (peeraddr : Option UInt32)
  | hpnssh (peeraddr : Option UInt32)
  | http (data : List UInt8)
  deriving DecidableEq

/-- `fDoRunGetMessageFromPeer` on an accepted connection, which it throws away
when Kafka is used. -/
def fDoRunGetMessageFromPeer (s : Settings) (peeraddr : Option UInt32) : Settings :=
  if s.gUseApacheKafka then s
  else peeraddr.elim s fun sAddr => { s with aDestIp2Binary := hex8 sAddr, aDestIp2 := ipText sAddr }

/-- `doHandleHpnsshQfactorEnv` on an accepted connection. -/
def doHandleHpnsshQfactorEnv (s : Settings) (peeraddr : Option UInt32) : Settings :=
  peeraddr.elim s fun sAddr => { s with aDestIp2Binary := hex8 sAddr }

namespace Destination

def step (s : Settings) : DestinationEvent → Option Settings
  | .peer peeraddr => some (fDoRunGetMessageFromPeer s peeraddr)
  | .hpnssh peeraddr => some (doHandleHpnsshQfactorEnv s peeraddr)
  | .http data => some (checkReq s data).settings

/-- A client of the HPNSSH listener connects from another host than the one
whose address is in `aDest_Ip2`. -/
def FromElsewhere (s : Settings) (e : DestinationEvent) : Prop :=
  ∃ sAddr, e = .hpnssh (some sAddr) ∧ s.aDestIp2 ≠ [] ∧ inetAtonText s.aDestIp2 ≠ some sAddr

section Steps

variable {s s' : Settings} {e : DestinationEvent}

/-- A command that asks for a destination gives both forms of one address. -/
theorem destination_change {c : Command} {arg binary text : List UInt8} (h : c.change arg = .destination binary text) :
    ∃ sAddr, inetAtonText text = some sAddr ∧ binary = hex8 sAddr := by
  have hc : c = .kafIp4 := by
    rcases change_command arg c with hnone | hcommand
    · rw [h] at hnone
      cases hnone
    · rw [h] at hcommand
      exact (Option.some.inj hcommand).symm
  subst hc
  rw [Command.change] at h
  cases haddr : inetAton (copyLoop .address arg {}).buf.cells with
  | none =>
    rw [haddr] at h
    cases h
  | some sAddr =>
    rw [haddr] at h
    rw [inetAton_eq] at haddr
    obtain ⟨rfl, rfl⟩ := Change.destination.inj h
    exact ⟨sAddr, haddr, rfl⟩

/-- A request asks for another change, or for a destination in both forms. -/
theorem destination_requested {data binary text : List UInt8} (h : requested data = .destination binary text) :
    ∃ sAddr, inetAtonText text = some sAddr ∧ binary = hex8 sAddr := by
  rw [requested] at h
  cases hd : dispatch (pReqData data) with
  | none =>
    rw [hd] at h
    cases h
  | some c =>
    rw [hd] at h
    exact destination_change h

/-- An HTTP request leaves the destination, or sets both forms of one address. -/
theorem http_destination (s : Settings) (data : List UInt8) (h : s.DestinationAgrees) :
    (checkReq s data).settings.DestinationAgrees := by
  have hs : (checkReq s data).settings = ((requested data).apply s).1 := congrArg Prod.fst (effect_eq s data)
  rw [hs]
  cases hr : requested data with
  | destination binary text =>
    rw [Change.apply]
    by_cases hk : s.gUseApacheKafka = true
    · rw [if_pos hk]
      exact fun _ => destination_requested hr
    · rw [if_neg hk]
      exact h
  | _ => exact h

/-- Every step but a connection from elsewhere keeps the forms the same. -/
theorem agrees_step (h : s.DestinationAgrees) (he : ¬ FromElsewhere s e) (hs : step s e = some s') :
    s'.DestinationAgrees := by
  cases e with
  | peer peeraddr =>
    obtain rfl := Option.some.inj hs
    show (fDoRunGetMessageFromPeer s peeraddr).DestinationAgrees
    unfold fDoRunGetMessageFromPeer
    by_cases hk : s.gUseApacheKafka = true
    · rw [if_pos hk]
      exact h
    · rw [if_neg hk]
      cases peeraddr with
      | none => exact h
      | some sAddr => exact fun _ => ⟨sAddr, inetAtonText_ipText sAddr, rfl⟩
  | hpnssh peeraddr =>
    obtain rfl := Option.some.inj hs
    cases peeraddr with
    | none => exact h
    | some sAddr =>
      intro hset
      refine ⟨sAddr, ?_, rfl⟩
      by_contra hother
      exact he ⟨sAddr, rfl, hset, hother⟩
  | http data =>
    obtain rfl := Option.some.inj hs
    exact http_destination s data h

/-- A connection from elsewhere makes them differ. -/
theorem not_agrees_of_elsewhere (he : FromElsewhere s e) (hs : step s e = some s') :
    ¬ s'.DestinationAgrees := by
  obtain ⟨sAddr, rfl, hset, hother⟩ := he
  obtain rfl := Option.some.inj hs
  intro hagrees
  obtain ⟨b, hb, hhex⟩ := hagrees hset
  have heq : sAddr = b := hex8_inj.mp hhex
  exact hother (heq ▸ hb)

end Steps

/-- **When the two forms agree.** In every state of a run of connections and
HTTP requests the two forms of the destination are the same address if and only
if no client of the HPNSSH listener connects from elsewhere while there is a
destination. -/
theorem destination_agrees (gUseApacheKafka : Bool) (es : List DestinationEvent) :
    Runs.Always step { gUseApacheKafka := gUseApacheKafka } (fun _ s => s.DestinationAgrees) es ↔
      Runs.Steps step { gUseApacheKafka := gUseApacheKafka } (fun _ s e => ¬ FromElsewhere s e) es := by
  have hinitial : Settings.DestinationAgrees { gUseApacheKafka := gUseApacheKafka } := fun hset => absurd rfl hset
  apply Runs.always_iff_steps (I := fun _ s => s.DestinationAgrees) hinitial
  · intro _ s e s' _ h he hs
    exact agrees_step h he hs
  · intro _ s _ h
    exact h
  · intro _ s e s' _ _ he hs
    exact not_agrees_of_elsewhere (not_not.mp he) hs

/-- The destination 10.0.0.9 connects, and then a client on 127.0.0.1. -/
def localClient : List DestinationEvent := [.peer (some 0x0900000a), .hpnssh (some 0x0100007f)]

/-- The text is the destination's, the number the client's. -/
theorem localClient_disagrees :
    ¬ Runs.Always step {} (fun _ s => s.DestinationAgrees) localClient := by
  intro h
  have hset : ipText 0x0900000a ≠ [] := by decide
  obtain ⟨sAddr, haddr, hhex⟩ := h.last rfl hset
  have htext : inetAtonText (ipText 0x0900000a) = some sAddr := haddr
  have hnumber : hex8 0x0100007f = hex8 sAddr := hhex
  rw [inetAtonText_ipText] at htext
  rw [hex8_inj, ← Option.some.inj htext] at hnumber
  exact absurd hnumber (by decide)

end Destination
end TuningMod

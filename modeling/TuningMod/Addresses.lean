/-
# IPv4 addresses and their texts

What the conversions of an address do to its value, the text `sprintf` makes of
the four bytes of a `union uIP` (and `inet_ntoa` of a `struct in_addr`), and
that `inet_pton` and `inet_aton` read the address back from it, on a host of
either byte order.

Key definitions: `octets`, `ipText`, `inetPton`, `inetAtonText`.
Key theorems: `ntohl_ntohl`, `octets_net`, `inetPton_ipText`, `inetAtonText_ipText`.
-/
import TuningMod.CheckReq
import Mathlib.Tactic.IntervalCases

namespace TuningMod

/-! ### Byte order -/

section ByteOrder

theorem bswap32_bswap32 (x : UInt32) : bswap32 (bswap32 x) = x := by
  apply UInt32.toBitVec_inj.mp
  ext i hi
  interval_cases i <;> simp [bswap32]

theorem bswap32_eq (x : UInt32) : bswap32 x =
    (x &&& 0xff) <<< 24 ||| ((x >>> 8 &&& 0xff) <<< 16 ||| ((x >>> 16 &&& 0xff) <<< 8 ||| x >>> 24)) := by
  apply UInt32.toBitVec_inj.mp
  ext i hi
  interval_cases i <;> simp [bswap32]

/-- Bytes put side by side. -/
theorem shiftLeft_or_eq {a b i : ℕ} (ha : a < 256) (hb : b < 2 ^ i) (hi : i ≤ 24) :
    a <<< i % 2 ^ 32 ||| b = a * 2 ^ i + b := by
  have hlt : a * 2 ^ i < 2 ^ 32 :=
    calc a * 2 ^ i < 256 * 2 ^ i := Nat.mul_lt_mul_of_pos_right ha (Nat.two_pow_pos i)
      _ ≤ 256 * 2 ^ 24 := Nat.mul_le_mul_left _ (Nat.pow_le_pow_right (by decide) hi)
  rw [Nat.shiftLeft_eq, Nat.mod_eq_of_lt hlt, ← Nat.shiftLeft_eq, ← Nat.shiftLeft_add_eq_or_of_lt hb]

/-- The lowest byte becomes the highest, and so on. -/
theorem bswap32_toNat (x : UInt32) : (bswap32 x).toNat =
    x.toNat % 256 * 2 ^ 24 +
      (x.toNat / 2 ^ 8 % 256 * 2 ^ 16 + (x.toNat / 2 ^ 16 % 256 * 2 ^ 8 + x.toNat / 2 ^ 24)) := by
  have hx := x.toNat_lt
  have hmask : ∀ n : ℕ, n &&& 255 = n % 256 := fun n => Nat.and_two_pow_sub_one_eq_mod n 8
  rw [bswap32_eq]
  simp only [UInt32.toNat_or, UInt32.toNat_shiftLeft, UInt32.toNat_shiftRight, UInt32.toNat_and]
  simp only [UInt32.reduceToNat, Nat.reduceMod, hmask, Nat.shiftRight_eq_div_pow]
  rw [@shiftLeft_or_eq _ _ 8 (by omega) (by omega) (by omega),
    @shiftLeft_or_eq _ _ 16 (by omega) (by omega) (by omega),
    @shiftLeft_or_eq _ _ 24 (by omega) (by omega) (by omega)]

theorem ntohl_littleEndian (x : UInt32) : ntohl x = bswap32 x := rfl

variable [ByteOrder]

/-- Both conversions are the same exchange of bytes, or none. -/
@[simp] theorem ntohl_ntohl (x : UInt32) : ntohl (ntohl x) = x := by
  unfold ntohl
  split
  · rfl
  · exact bswap32_bswap32 x

@[simp] theorem ntohl_htonl (x : UInt32) : ntohl (htonl x) = x := ntohl_ntohl x

theorem ntohl_inj {x y : UInt32} : ntohl x = ntohl y ↔ x = y := by
  refine ⟨fun h => ?_, congrArg ntohl⟩
  rw [← ntohl_ntohl x, h, ntohl_ntohl]

@[simp] theorem ntohl_zero : ntohl 0 = 0 := by
  unfold ntohl
  split <;> rfl

theorem ntohl_eq_zero {x : UInt32} : ntohl x = 0 ↔ x = 0 := by
  refine ⟨fun h => ntohl_inj.mp (h.trans ntohl_zero.symm), ?_⟩
  rintro rfl
  exact ntohl_zero

end ByteOrder

/-! ### Texts -/

/-- `sprintf` with `%u`. -/
def uText (n : ℕ) : List UInt8 := (Nat.toDigits 10 n).map fun c => c.toNat.toUInt8

/-- The parts with a dot between them. -/
def dotted : List (List UInt8) → List UInt8
  | [] => []
  | [p] => p
  | p :: ps => p ++ 46 :: dotted ps

/-- One part of an address for `inet_pton`: decimal, without leading zeros. -/
def ptonPart (l : List UInt8) : Option ℕ :=
  if l ≠ [] ∧ l.all isdigit ∧ (l.head? = some 48 → l = [48]) ∧ decimal l < 256 then some (decimal l) else none

section Conversions

variable [ByteOrder]

/-- The bytes of an address as it lies in memory. -/
def octets (y : UInt32) : List UInt8 := LittleEndian.inMemory (LittleEndian.bytes 4 y.toNat)

/-- `%u.%u.%u.%u` on the bytes of a `union uIP`; also `inet_ntoa`. -/
def ipText (y : UInt32) : List UInt8 := dotted ((octets y).map fun a => uText a.toNat)

/-- `inet_pton` for `AF_INET`: four parts; the address is in network order. -/
def inetPton (text : List UInt8) : Option UInt32 := do
  match ← (inetParts text).mapM ptonPart with
  | [a, b, c, d] => return htonl (.ofNat (a * 2 ^ 24 + b * 2 ^ 16 + c * 2 ^ 8 + d))
  | _ => none

/-- `inet_aton` on a text. -/
def inetAtonText (text : List UInt8) : Option UInt32 := do
  let parts ← (inetParts text).mapM inetPart
  let addr ← inetAddr parts
  return htonl (.ofNat addr)

end Conversions

theorem inetAton_eq (a : Vector UInt8 16) : inetAton a = inetAtonText (cString a) := rfl

example : ipText (htonl 0x0a00004d) = bytes "10.0.0.77" := by decide

section Texts

/-- The text of a byte is digits, and what both readers make of it is the byte. -/
theorem uText_byte : ∀ a < 256, (∀ c ∈ uText a, isDot c = false) ∧ inetPart (uText a) = some a ∧
    ptonPart (uText a) = some a := by
  have hall : (List.range 256).all (fun a => ((uText a).all fun c => !isDot c) &&
      (inetPart (uText a) == some a && ptonPart (uText a) == some a)) = true := by decide +kernel
  intro a ha
  have hone := List.all_eq_true.mp hall a (List.mem_range.mpr ha)
  simpa using hone

theorem inetParts_part {p : List UInt8} (h : ∀ c ∈ p, isDot c = false) : inetParts p = [p] := by
  induction p with
  | nil => rfl
  | cons c p ih =>
    have hc : ¬ isDot c = true := by simp [h c (List.mem_cons_self ..)]
    rw [inetParts, if_neg hc, ih fun d hd => h d (List.mem_cons_of_mem c hd)]
    rfl

theorem inetParts_append {p l : List UInt8} (h : ∀ c ∈ p, isDot c = false) :
    inetParts (p ++ 46 :: l) = p :: inetParts l := by
  induction p with
  | nil => rfl
  | cons c p ih =>
    have hc : ¬ isDot c = true := by simp [h c (List.mem_cons_self ..)]
    rw [List.cons_append, inetParts, if_neg hc, ih fun d hd => h d (List.mem_cons_of_mem c hd)]
    rfl

/-- The parts are what stands between the dots. -/
theorem inetParts_dotted {ps : List (List UInt8)} (hne : ps ≠ []) (h : ∀ p ∈ ps, ∀ c ∈ p, isDot c = false) :
    inetParts (dotted ps) = ps := by
  induction ps with
  | nil => exact absurd rfl hne
  | cons p ps ih =>
    have hp := h p (List.mem_cons_self ..)
    cases ps with
    | nil => exact inetParts_part hp
    | cons q ps =>
      rw [dotted, inetParts_append hp]
      · rw [ih (List.cons_ne_nil q ps) fun r hr => h r (List.mem_cons_of_mem p hr)]
      · exact List.cons_ne_nil q ps

variable [ByteOrder] (y : UInt32)

/-- The bytes of an address in memory, read as digits to the base 256, are the
address in network order. -/
theorem octets_net : ∃ a b c d : UInt8, octets y = [a, b, c, d] ∧
    htonl (.ofNat (a.toNat * 2 ^ 24 + b.toNat * 2 ^ 16 + c.toNat * 2 ^ 8 + d.toNat)) = y := by
  have hy := y.toNat_lt
  have hbyte : ∀ n, (UInt8.ofNat (n % 256)).toNat = n % 256 := fun n => by simp
  unfold octets LittleEndian.inMemory htonl ntohl
  split
  · refine ⟨_, _, _, _, rfl, UInt32.toNat_inj.mp ?_⟩
    simp only [hbyte, UInt32.toNat_ofNat', Nat.div_div_eq_div_mul, Nat.reduceMul, Nat.reducePow]
    have htop : y.toNat / 16777216 % 256 = y.toNat / 16777216 := Nat.mod_eq_of_lt (by omega)
    rw [htop, Nat.mod_eq_of_lt (by omega)]
    omega
  · refine ⟨_, _, _, _, rfl, ?_⟩
    have hswap : UInt32.ofNat ((UInt8.ofNat (y.toNat % 256)).toNat * 2 ^ 24 +
        (UInt8.ofNat (y.toNat / 256 % 256)).toNat * 2 ^ 16 +
        (UInt8.ofNat (y.toNat / 256 / 256 % 256)).toNat * 2 ^ 8 +
        (UInt8.ofNat (y.toNat / 256 / 256 / 256 % 256)).toNat) = bswap32 y := by
      apply UInt32.toNat_inj.mp
      simp only [hbyte, bswap32_toNat, UInt32.toNat_ofNat', Nat.div_div_eq_div_mul, Nat.reduceMul, Nat.reducePow]
      have htop : y.toNat / 16777216 % 256 = y.toNat / 16777216 := Nat.mod_eq_of_lt (by omega)
      rw [htop, Nat.mod_eq_of_lt (by omega)]
      omega
    rw [hswap, bswap32_bswap32]

theorem inetParts_ipText : inetParts (ipText y) = (octets y).map fun a => uText a.toNat := by
  obtain ⟨a, b, c, d, hbytes, -⟩ := octets_net y
  refine inetParts_dotted (by simp [hbytes]) fun p hp => ?_
  obtain ⟨a, -, rfl⟩ := List.mem_map.mp hp
  exact (uText_byte a.toNat a.toNat_lt).1

/-- The parts, read as numbers by either reader. -/
theorem mapM_octets {part : List UInt8 → Option ℕ} (h : ∀ a < 256, part (uText a) = some a) :
    (inetParts (ipText y)).mapM part = some ((octets y).map UInt8.toNat) := by
  have hpart : (part ∘ fun a : UInt8 => uText a.toNat) = fun a => some a.toNat := by
    funext a
    exact h a.toNat a.toNat_lt
  rw [inetParts_ipText, List.mapM_map, hpart]
  exact List.mapM_pure

theorem inetPton_ipText : inetPton (ipText y) = some y := by
  obtain ⟨a, b, c, d, hbytes, hnet⟩ := octets_net y
  rw [inetPton, mapM_octets y fun a ha => (uText_byte a ha).2.2, hbytes]
  exact congrArg some hnet

theorem inetAtonText_ipText : inetAtonText (ipText y) = some y := by
  obtain ⟨a, b, c, d, hbytes, hnet⟩ := octets_net y
  rw [inetAtonText, mapM_octets y fun a ha => (uText_byte a ha).2.1, hbytes]
  have hlt : ∀ x : UInt8, x.toNat < 256 := fun x => x.toNat_lt
  simp only [List.map_cons, List.map_nil, Option.bind_eq_bind, Option.bind_some, inetAddr, hlt, and_self, if_true]
  exact congrArg some hnet

end Texts

end TuningMod

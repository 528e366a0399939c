/-
# Numbers as texts

What `%u` writes is a numeral for its argument, without zeros in front, and as
long as the number needs; `%d`, `%X` and `%p` also fill up to a width. None of
them writes a character above `f`.

Key definitions: `dText`, `xText`, `pText`.
Key theorems: `numeral_uText`, `decimal_uText`, `length_uText_le`, `hex8_eq`, `printable_xText`, `printable_dText`.
-/
import TuningMod.Addresses
import TuningMod.CheckReq

namespace TuningMod

theorem isdigit_char {d : Char} (hd : d.isDigit = true) :
    isdigit d.toNat.toUInt8 = true ∧ d.toNat.toUInt8.toNat = d.toNat := by
  simp only [Char.isDigit, Bool.and_eq_true, decide_eq_true_eq, UInt32.le_iff_toNat_le] at hd
  obtain ⟨hge, hle⟩ : 48 ≤ d.toNat ∧ d.toNat ≤ 57 := hd
  have hval : d.toNat.toUInt8.toNat = d.toNat := Nat.mod_eq_of_lt (by omega)
  refine ⟨?_, hval⟩
  simp only [isdigit, Bool.and_eq_true, decide_eq_true_eq, UInt8.le_iff_toNat_le, hval]
  exact ⟨hge, hle⟩

theorem isdigit_uText {n : ℕ} {c : UInt8} (hc : c ∈ uText n) : isdigit c = true := by
  obtain ⟨d, hd, rfl⟩ := List.mem_map.mp hc
  exact (isdigit_char (Nat.isDigit_of_mem_toDigits (by decide) (by decide) hd)).1

theorem notMem_uText {n : ℕ} {c : UInt8} (hc : isdigit c = false) : c ∉ uText n := by
  intro h
  rw [isdigit_uText h] at hc
  cases hc

theorem numeral_uText (n : ℕ) : Numeral (uText n) := by
  refine ⟨fun h => ?_, fun c hc => isdigit_uText hc⟩
  exact Nat.toDigits_ne_nil (List.map_eq_nil_iff.mp h)

/-- **A number is printed as it is read.** -/
theorem decimal_uText (n : ℕ) : decimal (uText n) = n := by
  have hfold : ∀ (l : List Char) (init : ℕ), (∀ d ∈ l, d.isDigit = true) →
      (l.map fun c => c.toNat.toUInt8).foldl (fun n c => 10 * n + (c.toNat - 48)) init =
        Nat.ofDigitChars 10 l init := by
    intro l
    induction l with
    | nil => intro init _; simp
    | cons d l ih =>
      intro init hl
      rw [List.forall_mem_cons] at hl
      rw [List.map_cons, List.foldl_cons, ih _ hl.2, Nat.ofDigitChars_cons, (isdigit_char hl.1).2]
      rfl
  rw [decimal, uText, hfold _ 0 fun d hd => Nat.isDigit_of_mem_toDigits (by decide) (by decide) hd]
  exact Nat.ofDigitChars_ten_toDigits

theorem length_uText_le {n k : ℕ} (hk : 0 < k) (hn : n < 10 ^ k) : (uText n).length ≤ k := by
  rw [uText, List.length_map]
  exact (Nat.length_toDigits_le_iff (by decide) hk).mpr hn

/-! ### The other conversions -/

/-- Blanks in front, up to the width. -/
def padded (width : ℕ) (l : List UInt8) : List UInt8 := List.leftpad width 32 l

/-- `%d` with a width. -/
def dText (width : ℕ) (x : Int32) : List UInt8 :=
  padded width (if x.toInt < 0 then 45 :: uText x.toInt.natAbs else uText x.toInt.natAbs)

def hexChar (digit : ℕ) : UInt8 := (if digit < 10 then 48 + digit else 55 + digit).toUInt8

/-- `%X` with a width, filled with zeros. -/
def xText (width n : ℕ) : List UInt8 :=
  let digits := max width (Nat.toDigits 16 n).length
  (List.range digits).map fun i => hexChar (n / 16 ^ (digits - 1 - i) % 16)

/-- `%p`, on the number it prints. -/
def pText (n : UInt64) : List UInt8 :=
  (List.range 16).map fun i =>
    let digit := n.toNat / 16 ^ (15 - i) % 16
    (if digit < 10 then 48 + digit else 87 + digit).toUInt8

section Printable

variable {width n k : ℕ} {c : UInt8} {l : List UInt8}

/-- From the blank to `f`. -/
def Printable (c : UInt8) : Prop := 32 ≤ c ∧ c ≤ 102

theorem printable_uText : ∀ c ∈ uText n, Printable c := by
  intro c hc
  have hdigit := isdigit_uText hc
  simp only [isdigit, Bool.and_eq_true, decide_eq_true_eq] at hdigit
  exact ⟨UInt8.le_trans (by decide) hdigit.1, UInt8.le_trans hdigit.2 (by decide)⟩

theorem printable_padded (h : ∀ c ∈ l, Printable c) : ∀ c ∈ padded width l, Printable c := by
  intro c hc
  rw [padded, List.leftpad, List.mem_append] at hc
  rcases hc with hc | hc
  · obtain rfl := List.eq_of_mem_replicate hc
    exact ⟨by decide, by decide⟩
  · exact h c hc

theorem printable_dText {x : Int32} : ∀ c ∈ dText width x, Printable c := by
  refine printable_padded fun c hc => ?_
  split_ifs at hc
  · rcases List.mem_cons.mp hc with rfl | hc
    · exact ⟨by decide, by decide⟩
    · exact printable_uText c hc
  · exact printable_uText c hc

theorem hexChar_cases : ∀ d < 16, (48 ≤ hexChar d ∧ hexChar d ≤ 57) ∨ (65 ≤ hexChar d ∧ hexChar d ≤ 70) := by
  decide

/-- A digit or a letter from `A` to `F`. -/
theorem mem_xText (hc : c ∈ xText width n) : (48 ≤ c ∧ c ≤ 57) ∨ (65 ≤ c ∧ c ≤ 70) := by
  obtain ⟨i, -, rfl⟩ := List.mem_map.mp hc
  exact hexChar_cases _ (Nat.mod_lt _ (by decide))

theorem printable_xText : ∀ c ∈ xText width n, Printable c := by
  intro c hc
  rcases mem_xText hc with h | h
  · exact ⟨UInt8.le_trans (by decide) h.1, UInt8.le_trans h.2 (by decide)⟩
  · exact ⟨UInt8.le_trans (by decide) h.1, UInt8.le_trans h.2 (by decide)⟩

theorem printable_pText {n : UInt64} : ∀ c ∈ pText n, Printable c := by
  have hchar : ∀ d < 16, 32 ≤ (if d < 10 then 48 + d else 87 + d).toUInt8 ∧
      (if d < 10 then 48 + d else 87 + d).toUInt8 ≤ 102 := by decide
  intro c hc
  obtain ⟨i, -, rfl⟩ := List.mem_map.mp hc
  exact hchar _ (Nat.mod_lt _ (by decide))

theorem length_padded_le (hl : l.length ≤ k) (hw : width ≤ k) : (padded width l).length ≤ k := by
  rw [padded, List.length_leftpad]
  exact max_le hw hl

/-- Ten digits and a sign. -/
theorem length_dText_le {x : Int32} (hw : width ≤ 11) : (dText width x).length ≤ 11 := by
  have hlt : x.toInt.natAbs < 10 ^ 10 := by
    have := x.toInt_lt
    have := x.le_toInt
    omega
  have hlen := length_uText_le (by decide) hlt
  refine length_padded_le ?_ hw
  split_ifs
  · rw [List.length_cons]
    omega
  · omega

theorem length_xText (hw : 0 < width) (hn : n < 16 ^ width) : (xText width n).length = width := by
  have hle := (Nat.length_toDigits_le_iff (b := 16) (by decide) hw).mpr hn
  rw [xText, List.length_map, List.length_range, max_eq_left hle]

theorem length_xText_le (hw : width ≤ k) (hk : 0 < k) (hn : n < 16 ^ k) : (xText width n).length ≤ k := by
  have hle := (Nat.length_toDigits_le_iff (b := 16) (by decide) hk).mpr hn
  rw [xText, List.length_map, List.length_range]
  exact max_le hw hle

theorem length_pText (n : UInt64) : (pText n).length = 16 := by rw [pText, List.length_map, List.length_range]

/-- An address is printed as the destination is. -/
theorem hex8_eq (x : UInt32) : xText 8 x.toNat = hex8 x := by
  have hle := (Nat.length_toDigits_le_iff (n := x.toNat) (b := 16) (k := 8) (by decide) (by decide)).mpr x.toNat_lt
  rw [xText, max_eq_left hle]
  rfl

end Printable

end TuningMod

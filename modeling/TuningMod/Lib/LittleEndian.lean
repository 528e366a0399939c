/-
# Little-endian words in a record

A word as `w` bytes, the least significant first, and back; in the memory of a
host the bytes stand in this order or in the other. A record is the bytes of its
fields one after the other, from which a field is read at its offset.

Key definitions: `bytes`, `value`, `ByteOrder`, `inMemory`.
Key theorems: `value_bytes`, `inMemory_inMemory`, `drop_field`.
-/
import Mathlib.Algebra.Ring.Nat
import Mathlib.Tactic.Common

namespace TuningMod

/-- The byte order of a host. -/
class ByteOrder where
  bigEndian : Bool

namespace LittleEndian

/-- The `w` bytes of a word, without what does not fit. -/
def bytes : ℕ → ℕ → List UInt8
  | 0, _ => []
  | w + 1, n => .ofNat (n % 256) :: bytes w (n / 256)

/-- The word with these bytes. -/
def value (l : List UInt8) : ℕ := l.foldr (fun b n => b.toNat + 256 * n) 0

@[simp] theorem length_bytes (w n : ℕ) : (bytes w n).length = w := by
  induction w generalizing n with
  | zero => rfl
  | succ w ih => rw [bytes, List.length_cons, ih]

theorem value_cons (b : UInt8) (l : List UInt8) : value (b :: l) = b.toNat + 256 * value l := rfl

theorem value_bytes (w n : ℕ) : value (bytes w n) = n % 256 ^ w := by
  induction w generalizing n with
  | zero => rw [Nat.pow_zero, Nat.mod_one]; rfl
  | succ w ih =>
    have hb : (UInt8.ofNat (n % 256)).toNat = n % 256 := by
      rw [UInt8.toNat_ofNat']
      exact Nat.mod_eq_of_lt (Nat.mod_lt n (by decide))
    rw [bytes, value_cons, ih, hb, Nat.pow_succ', Nat.mod_mul]

theorem value_bytes_of_lt {w n : ℕ} (h : n < 256 ^ w) : value (bytes w n) = n := by
  rw [value_bytes, Nat.mod_eq_of_lt h]

/-! ### The memory of a host -/

section Memory

variable [ByteOrder]

/-- The bytes of a word as they lie in memory, from the least significant one, and back. -/
def inMemory (l : List UInt8) : List UInt8 := if ByteOrder.bigEndian then l.reverse else l

@[simp] theorem length_inMemory (l : List UInt8) : (inMemory l).length = l.length := by
  unfold inMemory
  split
  · exact List.length_reverse
  · rfl

@[simp] theorem inMemory_inMemory (l : List UInt8) : inMemory (inMemory l) = l := by
  unfold inMemory
  split
  · exact List.reverse_reverse l
  · rfl

end Memory

/-! ### Fields -/

section Fields

variable {α : Type*} {a r : List α} {offset : ℕ}

/-- An offset past the first field is an offset in the rest. -/
theorem drop_field (h : a.length ≤ offset) : (a ++ r).drop offset = r.drop (offset - a.length) := by
  rw [List.drop_append, List.drop_of_length_le h, List.nil_append]

end Fields

end LittleEndian
end TuningMod

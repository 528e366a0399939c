/-
# Messages written piece by piece

A message is written by as many calls as it takes: a call is interrupted, or
takes some of what is left. When the calls are used up, the writer is still
waiting or the stream is broken, and nothing more gets into it. So whatever the
calls do, the stream is the messages one after the other, cut off at some point;
and of messages of one length, the complete ones in the stream are the first
ones.

Key definitions: `Call`, `writen`, `stream`.
Key theorems: `writen_isPrefix`, `stream_isPrefix`, `stream_eq_flatten`, `records_isPrefix`.
-/
import TuningMod.Lib.Records
import Mathlib.Data.List.Infix
import Mathlib.Tactic.Common

namespace TuningMod
namespace ShortWrites

/-- What a call of `write` does while the stream is not broken. -/
inductive Call where
  | interrupted
  /-- The call takes `n` elements, or all that are left. -/
  | takes (n : { n : ℕ // 0 < n })

variable {α : Type*}

/-- The loop over the calls: what gets into the stream, and the calls left for later messages. -/
def writen : List Call → List α → List α × List Call
  | cs, [] => ([], cs)
  | [], _ :: _ => ([], [])
  | .interrupted :: cs, a :: as => writen cs (a :: as)
  | .takes n :: cs, a :: as =>
    let (out, rest) := writen cs ((a :: as).drop n)
    ((a :: as).take n ++ out, rest)

/-- What gets into the stream of the messages `ms`, written one after the other. -/
def stream : List Call → List (List α) → List α
  | _, [] => []
  | cs, m :: ms => (writen cs m).1 ++ stream (writen cs m).2 ms

variable {cs : List Call} {as : List α} {m : List α} {ms : List (List α)}

@[simp] theorem writen_nil (cs : List Call) : writen cs ([] : List α) = ([], cs) := by
  cases cs with
  | nil => rfl
  | cons c cs => cases c <;> rfl

/-- A message that is cut off is cut off at its end. -/
theorem writen_isPrefix : ∀ (cs : List Call) (as : List α), (writen cs as).1 <+: as
  | cs, [] => by rw [writen_nil]
  | [], _ :: _ => List.nil_prefix
  | .interrupted :: cs, a :: as => writen_isPrefix cs (a :: as)
  | .takes n :: cs, a :: as => by
    have ih := writen_isPrefix cs ((a :: as).drop n)
    show (a :: as).take n ++ (writen cs ((a :: as).drop n)).1 <+: a :: as
    calc (a :: as).take n ++ (writen cs ((a :: as).drop n)).1
        <+: (a :: as).take n ++ (a :: as).drop n := (List.prefix_append_right_inj _).mpr ih
      _ = a :: as := List.take_append_drop n (a :: as)

/-- After a message that is cut off nothing can be written. -/
theorem writen_left : ∀ (cs : List Call) (as : List α), (writen cs as).1 ≠ as → (writen cs as).2 = []
  | cs, [], h => absurd (by rw [writen_nil]) h
  | [], _ :: _, _ => rfl
  | .interrupted :: cs, a :: as, h => writen_left cs (a :: as) h
  | .takes n :: cs, a :: as, h => by
    refine writen_left cs ((a :: as).drop n) fun heq => h ?_
    show (a :: as).take n ++ (writen cs ((a :: as).drop n)).1 = a :: as
    rw [heq, List.take_append_drop]

theorem stream_nil_calls (ms : List (List α)) : stream [] ms = [] := by
  induction ms with
  | nil => rfl
  | cons m ms ih => cases m <;> simp [stream, writen, ih]

/-- **The stream is cut off at some point.** -/
theorem stream_isPrefix (ms : List (List α)) : ∀ cs : List Call, stream cs ms <+: ms.flatten := by
  induction ms with
  | nil => exact fun _ => List.nil_prefix
  | cons m ms ih =>
    intro cs
    rw [stream, List.flatten_cons]
    by_cases hm : (writen cs m).1 = m
    · rw [hm]
      exact (List.prefix_append_right_inj m).mpr (ih _)
    · rw [writen_left cs m hm, stream_nil_calls, List.append_nil]
      exact (writen_isPrefix cs m).trans (List.prefix_append m ms.flatten)

/-- With a call for each element nothing is cut off. -/
theorem writen_takes : ∀ (cs : List Call) (as : List α) (k : ℕ),
    as.length ≤ k → k ≤ cs.countP (fun c => c matches .takes _) →
      (writen cs as).1 = as ∧ k - as.length ≤ (writen cs as).2.countP (fun c => c matches .takes _)
  | cs, [], k, _, hc => by
    rw [writen_nil]
    exact ⟨rfl, hc⟩
  | [], _ :: _, k, hk, hc => by
    simp only [List.countP_nil, Nat.le_zero] at hc
    simp [hc] at hk
  | .interrupted :: cs, a :: as, k, hk, hc => writen_takes cs (a :: as) k hk (by simpa using hc)
  | .takes n :: cs, a :: as, k, hk, hc => by
    have hn := n.2
    have hlen : ((a :: as).drop n).length = (a :: as).length - n := List.length_drop
    have hcs : k - 1 ≤ cs.countP (fun c => c matches .takes _) := by
      rw [List.countP_cons] at hc
      simp only [if_true] at hc
      omega
    obtain ⟨hout, hrest⟩ := writen_takes cs ((a :: as).drop n) (k - 1)
      (by rw [hlen, List.length_cons] at *; omega) hcs
    constructor
    · show (a :: as).take n ++ (writen cs ((a :: as).drop n)).1 = a :: as
      rw [hout, List.take_append_drop]
    · show k - (a :: as).length ≤ (writen cs ((a :: as).drop n)).2.countP _
      rw [hlen, List.length_cons] at *
      omega

/-- With a call for each element of the messages the stream is the messages. -/
theorem stream_eq_flatten (ms : List (List α)) : ∀ cs : List Call,
    ms.flatten.length ≤ cs.countP (fun c => c matches .takes _) → stream cs ms = ms.flatten := by
  induction ms with
  | nil => exact fun _ _ => rfl
  | cons m ms ih =>
    intro cs hc
    rw [List.flatten_cons, List.length_append] at hc
    obtain ⟨hout, hrest⟩ := writen_takes cs m _ (Nat.le_add_right _ _) hc
    rw [stream, hout, List.flatten_cons, ih _ (by omega)]

/-- **The first messages are read.** Messages of one length, cut off somewhere:
the complete records are the first messages. -/
theorem records_isPrefix {k : ℕ} (hk : 0 < k) : ∀ {ms : List (List α)} {s : List α},
    (∀ m ∈ ms, m.length = k) → s <+: ms.flatten → records k s = ms.take (s.length / k)
  | [], s, _, hs => by
    obtain rfl : s = [] := List.prefix_nil.mp hs
    rw [Records.records_of_lt hk, List.take_nil]
  | m :: ms, s, hms, hs => by
    have hm : m.length = k := hms m List.mem_cons_self
    rw [List.flatten_cons] at hs
    rcases Nat.lt_or_ge s.length k with hlt | hge
    · rw [Records.records_of_lt hlt, Nat.div_eq_of_lt hlt, List.take_zero]
    · obtain ⟨t, rfl⟩ : m <+: s := List.prefix_of_prefix_length_le (List.prefix_append m _) hs (hm ▸ hge)
      have ht : t <+: ms.flatten := (List.prefix_append_right_inj m).mp hs
      rw [Records.records_of_le hk hge, List.take_left' hm, List.drop_left' hm,
        records_isPrefix hk (fun m' hm' => hms m' (List.mem_cons_of_mem m hm')) ht, List.length_append, hm,
        Nat.add_div_left _ hk, List.take_succ_cons]

end ShortWrites
end TuningMod

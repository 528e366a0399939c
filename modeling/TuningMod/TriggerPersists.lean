/-
# Messages about congestion that persisted

A trigger timer is armed by a congested sample and is meant to expire only if
the congestion lasts. The theorem is about a run and all its completions by
timer expiries: a QINFO is sent only if every sample since the timer was armed
was over the timer's thresholds, exactly if each sample that ends the
congestion a timer was armed for disarms that timer. Two kinds of samples do
not: with '-r' on, a full queue without a long delay keeps `qOCC_Hop_TimerID`
running; with '-r' off, or the flag clear, `qOCC_TimerID` is not disarmed.

Key definitions: `SampledOver`, `SentOnlyIfPersisted`, `EndsCongestion`.
Key theorems: `over_step`, `not_over_of_not_ends`, `congestion_persisted`.
-/
import TuningMod.TriggerSends
import TuningMod.TriggerTimers

namespace TuningMod
namespace Trigger

/-! ### Congestion that persists -/

def isExpiry : TriggerEvent → Bool
  | .qOCCHopTimer | .qOCCTimer | .qEvaluationTimer => true
  | _ => false

/-- Every sample from step `n` on was `above` the thresholds then in force. -/
def SampledOver (above : Thresholds → IntHopMetadata → Bool) (es : List TriggerEvent) (n : ℕ) : Prop :=
  ∀ i k md, n ≤ i → es[i]? = some (.sample k md) → above (thresholdsAfter (es.take i)) md = true

/-- If the step is a trigger timer's expiry and sends a message, every sample
since that timer was armed was over the timer's thresholds. -/
def SentOnlyIfPersisted (kafka : Bool) (es : List TriggerEvent) (t : Trigger) (e : TriggerEvent) : Prop :=
  ∀ t' n, t.step kafka e = some t' → t'.sent ≠ t.sent →
    (e = .qOCCHopTimer → t.qOCCHopTimerID = some n → SampledOver Thresholds.overBoth es n) ∧
    (e = .qOCCTimer → t.qOCCTimerID = some n → SampledOver Thresholds.overQueue es n)

/-- A sample that is not over the thresholds of an armed timer takes the branch
that cancels, with the flag set and, for `qOCC_TimerID`, with '-r' on. -/
def EndsCongestion (t : Trigger) (e : TriggerEvent) : Prop :=
  ∀ k md, e = .sample k md →
    (t.qOCCHopTimerID.isSome = true → t.thresholds.overBoth md = false →
      t.vqTimerIsSet = true ∧ (t.vUseRetransmissionRate && t.thresholds.overQueue md) = false) ∧
    (t.qOCCTimerID.isSome = true → t.thresholds.overQueue md = false →
      t.vqTimerIsSet = true ∧ t.vUseRetransmissionRate = true)

section Persisted

variable {kafka : Bool} {t t' : Trigger} {e : TriggerEvent} {pre : List TriggerEvent} {n : ℕ}
  {above : Thresholds → IntHopMetadata → Bool}

theorem SampledOver.snoc (h : SampledOver above pre n)
    (he : ∀ k md, e = .sample k md → above (thresholdsAfter pre) md = true) :
    SampledOver above (pre ++ [e]) n := by
  intro i k md hi hk
  rcases Nat.lt_or_ge i pre.length with hlt | hge
  · rw [List.getElem?_append_left hlt] at hk
    rw [List.take_append_of_le_length (Nat.le_of_lt hlt)]
    exact h i k md hi hk
  · have hlen : i < pre.length + 1 := by simpa using (List.getElem?_eq_some_iff.mp hk).1
    obtain rfl : i = pre.length := by omega
    rw [List.getElem?_concat_length] at hk
    rw [List.take_left]
    exact he k md (Option.some.inj hk)

/-- One more sample that was over the thresholds. -/
theorem SampledOver.sample {k : HopKey} {md : IntHopMetadata} (h : SampledOver above pre n)
    (ha : above (thresholdsAfter pre) md = true) : SampledOver above (pre ++ [.sample k md]) n := by
  refine h.snoc fun k' md' he => ?_
  cases he
  exact ha

theorem SampledOver.last {k : HopKey} {md : IntHopMetadata}
    (h : SampledOver above (pre ++ [.sample k md]) n) (hn : n ≤ pre.length) :
    above (thresholdsAfter pre) md = true := by
  have hl := h pre.length k md hn (List.getElem?_concat_length ..)
  rwa [List.take_left] at hl

theorem SampledOver.of_append {fs : List TriggerEvent} (h : SampledOver above (pre ++ fs) n) :
    SampledOver above pre n := by
  intro i k md hi hk
  have hlt := (List.getElem?_eq_some_iff.mp hk).1
  have hl := h i k md hi (by rw [List.getElem?_append_left hlt, hk])
  rwa [List.take_append_of_le_length (Nat.le_of_lt hlt)] at hl

/-- Nothing was sampled yet at the end of the run. -/
theorem sampledOver_length (above : Thresholds → IntHopMetadata → Bool) (pre : List TriggerEvent) :
    SampledOver above pre pre.length := by
  intro i k md hi hk
  have hlt := (List.getElem?_eq_some_iff.mp hk).1
  omega

/-- An armed timer was armed in the past. -/
theorem armed_past (hr : Runs.run (step kafka) {} pre = some t) :
    (∀ n, t.qOCCHopTimerID = some n → n < pre.length) ∧
      (∀ n, t.qOCCTimerID = some n → n < pre.length) := by
  refine Runs.history_inv (P := fun pre t => (∀ n, t.qOCCHopTimerID = some n → n < pre.length) ∧
    (∀ n, t.qOCCTimerID = some n → n < pre.length)) (by simp) (fun pre t e t' hr hp hs => ?_) hr
  have hlen : (pre ++ [e]).length = pre.length + 1 := by simp
  have hnow : t.now = pre.length := run_now hr
  obtain ⟨hhop, hq⟩ := hp
  rw [hlen]
  cases step_timers hs with
  | armHop _ _ h1 h2 =>
    rw [h1, h2]
    exact ⟨fun n hn => by cases hn; omega, fun n hn => Nat.lt_succ_of_lt (hq n hn)⟩
  | armQOcc _ _ _ _ h1 h2 =>
    rw [h1, h2]
    exact ⟨fun n hn => Nat.lt_succ_of_lt (hhop n hn), fun n hn => by cases hn; omega⟩
  | cancel _ _ h1 h2 =>
    rw [h1, h2]
    refine ⟨fun n hn => (by cases hn), fun n hn => ?_⟩
    split at hn
    · cases hn
    · exact Nat.lt_succ_of_lt (hq n hn)
  | keep _ h1 h2 | other _ h1 h2 =>
    rw [h1, h2]
    exact ⟨fun n hn => Nat.lt_succ_of_lt (hhop n hn), fun n hn => Nat.lt_succ_of_lt (hq n hn)⟩
  | hopExpiry _ h1 h2 =>
    rw [h1, h2]
    exact ⟨fun n hn => (by cases hn), fun n hn => Nat.lt_succ_of_lt (hq n hn)⟩
  | qOccExpiry _ h1 h2 =>
    rw [h1, h2]
    exact ⟨fun n hn => Nat.lt_succ_of_lt (hhop n hn), fun n hn => (by cases hn)⟩
  | idle _ h1 h2 =>
    rw [h1, h2]
    exact ⟨fun n hn => (by cases hn), fun n hn => (by cases hn)⟩

/-! ### Runs whose samples end the congestion -/

/-- The thresholds of each armed timer were exceeded since it was armed. -/
structure Over (es : List TriggerEvent) (t : Trigger) : Prop where
  hop : ∀ n, t.qOCCHopTimerID = some n → SampledOver Thresholds.overBoth es n
  qOcc : ∀ n, t.qOCCTimerID = some n → SampledOver Thresholds.overQueue es n

theorem over_initial : Over [] {} where
  hop := by simp
  qOcc := by simp

/-- A step without a sample adds nothing to a timer it leaves alone. -/
theorem Over.keep (h : Over pre t) (hhop : ∀ n, t'.qOCCHopTimerID = some n → t.qOCCHopTimerID = some n)
    (hq : ∀ n, t'.qOCCTimerID = some n → t.qOCCTimerID = some n) (hne : ∀ k md, e ≠ .sample k md) :
    Over (pre ++ [e]) t' where
  hop n hn := (h.hop n (hhop n hn)).snoc fun k md he => absurd he (hne k md)
  qOcc n hn := (h.qOcc n (hq n hn)).snoc fun k md he => absurd he (hne k md)

/-- A sample that leaves the timers as they are is over the thresholds of each
that is armed. -/
theorem EndsCongestion.kept {k : HopKey} {md : IntHopMetadata} (hc : EndsCongestion t (.sample k md))
    (hg : t.congested md = t.vqTimerIsSet) :
    (t.qOCCHopTimerID.isSome = true → t.thresholds.overBoth md = true) ∧
      (t.qOCCTimerID.isSome = true → t.thresholds.overQueue md = true) := by
  obtain ⟨hhop, hq⟩ := hc k md rfl
  constructor
  · intro ha
    by_contra hb
    rw [Bool.not_eq_true] at hb
    obtain ⟨hf, hu⟩ := hhop ha hb
    rw [congested, hb, hu, hf] at hg
    exact Bool.false_ne_true hg
  · intro ha
    by_contra hn
    rw [Bool.not_eq_true] at hn
    have hb : t.thresholds.overBoth md = false := by
      by_contra hb
      rw [Bool.not_eq_false] at hb
      rw [Thresholds.overQueue_of_overBoth _ hb] at hn
      exact absurd hn.symm Bool.false_ne_true
    have hf := (hq ha hn).1
    rw [congested, hb, hn, hf, Bool.and_false] at hg
    exact Bool.false_ne_true hg

/-- A sample that ends the congestion of an armed timer disarms it. -/
theorem over_step (hr : Runs.run (step kafka) {} pre = some t) (h : Over pre t)
    (hc : EndsCongestion t e) (hs : TimerStep t t' e) : Over (pre ++ [e]) t' := by
  have hth : t.thresholds = thresholdsAfter pre := run_thresholds hr
  have hnow : t.now = pre.length := run_now hr
  cases hs with
  | @armHop k md hb hf h1 h2 h3 h4 =>
    refine ⟨fun n hn => ?_, fun n hn => ?_⟩
    · obtain rfl : t.now = n := by simpa [h1] using hn
      rw [hnow]
      exact (sampledOver_length _ pre).sample (hth ▸ hb)
    · exact (h.qOcc n (h2 ▸ hn)).sample (hth ▸ Thresholds.overQueue_of_overBoth _ hb)
  | @armQOcc k md hb hu hq hf h1 h2 h3 h4 =>
    refine ⟨fun n hn => ?_, fun n hn => ?_⟩
    · -- a hop timer armed here would have to be cancelled, and this branch arms
      rw [h1] at hn
      have hset : t.vqTimerIsSet = true := ((hc k md rfl).1 (Option.isSome_of_eq_some hn) hb).1
      rw [hf] at hset
      exact absurd hset Bool.false_ne_true
    · obtain rfl : t.now = n := by simpa [h2] using hn
      rw [hnow]
      exact (sampledOver_length _ pre).sample (hth ▸ hq)
  | @cancel k md hg hf h1 h2 h3 h4 =>
    refine ⟨fun n hn => (by rw [h1] at hn; cases hn), fun n hn => ?_⟩
    rw [h2] at hn
    by_cases hu : t.vUseRetransmissionRate = true
    · rw [if_pos hu] at hn
      cases hn
    · rw [if_neg hu] at hn
      have hover : t.thresholds.overQueue md = true := by
        by_contra hq
        rw [Bool.not_eq_true] at hq
        exact hu ((hc k md rfl).2 (Option.isSome_of_eq_some hn) hq).2
      rw [hth] at hover
      exact (h.qOcc n hn).sample hover
  | @keep k md hg h1 h2 h3 h4 =>
    obtain ⟨hhop, hq⟩ := hc.kept hg
    rw [hth] at hhop hq
    refine ⟨fun n hn => ?_, fun n hn => ?_⟩
    · rw [h1] at hn
      exact (h.hop n hn).sample (hhop (Option.isSome_of_eq_some hn))
    · rw [h2] at hn
      exact (h.qOcc n hn).sample (hq (Option.isSome_of_eq_some hn))
  | hopExpiry _ h1 h2 =>
    refine h.keep (fun n hn => ?_) (fun n hn => h2 ▸ hn) (by simp)
    rw [h1] at hn
    cases hn
  | qOccExpiry _ h1 h2 =>
    refine h.keep (fun n hn => h1 ▸ hn) (fun n hn => ?_) (by simp)
    rw [h2] at hn
    cases hn
  | idle _ h1 h2 =>
    refine h.keep (fun n hn => ?_) (fun n hn => ?_) (by simp)
    · rw [h1] at hn
      cases hn
    · rw [h2] at hn
      cases hn
  | other hne h1 h2 => exact h.keep (fun n hn => h1 ▸ hn) (fun n hn => h2 ▸ hn) hne

/-- A message is sent about congestion that persisted. -/
theorem Over.sentOnlyIfPersisted (h : Over pre t) : SentOnlyIfPersisted kafka pre t e :=
  fun _ n _ _ => ⟨fun _ hn => h.hop n hn, fun _ hn => h.qOcc n hn⟩

/-! ### Runs with a sample that does not -/

/-- With an armed trigger timer, expiries alone lead to its message. -/
theorem sends_later {x : TriggerEvent} {m : Produce} (hr : Runs.run (step kafka) {} pre = some t)
    (hm : t.congestionMsg x = some m) :
    ∃ xs u u', (∀ y ∈ xs, isExpiry y = true) ∧ Runs.run (step kafka) {} (pre ++ xs) = some u ∧
      u.qOCCHopTimerID = t.qOCCHopTimerID ∧ u.qOCCTimerID = t.qOCCTimerID ∧
      u.step kafka x = some u' ∧ u'.sent ≠ u.sent := by
  -- with the evaluation timer over, the expiry sends
  have hsend : ∀ u : Trigger, u.congestionMsg x = some m → u.vCanStartEvaluationTimer = true →
      ∃ u', u.step kafka x = some u' ∧ u'.sent ≠ u.sent := by
    intro u hu hcan
    obtain ⟨u', hs⟩ := step_expiry_some kafka hu
    refine ⟨u', hs, ?_⟩
    cases step_sends hs with
    | congestion m' _ _ h3 => rw [h3]; simp
    | release m' _ _ h3 => rw [h3]; simp
    | restart h1 => rw [hu] at h1; cases h1
    | quiet h1 =>
      rw [hu, hcan] at h1
      rcases h1 with h1 | h1 <;> cases h1
  by_cases hcan : t.vCanStartEvaluationTimer = true
  · obtain ⟨u', hs, hne⟩ := hsend t hm hcan
    exact ⟨[], t, u', by simp, by simpa using hr, rfl, rfl, hs, hne⟩
  · -- the evaluation timer is armed: let it expire first
    have ha := evaluation_armed hr (Bool.not_eq_true _ ▸ hcan)
    obtain ⟨u, hu⟩ := step_qEvaluationTimer_some kafka ha
    obtain ⟨_, rfl⟩ := step_qEvaluationTimer hu
    have hm' : Trigger.congestionMsg { t with
        qEvaluationTimerID := none, vCanStartEvaluationTimer := true, now := t.now + 1 } x = some m := by
      cases x <;> exact hm
    obtain ⟨u', hs, hne⟩ := hsend _ hm' rfl
    exact ⟨[.qEvaluationTimer], _, u', by simp [isExpiry], (Runs.run_snoc_iff _).mpr ⟨t, hr, hu⟩,
      rfl, rfl, hs, hne⟩

/-- A completion in which no message is sent too early was over the thresholds. -/
theorem over_of_completions (hr : Runs.run (step kafka) {} pre = some t)
    (h : ∀ xs, (∀ x ∈ xs, isExpiry x = true) →
      Runs.Steps (step kafka) {} (SentOnlyIfPersisted kafka) (pre ++ xs)) : Over pre t := by
  have hlast : ∀ x m, t.congestionMsg x = some m → isExpiry x = true →
      ∃ (xs : List TriggerEvent) (u : Trigger), u.qOCCHopTimerID = t.qOCCHopTimerID ∧ u.qOCCTimerID = t.qOCCTimerID ∧
        ∀ n, (x = .qOCCHopTimer → u.qOCCHopTimerID = some n → SampledOver Thresholds.overBoth (pre ++ xs) n) ∧
          (x = .qOCCTimer → u.qOCCTimerID = some n → SampledOver Thresholds.overQueue (pre ++ xs) n) := by
    intro x m hm hx
    obtain ⟨xs, u, u', hxs, hru, hh, hq, hs, hne⟩ := sends_later hr hm
    have hall : ∀ y ∈ xs ++ [x], isExpiry y = true := by
      intro y hy
      rcases List.mem_append.mp hy with hy | hy
      · exact hxs y hy
      · rw [List.mem_singleton.mp hy, hx]
    exact ⟨xs, u, hh, hq, fun n => h _ hall (pre ++ xs) x [] u u' (by simp) hru hs u' n hs hne⟩
  refine ⟨fun n hn => ?_, fun n hn => ?_⟩
  · have hm : t.congestionMsg .qOCCHopTimer = some (.qOCCHopTimerIDHandler t.sqOCCTimerIDData) :=
      if_pos (Option.isSome_of_eq_some hn)
    obtain ⟨xs, u, hh, _, hu⟩ := hlast .qOCCHopTimer _ hm rfl
    exact ((hu n).1 rfl (hh.trans hn)).of_append
  · have hm : t.congestionMsg .qOCCTimer = some (.qOCCTimerIDHandler t.sqOCCTimerIDData) :=
      if_pos (Option.isSome_of_eq_some hn)
    obtain ⟨xs, u, _, hq, hu⟩ := hlast .qOCCTimer _ hm rfl
    exact ((hu n).2 rfl (hq.trans hn)).of_append

/-- A sample that does not end the congestion of an armed timer leaves it armed,
and is not over its thresholds. -/
theorem not_over_of_not_ends (hr : Runs.run (step kafka) {} pre = some t)
    (hs : t.step kafka e = some t') (hc : ¬ EndsCongestion t e) : ¬ Over (pre ++ [e]) t' := by
  intro h
  refine hc fun k md he => ?_
  subst he
  have hth : t.thresholds = thresholdsAfter pre := run_thresholds hr
  obtain ⟨hpasth, hpastq⟩ := armed_past hr
  refine ⟨fun ha hb => ?_, fun ha hq => ?_⟩
  · obtain ⟨n, hn⟩ := Option.isSome_iff_exists.mp ha
    by_contra hx
    have harmed : t'.qOCCHopTimerID = some n := by
      cases step_timers hs with
      | armHop hb' => rw [hb] at hb'; cases hb'
      | armQOcc _ _ _ _ h1 => rw [h1, hn]
      | cancel hg hf => exact absurd ⟨hf, (Bool.or_eq_false_iff.mp hg).2⟩ hx
      | keep _ h1 => rw [h1, hn]
      | other hne => exact absurd rfl (hne k md)
    have hover := (h.hop n harmed).last (Nat.le_of_lt (hpasth n hn))
    rw [← hth, hb] at hover
    exact Bool.false_ne_true hover
  · obtain ⟨n, hn⟩ := Option.isSome_iff_exists.mp ha
    by_contra hx
    have harmed : t'.qOCCTimerID = some n := by
      cases step_timers hs with
      | armHop hb' => rw [Thresholds.overQueue_of_overBoth _ hb'] at hq; cases hq
      | armQOcc _ _ hq' => rw [hq] at hq'; cases hq'
      | cancel _ hf _ h2 =>
        rw [h2, if_neg (fun hu => hx ⟨hf, hu⟩), hn]
      | keep _ _ h2 => rw [h2, hn]
      | other hne => exact absurd rfl (hne k md)
    have hover := (h.qOcc n harmed).last (Nat.le_of_lt (hpastq n hn))
    rw [← hth, hq] at hover
    exact Bool.false_ne_true hover

end Persisted

/-- **Messages about congestion that persisted.** In a run, and in each of its
prefixes continued by timer expiries, every QINFO is about congestion that
persisted since its timer was armed, exactly if every sample of the run that
ends the congestion of an armed timer takes the branch that disarms it. -/
theorem congestion_persisted (kafka : Bool) (es : List TriggerEvent) :
    (∀ pre suf xs, es = pre ++ suf → (∀ x ∈ xs, isExpiry x = true) →
        Runs.Steps (step kafka) {} (SentOnlyIfPersisted kafka) (pre ++ xs)) ↔
      Runs.Steps (step kafka) {} (fun _ t e => EndsCongestion t e) es := by
  constructor
  · intro h pre e suf t t' he hr hs
    by_contra hc
    have hr' : Runs.run (step kafka) {} (pre ++ [e]) = some t' := (Runs.run_snoc_iff _).mpr ⟨t, hr, hs⟩
    exact not_over_of_not_ends hr hs hc
      (over_of_completions hr' fun xs hxs => h (pre ++ [e]) suf xs (by simpa using he) hxs)
  · intro h pre suf xs he hxs
    subst he
    -- expiries are no samples
    have hends : Runs.Steps (step kafka) {} (fun _ t e => EndsCongestion t e) (pre ++ xs) := by
      refine h.of_append.append fun x hx _ t k md hs => ?_
      have hex := hxs x hx
      rw [hs] at hex
      cases hex
    have hover : Runs.Always (step kafka) {} Over (pre ++ xs) :=
      Runs.always_of_steps over_initial (fun _ _ _ _ hr ho hc hs => over_step hr ho hc (step_timers hs)) hends
    intro pre' e suf' t t' he hr _
    exact (hover pre' (e :: suf') t he hr).sentOnlyIfPersisted

/-! ### Runs that send too early -/

/-- The delay is over after the first sample, the queue is still full. -/
def shortDelay : List TriggerEvent :=
  [.useRetransmissionRate true, sampleFrom 1 1000 900000, sampleFrom 1 1000 10, .qOCCHopTimer]

/-- '-r' is on when the queue fills, off when it is empty again. -/
def emptyQueue : List TriggerEvent :=
  [.useRetransmissionRate true, sampleFrom 1 1000 10, .useRetransmissionRate false, sampleFrom 1 10 10,
    .qOCCTimer]

/-- Both handlers send a QINFO although the congestion was over. -/
theorem sent_too_early : ¬ Runs.Steps (step false) {} (SentOnlyIfPersisted false) shortDelay ∧
    ¬ Runs.Steps (step false) {} (SentOnlyIfPersisted false) emptyQueue := by
  constructor
  · intro h
    have hrun : ∃ t t', Runs.run (step false) {} (shortDelay.take 3) = some t ∧
        t.step false .qOCCHopTimer = some t' ∧ t'.sent ≠ t.sent ∧ t.qOCCHopTimerID = some 1 :=
      ⟨_, _, rfl, rfl, by decide, rfl⟩
    obtain ⟨t, t', hr, hs, hne, hn⟩ := hrun
    have hover := (h (shortDelay.take 3) .qOCCHopTimer [] t t' rfl hr hs t' 1 hs hne).1 rfl hn
    exact absurd (hover 2 _ _ (by decide) rfl) (by decide)
  · intro h
    have hrun : ∃ t t', Runs.run (step false) {} (emptyQueue.take 4) = some t ∧
        t.step false .qOCCTimer = some t' ∧ t'.sent ≠ t.sent ∧ t.qOCCTimerID = some 1 :=
      ⟨_, _, rfl, rfl, by decide, rfl⟩
    obtain ⟨t, t', hr, hs, hne, hn⟩ := hrun
    have hover := (h (emptyQueue.take 4) .qOCCTimer [] t t' rfl hr hs t' 1 hs hne).2 rfl hn
    exact absurd (hover 3 _ _ (by decide) rfl) (by decide)

end Trigger
end TuningMod

/-
# The hops of one report

`sample_func` goes through the hop records of an INT report one by one, and
each of them may arm, keep or cancel the one trigger timer there is. Without a
timer at first, the last hop decides whether one is armed in the end
(`armed_snoc`): the record `curr_hop_key_hop_index` of the hop that armed it is
not looked at. So the order of the hops is irrelevant exactly if all of them
are congested or none is.

Key definitions: `Trigger.hopLoop`, `Trigger.sampleReport`, `Trigger.armed`, `Trigger.AfterHops`.
Key theorems: `run_report`, `afterHops_step`, `armed_snoc`, `hop_order`.
-/
import TuningMod.TriggerTimers

namespace TuningMod
namespace Trigger

/-- The hop loop of `sample_func`, each record a step. -/
def hopLoop : Trigger → HopKey → List IntHopMetadata → Trigger
  | t, _, [] => t
  | t, hopKey, md :: mds =>
    hopLoop { t.sampleFunc hopKey md with now := t.now + 1 } { hopKey with hopIndex := hopKey.hopIndex + 1 } mds

/-- `sample_func` on a report. -/
def sampleReport (t : Trigger) (flowKey : FlowKey) (mds : List IntHopMetadata) : Trigger :=
  t.hopLoop { flowKey := flowKey, hopIndex := 0 } mds

/-- A trigger timer is armed. -/
def armed (t : Trigger) : Bool := t.qOCCHopTimerID.isSome || t.qOCCTimerID.isSome

/-- The events of the hops from `hopKey` on. -/
def hopEvents : HopKey → List IntHopMetadata → List TriggerEvent
  | _, [] => []
  | hopKey, md :: mds => .sample hopKey md :: hopEvents { hopKey with hopIndex := hopKey.hopIndex + 1 } mds

/-- A report is a run of its hops. -/
theorem run_hops (kafka : Bool) (t : Trigger) (hopKey : HopKey) (mds : List IntHopMetadata) :
    Runs.run (step kafka) t (hopEvents hopKey mds) = some (t.hopLoop hopKey mds) := by
  induction mds generalizing t hopKey with
  | nil => rfl
  | cons md mds ih => exact ih _ _

theorem run_report (kafka : Bool) (t : Trigger) (flowKey : FlowKey) (mds : List IntHopMetadata) :
    Runs.run (step kafka) t (hopEvents { flowKey := flowKey, hopIndex := 0 } mds) =
      some (t.sampleReport flowKey mds) := run_hops kafka t _ mds

/-- The last hop is a step from where the others lead. -/
theorem hopLoop_snoc (kafka : Bool) (t : Trigger) (hopKey : HopKey) (mds : List IntHopMetadata)
    (md : IntHopMetadata) : ∃ k, (t.hopLoop hopKey mds).step kafka (.sample k md) =
      some (t.hopLoop hopKey (mds ++ [md])) := by
  induction mds generalizing t hopKey with
  | nil => exact ⟨hopKey, rfl⟩
  | cons m mds ih => exact ih _ _

/-- The flag stands without a timer behind it, and every hop has left it so. -/
def Ghost (t : Trigger) (mds : List IntHopMetadata) : Prop :=
  t.vqTimerIsSet = true ∧ ∀ md ∈ mds, t.congested md = true

/-- The trigger after the hops `mds`, from `t` without a timer. -/
structure AfterHops (t : Trigger) (mds : List IntHopMetadata) (u : Trigger) : Prop where
  congested : ∀ md, u.congested md = t.congested md
  flag : u.armed = true → u.vqTimerIsSet = true
  retrans : u.qOCCTimerID.isSome = true → u.vUseRetransmissionRate = true
  ghost : u.vqTimerIsSet = true ∧ u.armed = false ↔ t.Ghost mds

section Report

variable {kafka : Bool} {t u u' : Trigger} {k : HopKey} {md : IntHopMetadata} {mds : List IntHopMetadata}

theorem ghost_snoc : t.Ghost (mds ++ [md]) ↔ t.Ghost mds ∧ t.congested md = true := by
  simp [Ghost, or_imp, forall_and, and_assoc]

theorem step_sample_settings (h : u.step kafka (.sample k md) = some u') :
    u'.thresholds = u.thresholds ∧ u'.vUseRetransmissionRate = u.vUseRetransmissionRate := by
  rw [step_sample h, sampleFunc]
  unfold hopTrigger evaluateQOccAndHopDelay evaluateQOccUserInfo resetPacing cancelTimers
  dsimp only
  split_ifs <;> exact ⟨rfl, rfl⟩

theorem afterHops_nil (h : t.armed = false) : AfterHops t [] t where
  congested := fun _ => rfl
  flag := by simp [h]
  retrans := by
    obtain ⟨-, hq⟩ := Bool.or_eq_false_iff.mp h
    simp [hq]
  ghost := by simp [Ghost, h]

/-- The uncongested branch leaves no timer armed. -/
theorem AfterHops.cancelled (h : AfterHops t mds u) (hhop : u'.qOCCHopTimerID = none)
    (hq : u'.qOCCTimerID = if u.vUseRetransmissionRate then none else u.qOCCTimerID) : u'.armed = false := by
  have hnone : u'.qOCCTimerID = none := by
    rw [hq]
    split_ifs with hu
    · rfl
    · exact Option.not_isSome_iff_eq_none.mp (mt h.retrans hu)
  rw [armed, hhop, hnone]
  rfl

theorem armed_congr (hhop : u'.qOCCHopTimerID = u.qOCCHopTimerID) (hq : u'.qOCCTimerID = u.qOCCTimerID) :
    u'.armed = u.armed := by
  rw [armed, hhop, hq, armed]

/-- One more hop: a timer is armed afterwards exactly if it is congested. -/
theorem armed_step (h : AfterHops t mds u) (hs : u.step kafka (.sample k md) = some u') :
    u'.armed = true ↔ t.congested md = true ∧ ¬ t.Ghost mds := by
  have hflag : u.vqTimerIsSet = false → ¬ t.Ghost mds := fun hf hg => by
    rw [(h.ghost.mpr hg).1] at hf
    exact Bool.false_ne_true hf.symm
  rw [← h.congested]
  cases sample_timers hs with
  | armHop hb hf h1 _ _ _ => exact iff_of_true (by simp [armed, h1]) ⟨by simp [congested, hb], hflag hf⟩
  | armQOcc _ hu ho hf _ h2 _ _ =>
    exact iff_of_true (by simp [armed, h2]) ⟨by simp [congested, hu, ho], hflag hf⟩
  | cancel hc _ h1 h2 _ _ => simp [h.cancelled h1 h2, hc]
  | keep hc h1 h2 _ _ =>
    rw [armed_congr h1 h2, hc, ← h.ghost]
    have hf := h.flag
    cases ha : u.armed <;> cases hset : u.vqTimerIsSet <;> simp_all
  | other hne _ _ _ _ => exact absurd rfl (hne _ _)

theorem afterHops_step (h : AfterHops t mds u) (hs : u.step kafka (.sample k md) = some u') :
    AfterHops t (mds ++ [md]) u' := by
  obtain ⟨hth, huse⟩ := step_sample_settings hs
  have hcongested : ∀ md, u'.congested md = t.congested md := fun md => by
    rw [← h.congested, Trigger.congested, hth, huse, Trigger.congested]
  have harmed := armed_step h hs
  have hghost : t.Ghost mds → u.vqTimerIsSet = true := fun hg => (h.ghost.mpr hg).1
  cases sample_timers hs with
  | armHop hb hf h1 h2 h3 _ =>
    have ha : u'.armed = true := by simp [armed, h1]
    refine ⟨hcongested, fun _ => h3, by rw [h2, huse]; exact h.retrans, ?_⟩
    rw [ghost_snoc]
    exact iff_of_false (by simp [ha]) fun hg => (harmed.mp ha).2 hg.1
  | armQOcc _ hu ho hf h1 h2 h3 _ =>
    have ha : u'.armed = true := by simp [armed, h2]
    refine ⟨hcongested, fun _ => h3, fun _ => huse.trans hu, ?_⟩
    rw [ghost_snoc]
    exact iff_of_false (by simp [ha]) fun hg => (harmed.mp ha).2 hg.1
  | cancel hc hf h1 h2 h3 _ =>
    have ha : u'.armed = false := h.cancelled h1 h2
    obtain ⟨-, hq⟩ := Bool.or_eq_false_iff.mp ha
    refine ⟨hcongested, by simp [ha], by simp [hq], ?_⟩
    rw [ghost_snoc, ← h.congested, hc]
    exact iff_of_false (by simp [h3]) (by simp)
  | keep hc h1 h2 h3 _ =>
    have ha : u'.armed = u.armed := armed_congr h1 h2
    refine ⟨hcongested, by rw [ha, h3]; exact h.flag, by rw [h2, huse]; exact h.retrans, ?_⟩
    rw [ghost_snoc, ← h.congested, hc, ha, h3, h.ghost]
    exact ⟨fun hg => ⟨hg, hghost hg⟩, fun hg => hg.1⟩
  | other hne _ _ _ _ => exact absurd rfl (hne _ _)

theorem afterHops (h : t.armed = false) (hopKey : HopKey) (mds : List IntHopMetadata) :
    AfterHops t mds (t.hopLoop hopKey mds) := by
  induction mds using List.reverseRecOn with
  | nil => exact afterHops_nil h
  | append_singleton mds md ih =>
    obtain ⟨k, hs⟩ := hopLoop_snoc false t hopKey mds md
    exact afterHops_step ih hs

/-- **The last hop decides** whether a timer is armed after a report. -/
theorem armed_snoc (h : t.armed = false) (flowKey : FlowKey) :
    (t.sampleReport flowKey (mds ++ [md])).armed = true ↔ t.congested md = true ∧ ¬ t.Ghost mds := by
  obtain ⟨k, hs⟩ := hopLoop_snoc false t { flowKey := flowKey, hopIndex := 0 } mds md
  exact armed_step (afterHops h _ mds) hs

theorem armed_of_all (h : t.armed = false) (flowKey : FlowKey) (hall : ∀ md ∈ mds, t.congested md = true) :
    (t.sampleReport flowKey mds).armed = true ↔ mds ≠ [] ∧ t.vqTimerIsSet = false := by
  rcases List.eq_nil_or_concat mds with rfl | ⟨mds, md, rfl⟩
  · simp [sampleReport, hopLoop, h]
  · rw [List.concat_eq_append] at *
    have hg : t.Ghost mds ↔ t.vqTimerIsSet = true :=
      ⟨fun hg => hg.1, fun hf => ⟨hf, fun m hm => hall m (List.mem_append_left _ hm)⟩⟩
    rw [armed_snoc h, hg]
    simp [hall md (by simp)]

theorem armed_of_none (h : t.armed = false) (flowKey : FlowKey) (hnone : ∀ md ∈ mds, t.congested md = false) :
    (t.sampleReport flowKey mds).armed = false := by
  rcases List.eq_nil_or_concat mds with rfl | ⟨mds, md, rfl⟩
  · exact h
  · rw [List.concat_eq_append] at *
    rw [← Bool.not_eq_true, armed_snoc h]
    simp [hnone md (by simp)]

end Report

/-- **The order of the hops is irrelevant** exactly if all of them are
congested or none is, from any state without a timer. -/
theorem hop_order (t : Trigger) (h : t.armed = false) (flowKey : FlowKey) (mds : List IntHopMetadata) :
    (∀ mds', mds'.Perm mds → ((t.sampleReport flowKey mds').armed = true ↔
        (t.sampleReport flowKey mds).armed = true)) ↔
      (∀ md ∈ mds, t.congested md = true) ∨ ∀ md ∈ mds, t.congested md = false := by
  constructor
  · intro hperm
    by_contra hmixed
    obtain ⟨hsome, hother⟩ := not_or.mp hmixed
    simp only [not_forall] at hsome hother
    obtain ⟨b, hb, hbc⟩ := hsome
    obtain ⟨a, ha, hac⟩ := hother
    -- the same hops with a congested one at the end, and with an uncongested one
    obtain ⟨xs, ys, hxs⟩ := List.append_of_mem ha
    obtain ⟨zs, ws, hzs⟩ := List.append_of_mem hb
    have hlast : ∀ (c : IntHopMetadata) (l r : List IntHopMetadata), ((l ++ r) ++ [c]).Perm (l ++ c :: r) :=
      fun c l r => (List.perm_append_singleton c (l ++ r)).trans List.perm_middle.symm
    have harmed := hperm ((xs ++ ys) ++ [a]) (hxs ▸ hlast a xs ys)
    have hnot := hperm ((zs ++ ws) ++ [b]) (hzs ▸ hlast b zs ws)
    have hbin : b ∈ xs ++ ys := by
      have hne : b ≠ a := fun hba => hbc (by rw [hba]; simpa using hac)
      rw [hxs] at hb
      simpa [hne] using hb
    rw [armed_snoc h] at harmed hnot
    have hup : (t.sampleReport flowKey mds).armed = true :=
      harmed.mp ⟨by simpa using hac, fun hg => hbc (hg.2 b hbin)⟩
    exact hbc (hnot.mpr hup).1
  · rintro (hall | hnone) mds' hp
    · rw [armed_of_all h flowKey hall, armed_of_all h flowKey fun md hmd => hall md (hp.mem_iff.mp hmd)]
      have hnil : mds' = [] ↔ mds = [] :=
        ⟨fun he => by rw [he] at hp; exact hp.symm.eq_nil, fun he => by rw [he] at hp; exact hp.eq_nil⟩
      rw [Ne, hnil]
    · rw [armed_of_none h flowKey hnone, armed_of_none h flowKey fun md hmd => hnone md (hp.mem_iff.mp hmd)]

/-- Hops of a flow to 10.0.0.9: two over both thresholds, one below them. -/
def congestedHop : IntHopMetadata := { queueInfo := htonl 1000, ingressTime := 0, egressTime := htonl 900000 }
def busierHop : IntHopMetadata := { queueInfo := htonl 2000, ingressTime := 0, egressTime := htonl 700000 }
def clearHop : IntHopMetadata := { queueInfo := htonl 10, ingressTime := 0, egressTime := htonl 10 }
def reportedFlow : FlowKey := { srcIp := htonl 0x0a000001, dstIp := htonl 0x0a000009 }

theorem hop_order_congested :
    (sampleReport {} reportedFlow [busierHop, congestedHop]).armed = true ↔
      (sampleReport {} reportedFlow [congestedHop, busierHop]).armed = true :=
  (hop_order {} rfl reportedFlow [congestedHop, busierHop]).mpr (Or.inl (by decide +kernel)) _
    (List.Perm.swap _ _ _)

/-- An uncongested hop after a congested one cancels its timer; before it, it does not. -/
theorem hop_order_matters : ¬ ∀ mds', mds'.Perm [congestedHop, clearHop] →
    ((sampleReport {} reportedFlow mds').armed = true ↔
      (sampleReport {} reportedFlow [congestedHop, clearHop]).armed = true) := by
  intro h
  have hswapped := h [clearHop, congestedHop] (List.Perm.swap _ _ _)
  have harmed : (sampleReport {} reportedFlow [clearHop, congestedHop]).armed = true := by decide +kernel
  have hcancelled : (sampleReport {} reportedFlow [congestedHop, clearHop]).armed = false := by decide +kernel
  rw [hcancelled] at hswapped
  exact Bool.false_ne_true (hswapped.mp harmed)

end Trigger
end TuningMod

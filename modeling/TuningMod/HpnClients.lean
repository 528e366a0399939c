/-
# Which clients see a publication

All clients' threads wait for the same `hpnretcdone`, and the first that finds
it set takes the publication and clears it: a publication is delivered at most
once. So every client that is connected for all readings sees the publications
that such a client takes exactly if no other one is connected meanwhile.

Key definitions: `SeenByAll`, `TakenFromOther`.
Key theorems: `ordered_step`, `seen_by_all`.
-/
import TuningMod.Hpn
import Mathlib.Tactic.Common

namespace TuningMod
namespace Hpn

/-- A client that asked for all readings has taken publication `p`. -/
def Consumed (s : Hpn) (p : ℕ) : Prop := ∃ d ∈ s.delivered, d.readAll = true ∧ d.publication = p

/-- The passes that delivered publication `p`. -/
def deliveries (s : Hpn) (p : ℕ) : List HpnDelivery := s.delivered.filter fun d => d.publication = p

/-- Publication `p` has been delivered to the client exactly once. -/
def SeenOnce (s : Hpn) (p client : ℕ) : Prop :=
  ((s.deliveries p).filter fun d => d.client = client).length = 1

/-- A publication that is consumed has been delivered exactly once to each
client that is owed it, or the run can go on, with the client connected, until
it has been. -/
def SeenByAll (s : Hpn) : Prop :=
  ∀ p client, (p, client) ∈ s.owed → s.Consumed p →
    ∃ more s', (∀ e ∈ more, e ≠ .disconnect client) ∧ Runs.run step s more = some s' ∧ s'.SeenOnce p client

/-- A client takes a publication that another client is owed as well. -/
def TakenFromOther (s : Hpn) (e : HpnEvent) : Prop :=
  ∃ client other, e = .readAll client ∧ (s.publications, other) ∈ s.owed ∧ other ≠ client

/-! ### One delivery of a publication -/

/-- The publications are delivered in order, each at most once. -/
structure Ordered (s : Hpn) : Prop where
  delivered : ∀ d ∈ s.delivered, d.publication ≤ s.publications
  unread : s.hpnretcdone = true → ∀ d ∈ s.delivered, d.publication < s.publications
  once : ∀ p, (s.deliveries p).length ≤ 1

section Steps

variable {s s' : Hpn} {e : HpnEvent} {client p : ℕ} {all : Bool} {readings : List Reading}

theorem ordered_initial : Ordered {} where
  delivered _ h := by simp at h
  unread h := by cases h
  once _ := Nat.zero_le 1

/-- What is not a delivery or a publication leaves them as they are. -/
theorem Ordered.keep (h : Ordered s) (hdel : s'.delivered = s.delivered) (hpub : s'.publications = s.publications)
    (hdone : s'.hpnretcdone = s.hpnretcdone) : Ordered s' where
  delivered := by
    rw [hdel, hpub]
    exact h.delivered
  unread := by
    rw [hdone, hdel, hpub]
    exact h.unread
  once p := by
    rw [deliveries, hdel]
    exact h.once p

theorem Ordered.publish (h : Ordered s) (hdel : s'.delivered = s.delivered)
    (hpub : s'.publications = s.publications + 1) : Ordered s' where
  delivered d hd := by
    rw [hpub]
    exact Nat.le_succ_of_le (h.delivered d (hdel ▸ hd))
  unread _ d hd := by
    rw [hpub]
    exact Nat.lt_succ_of_le (h.delivered d (hdel ▸ hd))
  once p := by
    rw [deliveries, hdel]
    exact h.once p

theorem Ordered.deliver (h : Ordered s) (hd : s.hpnretcdone = true) : Ordered (s.deliver client all readings) where
  delivered d hd' := by
    rcases List.mem_append.mp hd' with hold | hnew
    · exact h.delivered d hold
    · rw [List.mem_singleton.mp hnew]
      exact Nat.le_refl _
  unread hd' := by cases hd'
  once p := by
    show ((s.delivered ++ [_]).filter _).length ≤ 1
    rw [List.filter_append, List.length_append]
    by_cases hp : s.publications = p
    · -- nothing of this publication was delivered before
      have hnone : s.delivered.filter (fun d => decide (d.publication = p)) = [] := by
        refine List.filter_eq_nil_iff.mpr fun d hmem => ?_
        have hlt := h.unread hd d hmem
        simp
        omega
      rw [hnone, List.length_nil, Nat.zero_add]
      exact List.length_filter_le _ [_]
    · have hother : [(⟨client, all, s.publications, s.publishedWindow, readings⟩ : HpnDelivery)].filter
          (fun d => decide (d.publication = p)) = [] := by simp [hp]
      rw [hother]
      exact h.once p

/-- What a poll does to the publications. -/
theorem publish_numbers (s : Hpn) (ok : Bool) :
    let u := (if ok then s.publish else s).startPoll
    u.delivered = s.delivered ∧ u.clients = s.clients ∧
      ((u.publications = s.publications ∧ u.hpnretcdone = s.hpnretcdone ∧ u.owed = s.owed) ∨
        (u.publications = s.publications + 1 ∧ u.owed = s.owed ++ s.clients.map fun c => (s.publications + 1, c))) := by
  cases ok with
  | false => exact ⟨rfl, rfl, Or.inl ⟨rfl, rfl, rfl⟩⟩
  | true =>
    rcases publish_cases s with ⟨-, heq⟩ | ⟨-, first, side, heq⟩ | ⟨side, -, heq⟩
    · rw [if_pos rfl, heq]
      exact ⟨rfl, rfl, Or.inl ⟨rfl, rfl, rfl⟩⟩
    · rw [if_pos rfl, heq]
      exact ⟨rfl, rfl, Or.inr ⟨rfl, rfl⟩⟩
    · rw [if_pos rfl, heq]
      exact ⟨rfl, rfl, Or.inr ⟨rfl, rfl⟩⟩

theorem ordered_step (h : Ordered s) (hs : s.step e = some s') : Ordered s' := by
  cases e with
  | hop md clk msCtimeBuf =>
    obtain rfl := Option.some.inj hs
    exact h.keep rfl rfl rfl
  | pollReturns ok =>
    obtain rfl := Option.some.inj hs
    obtain ⟨hdel, -, ⟨hpub, hdone, -⟩ | ⟨hpub, -⟩⟩ := publish_numbers s ok
    · exact h.keep hdel hpub hdone
    · exact h.publish hdel hpub
  | read client =>
    obtain ⟨hd, rfl⟩ := step_read hs
    exact h.deliver hd
  | readAll client =>
    obtain ⟨hd, -, rfl⟩ := step_readAll hs
    exact h.deliver hd
  | connect client =>
    obtain rfl := step_connect hs
    exact h.keep rfl rfl rfl
  | disconnect client =>
    obtain rfl := step_disconnect hs
    exact h.keep rfl rfl rfl

theorem run_ordered {es : List HpnEvent} (hr : Runs.run step {} es = some s) : Ordered s :=
  Runs.history_inv (P := fun _ => Ordered) ordered_initial (fun _ _ _ _ _ hi hs => ordered_step hi hs) hr

/-- What was delivered stays delivered. -/
theorem delivered_step (hs : s.step e = some s') : ∀ d ∈ s.delivered, d ∈ s'.delivered := by
  intro d hd
  cases e with
  | hop md clk msCtimeBuf =>
    obtain rfl := Option.some.inj hs
    exact hd
  | pollReturns ok =>
    obtain rfl := Option.some.inj hs
    rw [(publish_numbers s ok).1]
    exact hd
  | read client =>
    obtain ⟨-, rfl⟩ := step_read hs
    exact List.mem_append_left _ hd
  | readAll client =>
    obtain ⟨-, -, rfl⟩ := step_readAll hs
    exact List.mem_append_left _ hd
  | connect client =>
    obtain rfl := step_connect hs
    exact hd
  | disconnect client =>
    obtain rfl := step_disconnect hs
    exact hd

/-- A publication that has been delivered is not delivered again, however the run goes on. -/
theorem delivered_once (h : Ordered s) {more : List HpnEvent} (hr : Runs.run step s more = some s')
    {d d' : HpnDelivery} (hd : d ∈ s.delivered) (hd' : d' ∈ s'.delivered) (hp : d'.publication = d.publication) :
    d' = d := by
  have hrun : Ordered s' ∧ d ∈ s'.delivered := by
    refine Runs.history_inv (P := fun _ t => Ordered t ∧ d ∈ t.delivered) ⟨h, hd⟩ ?_ hr
    intro pre t e t' _ hi hs
    exact ⟨ordered_step hi.1 hs, delivered_step hs d hi.2⟩
  have hmem : d ∈ s'.deliveries d.publication := by simp [deliveries, hrun.2]
  have hmem' : d' ∈ s'.deliveries d.publication := by simp [deliveries, hd', hp]
  obtain ⟨x, hx⟩ : ∃ x, s'.deliveries d.publication = [x] := by
    refine List.length_eq_one_iff.mp (Nat.le_antisymm (hrun.1.once _) ?_)
    exact List.length_pos_of_mem hmem
  rw [hx] at hmem hmem'
  rw [List.mem_singleton.mp hmem, List.mem_singleton.mp hmem']

end Steps

/-! ### The clients that are owed a publication -/

structure Served (s : Hpn) : Prop where
  ordered : Ordered s
  owed : ∀ p client, (p, client) ∈ s.owed → p ≤ s.publications
  served : ∀ p client, (p, client) ∈ s.owed → s.Consumed p → ∃ d ∈ s.delivered, d.client = client ∧ d.publication = p

section Clients

variable {s s' : Hpn} {e : HpnEvent} {client p : ℕ} {readings : List Reading}

theorem served_initial : Served {} where
  ordered := ordered_initial
  owed _ _ h := by simp at h
  served _ _ h := by simp at h

theorem Served.seenByAll (h : Served s) : SeenByAll s := by
  intro p client ho hc
  obtain ⟨d, hd, hclient, hp⟩ := h.served p client ho hc
  refine ⟨[], s, by simp, rfl, ?_⟩
  have hmem : d ∈ (s.deliveries p).filter fun d => decide (d.client = client) := by
    simp [deliveries, hd, hclient, hp]
  refine Nat.le_antisymm ?_ (List.length_pos_of_mem hmem)
  exact Nat.le_trans (List.length_filter_le ..) (h.ordered.once p)

/-- Steps that deliver nothing and owe nothing new. -/
theorem Served.keep (h : Served s) (hord : Ordered s') (hdel : s'.delivered = s.delivered)
    (howed : ∀ pc ∈ s'.owed, pc ∈ s.owed) (hpub : s.publications ≤ s'.publications) : Served s' where
  ordered := hord
  owed p client ho := Nat.le_trans (h.owed p client (howed _ ho)) hpub
  served p client ho hc := by
    rw [hdel]
    refine h.served p client (howed _ ho) ?_
    unfold Consumed at hc ⊢
    rwa [hdel] at hc

theorem Served.publish (h : Served s) (hord : Ordered s') (hdel : s'.delivered = s.delivered)
    (hpub : s'.publications = s.publications + 1)
    (howed : s'.owed = s.owed ++ s.clients.map fun c => (s.publications + 1, c)) : Served s' where
  ordered := hord
  owed p client ho := by
    rw [howed] at ho
    rcases List.mem_append.mp ho with hold | hnew
    · rw [hpub]
      exact Nat.le_succ_of_le (h.owed p client hold)
    · obtain ⟨c, -, heq⟩ := List.mem_map.mp hnew
      have hp := (Prod.mk.inj heq).1
      omega
  served p client ho hc := by
    obtain ⟨d, hd, hall, hp⟩ := hc
    rw [hdel] at hd ⊢
    rw [howed] at ho
    rcases List.mem_append.mp ho with hold | hnew
    · exact h.served p client hold ⟨d, hd, hall, hp⟩
    · obtain ⟨c, -, heq⟩ := List.mem_map.mp hnew
      have hle := h.ordered.delivered d hd
      rw [hp, ← (Prod.mk.inj heq).1] at hle
      omega

theorem Served.read (h : Served s) (hord : Ordered (s.deliver client false readings)) :
    Served (s.deliver client false readings) where
  ordered := hord
  owed := h.owed
  served p c ho hc := by
    obtain ⟨d, hd, hall, hp⟩ := hc
    rcases List.mem_append.mp hd with hold | hnew
    · obtain ⟨d', hd', hdc⟩ := h.served p c ho ⟨d, hold, hall, hp⟩
      exact ⟨d', List.mem_append_left _ hd', hdc⟩
    · rw [List.mem_singleton.mp hnew] at hall
      cases hall

theorem Served.readAll (h : Served s) (hord : Ordered (s.deliver client true readings))
    (hc : ¬ s.TakenFromOther (.readAll client)) : Served (s.deliver client true readings) where
  ordered := hord
  owed := h.owed
  served p c ho hcons := by
    by_cases hp : p = s.publications
    · subst hp
      have hsame : c = client := by
        by_contra hne
        exact hc ⟨client, c, rfl, ho, hne⟩
      exact ⟨_, List.mem_append_right _ (List.mem_singleton.mpr rfl), hsame.symm, rfl⟩
    · obtain ⟨d, hd, hall, hdp⟩ := hcons
      rcases List.mem_append.mp hd with hold | hnew
      · obtain ⟨d', hd', hdc⟩ := h.served p c ho ⟨d, hold, hall, hdp⟩
        exact ⟨d', List.mem_append_left _ hd', hdc⟩
      · rw [List.mem_singleton.mp hnew] at hdp
        exact absurd hdp.symm hp

theorem served_step (h : Served s) (hc : ¬ s.TakenFromOther e) (hs : s.step e = some s') : Served s' := by
  have hord := ordered_step h.ordered hs
  cases e with
  | hop md clk msCtimeBuf =>
    obtain rfl := Option.some.inj hs
    exact h.keep hord rfl (fun _ ho => ho) (Nat.le_refl _)
  | pollReturns ok =>
    obtain rfl := Option.some.inj hs
    obtain ⟨hdel, -, ⟨hpub, -, howed⟩ | ⟨hpub, howed⟩⟩ := publish_numbers s ok
    · exact h.keep hord hdel (fun _ ho => howed ▸ ho) (Nat.le_of_eq hpub.symm)
    · exact h.publish hord hdel hpub howed
  | read client =>
    obtain ⟨-, rfl⟩ := step_read hs
    exact h.read hord
  | readAll client =>
    obtain ⟨-, -, rfl⟩ := step_readAll hs
    exact h.readAll hord hc
  | connect client =>
    obtain rfl := step_connect hs
    exact h.keep hord rfl (fun _ ho => ho) (Nat.le_refl _)
  | disconnect client =>
    obtain rfl := step_disconnect hs
    exact h.keep hord rfl (fun _ ho => List.mem_of_mem_filter ho) (Nat.le_refl _)

/-- What one client has taken never reaches another one that is owed it. -/
theorem not_seen_of_other (h : Ordered s) {d : HpnDelivery} (hd : d ∈ s.delivered) (hall : d.readAll = true)
    (ho : (d.publication, client) ∈ s.owed) (hne : client ≠ d.client) : ¬ SeenByAll s := by
  intro hseen
  obtain ⟨more, u, -, hr, honce⟩ := hseen d.publication client ho ⟨d, hd, hall, rfl⟩
  obtain ⟨d', hd'⟩ := List.exists_mem_of_length_pos (Nat.lt_of_lt_of_eq Nat.zero_lt_one honce.symm)
  simp only [deliveries, List.mem_filter, decide_eq_true_eq] at hd'
  obtain ⟨⟨hd', hp⟩, hclient⟩ := hd'
  rw [delivered_once h hr hd hd' hp] at hclient
  exact hne hclient.symm

theorem not_seen_of_taken (h : Ordered s) (hc : s.TakenFromOther e) (hs : s.step e = some s') : ¬ SeenByAll s' := by
  obtain ⟨client, other, rfl, ho, hne⟩ := hc
  have hord := ordered_step h hs
  obtain ⟨-, -, rfl⟩ := step_readAll hs
  exact not_seen_of_other hord (List.mem_append_right _ (List.mem_singleton.mpr rfl)) rfl ho hne

end Clients

/-- **When every client sees what is consumed.** In every state of a run each
publication taken by a client that reads all readings has been delivered, or
can still be, exactly once to each such client that was connected when it was
published and has been since, if and only if no such client takes a publication
that another one is owed. -/
theorem seen_by_all (es : List HpnEvent) :
    Runs.Always step {} (fun _ => SeenByAll) es ↔ Runs.Steps step {} (fun _ s e => ¬ s.TakenFromOther e) es :=
  Runs.always_iff_steps (I := fun _ => Served) (C := fun _ s e => ¬ s.TakenFromOther e) served_initial
    (fun _ _ _ _ _ hi hc hs => served_step hi hc hs) (fun _ _ _ hi => hi.seenByAll)
    (fun _ _ _ _ _ hi hc hs => not_seen_of_taken hi.ordered (not_not.mp hc) hs) es

/-- Two clients for all readings, one publication, and one of them takes it. -/
def twoClients : List HpnEvent :=
  [.connect 0, .connect 1,
    .hop { queueInfo := htonl 5, ingressTime := 0, egressTime := 0 } 1 [], .pollReturns true, .readAll 0]

theorem twoClients_unseen : ¬ Runs.Always step {} (fun _ => SeenByAll) twoClients := by
  intro h
  have hrun : (Runs.run step {} twoClients).map (fun s =>
      (s.owed, s.delivered.map fun d => (d.client, d.readAll, d.publication))) =
      some ([(1, 0), (1, 1)], [(0, true, 1)]) := by decide
  obtain ⟨s, hs, hstate⟩ := Option.map_eq_some_iff.mp hrun
  obtain ⟨howed, hdelivered⟩ := Prod.mk.inj hstate
  obtain ⟨d, hd, hd'⟩ := List.mem_map.mp (hdelivered ▸ List.mem_singleton.mpr rfl)
  simp only [Prod.mk.injEq] at hd'
  obtain ⟨hclient, hall, hp⟩ := hd'
  have howed1 : (d.publication, 1) ∈ s.owed := by
    rw [howed, hp]
    decide
  have hother : 1 ≠ d.client := by
    rw [hclient]
    decide
  exact not_seen_of_other (run_ordered hs) hd hall howed1 hother (h.last hs)

end Hpn
end TuningMod

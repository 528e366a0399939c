/-
# Delivery of messages to a source

The sender thread of a destination opens a connection for each message it takes
from the ring, and the source forks a child process for each connection it
accepts. What orders two messages is that the sender waits for the child to
shut the connection down (`read_sock`); but `readn2` looks for that six times at
most. A child is at work from its `fork` to its `shutdown`. The children of
successive messages are never at work at once, however a run goes on between
its `recv` calls, exactly if the sender never gives up on a child at work.

The processes are another matter: a child still has its `close` and its `exit`
to make when the end of its connection has arrived, and nothing waits for them.
They come to nothing for the record, but in any run the process of a message can
be there when that of the next one is forked.

Connections are accepted in order; the end of a connection that is shut down
arrives some time later.

Key definitions: `Child`, `Delivery`, `Delivery.step`, `Delivery.Orderly`, `Delivery.GivesUp`, `Delivery.Inv`.
Key theorems: `works_last`, `inv_step`, `overlap_of_givesUp`, `messages_in_order`, `processes_apart`.
-/
import TuningMod.SourceDtn

namespace TuningMod

/-- A child process of the source. -/
inductive Child where
  /-- Not read the record yet; a START message (`none`) has no handler. -/
  | forked (gTuningMode : Bool) (m : Option PacingMsg)
  /-- The calls the handler still makes. -/
  | handling (left : List Action)
  /-- After `shutdown`: whether the destination's host knows, and whether `close` and `exit` are made. -/
  | shutDown (finArrived exited : Bool)
  deriving DecidableEq

namespace Child

def works : Child → Bool
  | forked _ _ | handling _ => true
  | shutDown _ _ => false

def finArrived : Child → Bool
  | shutDown fin _ => fin
  | _ => false

def exited : Child → Bool
  | shutDown _ exited => exited
  | _ => false

theorem works_of_finArrived {c : Child} (h : c.finArrived = true) : c.works = false := by
  cases c with
  | shutDown => rfl
  | _ => cases h

end Child

structure Delivery where
  /-- The messages taken from the ring, each on a connection of its own. -/
  sent : List (Option PacingMsg) := []
  /-- `x` of `readn2`, while the sender waits for the last child to shut down. -/
  x : Option ℕ := none
  /-- The children, in the order of the connections. -/
  children : List Child := []
  source : SourceDtn := {}
  /-- The message of each access to the record. -/
  log : List ℕ := []

inductive DeliveryEvent where
  /-- The sender takes a message, connects, writes it and shuts its side down. -/
  | take (m : Option PacingMsg)
  /-- One `recv` of `readn2`. -/
  | recv
  | fork
  /-- Child `n` reads the record. -/
  | read (n : ℕ)
  /-- Child `n` makes its next call. -/
  | act (n : ℕ)
  | shutdown (n : ℕ)
  /-- The end of child `n`'s connection arrives. -/
  | fin (n : ℕ)
  /-- Child `n` closes its descriptor and exits. -/
  | exit (n : ℕ)
  /-- '-l on' or '-l off' -/
  | learningMode (on : Bool)

namespace Delivery

/-! ### Steps -/

/-- The child of the message the sender waits for. -/
def awaited (d : Delivery) : Option Child := d.children[d.sent.length - 1]?

def step (d : Delivery) : DeliveryEvent → Option Delivery
  | .take m => if d.x = none then some { d with sent := d.sent ++ [m], x := some 0 } else none
  | .recv =>
    match d.x with
    | none => none
    | some x =>
      if d.awaited.any Child.finArrived then some { d with x := none }
      else if x < 5 then some { d with x := some (x + 1) }
      else some { d with x := none }
  | .fork =>
    match d.sent[d.children.length]? with
    | none => none
    | some m => some { d with children := d.children ++ [.forked d.source.gTuningMode m] }
  | .read n =>
    match d.children[n]? with
    | some (.forked gTuningMode (some m)) =>
      some { d with children := d.children.set n (.handling (m.acts gTuningMode d.source.shm)), log := d.log ++ [n] }
    | some (.forked _ none) => some { d with children := d.children.set n (.handling []) }
    | _ => none
  | .act n =>
    match d.children[n]? with
    | some (.handling (a :: as)) =>
      some { d with
        source := d.source.perform a, children := d.children.set n (.handling as), log := d.log ++ [n] }
    | _ => none
  | .shutdown n =>
    if d.children[n]? = some (.handling []) then
      some { d with children := d.children.set n (.shutDown false false) }
    else none
  | .fin n =>
    match d.children[n]? with
    | some (.shutDown false exited) => some { d with children := d.children.set n (.shutDown true exited) }
    | _ => none
  | .exit n =>
    match d.children[n]? with
    | some (.shutDown finArrived false) => some { d with children := d.children.set n (.shutDown finArrived true) }
    | _ => none
  | .learningMode on => some { d with source := { d.source with gTuningMode := !on } }

/-- Child `n` is at work. -/
def Works (d : Delivery) (n : ℕ) : Prop := ∃ c, d.children[n]? = some c ∧ c.works = true

/-- Child `n` has shut its connection down. -/
def Done (d : Delivery) (n : ℕ) : Prop := ∃ c, d.children[n]? = some c ∧ c.works = false

/-- Child `n` is a process. -/
def Lives (d : Delivery) (n : ℕ) : Prop := ∃ c, d.children[n]? = some c ∧ c.exited = false

/-- The children of successive messages are not at work at once, and the record
was accessed in the order of the messages. -/
structure Orderly (d : Delivery) : Prop where
  apart : ∀ n, ¬ (d.Works n ∧ d.Works (n + 1))
  inOrder : d.log.Pairwise (· ≤ ·)

/-- `readn2` returns -1 and the child of the message is at work, or not forked yet. -/
def GivesUp (d : Delivery) (e : DeliveryEvent) : Prop :=
  e = .recv ∧ (∃ x, d.x = some x ∧ ¬ x < 5) ∧ ∀ c, d.awaited = some c → c.works = true

/-! ### What a step can do -/

/-- What a step can do to the connections and the log. -/
inductive Delivers (d d' : Delivery) (e : DeliveryEvent) : Prop
  | take (m) : d.x = none → d'.x = some 0 → d'.sent = d.sent ++ [m] → d'.children = d.children →
      d'.log = d.log → Delivers d d' e
  | wait : d.x ≠ none → d'.x ≠ none → d'.sent = d.sent → d'.children = d.children → d'.log = d.log →
      Delivers d d' e
  | leave : d.x ≠ none → d'.x = none → d.GivesUp e ∨ d.Done (d.sent.length - 1) →
      d'.sent = d.sent → d'.children = d.children → d'.log = d.log → Delivers d d' e
  | fork (c) : d.children.length < d.sent.length → c.works = true → d'.x = d.x → d'.sent = d.sent →
      d'.children = d.children ++ [c] → d'.log = d.log → e = .fork → Delivers d d' e
  /-- A child that is at work does something. -/
  | child (n c c') : d.children[n]? = some c → c.works = true → d'.x = d.x → d'.sent = d.sent →
      d'.children = d.children.set n c' → d'.log = d.log ∨ d'.log = d.log ++ [n] → Delivers d d' e
  /-- The end of a connection that is shut down arrives, or its child exits. -/
  | after (n c c') : d.children[n]? = some c → c.works = false → c'.works = false → (c.exited → c'.exited) →
      d'.x = d.x → d'.sent = d.sent → d'.children = d.children.set n c' → d'.log = d.log → Delivers d d' e
  | quiet : d'.x = d.x → d'.sent = d.sent → d'.children = d.children → d'.log = d.log → Delivers d d' e

section Step

variable {d d' : Delivery} {e : DeliveryEvent}

theorem step_recv (h : d.step .recv = some d') : Delivers d d' .recv := by
  cases hx : d.x with
  | none => simp [step, hx] at h
  | some x =>
    have hne : d.x ≠ none := by simp [hx]
    simp only [step, hx] at h
    by_cases hfin : d.awaited.any Child.finArrived = true
    · rw [if_pos hfin] at h
      obtain rfl := Option.some.inj h
      obtain ⟨c, hc, hcfin⟩ := (Option.any_eq_true _ _).mp hfin
      exact .leave hne rfl (Or.inr ⟨_, hc, Child.works_of_finArrived hcfin⟩) rfl rfl rfl
    rw [if_neg hfin] at h
    by_cases hlt : x < 5
    · rw [if_pos hlt] at h
      obtain rfl := Option.some.inj h
      exact .wait hne (by simp) rfl rfl rfl
    rw [if_neg hlt] at h
    obtain rfl := Option.some.inj h
    refine .leave hne rfl ?_ rfl rfl rfl
    by_cases hup : ∀ c, d.awaited = some c → c.works = true
    · exact Or.inl ⟨rfl, ⟨x, hx, hlt⟩, hup⟩
    · simp only [not_forall, Bool.not_eq_true] at hup
      obtain ⟨c, hc, ha⟩ := hup
      exact Or.inr ⟨c, hc, ha⟩

theorem step_delivers (h : d.step e = some d') : Delivers d d' e := by
  cases e with
  | take m =>
    obtain ⟨hx, hs⟩ := Option.ite_none_right_eq_some.mp h
    obtain rfl := Option.some.inj hs
    exact .take m hx rfl rfl rfl rfl
  | recv => exact step_recv h
  | fork =>
    cases hm : d.sent[d.children.length]? with
    | none => simp [step, hm] at h
    | some m =>
      simp only [step, hm] at h
      obtain rfl := Option.some.inj h
      exact .fork _ (List.getElem?_eq_some_iff.mp hm).1 rfl rfl rfl rfl rfl rfl
  | read n =>
    unfold step at h
    dsimp only at h
    split at h
    · rename_i hc
      obtain rfl := Option.some.inj h
      exact .child n _ _ hc rfl rfl rfl rfl (Or.inr rfl)
    · rename_i hc
      obtain rfl := Option.some.inj h
      exact .child n _ _ hc rfl rfl rfl rfl (Or.inl rfl)
    · cases h
  | act n =>
    unfold step at h
    dsimp only at h
    split at h
    · rename_i hc
      obtain rfl := Option.some.inj h
      exact .child n _ _ hc rfl rfl rfl rfl (Or.inr rfl)
    · cases h
  | shutdown n =>
    obtain ⟨hc, hs⟩ := Option.ite_none_right_eq_some.mp h
    obtain rfl := Option.some.inj hs
    exact .child n _ _ hc rfl rfl rfl rfl (Or.inl rfl)
  | fin n =>
    unfold step at h
    dsimp only at h
    split at h
    · rename_i hc
      obtain rfl := Option.some.inj h
      exact .after n _ (.shutDown true _) hc rfl rfl id rfl rfl rfl rfl
    · cases h
  | exit n =>
    unfold step at h
    dsimp only at h
    split at h
    · rename_i hc
      obtain rfl := Option.some.inj h
      exact .after n _ _ hc rfl rfl (fun _ => rfl) rfl rfl rfl rfl
    · cases h
  | learningMode on =>
    obtain rfl := Option.some.inj h
    exact .quiet rfl rfl rfl rfl

end Step

/-! ### Runs in which the sender does not give up -/

/-- All children but the last have shut their connections down, and when the
sender does not wait, the last one has too. -/
structure Inv (d : Delivery) : Prop where
  len : d.children.length ≤ d.sent.length
  before : ∀ n, n + 1 < d.sent.length → d.Done n
  idle : d.x = none → ∀ n < d.sent.length, d.Done n
  logged : ∀ n ∈ d.log, n < d.children.length
  inOrder : d.log.Pairwise (· ≤ ·)

section Invariant

variable {d d' : Delivery} {e : DeliveryEvent} {n : ℕ}

theorem Works.lt (h : d.Works n) : n < d.children.length := by
  obtain ⟨c, hc, -⟩ := h
  exact (List.getElem?_eq_some_iff.mp hc).1

theorem Done.lt (h : d.Done n) : n < d.children.length := by
  obtain ⟨c, hc, -⟩ := h
  exact (List.getElem?_eq_some_iff.mp hc).1

theorem Works.not_done (h : d.Works n) : ¬ d.Done n := by
  rintro ⟨c', hc', ha'⟩
  obtain ⟨c, hc, ha⟩ := h
  obtain rfl : c = c' := Option.some.inj (hc.symm.trans hc')
  rw [ha] at ha'
  cases ha'

/-- Only the last child can be at work, while the sender waits for it. -/
theorem works_last (h : Inv d) (ha : d.Works n) : n + 1 = d.sent.length ∧ d.x ≠ none := by
  have hlt : n < d.sent.length := lt_of_lt_of_le ha.lt h.len
  have hlast : ¬ n + 1 < d.sent.length := fun hn => ha.not_done (h.before n hn)
  exact ⟨by omega, fun hx => ha.not_done (h.idle hx n hlt)⟩

theorem Inv.orderly (h : Inv d) : d.Orderly := by
  refine ⟨fun n hboth => ?_, h.inOrder⟩
  have h1 := (works_last h hboth.1).1
  have h2 := (works_last h hboth.2).1
  omega

/-- A step that starts no message and sets no child to work again. -/
theorem Inv.keep (h : Inv d) (hsent : d'.sent = d.sent) (hx : d'.x = none → d.x = none)
    (hdone : ∀ k, d.Done k → d'.Done k) (hlen : d'.children.length ≤ d.sent.length)
    (hlogged : ∀ k ∈ d'.log, k < d'.children.length) (hinOrder : d'.log.Pairwise (· ≤ ·)) : Inv d' where
  len := by rw [hsent]; exact hlen
  before k hk := hdone k (h.before k (by rw [← hsent]; exact hk))
  idle hn k hk := hdone k (h.idle (hx hn) k (by rw [← hsent]; exact hk))
  logged := hlogged
  inOrder := hinOrder

theorem done_of_children (hc : d'.children = d.children) (h : d.Done n) : d'.Done n := by
  unfold Done
  rw [hc]
  exact h

theorem done_of_append {c : Child} (hc : d'.children = d.children ++ [c]) (h : d.Done n) : d'.Done n := by
  obtain ⟨b, hb, hb'⟩ := h
  refine ⟨b, ?_, hb'⟩
  rw [hc, List.getElem?_append_left (List.getElem?_eq_some_iff.mp hb).1]
  exact hb

theorem done_of_set {k : ℕ} {c : Child} (hc : d'.children = d.children.set n c) (hk : n ≠ k) (h : d.Done k) :
    d'.Done k := by
  obtain ⟨b, hb, hb'⟩ := h
  refine ⟨b, ?_, hb'⟩
  rw [hc, List.getElem?_set_ne hk]
  exact hb

/-- Such a step without an access to the record. -/
theorem Inv.unlogged (h : Inv d) (hsent : d'.sent = d.sent) (hx : d'.x = none → d.x = none)
    (hdone : ∀ k, d.Done k → d'.Done k) (hlen : d'.children.length ≤ d.sent.length)
    (hmore : d.children.length ≤ d'.children.length) (hlog : d'.log = d.log) : Inv d' := by
  refine h.keep hsent hx hdone hlen (fun k hk => ?_) ?_
  · rw [hlog] at hk
    exact lt_of_lt_of_le (h.logged k hk) hmore
  · rw [hlog]
    exact h.inOrder

theorem Inv.same (h : Inv d) (hx : d'.x = none → d.x = none) (hsent : d'.sent = d.sent)
    (hchildren : d'.children = d.children) (hlog : d'.log = d.log) : Inv d' :=
  h.unlogged hsent hx (fun _ hk => done_of_children hchildren hk) (hchildren ▸ h.len) (hchildren ▸ le_rfl) hlog

/-- The sender takes a message when no child is at work. -/
theorem Inv.take {m : Option PacingMsg} (h : Inv d) (hx : d.x = none) (hx' : d'.x = some 0)
    (hsent : d'.sent = d.sent ++ [m]) (hchildren : d'.children = d.children) (hlog : d'.log = d.log) : Inv d' := by
  refine ⟨?_, fun n hn => ?_, fun hn => ?_, ?_, ?_⟩
  · rw [hchildren, hsent, List.length_append]
    exact le_trans h.len (Nat.le_add_right _ _)
  · rw [hsent, List.length_append, List.length_singleton] at hn
    exact done_of_children hchildren (h.idle hx n (by omega))
  · rw [hx'] at hn
    cases hn
  · rw [hlog, hchildren]
    exact h.logged
  · rw [hlog]
    exact h.inOrder

/-- It stops waiting when the last child has shut its connection down. -/
theorem Inv.leave (h : Inv d) (hlast : d.Done (d.sent.length - 1)) (hsent : d'.sent = d.sent)
    (hchildren : d'.children = d.children) (hlog : d'.log = d.log) : Inv d' := by
  refine ⟨?_, fun n hn => ?_, fun _ n hn => ?_, ?_, ?_⟩
  · rw [hchildren, hsent]
    exact h.len
  · rw [hsent] at hn
    exact done_of_children hchildren (h.before n hn)
  · rw [hsent] at hn
    apply done_of_children hchildren
    rcases (show n + 1 < d.sent.length ∨ n = d.sent.length - 1 by omega) with hlt | rfl
    · exact h.before n hlt
    · exact hlast
  · rw [hlog, hchildren]
    exact h.logged
  · rw [hlog]
    exact h.inOrder

/-- A child at work is the last, so that the log stays in order. -/
theorem Inv.child {c' : Child} (h : Inv d) (hworks : d.Works n) (hx : d'.x = d.x) (hsent : d'.sent = d.sent)
    (hchildren : d'.children = d.children.set n c') (hlog : d'.log = d.log ∨ d'.log = d.log ++ [n]) : Inv d' := by
  have hlen : d'.children.length = d.children.length := by rw [hchildren, List.length_set]
  have hlast : n + 1 = d.sent.length := (works_last h hworks).1
  have hdone : ∀ k, d.Done k → d'.Done k := by
    intro k hk
    refine done_of_set hchildren ?_ hk
    rintro rfl
    exact hworks.not_done hk
  rcases hlog with hlog | hlog
  · exact h.unlogged hsent (fun hn => hx.symm.trans hn) hdone (hlen ▸ h.len) hlen.ge hlog
  · refine h.keep hsent (fun hn => hx.symm.trans hn) hdone (hlen ▸ h.len) ?_ ?_
    · intro k hk
      rw [hlen]
      rw [hlog] at hk
      rcases List.mem_append.mp hk with hk | hk
      · exact h.logged k hk
      · rw [List.mem_singleton.mp hk]
        exact hworks.lt
    · rw [hlog]
      refine List.pairwise_append.mpr ⟨h.inOrder, List.pairwise_singleton _ _, fun k hk j hj => ?_⟩
      rw [List.mem_singleton.mp hj]
      have hk' : k < d.children.length := h.logged k hk
      have hle : d.children.length ≤ d.sent.length := h.len
      omega

theorem inv_initial : Inv {} where
  len := le_refl 0
  before _ hn := absurd hn (Nat.not_lt_zero _)
  idle _ _ hn := absurd hn (Nat.not_lt_zero _)
  logged _ hn := absurd hn List.not_mem_nil
  inOrder := List.Pairwise.nil

theorem inv_step (h : Inv d) (hno : ¬ d.GivesUp e) (hs : d.step e = some d') : Inv d' := by
  cases step_delivers hs with
  | take m hx hx' hsent hchildren hlog => exact h.take hx hx' hsent hchildren hlog
  | wait hx hx' hsent hchildren hlog => exact h.same (fun hn => absurd hn hx') hsent hchildren hlog
  | leave hx hx' hdone hsent hchildren hlog => exact h.leave (hdone.resolve_left hno) hsent hchildren hlog
  | fork c hlt ha hx hsent hchildren hlog _ =>
    have hlen : d'.children.length = d.children.length + 1 := by
      rw [hchildren, List.length_append, List.length_singleton]
    exact h.unlogged hsent (fun hn => hx.symm.trans hn) (fun k hk => done_of_append hchildren hk) (by omega) (by omega)
      hlog
  | child n c c' hc ha hx hsent hchildren hlog => exact h.child ⟨c, hc, ha⟩ hx hsent hchildren hlog
  | after n c c' hc _ hc' _ hx hsent hchildren hlog =>
    have hlen : d'.children.length = d.children.length := by rw [hchildren, List.length_set]
    refine h.unlogged hsent (fun hn => hx.symm.trans hn) (fun k hk => ?_) (hlen ▸ h.len) hlen.ge hlog
    by_cases hkn : n = k
    · subst hkn
      refine ⟨c', ?_, hc'⟩
      rw [hchildren, List.getElem?_set_self hk.lt]
    · exact done_of_set hchildren hkn hk
  | quiet hx hsent hchildren hlog => exact h.same (fun hn => hx.symm.trans hn) hsent hchildren hlog

end Invariant

/-! ### What giving up can come to -/

section Overlap

variable {d d' : Delivery} {e : DeliveryEvent} {n : ℕ}

theorem step_shape (hs : d.step e = some d') (h : d.children.length ≤ d.sent.length ∧ (d.x ≠ none → d.sent ≠ [])) :
    d'.children.length ≤ d'.sent.length ∧ (d'.x ≠ none → d'.sent ≠ []) := by
  obtain ⟨hlen, hx⟩ := h
  cases step_delivers hs with
  | take m _ _ hsent hchildren =>
    rw [hchildren, hsent, List.length_append]
    exact ⟨le_trans hlen (Nat.le_add_right _ _), fun _ => by simp⟩
  | wait hx' _ hsent hchildren =>
    rw [hchildren, hsent]
    exact ⟨hlen, fun _ => hx hx'⟩
  | leave hx' _ _ hsent hchildren =>
    rw [hchildren, hsent]
    exact ⟨hlen, fun _ => hx hx'⟩
  | fork c hlt _ hx' hsent hchildren =>
    rw [hchildren, hsent, hx', List.length_append]
    exact ⟨hlt, hx⟩
  | child n c c' _ _ hx' hsent hchildren =>
    rw [hchildren, hsent, hx', List.length_set]
    exact ⟨hlen, hx⟩
  | after n c c' _ _ _ _ hx' hsent hchildren =>
    rw [hchildren, hsent, hx', List.length_set]
    exact ⟨hlen, hx⟩
  | quiet hx' hsent hchildren =>
    rw [hchildren, hsent, hx']
    exact ⟨hlen, hx⟩

theorem run_shape {es : List DeliveryEvent} (hr : Runs.run step {} es = some d) :
    d.children.length ≤ d.sent.length ∧ (d.x ≠ none → d.sent ≠ []) :=
  Runs.history_inv (P := fun _ d => d.children.length ≤ d.sent.length ∧ (d.x ≠ none → d.sent ≠ []))
    ⟨le_refl 0, fun h => absurd rfl h⟩ (fun _ _ _ _ _ hp hs => step_shape hs hp) hr

/-- The source can accept a connection that waits. -/
theorem fork_enabled (h : d.children.length < d.sent.length) : ∃ d', d.step .fork = some d' ∧ d'.x = d.x ∧
    d'.sent = d.sent ∧ d'.children.length = d.children.length + 1 ∧ d'.Works d.children.length ∧
    ∀ n, d.Works n → d'.Works n := by
  have hm : d.sent[d.children.length]? = some (d.sent[d.children.length]) := List.getElem?_eq_getElem h
  refine ⟨{ d with children := d.children ++ [.forked d.source.gTuningMode d.sent[d.children.length]] }, ?_, rfl,
    rfl, List.length_append, ⟨_, List.getElem?_concat_length, rfl⟩, ?_⟩
  · simp only [step, hm]
  · rintro n ⟨c, hc, ha⟩
    refine ⟨c, ?_, ha⟩
    rw [List.getElem?_append_left (List.getElem?_eq_some_iff.mp hc).1]
    exact hc

/-- The source can accept every connection, and then the last child is at work. -/
theorem fork_all (h : d.children.length < d.sent.length) : ∃ d',
    Runs.run step d (List.replicate (d.sent.length - d.children.length) .fork) = some d' ∧ d'.x = d.x ∧
      d'.sent = d.sent ∧ d'.children.length = d.sent.length ∧ d'.Works (d.sent.length - 1) := by
  obtain ⟨k, hk⟩ : ∃ k, d.sent.length - d.children.length = k + 1 := ⟨d.sent.length - d.children.length - 1, by omega⟩
  rw [hk]
  induction k generalizing d with
  | zero =>
    obtain ⟨d', hs, hx, hsent, hlen, ha, -⟩ := fork_enabled h
    refine ⟨d', ?_, hx, hsent, by omega, ?_⟩
    · simp [Runs.run, hs]
    · rw [show d.sent.length - 1 = d.children.length by omega]
      exact ha
  | succ k ih =>
    obtain ⟨d₁, hs, hx, hsent, hlen, -, -⟩ := fork_enabled h
    obtain ⟨d', hr, hx', hsent', hlen', ha⟩ := ih (d := d₁) (by rw [hsent]; omega) (by rw [hsent]; omega)
    rw [hsent] at hsent' hlen' ha
    refine ⟨d', ?_, hx'.trans hx, hsent', hlen', ha⟩
    rw [List.replicate_succ, Runs.run, hs]
    exact hr

/-- Once every connection is accepted and the last child is at work, a next
message finds it so. -/
theorem overlap_of_works (hx : d.x = none) (hlen : d.children.length = d.sent.length)
    (ha : d.Works (d.sent.length - 1)) : ∃ d', Runs.run step d [.take none, .fork] = some d' ∧ ¬ d'.Orderly := by
  have hpos : 0 < d.sent.length := by
    have := ha.lt
    omega
  obtain ⟨d', hs, -, -, -, hnew, hkeep⟩ := fork_enabled (d := { d with sent := d.sent ++ [none], x := some 0 })
    (by simp [hlen])
  refine ⟨d', ?_, fun ho => ?_⟩
  · simp [Runs.run, step, hx] at hs ⊢
    exact hs
  · refine ho.apart (d.sent.length - 1) ⟨hkeep _ ha, ?_⟩
    rw [Nat.sub_add_cancel hpos, ← hlen]
    exact hnew

/-- **What giving up can come to**: the sender goes on to the next message, and
the source forks the child of the next while that of the last is at work. -/
theorem overlap_of_givesUp (hlen : d.children.length ≤ d.sent.length) (hne : d.x ≠ none → d.sent ≠ [])
    (hup : d.GivesUp e) (hs : d.step e = some d') : ∃ acts v, (∀ a ∈ acts, a ≠ .recv) ∧
      Runs.run step d' acts = some v ∧ ¬ v.Orderly := by
  obtain ⟨rfl, ⟨x, hx, hx5⟩, hworks⟩ := hup
  have hpos : 0 < d.sent.length := List.length_pos_iff.mpr (hne (by simp [hx]))
  have hnot : ¬ d.awaited.any Child.finArrived = true := by
    intro hany
    obtain ⟨c, hc, hfin⟩ := (Option.any_eq_true _ _).mp hany
    exact Bool.false_ne_true ((Child.works_of_finArrived hfin).symm.trans (hworks c hc))
  simp only [step, hx, if_neg hnot, if_neg hx5] at hs
  obtain rfl := Option.some.inj hs
  cases hc : d.awaited with
  | some c =>
    have ha : d.Works (d.sent.length - 1) := ⟨c, hc, hworks c hc⟩
    have := ha.lt
    obtain ⟨v, hv, hbad⟩ := overlap_of_works (d := { d with x := none }) rfl (by dsimp only; omega) ha
    exact ⟨_, v, by simp, hv, hbad⟩
  | none =>
    have hlast : d.children.length ≤ d.sent.length - 1 := List.getElem?_eq_none_iff.mp hc
    obtain ⟨u, hu, hux, husent, hulen, hua⟩ := fork_all (d := { d with x := none }) (by dsimp only; omega)
    obtain ⟨v, hv, hbad⟩ := overlap_of_works hux (by rw [husent]; exact hulen) (by rw [husent]; exact hua)
    refine ⟨List.replicate (d.sent.length - d.children.length) .fork ++ [.take none, .fork], v, ?_, ?_, hbad⟩
    · intro a ha
      rcases List.mem_append.mp ha with ha | ha
      · rw [List.eq_of_mem_replicate ha]
        simp
      · rintro rfl
        simp at ha
    · rw [Runs.run_append, hu]
      exact hv

end Overlap

/-- **Messages in order.** However a run goes on between its `recv` calls, the
children of successive messages are not at work at once and access the record
in the order of the messages, exactly if the sender never gives up on a child
that has not shut its connection down. -/
theorem messages_in_order (es : List DeliveryEvent) :
    (∀ pre suf acts, es = pre ++ suf → (∀ e ∈ acts, e ≠ .recv) →
        Runs.Always step {} (fun _ => Orderly) (pre ++ acts)) ↔
      Runs.Steps step {} (fun _ d e => ¬ d.GivesUp e) es := by
  constructor
  · intro h pre e suf d d' hes hr hs hup
    obtain ⟨hlen, hne⟩ := run_shape hr
    obtain ⟨acts, v, hacts, hv, hbad⟩ := overlap_of_givesUp hlen hne hup hs
    have hr' : Runs.run step {} (pre ++ [e]) = some d' := (Runs.run_snoc_iff step).mpr ⟨d, hr, hs⟩
    refine hbad ((h (pre ++ [e]) suf acts (by simp [hes]) hacts).last ?_)
    rw [Runs.run_append, hr', Option.bind_some, hv]
  · rintro h pre suf acts rfl hacts
    have hsteps : Runs.Steps step {} (fun _ d e => ¬ d.GivesUp e) (pre ++ acts) :=
      h.of_append.append fun e he _ d hup => hacts e he hup.1
    have hinv : Runs.Always step {} (fun _ => Inv) (pre ++ acts) :=
      Runs.always_of_steps inv_initial (fun _ _ _ _ _ hi hno hs => inv_step hi hno hs) hsteps
    exact hinv.imp fun _ _ _ hi => hi.orderly

/-! ### The processes -/

/-- All processes but the last have exited. -/
def Alone (d : Delivery) : Prop := ∀ n, n + 1 < d.children.length → ¬ d.Lives n

section Processes

variable {d d' : Delivery} {e : DeliveryEvent} {n : ℕ}

theorem Lives.lt (h : d.Lives n) : n < d.children.length := by
  obtain ⟨c, hc, -⟩ := h
  exact (List.getElem?_eq_some_iff.mp hc).1

/-- No step brings a process back. -/
theorem lives_of_set {k : ℕ} {c c' : Child} (hc : d.children[k]? = some c) (hexit : c.exited = true → c'.exited = true)
    (hset : d'.children = d.children.set k c') (h : d'.Lives n) : d.Lives n := by
  obtain ⟨b, hb, hb'⟩ := h
  rw [hset] at hb
  rcases eq_or_ne k n with rfl | hne
  · rw [List.getElem?_set_self (List.getElem?_eq_some_iff.mp hc).1] at hb
    obtain rfl := Option.some.inj hb
    refine ⟨c, hc, Bool.eq_false_iff.mpr fun hexited => ?_⟩
    rw [hexit hexited] at hb'
    cases hb'
  · rw [List.getElem?_set_ne hne] at hb
    exact ⟨b, hb, hb'⟩

theorem exited_of_works {c : Child} (h : c.works = true) : c.exited = false := by
  cases c with
  | shutDown => cases h
  | _ => rfl

theorem alone_step (h : d.Alone) (hfork : e = .fork → ¬ d.Lives (d.children.length - 1)) (hs : d.step e = some d') :
    d'.Alone := by
  have hsame : d'.children = d.children → d'.Alone := by
    intro hchildren n hn hlives
    rw [Lives, hchildren] at hlives
    rw [hchildren] at hn
    exact h n hn hlives
  have hset : ∀ {k c c'}, d.children[k]? = some c → (c.exited = true → c'.exited = true) →
      d'.children = d.children.set k c' → d'.Alone := by
    intro k c c' hc hexit hchildren n hn hlives
    rw [hchildren, List.length_set] at hn
    exact h n hn (lives_of_set hc hexit hchildren hlives)
  cases step_delivers hs with
  | take _ _ _ _ hchildren => exact hsame hchildren
  | wait _ _ _ hchildren => exact hsame hchildren
  | leave _ _ _ _ hchildren => exact hsame hchildren
  | quiet _ _ hchildren => exact hsame hchildren
  | child k c c' hc hworks _ _ hchildren =>
    refine hset hc (fun hexited => ?_) hchildren
    rw [exited_of_works hworks] at hexited
    cases hexited
  | after k c c' hc _ _ hexit _ _ hchildren => exact hset hc hexit hchildren
  | fork c _ _ _ _ hchildren _ hforked =>
    intro n hn hlives
    rw [hchildren, List.length_append, List.length_singleton] at hn
    have hold : d.Lives n := by
      obtain ⟨b, hb, hb'⟩ := hlives
      rw [hchildren, List.getElem?_append_left (by omega)] at hb
      exact ⟨b, hb, hb'⟩
    rcases (show n + 1 < d.children.length ∨ n = d.children.length - 1 by omega) with hlt | rfl
    · exact h n hlt hold
    · exact hfork hforked hold

/-- A process that is forked lives. -/
theorem lives_forked (hs : d.step .fork = some d') (hlast : d.Lives (d.children.length - 1)) :
    d'.Lives (d.children.length - 1) ∧ d'.Lives (d.children.length - 1 + 1) := by
  have hlt := hlast.lt
  cases hm : d.sent[d.children.length]? with
  | none => simp [step, hm] at hs
  | some m =>
    simp only [step, hm] at hs
    obtain rfl := Option.some.inj hs
    obtain ⟨c, hc, hlives⟩ := hlast
    refine ⟨⟨c, ?_, hlives⟩, ?_⟩
    · dsimp only
      rw [List.getElem?_append_left hlt]
      exact hc
    · rw [Nat.sub_add_cancel (by omega : 1 ≤ d.children.length)]
      exact ⟨_, List.getElem?_concat_length, rfl⟩

/-- **The processes**, up to their exit, overlap with the next in just the runs
that fork a child while the last one lives, which no wait of the code excludes. -/
theorem processes_apart (es : List DeliveryEvent) :
    Runs.Always step {} (fun _ d => ∀ n, ¬ (d.Lives n ∧ d.Lives (n + 1))) es ↔
      Runs.Steps step {} (fun _ d e => e = .fork → ¬ d.Lives (d.children.length - 1)) es := by
  constructor
  · rintro h pre e suf d d' rfl hr hs rfl hlast
    have hrun : Runs.run step {} (pre ++ [.fork]) = some d' := (Runs.run_snoc_iff step).mpr ⟨d, hr, hs⟩
    exact h (pre ++ [.fork]) suf d' (by simp) hrun _ (lives_forked hs hlast)
  · intro h
    have halone : Runs.Always step {} (fun _ => Alone) es :=
      Runs.always_of_steps (fun _ hn => absurd hn (Nat.not_lt_zero _))
        (fun _ _ _ _ _ hi hc hs => alone_step hi hc hs) h
    refine halone.imp fun _ d _ hi n hboth => ?_
    exact hi n hboth.2.lt hboth.1

end Processes

/-- A START whose child has shut down but not exited when the next is forked; the sender never gives up. -/
example : ∃ d, Runs.run step {} [.take none, .fork, .read 0, .shutdown 0, .fin 0, .recv, .take none, .fork] = some d ∧
    d.children = [.shutDown true false, .forked false none] := ⟨_, rfl, rfl⟩

/-- A QINFO whose handler is still at work after six looks, and the CLEANUP
that follows it. -/
def cleanupDuringQinfo : List DeliveryEvent :=
  [.learningMode false, .take (some (.qinfo (SourceDtn.congestedEnv 10) 5 0x0900000a)), .fork, .read 0, .act 0,
    .recv, .recv, .recv, .recv, .recv, .recv, .take (some .cleanupResetPacing), .fork, .read 1, .act 0]

theorem cleanupDuringQinfo_overlaps : ¬ Runs.Always step {} (fun _ => Orderly) cleanupDuringQinfo := by
  intro h
  have hrun : ∃ d, Runs.run step {} cleanupDuringQinfo = some d ∧ d.log = [0, 0, 1, 0] :=
    ⟨_, rfl, by decide +kernel⟩
  obtain ⟨d, hd, hlog⟩ := hrun
  have horder : d.log.Pairwise (· ≤ ·) := (h.last hd).inOrder
  rw [hlog] at horder
  exact absurd horder (by decide)

end Delivery
end TuningMod

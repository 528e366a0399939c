/-
# The sockets of the sender

`fDoRunSendMessageToPeer` opens a socket for each message it takes from the
ring, connects, writes, shuts its side down, waits for the peer and closes the
socket. Two branches in front of the connection, for a source address of zero
and for a `Connect` that fails, go back for the next message without closing
it. From then on one descriptor more is open, for good.

`Connect` ends without a `return`; its value is taken to be nonzero if
`connect` fails. `Socket` goes on when there is no descriptor left, with
`sockfd` -1 (`none`).

Key definitions: `MessageSender.step`, `Opens`, `Loses`, `Careful`.
Key theorems: `step_cases`, `holds_step`, `openSockets_nil_iff`, `one_open_iff`.
-/
import TuningMod.Lib.Runs
import TuningMod.PeerMsg
import Mathlib.Data.List.Nodup

namespace TuningMod

/-- Where the thread is. -/
inductive SenderPoint where
  | cliAgain
  | taken (m : PeerMsg)
  | opened (m : PeerMsg) (sockfd : Option ℕ)
  /-- In front of `Connect`. -/
  | addressed (sockfd : Option ℕ)
  | connected (sockfd : Option ℕ)
  | written (sockfd : Option ℕ)
  /-- `shutdown` gave 0: the peer is waited for. -/
  | shut (sockfd : Option ℕ)
  | closing (sockfd : Option ℕ)

/-- The thread, and the sockets it has opened and not closed. -/
structure MessageSender where
  point : SenderPoint := .cliAgain
  openSockets : List ℕ := []

inductive SenderEvent where
  | take (m : PeerMsg)
  | socket (fd : Option ℕ)
  /-- The source address is tested, and written to `servaddr`. -/
  | address
  | connect (failed : Bool)
  | write (failed : Bool)
  | shutdown (failed : Bool)
  | readSock
  | close

namespace MessageSender

def step (s : MessageSender) : SenderEvent → Option MessageSender
  | .take m => if let .cliAgain := s.point then some { s with point := .taken m } else none
  | .socket fd =>
    match s.point with
    | .taken m =>
      -- the kernel does not give out a descriptor that is open
      if fd.any (· ∈ s.openSockets) then none
      else some { point := .opened m fd, openSockets := fd.toList ++ s.openSockets }
    | _ => none
  | .address =>
    match s.point with
    | .opened m sockfd => some { s with point := if m.srcIpAddr ≠ 0 then .addressed sockfd else .cliAgain }
    | _ => none
  | .connect failed =>
    match s.point with
    | .addressed sockfd => some { s with point := if failed then .cliAgain else .connected sockfd }
    | _ => none
  | .write _ =>
    match s.point with
    | .connected sockfd => some { s with point := .written sockfd }
    | _ => none
  | .shutdown failed =>
    match s.point with
    | .written sockfd => some { s with point := if failed then .closing sockfd else .shut sockfd }
    | _ => none
  | .readSock =>
    match s.point with
    | .shut sockfd => some { s with point := .closing sockfd }
    | _ => none
  | .close =>
    match s.point with
    -- the descriptor is released even if `close` gives -1
    | .closing sockfd =>
      some { point := .cliAgain, openSockets := s.openSockets.filter fun fd => some fd ≠ sockfd }
    | _ => none

/-- A socket is opened. -/
def Opens (e : SenderEvent) : Prop := ∃ fd, e = .socket (some fd)

/-- The thread goes back to `cli_again` and has not closed its socket. -/
def Loses (s : MessageSender) (e : SenderEvent) : Prop :=
  (∃ m fd, s.point = .opened m (some fd) ∧ m.srcIpAddr = 0 ∧ e = .address) ∨
    ∃ fd, s.point = .addressed (some fd) ∧ e = .connect true

/-- The socket the thread still has the descriptor of. -/
def held (s : MessageSender) : List ℕ :=
  match s.point with
  | .cliAgain | .taken _ => []
  | .opened _ sockfd | .addressed sockfd | .connected sockfd | .written sockfd | .shut sockfd | .closing sockfd =>
    sockfd.toList

/-! ### What a step can do -/

/-- What a step can do to the sockets. -/
inductive Changes (s t : MessageSender) (e : SenderEvent) : Prop
  | opens (fd) : e = .socket (some fd) → ¬ s.Loses e → fd ∉ s.openSockets → s.held = [] → t.held = [fd] →
      t.openSockets = fd :: s.openSockets → Changes s t e
  | keeps : ¬ Opens e → ¬ s.Loses e → t.held = s.held → t.openSockets = s.openSockets → Changes s t e
  | loses (fd) : ¬ Opens e → s.Loses e → s.held = [fd] → t.held = [] → t.openSockets = s.openSockets → Changes s t e
  | closes : ¬ Opens e → ¬ s.Loses e → t.held = [] → t.openSockets = s.openSockets.filter (· ∉ s.held) → Changes s t e

section Step

variable {s t : MessageSender} {e : SenderEvent}

theorem changes_socket {fd : Option ℕ} (h : s.step (.socket fd) = some t) : Changes s t (.socket fd) := by
  obtain ⟨point, openSockets⟩ := s
  cases point <;> simp only [step, reduceCtorEq] at h
  case taken m =>
    have hloses : ¬ Loses ⟨.taken m, openSockets⟩ (.socket fd) := by simp [Loses]
    obtain ⟨hfresh, h⟩ := (Option.ite_none_left_eq_some).mp h
    obtain rfl := Option.some.inj h
    cases fd with
    | none => exact .keeps (by simp [Opens]) hloses rfl rfl
    | some fd => exact .opens fd rfl hloses (by simpa using hfresh) rfl rfl rfl

theorem changes_address (h : s.step .address = some t) : Changes s t .address := by
  have hopens : ¬ Opens .address := by simp [Opens]
  obtain ⟨point, openSockets⟩ := s
  cases point <;> simp only [step, reduceCtorEq] at h
  case opened m sockfd =>
    obtain rfl := Option.some.inj h
    by_cases hzero : m.srcIpAddr = 0
    · cases sockfd with
      | none => exact .keeps hopens (by simp [Loses]) (by simp [held, hzero]) rfl
      | some fd => exact .loses fd hopens (.inl ⟨m, fd, rfl, hzero, rfl⟩) rfl (by simp [held, hzero]) rfl
    · refine .keeps hopens ?_ (by simp [held, hzero]) rfl
      rintro (⟨m', fd, hpoint, hzero', -⟩ | ⟨fd, hpoint, -⟩)
      · cases hpoint
        exact hzero hzero'
      · cases hpoint

theorem changes_connect {failed : Bool} (h : s.step (.connect failed) = some t) : Changes s t (.connect failed) := by
  have hopens : ¬ Opens (.connect failed) := by simp [Opens]
  obtain ⟨point, openSockets⟩ := s
  cases point <;> simp only [step, reduceCtorEq] at h
  case addressed sockfd =>
    obtain rfl := Option.some.inj h
    cases failed with
    | false => exact .keeps hopens (by simp [Loses]) rfl rfl
    | true =>
      cases sockfd with
      | none => exact .keeps hopens (by simp [Loses]) rfl rfl
      | some fd => exact .loses fd hopens (.inr ⟨fd, rfl, rfl⟩) rfl rfl rfl

theorem changes_close (h : s.step .close = some t) : Changes s t .close := by
  obtain ⟨point, openSockets⟩ := s
  cases point <;> simp only [step, reduceCtorEq] at h
  case closing sockfd =>
    obtain rfl := Option.some.inj h
    refine .closes (by simp [Opens]) (by simp [Loses]) rfl ?_
    simp [held, eq_comm]

/-- **One step**: a socket is opened, closed or lost, or nothing changes. -/
theorem step_cases (h : s.step e = some t) : Changes s t e := by
  cases e with
  | socket fd => exact changes_socket h
  | address => exact changes_address h
  | connect failed => exact changes_connect h
  | close => exact changes_close h
  | take m =>
    obtain ⟨point, openSockets⟩ := s
    cases point <;> simp only [step, reduceCtorEq] at h
    obtain rfl := Option.some.inj h
    exact .keeps (by simp [Opens]) (by simp [Loses]) rfl rfl
  | write failed =>
    obtain ⟨point, openSockets⟩ := s
    cases point <;> simp only [step, reduceCtorEq] at h
    obtain rfl := Option.some.inj h
    exact .keeps (by simp [Opens]) (by simp [Loses]) rfl rfl
  | shutdown failed =>
    obtain ⟨point, openSockets⟩ := s
    cases point <;> simp only [step, reduceCtorEq] at h
    obtain rfl := Option.some.inj h
    exact .keeps (by simp [Opens]) (by simp [Loses]) (by cases failed <;> rfl) rfl
  | readSock =>
    obtain ⟨point, openSockets⟩ := s
    cases point <;> simp only [step, reduceCtorEq] at h
    obtain rfl := Option.some.inj h
    exact .keeps (by simp [Opens]) (by simp [Loses]) rfl rfl

end Step

/-! ### The sockets that are lost -/

/-- No socket has been lost. -/
def Careful (es : List SenderEvent) : Prop := Runs.Steps step {} (fun _ s e => ¬ s.Loses e) es

/-- Besides the thread's own socket those are open that were lost. -/
structure Holds (es : List SenderEvent) (s : MessageSender) : Prop where
  nodup : s.openSockets.Nodup
  lost : ∃ lost, s.openSockets = s.held ++ lost ∧ (lost = [] ↔ Careful es)

section Lost

variable {s t : MessageSender} {e : SenderEvent} {es : List SenderEvent}

theorem holds_initial : Holds [] {} where
  nodup := List.nodup_nil
  lost := ⟨[], rfl, iff_of_true rfl Runs.Steps.nil⟩

theorem holds_step (hr : Runs.run step {} es = some s) (h : Holds es s) (hs : s.step e = some t) :
    Holds (es ++ [e]) t := by
  have hsnoc : Careful (es ++ [e]) ↔ Careful es ∧ ¬ s.Loses e := Runs.steps_snoc_iff hr hs
  obtain ⟨hnodup, lost, hopen, hlost⟩ := h
  cases step_cases hs with
  | opens fd _ hloses hfresh hheld hheld' hopen' =>
    rw [hheld, List.nil_append] at hopen
    refine ⟨hopen' ▸ hnodup.cons hfresh, lost, by rw [hopen', hheld', hopen, List.singleton_append], ?_⟩
    rw [hlost, hsnoc, and_iff_left hloses]
  | keeps _ hloses hheld' hopen' =>
    refine ⟨hopen' ▸ hnodup, lost, by rw [hopen', hheld', hopen], ?_⟩
    rw [hlost, hsnoc, and_iff_left hloses]
  | loses fd _ hloses hheld hheld' hopen' =>
    refine ⟨hopen' ▸ hnodup, fd :: lost, by rw [hopen', hheld', hopen, hheld]; rfl, ?_⟩
    rw [hsnoc]
    simp [hloses]
  | closes _ hloses hheld' hopen' =>
    have hrest : s.openSockets.filter (· ∉ s.held) = lost := by
      rw [hopen] at hnodup
      have hdisjoint := List.disjoint_of_nodup_append hnodup
      rw [hopen, List.filter_append, List.filter_eq_nil_iff.mpr (by simp), List.nil_append, List.filter_eq_self]
      intro fd hfd
      simpa using fun hmem => hdisjoint hmem hfd
    refine ⟨hopen' ▸ hnodup.filter _, lost, by rw [hopen', hheld', hrest, List.nil_append], ?_⟩
    rw [hlost, hsnoc, and_iff_left hloses]

theorem holds_run (hr : Runs.run step {} es = some s) : Holds es s :=
  Runs.history_inv (P := Holds) holds_initial (fun _ _ _ _ hr h hs => holds_step hr h hs) hr

/-- A socket is opened when none is if none has been lost. -/
theorem openSockets_nil_iff (hr : Runs.run step {} es = some s) (ho : Opens e) (hs : s.step e = some t) :
    s.openSockets = [] ↔ Careful es := by
  obtain ⟨lost, hopen, hlost⟩ := (holds_run hr).lost
  obtain ⟨fd, rfl⟩ := ho
  have hheld : s.held = [] := by
    cases step_cases hs with
    | opens _ _ _ _ hheld => exact hheld
    | keeps hno => exact absurd ⟨fd, rfl⟩ hno
    | loses _ hno => exact absurd ⟨fd, rfl⟩ hno
    | closes hno => exact absurd ⟨fd, rfl⟩ hno
  rw [hopen, hheld, List.nil_append, hlost]

/-- There is one socket at most as long as each is opened when none is open. -/
theorem length_step (h : s.openSockets.length ≤ 1) (ho : Opens e → s.openSockets = []) (hs : s.step e = some t) :
    t.openSockets.length ≤ 1 := by
  cases step_cases hs with
  | opens fd he _ _ _ _ hopen =>
    rw [hopen, ho ⟨fd, he⟩]
    exact Nat.le_refl 1
  | keeps _ _ _ hopen => rwa [hopen]
  | loses _ _ _ _ _ hopen => rwa [hopen]
  | closes _ _ _ hopen =>
    rw [hopen]
    exact Nat.le_trans (List.length_filter_le _ _) h

end Lost

/-- **Sockets are not leaked** in exactly the runs in which none is opened after
one was lost. -/
theorem one_open_iff (es : List SenderEvent) :
    (Runs.Always step {} (fun _ s => s.openSockets.length ≤ 1) es ∧
        Runs.Steps step {} (fun _ s e => Opens e → s.openSockets = []) es) ↔
      Runs.Steps step {} (fun pre _ e => Opens e → Careful pre) es := by
  constructor
  · intro h pre e suf s t he hr hs ho
    exact (openSockets_nil_iff hr ho hs).mp (h.2 pre e suf s t he hr hs ho)
  · intro h
    have hopens : Runs.Steps step {} (fun _ s e => Opens e → s.openSockets = []) es := by
      intro pre e suf s t he hr hs ho
      exact (openSockets_nil_iff hr ho hs).mpr (h pre e suf s t he hr hs ho)
    refine ⟨Runs.always_of_steps (Nat.zero_le 1) ?_ hopens, hopens⟩
    intro pre s e t _ hlen ho hs
    exact length_step hlen ho hs

/-- The first message's peer does not answer. -/
def unreachable : List SenderEvent :=
  [.take { srcIpAddr := 0x0900000a }, .socket (some 5), .address, .connect true, .take { srcIpAddr := 0x0900000a }]

/-- The second message has a second socket. -/
theorem two_open : ¬ (Runs.Always step {} (fun _ s => s.openSockets.length ≤ 1) (unreachable ++ [.socket (some 6)]) ∧
    Runs.Steps step {} (fun _ s e => Opens e → s.openSockets = []) (unreachable ++ [.socket (some 6)])) := by
  intro h
  have hlen := h.1.last (t := ⟨.opened { srcIpAddr := 0x0900000a } (some 6), [6, 5]⟩) rfl
  exact absurd hlen (by decide)

end MessageSender
end TuningMod

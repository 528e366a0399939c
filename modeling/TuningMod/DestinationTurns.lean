/-
# The destinations take turns

Two threads go round the destinations: `fDoRunGetThresholds` measures the
applications that send to one of them, `fDoRunFindHighestRtt` pings one. Each
has an index of its own into `aDest_Dtn_IPs`, looks for the first slot with an
address from there on, ten slots at most, and leaves the index behind it. The
table is shared with the connections that come in and with the housekeeping,
and nothing keeps it as it is while a thread looks for a slot.

A step is one event of the tables, the start of a search or one test of a slot.
A destination that stays attached gets its turn however the others come and go.
What a thread does with the slot it found is left out. It writes the rate and
the time of the slot, and no address; a later time there is covered, as a
housekeeping may read another clock for each slot.

Key definitions: `Searches`, `Searches.step`, `Searches.Attached`.
Key theorems: `Searches.looked_step`, `Searches.destinations_in_turn`.
-/
import TuningMod.Lib.Turns
import TuningMod.PeerTables
import Mathlib.Logic.Function.Basic

namespace TuningMod

/-- The threads that look for a destination, with `vLastIpFound` and `vLastIpPinged`. -/
inductive SearchThread where
  | fDoRunGetThresholds
  | fDoRunFindHighestRtt
  deriving DecidableEq, Repr

structure Searches where
  peers : Peers := {}
  search : SearchThread → Turns.Scan := fun _ => {}

inductive SearchEvent where
  | peer (e : PeerEvent)
  | start (thread : SearchThread)
  | look (thread : SearchThread)

namespace Searches

/-- `aDest_Dtn_IPs[i].dest_ip_addr`, as a condition. -/
def occupied (s : Searches) (i : ℕ) : Bool := s.peers.dest.addrs.getD i 0 != 0

/-- A search is made only while this host is a source DTN; a thread may also
pass it over, because there is no traffic or Kafka is used. -/
def step (s : Searches) : SearchEvent → Option Searches
  | .peer e => (s.peers.step e).map fun peers => { s with peers := peers }
  | .start thread =>
    if s.peers.vIamASrcDtn then
      ((s.search thread).start maxNumIpAttached).map fun scan =>
        { s with search := Function.update s.search thread scan }
    else none
  | .look thread =>
    ((s.search thread).look maxNumIpAttached (s.occupied (s.search thread).last)).map fun scan =>
      { s with search := Function.update s.search thread scan }

/-- A destination is attached at slot `i`. -/
def Attached (i : ℕ) (s : Searches) : Prop := s.occupied i = true

instance (i : ℕ) (s : Searches) : Decidable (s.Attached i) := inferInstanceAs (Decidable (_ = _))

variable {s s' t : Searches} {e : SearchEvent} {thread : SearchThread} {i : ℕ}

theorem Attached.lt (h : s.Attached i) : i < maxNumIpAttached := by
  by_contra hge
  unfold Attached occupied at h
  have hlen : s.peers.dest.addrs.length ≤ i := by
    rw [PeerTable.length_addrs]
    exact Nat.not_lt.mp hge
  rw [List.getD_eq_getElem?_getD, List.getElem?_eq_none hlen] at h
  cases h

/-- What a step does to the looks of a thread: nothing, or one more at the slot
its index points to. -/
theorem looked_step (h : s.step e = some s') :
    Turns.Scan.Looked maxNumIpAttached (s.search thread) (s.occupied (s.search thread).last) (s'.search thread) := by
  cases e with
  | peer e =>
    obtain ⟨peers, -, rfl⟩ := Option.map_eq_some_iff.mp h
    exact .none rfl rfl
  | start th =>
    rw [step] at h
    split at h
    · obtain ⟨scan, hscan, rfl⟩ := Option.map_eq_some_iff.mp h
      by_cases hth : thread = th
      · subst hth
        dsimp only
        rw [Function.update_self]
        exact Turns.Scan.start_looked hscan
      · dsimp only
        rw [Function.update_of_ne hth]
        exact .none rfl rfl
    · cases h
  | look th =>
    obtain ⟨scan, hscan, rfl⟩ := Option.map_eq_some_iff.mp h
    by_cases hth : thread = th
    · subst hth
      dsimp only
      rw [Function.update_self]
      exact Turns.Scan.look_looked hscan
    · dsimp only
      rw [Function.update_of_ne hth]
      exact .none rfl rfl

/-- In every reachable state both indices go round the table. -/
theorem turning {es : List SearchEvent} (h : Runs.run step {} es = some s) (thread : SearchThread) :
    (s.search thread).Turning maxNumIpAttached :=
  Runs.history_inv (P := fun _ s => (s.search thread).Turning maxNumIpAttached)
    Turns.Scan.turning_initial (fun _ _ _ _ _ ht hs => (looked_step hs).turning (by decide) ht) h

/-- What a thread tested in a stretch of a run, and that it found slot `i`
occupied whenever it tested it. -/
structure Stretch (thread : SearchThread) (i : ℕ) (s t : Searches) (looks : List (ℕ × Bool)) : Prop where
  tested : (t.search thread).looks = (s.search thread).looks ++ looks
  found : ∀ l ∈ looks, l.1 = i → l.2 = true

theorem Stretch.step {looks : List (ℕ × Bool)} (h : Stretch thread i s t looks) (hi : t.Attached i)
    {t' : Searches} (hs : t.step e = some t') : ∃ looks', Stretch thread i s t' looks' := by
  have hlooked : Turns.Scan.Looked maxNumIpAttached (t.search thread) (t.occupied (t.search thread).last)
      (t'.search thread) := looked_step hs
  cases hlooked with
  | none hlooks _ => exact ⟨looks, hlooks.trans h.tested, h.found⟩
  | one hlooks _ =>
    refine ⟨looks ++ [((t.search thread).last, t.occupied (t.search thread).last)], ?_, ?_⟩
    · rw [hlooks, h.tested, List.append_assoc]
    · intro l hl hli
      rcases List.mem_append.mp hl with hl | hl
      · exact h.found l hl hli
      · obtain rfl := List.mem_singleton.mp hl
        subst hli
        exact hi

/-- While a destination stays attached at slot `i`, no thread finds its slot free. -/
theorem exists_stretch {es : List SearchEvent} (hr : Runs.run step s es = some t)
    (hi : Runs.Always step s (fun _ => Attached i) es) (thread : SearchThread) :
    ∃ looks, Stretch thread i s t looks := by
  have halways : Runs.Always step s (fun _ u => ∃ looks, Stretch thread i s u looks) es := by
    have hstart : Stretch thread i s s [] := ⟨(List.append_nil _).symm, fun l hl => by cases hl⟩
    refine Runs.always_of_steps ⟨[], hstart⟩ ?_ hi.steps
    intro pre u e u' _ ⟨looks, hlooks⟩ hu hs
    exact hlooks.step hu hs
  exact halways.last hr

/-- **The destinations take turns.** In any stretch of a run, with connections
and housekeeping between any two tests of a slot, a destination that stays
attached is chosen as often as any slot is, up to once; and it is chosen once in
every ten tests. -/
theorem destinations_in_turn {es₁ es₂ : List SearchEvent} (h₁ : Runs.run step {} es₁ = some s)
    (h₂ : Runs.run step s es₂ = some t) (hi : Runs.Always step s (fun _ => Attached i) es₂)
    (thread : SearchThread) :
    ∃ looks, (t.search thread).looks = (s.search thread).looks ++ looks ∧
      (∀ j < maxNumIpAttached,
        (Turns.Scan.occupiedOf looks).count j ≤ (Turns.Scan.occupiedOf looks).count i + 1) ∧
      looks.length < maxNumIpAttached * ((Turns.Scan.occupiedOf looks).count i + 1) := by
  have hlt : i < maxNumIpAttached := (hi [] es₂ s rfl rfl).lt
  have hrun : Runs.run step {} (es₁ ++ es₂) = some t := by
    rw [Runs.run_append, h₁]
    exact h₂
  obtain ⟨looks, hstretch⟩ := exists_stretch h₂ hi thread
  exact ⟨looks, hstretch.tested,
    Turns.Scan.served_fair (turning h₁ thread) (turning hrun thread) hstretch.tested hlt hstretch.found⟩

/-- Two destinations, attached one after the other. -/
def twoDestinations : List SearchEvent :=
  [.peer (.accept ⟨0x0a000001, by decide⟩ 0), .peer (.accept ⟨0x0a000002, by decide⟩ 0)]

/-- The first one is pinged while the second connects again, and then the second. -/
def twoPings : List SearchEvent :=
  [.start .fDoRunFindHighestRtt, .peer (.accept ⟨0x0a000002, by decide⟩ 5), .look .fDoRunFindHighestRtt,
    .start .fDoRunFindHighestRtt, .look .fDoRunFindHighestRtt]

theorem destinations_in_turn_two :
    ∃ s t : Searches, Runs.run step {} twoDestinations = some s ∧ Runs.run step s twoPings = some t ∧
      (t.search .fDoRunFindHighestRtt).served = [0, 1] ∧
      ∃ looks, (t.search .fDoRunFindHighestRtt).looks = (s.search .fDoRunFindHighestRtt).looks ++ looks ∧
        (∀ j < maxNumIpAttached,
          (Turns.Scan.occupiedOf looks).count j ≤ (Turns.Scan.occupiedOf looks).count 0 + 1) ∧
        looks.length < maxNumIpAttached * ((Turns.Scan.occupiedOf looks).count 0 + 1) := by
  refine ⟨_, _, rfl, rfl, by decide,
    destinations_in_turn (show Runs.run step {} twoDestinations = some _ from rfl)
      (show Runs.run step _ twoPings = some _ from rfl) ?_ .fDoRunFindHighestRtt⟩
  unfold twoPings
  iterate 5
    refine Runs.Always.cons (by decide) fun t ht => ?_
    cases ht
  exact Runs.Always.nil (by decide)

end Searches
end TuningMod

/-
Nodes on a shared medium that work in rounds.

A round sends when it begins, works while other nodes begin and end rounds of
their own, and has read when it ends.  The medium forges nothing: what a round
has read was sent by some round that began before it ended.  It may lose, repeat,
delay and reorder what is sent, and a node may stop inside a round and start
again.  The two things a proof about one node needs are `Reachable.run`, that its
rounds are a run of its own, and `Reachable.read_sent`, that what they read was
sent.
-/
import NeighborDiscovery.Library.Runs
import Mathlib.Logic.Function.Basic

namespace Broadcast

open Runs

variable {ν σ ι ο μ : Type*}

structure Nodes (ν σ ι ο μ : Type*) where
  starts : ν → σ → Prop
  round : ν → σ → ι → ο → σ → Prop
  sends : ν → σ → ι → μ → Prop
  reads : ν → Event σ ι ο → μ → Prop

/-- A round that has begun, with the state it began in. -/
structure Begun (ν σ ι : Type*) where
  node : ν
  before : σ
  input : ι

/-- The nodes, the rounds they are in, every round begun so far, and the rounds
each node has ended since it last started. -/
structure State (ν σ ι ο : Type*) where
  node : ν → σ
  busy : ν → Option ι
  begun : List (Begun ν σ ι)
  ended : ν → List (Event σ ι ο)

variable (sys : Nodes ν σ ι ο μ)

def State.Sent (s : State ν σ ι ο) (m : μ) : Prop :=
  ∃ b ∈ s.begun, sys.sends b.node b.before b.input m

variable [DecidableEq ν]

def State.begin (s : State ν σ ι ο) (n : ν) (i : ι) : State ν σ ι ο :=
  { s with busy := Function.update s.busy n (some i), begun := s.begun ++ [⟨n, s.node n, i⟩] }

def State.finish (s : State ν σ ι ο) (n : ν) (e : Event σ ι ο) : State ν σ ι ο :=
  { s with
    node := Function.update s.node n e.after
    busy := Function.update s.busy n none
    ended := Function.update s.ended n (s.ended n ++ [e]) }

def State.restart (s : State ν σ ι ο) (n : ν) (t : σ) : State ν σ ι ο :=
  { s with
    node := Function.update s.node n t
    busy := Function.update s.busy n none
    ended := Function.update s.ended n [] }

inductive Reachable : State ν σ ι ο → Prop where
  | start {node : ν → σ} : (∀ n, sys.starts n (node n)) →
      Reachable ⟨node, fun _ => none, [], fun _ => []⟩
  | begin {s : State ν σ ι ο} {n : ν} (i : ι) : Reachable s → s.busy n = none →
      Reachable (s.begin n i)
  | finish {s : State ν σ ι ο} {n : ν} {i : ι} {o : ο} {t : σ} : Reachable s →
      s.busy n = some i → sys.round n (s.node n) i o t →
      (∀ m, sys.reads n ⟨s.node n, i, o, t⟩ m → s.Sent sys m) →
      Reachable (s.finish n ⟨s.node n, i, o, t⟩)
  | restart {s : State ν σ ι ο} {n : ν} {t : σ} : Reachable s → sys.starts n t →
      Reachable (s.restart n t)

variable {sys} {s : State ν σ ι ο}

/-! ## What one action changes -/

theorem State.mem_ended_finish {n k : ν} {e d : Event σ ι ο}
    (h : e ∈ (s.finish k d).ended n) : e ∈ s.ended n ∨ (n = k ∧ e = d) := by
  change e ∈ Function.update s.ended k _ n at h
  by_cases hk : n = k
  · subst hk
    rw [Function.update_self, List.mem_append, List.mem_singleton] at h
    exact h.imp_right fun hd => ⟨rfl, hd⟩
  · rw [Function.update_of_ne hk] at h
    exact Or.inl h

theorem State.mem_ended_restart {n k : ν} {e : Event σ ι ο} {t : σ}
    (h : e ∈ (s.restart k t).ended n) : e ∈ s.ended n := by
  change e ∈ Function.update s.ended k _ n at h
  by_cases hk : n = k
  · subst hk
    rw [Function.update_self] at h
    exact absurd h List.not_mem_nil
  · rw [Function.update_of_ne hk] at h
    exact h

theorem State.busy_begin {n k : ν} {i j : ι} (h : (s.begin k j).busy n = some i) :
    s.busy n = some i ∨ (n = k ∧ i = j) := by
  change Function.update s.busy k _ n = _ at h
  by_cases hk : n = k
  · subst hk
    rw [Function.update_self] at h
    exact Or.inr ⟨rfl, (Option.some.inj h).symm⟩
  · rw [Function.update_of_ne hk] at h
    exact Or.inl h

theorem update_busy {n k : ν} {i : ι} {busy : ν → Option ι}
    (h : Function.update busy k none n = some i) : n ≠ k ∧ busy n = some i := by
  by_cases hk : n = k
  · subst hk
    rw [Function.update_self] at h
    cases h
  · rw [Function.update_of_ne hk] at h
    exact ⟨hk, h⟩

/-! ## Reachable states -/

/-- Seen from one node, the others do not matter: its rounds are a run. -/
theorem Reachable.run (hs : Reachable sys s) (n : ν) :
    ∃ init, sys.starts n init ∧ Run (sys.round n) init (s.ended n) (s.node n) := by
  induction hs with
  | start hstarts => exact ⟨_, hstarts n, .nil⟩
  | begin _ _ _ ih => exact ih
  | @finish s m i o t _ _ hround _ ih =>
    by_cases hm : n = m
    · subst hm
      obtain ⟨init, hstarts, hrun⟩ := ih
      refine ⟨init, hstarts, ?_⟩
      show Run _ _ (Function.update s.ended n _ n) (Function.update s.node n _ n)
      rw [Function.update_self, Function.update_self]
      exact hrun.snoc hround
    · show ∃ init, _ ∧ Run _ _ (Function.update s.ended m _ n) (Function.update s.node m _ n)
      rw [Function.update_of_ne hm, Function.update_of_ne hm]
      exact ih
  | @restart s m t _ hstarts ih =>
    by_cases hm : n = m
    · subst hm
      refine ⟨t, hstarts, ?_⟩
      show Run _ _ (Function.update s.ended n _ n) (Function.update s.node n _ n)
      rw [Function.update_self, Function.update_self]
      exact .nil
    · show ∃ init, _ ∧ Run _ _ (Function.update s.ended m _ n) (Function.update s.node m _ n)
      rw [Function.update_of_ne hm, Function.update_of_ne hm]
      exact ih

/-- What a round of a node has read, some round sent. -/
theorem Reachable.read_sent (hs : Reachable sys s) {n : ν} {e : Event σ ι ο}
    (he : e ∈ s.ended n) {m : μ} (hm : sys.reads n e m) : s.Sent sys m := by
  induction hs with
  | start _ => exact absurd he List.not_mem_nil
  | begin _ _ _ ih =>
    obtain ⟨b, hb, hsends⟩ := ih he
    exact ⟨b, List.mem_append_left _ hb, hsends⟩
  | finish _ _ _ hreads ih =>
    rcases State.mem_ended_finish he with hpast | ⟨rfl, rfl⟩
    · exact ih hpast
    · exact hreads m hm
  | restart _ _ ih => exact ih (State.mem_ended_restart he)

/-- A round that is under way had begun in the state its node is in. -/
theorem Reachable.busy_begun (hs : Reachable sys s) {n : ν} {i : ι} (hbusy : s.busy n = some i) :
    ⟨n, s.node n, i⟩ ∈ s.begun := by
  induction hs with
  | start _ => cases hbusy
  | begin _ _ _ ih =>
    rcases State.busy_begin hbusy with hbusy | ⟨rfl, rfl⟩
    · exact List.mem_append_left _ (ih hbusy)
    · exact List.mem_append_right _ (List.mem_singleton_self _)
  | @finish s k j o t _ _ _ _ ih =>
    obtain ⟨hk, hbusy⟩ := update_busy hbusy
    show ⟨n, Function.update s.node k t n, i⟩ ∈ s.begun
    rw [Function.update_of_ne hk]
    exact ih hbusy
  | @restart s k t _ _ ih =>
    obtain ⟨hk, hbusy⟩ := update_busy hbusy
    show ⟨n, Function.update s.node k t n, i⟩ ∈ s.begun
    rw [Function.update_of_ne hk]
    exact ih hbusy

theorem Reachable.ended_begun (hs : Reachable sys s) {n : ν} {e : Event σ ι ο}
    (he : e ∈ s.ended n) : ⟨n, e.before, e.input⟩ ∈ s.begun := by
  induction hs with
  | start _ => exact absurd he List.not_mem_nil
  | begin _ _ _ ih => exact List.mem_append_left _ (ih he)
  | finish hs hbusy _ _ ih =>
    rcases State.mem_ended_finish he with hpast | ⟨rfl, rfl⟩
    · exact ih hpast
    · exact hs.busy_begun hbusy
  | restart _ _ ih => exact ih (State.mem_ended_restart he)

end Broadcast

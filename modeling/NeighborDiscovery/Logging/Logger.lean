/-
The logger, a pointer that may be null.

Its lines are the state of the `Logging` monad.  A message is an expression the
caller evaluates before the call, so a guarded call on a null logger does not
evaluate it.
-/
import NeighborDiscovery.Library.Fallible
import NeighborDiscovery.Utility.FunctionReturn

namespace NeighborDiscovery

open Fallible

inductive LogLine where
  | info (message : Bytes)
  | error (message : Bytes)
deriving DecidableEq, Repr

/-- `std::shared_ptr<ILogger>`, with the lines the logger has been given. -/
abbrev Logger := Option (List LogLine)

abbrev Logging := StateT Logger (Except Fault)

namespace Logging

/-- `if (this->logger != nullptr) { logger->info(..) }` and the like. -/
def guarded (line : Except Fault LogLine) : Logging Unit := fun logger =>
  match logger with
  | none => .ok ((), none)
  | some lines => do return ((), some (lines ++ [← line]))

/-- `this->logger->info(..)` with no test before it. -/
def unguarded (line : LogLine) : Logging Unit := fun logger => do
  return ((), some ((← deref .logger logger) ++ [line]))

variable {α β : Type}

/-- A computation that ends well has ended well at each of its steps. -/
theorem bind_eq_ok {x : Logging α} {f : α → Logging β} {logger : Logger} {r : β × Logger} :
    (x >>= f) logger = .ok r ↔ ∃ a logger', x logger = .ok (a, logger') ∧ f a logger' = .ok r := by
  constructor
  · intro h
    obtain ⟨⟨a, logger'⟩, hx, hf⟩ := Fallible.bind_eq_ok.mp h
    exact ⟨a, logger', hx, hf⟩
  · intro h
    obtain ⟨a, logger', hx, hf⟩ := h
    exact Fallible.bind_eq_ok.mpr ⟨(a, logger'), hx, hf⟩

/-- A computation faults at one of its steps. -/
theorem bind_eq_error {x : Logging α} {f : α → Logging β} {logger : Logger} {e : Fault} :
    (x >>= f) logger = .error e ↔ x logger = .error e ∨
      ∃ a logger', x logger = .ok (a, logger') ∧ f a logger' = .error e := by
  constructor
  · intro h
    rcases Fallible.bind_eq_error.mp h with hx | ⟨⟨a, logger'⟩, hx, hf⟩
    · exact Or.inl hx
    · exact Or.inr ⟨a, logger', hx, hf⟩
  · intro h
    rcases h with hx | ⟨a, logger', hx, hf⟩
    · exact Fallible.bind_eq_error.mpr (Or.inl hx)
    · exact Fallible.bind_eq_error.mpr (Or.inr ⟨(a, logger'), hx, hf⟩)

theorem lift_eq_ok {x : Except Fault α} {logger : Logger} {r : α × Logger} :
    (liftM x : Logging α) logger = .ok r ↔ x = .ok r.1 ∧ r.2 = logger := by
  cases x with
  | error e =>
    constructor
    · intro h
      cases h
    · intro h
      cases h.1
  | ok a =>
    constructor
    · intro h
      cases h
      exact ⟨rfl, rfl⟩
    · intro h
      obtain ⟨b, logger'⟩ := r
      obtain ⟨ha, hl⟩ := h
      cases ha
      cases hl
      rfl

/-! ## How a computation ends -/

/-- The computation ends as said.  Where it ends well, there is a logger after it
exactly if there was one before. -/
def Yields (x : Logging α) (logger : Logger) : Except Fault α → Prop
  | .ok a => ∃ logger', x logger = .ok (a, logger') ∧ logger'.isSome = logger.isSome
  | .error e => x logger = .error e

variable {x : Logging α} {f : α → Logging β} {logger : Logger}

theorem yields_pure (a : α) : Yields (pure a) logger (.ok a) := ⟨logger, rfl, rfl⟩

theorem bind_apply (x : Logging α) (f : α → Logging β) (logger : Logger) :
    (x >>= f) logger = x logger >>= fun p => f p.1 p.2 := rfl

theorem lift_bind (y : Except Fault α) (f : α → Logging β) (logger : Logger) :
    ((liftM y : Logging α) >>= f) logger = y >>= fun a => f a logger := by
  cases y with
  | error e => rfl
  | ok a => rfl

theorem bind_run {a : α} {logger' : Logger} (h : x logger = .ok (a, logger')) :
    (x >>= f) logger = f a logger' := by
  rw [bind_apply, h, ok_bind]

theorem Yields.bind {a : α} {o : Except Fault β} (hx : Yields x logger (.ok a))
    (hf : ∀ logger', logger'.isSome = logger.isSome → Yields (f a) logger' o) :
    Yields (x >>= f) logger o := by
  obtain ⟨logger', hrun, hsome⟩ := hx
  have hrest := hf logger' hsome
  cases o with
  | ok b =>
    obtain ⟨logger'', hb, hsome'⟩ := hrest
    exact ⟨logger'', (bind_run hrun).trans hb, hsome'.trans hsome⟩
  | error e => exact (bind_run hrun).trans hrest

theorem Yields.fault {e : Fault} (hx : Yields x logger (.error e)) :
    Yields (x >>= f) logger (.error e) := by
  show (x >>= f) logger = .error e
  rw [bind_apply, show x logger = .error e from hx, error_bind]

/-- Computations that run alike end alike. -/
theorem Yields.of_run {y : Logging α} {logger' : Logger} {o : Except Fault α}
    (hrun : x logger = y logger') (hsome : logger'.isSome = logger.isSome)
    (h : Yields y logger' o) : Yields x logger o := by
  cases o with
  | error e => exact Eq.trans hrun h
  | ok a =>
    obtain ⟨logger'', hy, hkept⟩ := h
    exact ⟨logger'', hrun.trans hy, hkept.trans hsome⟩

theorem yields_lift {y o : Except Fault α} (h : y = o) : Yields (liftM y : Logging α) logger o := by
  subst h
  cases y with
  | error e => rfl
  | ok a => exact ⟨logger, rfl, rfl⟩

theorem yields_guarded {line : Except Fault LogLine}
    (h : logger.isSome = true → ∃ l, line = .ok l) : Yields (guarded line) logger (.ok ()) := by
  cases logger with
  | none => exact ⟨none, rfl, rfl⟩
  | some lines =>
    obtain ⟨l, rfl⟩ := h rfl
    exact ⟨some (lines ++ [l]), rfl, rfl⟩

theorem yields_guarded_error {e : Fault} (h : logger.isSome = true) :
    Yields (guarded (.error e)) logger (.error e) := by
  obtain ⟨lines, rfl⟩ := Option.isSome_iff_exists.mp h
  rfl

theorem Yields.kept {a b : α} {logger' : Logger} (h : Yields x logger (.ok a))
    (hrun : x logger = .ok (b, logger')) : a = b ∧ logger'.isSome = logger.isSome := by
  obtain ⟨logger'', hrun', hsome⟩ := h
  rw [hrun] at hrun'
  cases hrun'
  exact ⟨rfl, hsome⟩

theorem Yields.error_eq {e e' : Fault} (h : Yields x logger (.error e))
    (hrun : x logger = .error e') : e = e' :=
  Except.error.inj (Eq.trans (Eq.symm h) hrun)

theorem Yields.not_ok {e : Fault} (h : Yields x logger (.error e)) (r : α × Logger) :
    x logger ≠ .ok r := by
  intro hrun
  cases Eq.trans (Eq.symm h) hrun

theorem Yields.not_error {a : α} (h : Yields x logger (.ok a)) (e : Fault) :
    x logger ≠ .error e := by
  obtain ⟨logger', hrun, -⟩ := h
  rw [hrun]
  exact fun h => by cases h

theorem Yields.eq_error_iff {o : Except Fault α} (h : Yields x logger o) (e : Fault) :
    x logger = .error e ↔ o = .error e := by
  cases o with
  | ok a => exact iff_of_false (h.not_error e) fun heq => by cases heq
  | error e' =>
    refine ⟨fun hrun => congrArg Except.error (h.error_eq hrun), fun heq => ?_⟩
    cases heq
    exact h

end Logging

end NeighborDiscovery

/-
`Processes::Process`: the loop of `run` and how its turns lie in time.

The loop reads `high_resolution_clock` around each call of the function it runs and
sleeps for what is left of the period, in whole seconds.  That clock is not the
steady one, so it may be set while the function runs; the results bound what a
setting of at most `δ` does to the distance of the turns.
-/
import NeighborDiscovery.Containers.IndexedTimedSet
import NeighborDiscovery.Library.Pacing
import NeighborDiscovery.Library.Runs
import NeighborDiscovery.Utility.FunctionReturn
import Mathlib.Algebra.Order.Group.Int

namespace NeighborDiscovery.Processes

/-- `Processes::Process`, less the function it runs. -/
structure Process where
  cyclic : Bool
  iterationPeriodS : UInt32
  logPath : Bytes

/-- What a turn of the loop meets.  `start` and `finish` are the readings before and
after the call, `began` and `ended` are the steady clock at the same moments, which
`run` does not read. -/
structure Turn (ι : Type) where
  start : Int
  input : ι
  finish : Int
  began : Int
  ended : Int

/-- A process in its loop. -/
structure Loop (σ : Type) where
  state : σ
  running : Bool

/-- What a turn shows: the output of the call, and the argument of `sleep` if there
is such a call. -/
structure Turned (ο : Type) where
  output : ο
  sleep : Option UInt32

abbrev TurnEvent (σ ι ο : Type) := Runs.Event (Loop σ) (Turn ι) (Turned ο)

namespace Process

variable (process : Process)

/-- `iterationPeriodS - duration_cast<seconds>(end - start).count()`, of type `long`. -/
def secondsToWait (start finish : Int) : Int :=
  process.iterationPeriodS.toNat - Int.tdiv (finish - start) 1000000000

/-- The call of `sleep`, whose parameter is an `unsigned int`. -/
def sleep (start finish : Int) : Option UInt32 :=
  if process.cyclic && process.secondsToWait start finish > 0 then
    some (UInt32.ofInt (process.secondsToWait start finish))
  else none

variable {σ ι ο ε : Type}

/-- The body of the loop. -/
def turn (processIterationFunction : σ → ι → Except ε (σ × ο)) (p : Loop σ) (t : Turn ι) :
    Except ε (Loop σ × Turned ο) := do
  let (state, output) ← processIterationFunction p.state t.input
  return (⟨state, process.cyclic⟩, ⟨output, process.sleep t.start t.finish⟩)

/-- A turn of `run`, whose function may be empty. -/
def Turns (processIterationFunction : Option (σ → ι → Except ε (σ × ο))) (p : Loop σ)
    (t : Turn ι) (out : Turned ο) (p' : Loop σ) : Prop :=
  p.running = true ∧ ∃ f, processIterationFunction = some f ∧ process.turn f p t = .ok (p', out)

/-- `Process::run`: `do` enters the loop whatever `cyclic` says. -/
abbrev Run (processIterationFunction : Option (σ → ι → Except ε (σ × ο))) (init : σ)
    (h : List (TurnEvent σ ι ο)) (p : Loop σ) : Prop :=
  Runs.Run (process.Turns processIterationFunction) ⟨init, true⟩ h p

end Process

/-! ## Turns in time -/

/-- The time for which a turn asks to sleep. -/
def Turned.slept {ο : Type} (out : Turned ο) : Int := seconds ((out.sleep.map UInt32.toNat).getD 0)

theorem Turned.slept_nonneg {ο : Type} (out : Turned ο) : 0 ≤ out.slept := by
  unfold slept seconds
  omega

section Pace

variable {σ ι ο ε : Type}

/-- The steady clock does not go back, `sleep` lasts its time, and the other clock is
set by at most `δ` while the function runs. -/
structure Timely (δ : Nat) (h : List (TurnEvent σ ι ο)) : Prop where
  began_le : ∀ e ∈ h, e.input.began ≤ e.input.ended
  ahead : ∀ e ∈ h, e.input.finish - e.input.start ≤ e.input.ended - e.input.began + δ
  behind : ∀ e ∈ h, e.input.ended - e.input.began ≤ e.input.finish - e.input.start + δ
  wakes : h.IsChain fun a b => a.input.ended + a.output.slept ≤ b.input.began

/-- A call lasts at most `longest`, and the next turn is at most `late` after the end of
the sleep. -/
structure Prompt (longest late : Nat) (h : List (TurnEvent σ ι ο)) : Prop where
  lasts : ∀ e ∈ h, e.input.ended - e.input.began ≤ longest
  wakes : h.IsChain fun a b => b.input.began ≤ a.input.ended + a.output.slept + (late : Int)

theorem began_spaced {d : Int} {h h₁ h₂ h₃ : List (TurnEvent σ ι ο)} {a b : TurnEvent σ ι ο}
    (hchain : h.IsChain fun a b => a.input.began + d ≤ b.input.began)
    (hsplit : h = h₁ ++ a :: (h₂ ++ b :: h₃)) :
    a.input.began + (h₂.length + 1) * d ≤ b.input.began := by
  rw [hsplit, List.append_cons h₂, ← List.cons_append] at hchain
  have hlower := Pacing.add_nsmul_le hchain.right_of_append.left_of_append
  rw [nsmul_eq_mul, Nat.cast_succ] at hlower
  exact hlower

section Timely

variable {δ : Nat} {h h₁ h₂ h₃ : List (TurnEvent σ ι ο)} {a b : TurnEvent σ ι ο}

theorem Timely.after (htimely : Timely δ h) {d : Int}
    (hchain : h.IsChain fun a b => a.input.began + d ≤ b.input.began)
    (hsplit : h = h₁ ++ a :: (h₂ ++ b :: h₃)) :
    a.input.ended + h₂.length * d ≤ b.input.began := by
  have hslept := a.output.slept_nonneg
  have hwakes := htimely.wakes
  cases h₂ with
  | nil =>
    rw [hsplit, List.nil_append, List.isChain_append_cons_cons] at hwakes
    simp
    omega
  | cons c h₂ =>
    have hnext : h = (h₁ ++ [a]) ++ c :: (h₂ ++ b :: h₃) := by simp [hsplit]
    have hpace := began_spaced hchain hnext
    rw [hsplit, List.cons_append, List.isChain_append_cons_cons] at hwakes
    rw [List.length_cons, Nat.cast_succ]
    omega

/-- A turn is over when a later one begins. -/
theorem Timely.over (htimely : Timely δ h) (hsplit : h = h₁ ++ a :: (h₂ ++ b :: h₃)) :
    a.input.ended ≤ b.input.began := by
  have hchain : h.IsChain fun a b => a.input.began + 0 ≤ b.input.began := by
    refine htimely.wakes.imp_of_mem_imp fun c d hc _ hwakes => ?_
    have hbegan := htimely.began_le c hc
    have hslept := c.output.slept_nonneg
    omega
  simpa using htimely.after hchain hsplit

end Timely

namespace Process

variable {process : Process}

/-- The period, as a time. -/
def period (process : Process) : Int := seconds process.iterationPeriodS.toNat

/-- The argument of `sleep` fits its type when the clock was set by at most `δ`. -/
def SleepFits (process : Process) (δ : Nat) : Prop :=
  process.period + δ < seconds (2 ^ 32 - 1)

instance (process : Process) (δ : Nat) : Decidable (process.SleepFits δ) :=
  inferInstanceAs (Decidable (process.period + δ < seconds (2 ^ 32 - 1)))

/-- The most that a turn and its sleep last: the division cuts off up to a second of what
the call lasted. -/
def stride (process : Process) (δ longest : Nat) : Int :=
  max (process.period + seconds 1 + δ) longest

/-- What is left of the period, to within the second that the division cuts off. -/
theorem secondsToWait_bounds (process : Process) (start finish : Int) :
    process.period - max (finish - start) 0 ≤ process.secondsToWait start finish * 1000000000 ∧
      process.secondsToWait start finish * 1000000000 <
        process.period - (finish - start) + 1000000000 := by
  have hlt := Int.lt_tdiv_add_one_mul_self (finish - start) (b := 1000000000) (by omega)
  have hle := Int.tdiv_mul_le (finish - start) (b := 1000000000) (by omega)
  unfold period secondsToWait seconds
  by_cases hpos : 0 ≤ finish - start
  · rw [if_pos hpos] at hle
    rw [max_eq_left hpos]
    omega
  · rw [if_neg hpos] at hle
    rw [max_eq_right (by omega)]
    omega

theorem toNat_ofInt {n : Int} (hn : 0 ≤ n) (hlt : n < 2 ^ 32) :
    ((UInt32.ofInt n).toNat : Int) = n := by
  unfold UInt32.ofInt
  rw [Int.emod_eq_of_lt hn hlt, UInt32.toNat_ofNat_of_lt' (by unfold UInt32.size; omega)]
  omega

/-- A turn of a cyclic process sleeps for what is left, or has overrun the period. -/
theorem slept_cases {start finish : Int} {ο : Type} {out : Turned ο}
    (hcyclic : process.cyclic = true) (hsleep : out.sleep = process.sleep start finish)
    (hfits : process.secondsToWait start finish < 2 ^ 32) :
    out.slept = max (process.secondsToWait start finish) 0 * 1000000000 := by
  unfold Turned.slept seconds
  rw [hsleep]
  unfold sleep
  by_cases hpos : process.secondsToWait start finish > 0
  · rw [hcyclic, decide_eq_true hpos, Bool.and_true, if_pos rfl, Option.map_some,
      Option.getD_some, toNat_ofInt (by omega) hfits, max_eq_left (by omega)]
  · rw [hcyclic, decide_eq_false hpos, Bool.and_false, if_neg Bool.false_ne_true,
      max_eq_right (by omega)]
    rfl

theorem Turns.sleep_eq {f : Option (σ → ι → Except ε (σ × ο))} {p p' : Loop σ} {t : Turn ι}
    {out : Turned ο} (h : process.Turns f p t out p') :
    out.sleep = process.sleep t.start t.finish := by
  obtain ⟨-, f, -, hturn⟩ := h
  unfold turn at hturn
  cases hf : f p.state t.input with
  | error e =>
    rw [hf] at hturn
    cases hturn
  | ok r =>
    rw [hf] at hturn
    cases hturn
    rfl

theorem stride_nonneg (process : Process) (δ longest : Nat) : 0 ≤ process.stride δ longest :=
  (Int.natCast_nonneg longest).trans (le_max_right _ _)

/-- The time from the start of a turn to the end of its sleep. -/
theorem Turns.lasts {f : Option (σ → ι → Except ε (σ × ο))} {e : TurnEvent σ ι ο}
    (h : process.Turns f e.before e.input e.output e.after) (hcyclic : process.cyclic = true)
    {δ : Nat} (hδ : process.SleepFits δ)
    (hbegan : e.input.began ≤ e.input.ended)
    (hahead : e.input.finish - e.input.start ≤ e.input.ended - e.input.began + δ)
    (hbehind : e.input.ended - e.input.began ≤ e.input.finish - e.input.start + δ) :
    e.input.began + (process.period - δ) ≤ e.input.ended + e.output.slept ∧
      ∀ longest : Nat, e.input.ended - e.input.began ≤ longest →
        e.input.ended + e.output.slept ≤ e.input.began + process.stride δ longest := by
  have hbounds := secondsToWait_bounds process e.input.start e.input.finish
  have hfits : process.secondsToWait e.input.start e.input.finish < 2 ^ 32 := by
    have hsize : seconds (2 ^ 32 - 1) = 4294967295 * 1000000000 := rfl
    unfold SleepFits at hδ
    omega
  rw [slept_cases hcyclic h.sleep_eq hfits]
  refine ⟨by omega, fun longest hlongest => ?_⟩
  have hperiod : process.period + seconds 1 + δ ≤ process.stride δ longest := le_max_left _ _
  have hcall : longest ≤ process.stride δ longest := le_max_right _ _
  have hone : seconds 1 = 1000000000 := rfl
  omega

section Spacing

variable {f : Option (σ → ι → Except ε (σ × ο))} {init : σ} {h : List (TurnEvent σ ι ο)}
  {p : Loop σ} {δ : Nat}

theorem Run.lasts (hrun : process.Run f init h p) (hcyclic : process.cyclic = true)
    (hδ : process.SleepFits δ) (htimely : Timely δ h)
    {e : TurnEvent σ ι ο} (he : e ∈ h) :
    e.input.began + (process.period - δ) ≤ e.input.ended + e.output.slept ∧
      ∀ longest : Nat, e.input.ended - e.input.began ≤ longest →
        e.input.ended + e.output.slept ≤ e.input.began + process.stride δ longest := by
  obtain ⟨_, _, _, _, hturns⟩ := hrun.event he
  exact hturns.lasts hcyclic hδ (htimely.began_le e he) (htimely.ahead e he)
    (htimely.behind e he)

/-- Successive turns are a period apart. -/
theorem Run.apart (hrun : process.Run f init h p) (hcyclic : process.cyclic = true)
    (hδ : process.SleepFits δ) (htimely : Timely δ h) :
    h.IsChain fun a b => a.input.began + (process.period - δ) ≤ b.input.began := by
  refine htimely.wakes.imp_of_mem_imp fun a b ha _ hwakes => ?_
  have hlasts := (hrun.lasts hcyclic hδ htimely ha).1
  omega

theorem Run.close {h₀ h₁ : List (TurnEvent σ ι ο)} (hrun : process.Run f init (h₀ ++ h₁) p)
    (hcyclic : process.cyclic = true) (hδ : process.SleepFits δ)
    (htimely : Timely δ (h₀ ++ h₁)) {longest late : Nat} (hprompt : Prompt longest late h₁) :
    h₁.IsChain fun a b => b.input.began ≤ a.input.began + (process.stride δ longest + late) := by
  refine hprompt.wakes.imp_of_mem_imp fun a b ha _ hwakes => ?_
  have hlasts := (hrun.lasts hcyclic hδ htimely (List.mem_append_right h₀ ha)).2 longest
    (hprompt.lasts a ha)
  omega

/-- Two turns with some turns between them are as many periods apart, less what the clock
was set. -/
theorem Run.pace_ge (hrun : process.Run f init h p) (hcyclic : process.cyclic = true)
    (hδ : process.SleepFits δ) (htimely : Timely δ h)
    {h₁ h₂ h₃ : List (TurnEvent σ ι ο)} {a b : TurnEvent σ ι ο}
    (hsplit : h = h₁ ++ a :: (h₂ ++ b :: h₃)) :
    a.input.began + (h₂.length + 1) * (process.period - δ) ≤ b.input.began :=
  began_spaced (hrun.apart hcyclic hδ htimely) hsplit

/-- The same from the end of the call in the earlier turn, whose own period may be spent. -/
theorem Run.after_ge (hrun : process.Run f init h p) (hcyclic : process.cyclic = true)
    (hδ : process.SleepFits δ) (htimely : Timely δ h)
    {h₁ h₂ h₃ : List (TurnEvent σ ι ο)} {a b : TurnEvent σ ι ο}
    (hsplit : h = h₁ ++ a :: (h₂ ++ b :: h₃)) :
    a.input.ended + h₂.length * (process.period - δ) ≤ b.input.began :=
  htimely.after (hrun.apart hcyclic hδ htimely) hsplit

/-- The most they are apart, where the turns from the first on are prompt. -/
theorem Run.pace_le {h₁ h₂ h₃ : List (TurnEvent σ ι ο)} {a b : TurnEvent σ ι ο}
    (hrun : process.Run f init (h₁ ++ a :: (h₂ ++ b :: h₃)) p) (hcyclic : process.cyclic = true)
    (hδ : process.SleepFits δ)
    (htimely : Timely δ (h₁ ++ a :: (h₂ ++ b :: h₃))) {longest late : Nat}
    (hprompt : Prompt longest late (a :: (h₂ ++ b :: h₃))) :
    b.input.began ≤ a.input.began + (h₂.length + 1) * (process.stride δ longest + late) := by
  have hclose := hrun.close hcyclic hδ htimely hprompt
  rw [List.append_cons h₂, ← List.cons_append] at hclose
  have hupper := Pacing.le_add_nsmul hclose.left_of_append
  rw [nsmul_eq_mul, Nat.cast_succ] at hupper
  exact hupper

end Spacing

/-- The turns of a cyclic process start at the period's pace: at least a period apart, less
what the clock was set, and at most a second and the lateness of `sleep` more, unless a call
overruns the period. -/
theorem turns_paced (hcyclic : process.cyclic = true) {f : Option (σ → ι → Except ε (σ × ο))}
    {init : σ} {p : Loop σ} {h₁ h₂ h₃ : List (TurnEvent σ ι ο)} {a b : TurnEvent σ ι ο}
    (hrun : process.Run f init (h₁ ++ a :: (h₂ ++ b :: h₃)) p) {δ : Nat}
    (hδ : process.SleepFits δ)
    (htimely : Timely δ (h₁ ++ a :: (h₂ ++ b :: h₃))) :
    a.input.began + (h₂.length + 1) * (process.period - δ) ≤ b.input.began ∧
      ∀ longest late : Nat, Prompt longest late (a :: (h₂ ++ b :: h₃)) → b.input.began ≤
        a.input.began + (h₂.length + 1) * (process.stride δ longest + late) :=
  ⟨hrun.pace_ge hcyclic hδ htimely rfl, fun _ _ => hrun.pace_le hcyclic hδ htimely⟩

end Process

end Pace

namespace Small

def process : Process := ⟨true, 20, text "/tmp/cppneighbordiscovery.log"⟩

def counts (n : Nat) (_ : Unit) : Except Unit (Nat × Nat) := .ok (n + 1, n)

/-- A call of 3.5 seconds, one of a second with the clock set back by half a second, one
that overruns the period, and one that follows it at once. -/
def first : TurnEvent Nat Unit Nat :=
  ⟨⟨0, true⟩, ⟨0, (), 3500000000, 0, 3500000000⟩, ⟨0, some 17⟩, ⟨1, true⟩⟩

def second : TurnEvent Nat Unit Nat :=
  ⟨⟨1, true⟩, ⟨21000000000, (), 21500000000, 21000000000, 22000000000⟩, ⟨1, some 20⟩, ⟨2, true⟩⟩

def third : TurnEvent Nat Unit Nat :=
  ⟨⟨2, true⟩, ⟨42300000000, (), 67300000000, 42300000000, 67300000000⟩, ⟨2, none⟩, ⟨3, true⟩⟩

def fourth : TurnEvent Nat Unit Nat :=
  ⟨⟨3, true⟩, ⟨67400000000, (), 67400000001, 67400000000, 67400000001⟩, ⟨3, some 20⟩, ⟨4, true⟩⟩

def turns : List (TurnEvent Nat Unit Nat) := [] ++ first :: ([second, third] ++ [fourth])

theorem turned : process.Run (some counts) 0 turns ⟨4, true⟩ :=
  .snoc (h := [first, second, third]) (.snoc (h := [first, second]) (.snoc (h := [first])
    (.snoc (h := []) .nil ⟨rfl, counts, rfl, rfl⟩) ⟨rfl, counts, rfl, rfl⟩)
    ⟨rfl, counts, rfl, rfl⟩) ⟨rfl, counts, rfl, rfl⟩

theorem timely : Timely 500000000 turns where
  began_le := by decide
  ahead := by decide
  behind := by decide
  wakes := by simp [turns, first, second, third, fourth, Turned.slept, seconds]

theorem prompt : Prompt 25000000000 500000000 turns where
  lasts := by decide
  wakes := by simp [turns, first, second, third, fourth, Turned.slept, seconds]

end Small

/-- Three periods of 20 seconds, one of them overrun, took 67.4 seconds. -/
theorem Process.turns_paced_small :
    Small.first.input.began + (2 + 1) * (Small.process.period - 500000000) ≤
      Small.fourth.input.began ∧
    Small.fourth.input.began ≤ Small.first.input.began +
      (2 + 1) * (Small.process.stride 500000000 25000000000 + 500000000) :=
  have h := turns_paced rfl Small.turned (by decide) Small.timely
  ⟨h.1, h.2 _ _ Small.prompt⟩

end NeighborDiscovery.Processes

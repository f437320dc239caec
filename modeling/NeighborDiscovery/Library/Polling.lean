/-
Polling for something that arrives, up to a time limit.

A poll looks at some moment and then reads the clock.  The loop ends with the first
poll that looks after the arrival, or gives up after one whose clock reading is over
the limit.  Where the polls follow each other closely, a loop whose limit is over well
before the arrival gives up.
-/
import Mathlib.Data.List.Basic

namespace Polling

structure Poll where
  looked : Int
  now : Int

inductive Outcome where
  | arrived
  | expired
  | waiting
deriving DecidableEq

/-- How the loop ends where something arrives at `arrival`. -/
def outcome (within : Int → Bool) (arrival : Int) : List Poll → Outcome
  | [] => .waiting
  | poll :: polls =>
    if arrival ≤ poll.looked then .arrived
    else if within poll.now then outcome within arrival polls
    else .expired

/-- From `t` on, the moments are in order and at most `gap` apart. -/
def Steady (gap : Int) : Int → List Poll → Prop
  | _, [] => True
  | t, poll :: polls =>
    (t ≤ poll.looked ∧ poll.looked ≤ t + gap) ∧
      (poll.looked ≤ poll.now ∧ poll.now ≤ poll.looked + gap) ∧ Steady gap poll.now polls

instance decidableSteady (gap : Int) :
    (t : Int) → (polls : List Poll) → Decidable (Steady gap t polls)
  | _, [] => inferInstanceAs (Decidable True)
  | t, poll :: polls =>
    have := decidableSteady gap poll.now polls
    inferInstanceAs (Decidable ((t ≤ poll.looked ∧ poll.looked ≤ t + gap) ∧
      (poll.looked ≤ poll.now ∧ poll.now ≤ poll.looked + gap) ∧ Steady gap poll.now polls))

variable {within : Int → Bool} {limit arrival gap t : Int} {polls : List Poll}

/-- What arrives late enough is not seen. -/
theorem outcome_of_late (hover : ∀ now, limit ≤ now → within now = false)
    (hsteady : Steady gap t polls) (ht : t < limit) (hlate : limit + gap ≤ arrival) :
    outcome within arrival polls ≠ .arrived := by
  induction polls generalizing t with
  | nil => simp [outcome]
  | cons poll polls ih =>
    obtain ⟨hlook, hround, hrest⟩ := hsteady
    unfold outcome
    rw [if_neg (by omega)]
    by_cases hnow : poll.now < limit
    · split
      · exact ih hrest hnow
      · simp
    · rw [if_neg (by simp [hover poll.now (by omega)])]
      simp

/-- A loop that has looked after the arrival or read the clock over the limit has ended. -/
theorem outcome_of_ended
    (hended : ∃ poll ∈ polls, arrival ≤ poll.looked ∨ within poll.now = false) :
    outcome within arrival polls ≠ .waiting := by
  induction polls with
  | nil => simp at hended
  | cons poll polls ih =>
    unfold outcome
    split
    · simp
    · rename_i hlooked
      split
      · rename_i hwithin
        refine ih ?_
        obtain ⟨last, hlast, hends⟩ := hended
        rcases List.mem_cons.mp hlast with rfl | hrest
        · simp_all
        · exact ⟨last, hrest, hends⟩
      · simp

theorem expired_of_late (hover : ∀ now, limit ≤ now → within now = false)
    (hsteady : Steady gap t polls) (ht : t < limit) (hlate : limit + gap ≤ arrival)
    (hended : ∃ poll ∈ polls, arrival ≤ poll.looked ∨ within poll.now = false) :
    outcome within arrival polls = .expired := by
  have harrived := outcome_of_late hover hsteady ht hlate
  have hwaiting := outcome_of_ended hended
  cases hend : outcome within arrival polls with
  | arrived => exact absurd hend harrived
  | expired => rfl
  | waiting => exact absurd hend hwaiting

end Polling

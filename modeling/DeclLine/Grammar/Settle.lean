/-!
Iteration of an operation until it changes nothing. A measure that falls with every change
bounds the number of rounds.
-/
namespace DeclLine

variable {α : Type} [DecidableEq α]

/-- The first value that `next` leaves alone, and the number of applications that showed it. -/
def settle (next : α → α) (missing : α → Nat)
    (shrinks : ∀ a, next a ≠ a → missing (next a) < missing a) (a : α) : α × Nat :=
  if h : next a = a then (a, 1)
  else
    let r := settle next missing shrinks (next a)
    (r.1, r.2 + 1)
termination_by missing a
decreasing_by exact shrinks a h

theorem settle_fixed (next : α → α) (missing : α → Nat)
    (shrinks : ∀ a, next a ≠ a → missing (next a) < missing a) (a : α) :
    next (settle next missing shrinks a).1 = (settle next missing shrinks a).1 := by
  fun_induction settle next missing shrinks a with
  | case1 a h => exact h
  | case2 a h r ih => exact ih

theorem settle_rounds_le (next : α → α) (missing : α → Nat)
    (shrinks : ∀ a, next a ≠ a → missing (next a) < missing a) (a : α) :
    (settle next missing shrinks a).2 ≤ missing a + 1 := by
  fun_induction settle next missing shrinks a with
  | case1 a h => simp
  | case2 a h r ih =>
      have := shrinks a h
      simp only [r] at *
      omega

/-- What holds at the start and is kept by `next` holds at the end. -/
theorem settle_induction (next : α → α) (missing : α → Nat)
    (shrinks : ∀ a, next a ≠ a → missing (next a) < missing a) {motive : α → Prop}
    (step : ∀ a, motive a → motive (next a)) (a : α) (start : motive a) :
    motive (settle next missing shrinks a).1 := by
  fun_induction settle next missing shrinks a with
  | case1 a h => exact start
  | case2 a h r ih => exact ih (step a start)

end DeclLine

import DeclLine.Machine.Basic

/-!
Runs of the automaton to its end. The number of steps doubles with each level of the recursion,
so that a small bound on the levels covers every configuration of the machine.
-/
namespace DeclLine.Machine

/-- Up to `2 ^ k` steps, ended by acceptance or rejection. -/
def runFor (T : Table) : Nat → Machine → Verdict × Machine
  | 0, m => m.step T
  | k + 1, m =>
      match runFor T k m with
      | (.ongoing, m) => runFor T k m
      | ended => ended

/-- There are less than `2 ^ m.horizon` pairs of remaining tokens and a stack over the fourteen
symbols, so a run of this length has met one pair twice and never ends. -/
def horizon (m : Machine) : Nat :=
  4 * (m.stack.capacity + 1) + m.rest.length

def conclude : Verdict × Machine → Option (Except Diagnostic Pending)
  | (.ongoing, _) => none
  | (.accepted, m) => some (.ok m.pending)
  | (.rejected d, _) => some (.error d)

/-- What the line declared, or why it was rejected; `none` for a run that never ends. -/
def run (T : Table) (m : Machine) : Option (Except Diagnostic Pending) :=
  conclude (m.runFor T m.horizon)

end DeclLine.Machine

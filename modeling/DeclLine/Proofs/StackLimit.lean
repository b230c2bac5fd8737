import DeclLine.Proofs.Scripts
import DeclLine.Proofs.Table

/-!
The limit of the stack. The automaton is compared with itself on a stack without a limit: one
function gives both, for two ways of putting a body on the stack. They agree, step by step, as
long as the stack without a limit stays within the capacity. The first step that would lead beyond
it is an expansion, and it is the step that reports the overflow.
-/
namespace DeclLine

/-- Puts a body on top, however many symbols there are already. -/
def Stack.pile (s : Stack) (body : List Symbol) : Option Fault × Stack :=
  (none, { s with items := spelled body ++ s.items })

namespace Machine

/-- The machine after so many calls of a step function, whatever they returned. -/
def afterCalls (next : Machine → Verdict × Machine) (m : Machine) : Nat → Machine
  | 0 => m
  | n + 1 => (next (afterCalls next m n)).2

/-- A step on a stack without a limit. -/
def stepFreely (T : Table) (m : Machine) : Verdict × Machine :=
  m.stepBy (expandBy Stack.pile T)

variable {T : Table} {m : Machine} {token : Token} {items : List Symbol}

/-- The lookahead and the top of the stack call for an expansion, and the items that it would
leave are more than the stack holds. -/
inductive Overruns (T : Table) (m : Machine) : Token → List Symbol → Prop
  | expansion {token : Token} {rest : List Token} {n : Nonterminal} {t : Terminal}
      {p : Production} {below : List Symbol} (input : m.rest = token :: rest)
      (top : m.stack.items = .nonterminal n :: below) (kind : token.kind = .terminal t)
      (cell : T.lookup n t = some p)
      (full : m.stack.capacity < (spelled p.body ++ below).length) :
      Overruns T m token (spelled p.body ++ below)

theorem Overruns.stepFreely_eq (h : Overruns T m token items) :
    m.stepFreely T = (.ongoing, m.turn m.rest items) := by
  cases h with
  | expansion input top kind cell _ =>
      simp [stepFreely, stepBy, top, input, expandBy, kind, TokenKind.terminal?, cell, Stack.pile,
        Stack.pop, turn]

theorem Overruns.step_eq (h : Overruns T m token items) (fits : m.Fits) :
    ∃ m', m.step T = (.rejected ⟨.stackOverflow m.stack.capacity, token.start⟩, m') ∧
      m'.stack.items.length = m.stack.capacity := by
  cases h with
  | @expansion _ _ _ p below input top kind cell full =>
      rw [Fits, top, List.length_cons] at fits
      rw [List.length_append] at full
      refine ⟨_, (Refusal.overflow input top kind cell (by omega)).step_eq, ?_⟩
      simp only [turn, List.length_append, List.length_drop]
      omega

theorem Overruns.capacity_lt (h : Overruns T m token items) : m.stack.capacity < items.length := by
  cases h with
  | expansion _ _ _ _ full => exact full

theorem pushBody_eq_pile {s : Stack} {body : List Symbol}
    (room : (spelled body ++ s.items).length ≤ s.capacity) : s.pushBody body = s.pile body := by
  rw [List.length_append] at room
  have fits : (spelled body).length ≤ s.room := by
    simp only [Stack.room, Stack.size]
    omega
  simp [Stack.pushBody, Stack.pile, fits, Nat.sub_eq_zero_of_le fits]

/-- The limit makes a difference to overruns alone. -/
theorem step_eq_stepFreely (within : ∀ token items, ¬ Overruns T m token items) :
    m.step T = m.stepFreely T := by
  rw [step, stepFreely, stepBy, stepBy]
  split
  case h_4 n below token rest top input =>
    rw [expand, expandBy, expandBy]
    cases cell : token.kind.terminal?.bind (T.lookup n) with
    | none => rfl
    | some p =>
        obtain ⟨t, kind, found⟩ := bind_terminal?_eq_some_iff.mp cell
        have room : (spelled p.body ++ m.stack.pop.items).length ≤ m.stack.capacity := by
          apply Nat.le_of_not_lt
          intro full
          rw [Stack.pop, top] at full
          exact within _ _ (.expansion input top kind found full)
        dsimp only
        rw [pushBody_eq_pile room]
  all_goals rfl

theorem step_eq_of_within
    (within : (m.stepFreely T).2.stack.items.length ≤ m.stack.capacity) :
    m.step T = m.stepFreely T := by
  apply step_eq_stepFreely
  intro token items overruns
  rw [overruns.stepFreely_eq] at within
  exact Nat.not_lt.mpr within overruns.capacity_lt

/-- What leads beyond the capacity is an overrun: any other step is the same on the limited stack,
and stays within the capacity there. -/
theorem overruns_of_beyond (fits : m.Fits)
    (beyond : m.stack.capacity < (m.stepFreely T).2.stack.items.length) :
    ∃ token items, Overruns T m token items := by
  apply Classical.byContradiction
  intro none
  have same := step_eq_stepFreely fun token items overruns => none ⟨token, items, overruns⟩
  have restacks := restacks_step T m
  have within := restacks.fits fits
  rw [Fits, restacks.capacity_eq, same] at within
  omega

/-- A step that the limit makes no difference to does not report an overflow. -/
theorem not_overflow (same : m.step T = m.stepFreely T) (capacity : Nat) (position : Position) :
    (m.step T).1 ≠ .rejected ⟨.stackOverflow capacity, position⟩ := by
  intro rejected
  have refusal : Refusal T m ⟨.stackOverflow capacity, position⟩ (m.step T).2 :=
    refusal_of_step (Prod.ext rejected rfl)
  generalize (m.step T).2 = m' at refusal
  cases refusal with
  | @overflow _ _ _ _ p below input top kind cell full =>
      have overruns : Overruns T m _ (spelled p.body ++ below) :=
        .expansion input top kind cell (by rw [List.length_append]; omega)
      rw [same, overruns.stepFreely_eq] at rejected
      cases rejected

section Runs

variable (T : Table) (tokens : List Token)

/-- The automaton after so many steps. -/
def limited : Nat → Machine :=
  (start tokens).afterCalls (step T)

/-- The automaton without a limit to its stack after so many steps. -/
def unlimited : Nat → Machine :=
  (start tokens).afterCalls (stepFreely T)

theorem sound_limited (n : Nat) : Sound tokens (limited T tokens n) := by
  induction n with
  | zero => exact sound_start tokens
  | succ n ih => exact ih.call T .step

variable {T tokens} {n : Nat}

theorem step_limited_eq (same : limited T tokens n = unlimited T tokens n)
    (within : (unlimited T tokens (n + 1)).stack.items.length ≤ Limits.stackDepth) :
    (limited T tokens n).step T = (limited T tokens n).stepFreely T := by
  apply step_eq_of_within
  rw [(sound_limited T tokens n).capacity_eq, same]
  exact within

theorem limited_eq_unlimited
    (within : ∀ k ≤ n, (unlimited T tokens k).stack.items.length ≤ Limits.stackDepth) :
    limited T tokens n = unlimited T tokens n := by
  induction n with
  | zero => rfl
  | succ n ih =>
      have same := ih fun k le => within k (Nat.le_succ_of_le le)
      calc limited T tokens (n + 1) = ((limited T tokens n).step T).2 := rfl
        _ = ((limited T tokens n).stepFreely T).2 := by
            rw [step_limited_eq same (within (n + 1) le_rfl)]
        _ = ((unlimited T tokens n).stepFreely T).2 := by rw [same]
        _ = unlimited T tokens (n + 1) := rfl

theorem verdict_limited
    (within : ∀ k ≤ n + 1, (unlimited T tokens k).stack.items.length ≤ Limits.stackDepth) :
    ((limited T tokens n).step T).1 = ((unlimited T tokens n).stepFreely T).1 ∧
      ∀ capacity position,
        ((limited T tokens n).step T).1 ≠ .rejected ⟨.stackOverflow capacity, position⟩ := by
  have same := limited_eq_unlimited fun k le => within k (Nat.le_succ_of_le le)
  have step := step_limited_eq same (within (n + 1) le_rfl)
  exact ⟨by rw [step, same], not_overflow step⟩

theorem overflow_limited
    (within : ∀ k ≤ n, (unlimited T tokens k).stack.items.length ≤ Limits.stackDepth)
    (beyond : Limits.stackDepth < (unlimited T tokens (n + 1)).stack.items.length) :
    ∃ token items, Overruns T (unlimited T tokens n) token items ∧
      ((limited T tokens n).step T).1 = .rejected ⟨.stackOverflow Limits.stackDepth, token.start⟩ ∧
      (limited T tokens (n + 1)).stack.items.length = Limits.stackDepth := by
  have sound := sound_limited T tokens n
  rw [limited_eq_unlimited within] at sound ⊢
  obtain ⟨token, items, overruns⟩ : ∃ token items, Overruns T (unlimited T tokens n) token items :=
    overruns_of_beyond sound.grounded.fits (sound.capacity_eq ▸ beyond)
  obtain ⟨m', step, full⟩ := overruns.step_eq sound.grounded.fits
  rw [sound.capacity_eq] at step full
  refine ⟨token, items, overruns, congrArg Prod.fst step, ?_⟩
  rw [limited, afterCalls, ← limited, limited_eq_unlimited within, step]
  exact full

/-- As long as the stack without a limit holds at most a hundred symbols, the automaton returns and
becomes the same with the limit, and reports no overflow. The first step that leads beyond is an
expansion; the limited automaton reports the overflow at its lookahead and is left with a full
stack. -/
theorem overflow_first_beyond_limit (T : Table) (tokens : List Token) :
    (∀ n, (∀ k ≤ n, (unlimited T tokens k).stack.items.length ≤ 100) →
      (∀ k ≤ n, limited T tokens k = unlimited T tokens k) ∧
      (∀ k < n, ((limited T tokens k).step T).1 = ((unlimited T tokens k).stepFreely T).1 ∧
        ∀ capacity position,
          ((limited T tokens k).step T).1 ≠ .rejected ⟨.stackOverflow capacity, position⟩) ∧
      (100 < (unlimited T tokens (n + 1)).stack.items.length →
        ∃ token items, Overruns T (unlimited T tokens n) token items ∧
          unlimited T tokens (n + 1) =
            (unlimited T tokens n).turn (unlimited T tokens n).rest items ∧
          ((limited T tokens n).step T).1 = .rejected ⟨.stackOverflow 100, token.start⟩ ∧
          (limited T tokens (n + 1)).stack.items.length = 100)) ∧
    ((∀ k, (unlimited T tokens k).stack.items.length ≤ 100) → ∀ k capacity position,
      ((limited T tokens k).step T).1 ≠ .rejected ⟨.stackOverflow capacity, position⟩) := by
  refine ⟨fun n within => ⟨?_, ?_, ?_⟩, ?_⟩
  · intro k le
    exact limited_eq_unlimited fun j le' => within j (le'.trans le)
  · intro k lt
    exact verdict_limited fun j le => within j (le.trans lt)
  · intro beyond
    obtain ⟨token, items, overruns, rejected, full⟩ := overflow_limited within beyond
    exact ⟨token, items, overruns, congrArg Prod.snd overruns.stepFreely_eq, rejected, full⟩
  · intro within k
    exact (verdict_limited fun j _ => within j).2

/-- One production of a hundred symbols and a mark for the empty string. -/
def longBody : Grammar where
  start := .Z
  productions := [⟨.Z, .epsilon :: List.replicate 100 (.terminal .int)⟩]

/-- In place of the start symbol a hundred symbols would stand above the end marker. -/
theorem overflow_first_beyond_limit_longBody :
    ∃ T token rest, Table.build longBody = .ok T ∧
      Token.ofLine "shell" "int" = token :: rest ∧
      (∀ k ≤ 0, (unlimited T (Token.ofLine "shell" "int") k).stack.items.length ≤ 100) ∧
      (unlimited T (Token.ofLine "shell" "int") 1).stack.items.length = 101 ∧
      ((limited T (Token.ofLine "shell" "int") 0).step T).1 =
        .rejected ⟨.stackOverflow 100, token.start⟩ ∧
      (limited T (Token.ofLine "shell" "int") 1).stack.items.length = 100 := by
  have computed : (Table.build longBody).map (fun T =>
      (unlimited T (Token.ofLine "shell" "int") 1).stack.items.length) = .ok 101 := by
    decide +kernel
  obtain ⟨T, built, beyond⟩ := Table.exists_of_map_eq_ok computed
  have within : ∀ k ≤ 0, (unlimited T (Token.ofLine "shell" "int") k).stack.items.length ≤ 100 := by
    intro k le
    obtain rfl := Nat.le_zero.mp le
    exact Nat.le_of_ble_eq_true rfl
  obtain ⟨_, _, overflows⟩ :=
    (overflow_first_beyond_limit T (Token.ofLine "shell" "int")).1 0 within
  obtain ⟨token, items, overruns, _, rejected, full⟩ :=
    overflows (by rw [beyond]; decide)
  cases overruns with
  | expansion input => exact ⟨T, token, _, built, input, within, beyond, rejected, full⟩

end Runs

end Machine

end DeclLine

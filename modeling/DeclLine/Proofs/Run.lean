import DeclLine.Machine.Run
import DeclLine.Proofs.Step
import Mathlib.Algebra.Order.Ring.Nat
import Mathlib.Data.Finset.Card

/-!
Runs of the automaton. A run that ends at all ends before it could meet a configuration twice, so
within the steps that `Machine.run` takes.
-/
namespace DeclLine.Machine

/-- Up to `n` calls of the step function, the last of them the first that does not go on. -/
def stepFor (T : Table) : Nat → Machine → Verdict × Machine
  | 0, m => (.ongoing, m)
  | n + 1, m =>
      match m.step T with
      | (.ongoing, m') => stepFor T n m'
      | ended => ended

/-- The machine makes `n` moves, and the step after them ends the run with `out`. -/
inductive Ends (T : Table) : Nat → Machine → Verdict × Machine → Prop
  | now {m : Machine} {out : Verdict × Machine} (step : m.step T = out)
      (final : out.1 ≠ .ongoing) : Ends T 0 m out
  | later {n : Nat} {m m' : Machine} {out : Verdict × Machine} (move : Move T m m')
      (rest : Ends T n m' out) : Ends T (n + 1) m out

inductive Moves (T : Table) (m : Machine) : Machine → Prop
  | refl : Moves T m m
  | tail {k m' : Machine} (moves : Moves T m k) (move : Move T k m') : Moves T m m'

variable {T : Table} {n : Nat} {m m' : Machine} {out : Verdict × Machine}

theorem Moves.head {k : Machine} (move : Move T m k) (moves : Moves T k m') : Moves T m m' := by
  induction moves with
  | refl => exact .tail .refl move
  | tail _ last ih => exact .tail ih last

theorem ends_of_accepting (h : m.Accepting) : Ends T 0 m (.accepted, m) :=
  .now h.step_eq (by simp)

theorem ends_of_refusal {d : Diagnostic} (h : Refusal T m d m') :
    Ends T 0 m (.rejected d, m') :=
  .now h.step_eq (by simp)

theorem Ends.of_moves {k : Machine} (moves : Moves T m k) (h : Ends T n k out) :
    ∃ l, Ends T l m out := by
  induction moves generalizing n with
  | refl => exact ⟨n, h⟩
  | tail _ move ih => exact ih (.later move h)

theorem Ends.last (h : Ends T n m out) : ∃ k, Moves T m k ∧ k.step T = out := by
  induction h with
  | @now m _ step _ => exact ⟨m, .refl, step⟩
  | later move _ ih =>
      obtain ⟨k, moves, step⟩ := ih
      exact ⟨k, .head move moves, step⟩

theorem Ends.final (h : Ends T n m out) : out.1 ≠ .ongoing := by
  induction h with
  | now _ final => exact final
  | later _ _ ih => exact ih

/-- Steps are determined, and so are the length and the outcome of a run. -/
theorem Ends.unique {n' : Nat} {out' : Verdict × Machine} (h : Ends T n m out)
    (h' : Ends T n' m out') : n = n' ∧ out = out' := by
  induction h generalizing n' with
  | now step final =>
      cases h' with
      | now step' _ => exact ⟨rfl, step.symm.trans step'⟩
      | later move _ =>
          rw [move.step_eq] at step
          exact absurd (congrArg Prod.fst step).symm final
  | later move _ ih =>
      cases h' with
      | now step' final' =>
          rw [move.step_eq] at step'
          exact absurd (congrArg Prod.fst step').symm final'
      | later move' rest' =>
          have same := move.step_eq.symm.trans move'.step_eq
          obtain rfl := congrArg Prod.snd same
          obtain ⟨rfl, rfl⟩ := ih rest'
          exact ⟨rfl, rfl⟩

theorem Ends.stepFor_eq (h : Ends T n m out) : m.stepFor T (n + 1) = out := by
  induction h with
  | @now m out step final =>
      simp only [stepFor, step]
      split
      · simp_all
      · rfl
  | later move _ ih =>
      rw [stepFor, move.step_eq]
      exact ih

theorem ends_of_stepFor (h : m.stepFor T n = out) (final : out.1 ≠ .ongoing) :
    ∃ k, Ends T k m out := by
  induction n generalizing m with
  | zero =>
      rw [← h] at final
      exact absurd rfl final
  | succ n ih =>
      rw [stepFor] at h
      split at h
      · rename_i m' step
        obtain ⟨k, ends⟩ := ih h
        exact ⟨k + 1, .later (move_of_step step) ends⟩
      · exact ⟨0, .now h final⟩

theorem stepFor_add (T : Table) (a b : Nat) (m : Machine) :
    m.stepFor T (a + b) =
      match m.stepFor T a with
      | (.ongoing, m') => m'.stepFor T b
      | ended => ended := by
  induction a generalizing m with
  | zero => simp [stepFor]
  | succ a ih =>
      rw [Nat.succ_add]
      simp only [stepFor]
      split
      · exact ih _
      · split <;> simp_all

theorem runFor_eq_stepFor (T : Table) (k : Nat) (m : Machine) :
    m.runFor T k = m.stepFor T (2 ^ k) := by
  induction k generalizing m with
  | zero =>
      simp only [runFor, pow_zero, stepFor]
      split <;> simp_all
  | succ k ih =>
      rw [pow_succ, mul_two, stepFor_add, runFor, ih]
      obtain ⟨verdict, m'⟩ := m.stepFor T (2 ^ k)
      cases verdict with
      | ongoing => exact ih m'
      | accepted | rejected _ => rfl

theorem Ends.stepFor_of_lt (h : Ends T n m out) {N : Nat} (lt : n < N) :
    m.stepFor T N = out := by
  obtain ⟨b, rfl⟩ := Nat.exists_eq_add_of_lt lt
  rw [show n + b + 1 = (n + 1) + b by omega, stepFor_add, h.stepFor_eq]
  have := h.final
  split <;> simp_all

def Fits (m : Machine) : Prop :=
  m.stack.items.length ≤ m.stack.capacity

theorem Move.fits (h : Move T m m') (fits : m.Fits) : m'.Fits := by
  unfold Fits at *
  cases h with
  | shift _ top _ _ | name _ top _ _ | drop _ top =>
      simp only [turn, top, List.length_cons] at *
      omega
  | expand _ top _ _ room =>
      simp only [turn, top, List.length_cons, List.length_append] at *
      omega

theorem Moves.fits (h : Moves T m m') (fits : m.Fits) : m'.Fits := by
  induction h with
  | refl => exact fits
  | tail _ move ih => exact move.fits ih

theorem fits_start (tokens : List Token) : (start tokens).Fits := by
  simp [Fits, start, Limits.stackDepth]

/-- What moves can do to all but the stack: nothing, as long as no token is taken. -/
def Passes (m m' : Machine) : Prop :=
  m'.finish = m.finish ∧ m'.stack.capacity = m.stack.capacity ∧
    (m'.rest = m.rest ∧ m'.pending = m.pending ∨ m'.rest.length < m.rest.length)

theorem Move.passes (h : Move T m m') : m.Passes m' := by
  refine ⟨?_, ?_, ?_⟩
  · cases h <;> rfl
  · cases h <;> rfl
  · cases h with
    | shift input _ _ _ | name input _ _ _ =>
        refine .inr ?_
        simp only [turn, input, List.length_cons]
        omega
    | expand _ _ _ _ _ | drop _ _ => exact .inl ⟨rfl, rfl⟩

theorem Moves.passes (h : Moves T m m') : m.Passes m' := by
  induction h with
  | refl => exact ⟨rfl, rfl, .inl ⟨rfl, rfl⟩⟩
  | tail _ move ih =>
      obtain ⟨hf, hc, hr⟩ := ih
      obtain ⟨hf', hc', hr'⟩ := move.passes
      refine ⟨hf'.trans hf, hc'.trans hc, ?_⟩
      rcases hr with ⟨hr, hp⟩ | hr <;> rcases hr' with ⟨hr', hp'⟩ | hr'
      · exact .inl ⟨hr'.trans hr, hp'.trans hp⟩
      · exact .inr (hr ▸ hr')
      · exact .inr (hr' ▸ hr)
      · exact .inr (Nat.lt_trans hr' hr)

def digit : Symbol → Nat
  | .terminal t => t.column + 1
  | .nonterminal .Z => 10
  | .nonterminal .S => 11
  | .nonterminal .A => 12
  | .nonterminal .B => 13
  | .epsilon => 14

def stackCode : List Symbol → Nat
  | [] => 0
  | x :: below => stackCode below * 16 + digit x

theorem digit_bounds (x : Symbol) : 0 < digit x ∧ digit x < 16 := by
  rcases x with t | n | _
  · have := t.column_lt
    simp only [digit]
    omega
  · cases n <;> decide
  · decide

theorem digit_inj {x y : Symbol} (h : digit x = digit y) : x = y := by
  rcases x with t | n | _ <;> rcases y with u | k | _
  · exact congrArg _ (Terminal.column_inj.mp (Nat.succ.inj h))
  · have := t.column_lt
    cases k <;> simp only [digit] at h <;> omega
  · have := t.column_lt
    simp only [digit] at h
    omega
  · have := u.column_lt
    cases n <;> simp only [digit] at h <;> omega
  · cases n <;> cases k <;> first | rfl | simp [digit] at h
  · cases n <;> simp [digit] at h
  · have := u.column_lt
    simp only [digit] at h
    omega
  · cases k <;> simp [digit] at h
  · rfl

theorem stackCode_lt (items : List Symbol) : stackCode items < 16 ^ items.length := by
  induction items with
  | nil => decide
  | cons x below ih =>
      have := (digit_bounds x).2
      rw [stackCode, List.length_cons, pow_succ]
      omega

theorem stackCode_inj {a b : List Symbol} (h : stackCode a = stackCode b) : a = b := by
  induction a generalizing b with
  | nil =>
      cases b with
      | nil => rfl
      | cons y b =>
          have := (digit_bounds y).1
          simp only [stackCode] at h
          omega
  | cons x a ih =>
      cases b with
      | nil =>
          have := (digit_bounds x).1
          simp only [stackCode] at h
          omega
      | cons y b =>
          have hx := (digit_bounds x).2
          have hy := (digit_bounds y).2
          simp only [stackCode] at h
          rw [digit_inj (x := x) (y := y) (by omega), ih (b := b) (by omega)]

/-- The tokens ahead and the stack as one number. -/
def code (m : Machine) : Nat :=
  m.rest.length * 16 ^ m.stack.capacity + stackCode m.stack.items

theorem Fits.stackCode_lt (fits : m.Fits) :
    stackCode m.stack.items < 16 ^ m.stack.capacity :=
  lt_of_lt_of_le (Machine.stackCode_lt _) (Nat.pow_le_pow_right (by decide) fits)

/-- On the way of a run, a configuration that comes back is the same machine. -/
theorem Passes.eq_of_code (h : m.Passes m') (fits : m.Fits) (fits' : m'.Fits)
    (same : m.code = m'.code) : m = m' := by
  obtain ⟨hf, hc, hr⟩ := h
  have low := fits.stackCode_lt
  have low' := fits'.stackCode_lt
  simp only [code, hc] at same low'
  generalize 16 ^ m.stack.capacity = B at *
  have pos : 0 < B := by omega
  have lengths : m.rest.length = m'.rest.length := by
    have := congrArg (· / B) same
    simpa [Nat.mul_comm _ B, Nat.mul_add_div pos, Nat.div_eq_of_lt, low, low'] using this
  have items : m.stack.items = m'.stack.items := stackCode_inj (by rw [lengths] at same; omega)
  rcases hr with ⟨hr, hp⟩ | hr
  · obtain ⟨rest, finish, ⟨items, capacity⟩, pending⟩ := m
    obtain ⟨rest', finish', ⟨items', capacity'⟩, pending'⟩ := m'
    simp_all
  · omega

theorem code_lt {bound : Nat} (fits : m.Fits) (short : m.rest.length ≤ bound) :
    m.code < 2 ^ (4 * (m.stack.capacity + 1) + bound) := by
  have small : bound + 1 ≤ 2 ^ bound := Nat.lt_two_pow_self
  calc m.code < (m.rest.length + 1) * 16 ^ m.stack.capacity := by
        have := fits.stackCode_lt
        simp only [code, Nat.succ_mul]
        omega
    _ ≤ 2 ^ bound * 16 ^ m.stack.capacity := Nat.mul_le_mul_right _ (by omega)
    _ = 2 ^ (4 * m.stack.capacity + bound) := by
        rw [show (16 : Nat) = 2 ^ 4 by rfl, ← pow_mul, ← pow_add, Nat.add_comm]
    _ ≤ 2 ^ (4 * (m.stack.capacity + 1) + bound) := Nat.pow_le_pow_right (by decide) (by omega)

/-- The machines that a run passes, no two of them alike. -/
theorem Ends.trace (h : Ends T n m out) :
    ∃ ks : List Machine, ks.length = n + 1 ∧
      ks.Pairwise (fun k k' => Moves T k k' ∧ k ≠ k') ∧
      ∀ k ∈ ks, Moves T m k ∧ ∃ l ≤ n, Ends T l k out := by
  induction h with
  | @now m out step final =>
      refine ⟨[m], rfl, List.pairwise_singleton _ _, ?_⟩
      intro k hk
      obtain rfl := List.mem_singleton.mp hk
      exact ⟨.refl, 0, le_rfl, .now step final⟩
  | @later n m m' out move rest ih =>
      obtain ⟨ks, length, pairwise, all⟩ := ih
      refine ⟨m :: ks, by simp [length], List.pairwise_cons.mpr ⟨?_, pairwise⟩, ?_⟩
      · intro k hk
        obtain ⟨moves, l, hl, ends⟩ := all k hk
        refine ⟨.head move moves, ?_⟩
        rintro rfl
        -- A machine met again would still have as many moves to go as before.
        have := (Ends.later move rest).unique ends
        omega
      · intro k hk
        rcases List.mem_cons.mp hk with rfl | hk
        · exact ⟨.refl, n + 1, le_rfl, .later move rest⟩
        · obtain ⟨moves, l, hl, ends⟩ := all k hk
          exact ⟨.head move moves, l, by omega, ends⟩

theorem Ends.lt_horizon (h : Ends T n m out) (fits : m.Fits) : n < 2 ^ m.horizon := by
  obtain ⟨ks, length, pairwise, all⟩ := h.trace
  have nodup : (ks.map code).Nodup := by
    refine List.pairwise_map.mpr (pairwise.imp_of_mem ?_)
    intro k k' hk hk' ⟨moves, ne⟩ same
    exact ne (moves.passes.eq_of_code ((all k hk).1.fits fits) ((all k' hk').1.fits fits) same)
  have bounded : (ks.map code).toFinset ⊆ Finset.range (2 ^ m.horizon) := by
    intro c hc
    obtain ⟨k, hk, rfl⟩ := List.mem_map.mp (List.mem_toFinset.mp hc)
    obtain ⟨_, capacity, tokens⟩ := (all k hk).1.passes
    have short : k.rest.length ≤ m.rest.length := by
      rcases tokens with ⟨hr, _⟩ | hr
      · rw [hr]
      · omega
    have := code_lt ((all k hk).1.fits fits) short
    rw [capacity] at this
    exact Finset.mem_range.mpr this
  have card := Finset.card_le_card bounded
  rw [List.toFinset_card_of_nodup nodup, List.length_map, length, Finset.card_range] at card
  omega

theorem Ends.run_eq (h : Ends T n m out) (fits : m.Fits) : m.run T = conclude out := by
  rw [run, runFor_eq_stepFor, h.stepFor_of_lt (h.lt_horizon fits)]

end DeclLine.Machine

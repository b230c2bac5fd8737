import DeclLine.Machine.Basic

/-!
The steps of the automaton by their effect: the moves that go on, the configuration that accepts,
and the refusals with all that they leave behind. Together they are the step function.
-/
namespace DeclLine.Machine

/-- The machine with other tokens ahead and another stack. -/
def turn (m : Machine) (rest : List Token) (items : List Symbol) : Machine :=
  { m with rest, stack := { m.stack with items } }

/-- A step after which the machine goes on. -/
inductive Move (T : Table) (m : Machine) : Machine → Prop
  | shift {token : Token} {rest : List Token} {t : Terminal} {below : List Symbol}
      (input : m.rest = token :: rest) (top : m.stack.items = .terminal t :: below)
      (kind : token.kind = .terminal t) (keyword : t.isTypeKeyword = true) :
      Move T m { m.turn rest below with pending := { m.pending with keyword := some t } }
  | name {marker token : Token} {rest : List Token} {below : List Symbol}
      (input : m.rest = marker :: token :: rest)
      (top : m.stack.items = .terminal .ident :: below)
      (marks : marker.kind = .terminal .ident) (kind : token.kind = .lexeme) :
      Move T m { m.turn rest below with pending := { m.pending with name := some token.text } }
  | expand {token : Token} {rest : List Token} {n : Nonterminal} {t : Terminal} {p : Production}
      {below : List Symbol} (input : m.rest = token :: rest)
      (top : m.stack.items = .nonterminal n :: below) (kind : token.kind = .terminal t)
      (cell : T.lookup n t = some p)
      (fits : (spelled p.body).length ≤ m.stack.capacity - below.length) :
      Move T m (m.turn m.rest (spelled p.body ++ below))
  | drop {token : Token} {rest : List Token} {below : List Symbol}
      (input : m.rest = token :: rest) (top : m.stack.items = .epsilon :: below) :
      Move T m (m.turn m.rest below)

/-- The end marker stands on top of the stack and in the input. -/
def Accepting (m : Machine) : Prop :=
  ∃ token rest below, m.rest = token :: rest ∧ token.kind = .terminal .endMark ∧
    m.stack.items = .terminal .endMark :: below

/-- A step that rejects, with its diagnostic and the machine that it leaves. -/
inductive Refusal (T : Table) (m : Machine) : Diagnostic → Machine → Prop
  | unstacked (top : m.stack.items = []) : Refusal T m ⟨.inputExhausted, m.position⟩ m
  | exhausted (input : m.rest = []) : Refusal T m ⟨.inputExhausted, m.position⟩ m
  | mismatch {token : Token} {rest : List Token} {t : Terminal} {below : List Symbol}
      (input : m.rest = token :: rest) (top : m.stack.items = .terminal t :: below)
      (kind : token.kind ≠ .terminal t) :
      Refusal T m ⟨.terminalMismatch t.name token.describe, token.start⟩ m
  | nameless {marker : Token} {below : List Symbol} (input : m.rest = [marker])
      (top : m.stack.items = .terminal .ident :: below)
      (marks : marker.kind = .terminal .ident) :
      Refusal T m ⟨.inputExhausted, m.finish⟩ (m.turn [] below)
  | missing {marker token : Token} {rest : List Token} {below : List Symbol}
      (input : m.rest = marker :: token :: rest)
      (top : m.stack.items = .terminal .ident :: below)
      (marks : marker.kind = .terminal .ident) (kind : token.kind ≠ .lexeme) :
      Refusal T m ⟨.missingIdentifier token.describe, token.start⟩
        (m.turn (token :: rest) below)
  | unexpected {token : Token} {rest : List Token} {n : Nonterminal} {below : List Symbol}
      (input : m.rest = token :: rest) (top : m.stack.items = .nonterminal n :: below)
      (cell : token.kind.terminal?.bind (T.lookup n) = none) :
      Refusal T m ⟨.unexpectedToken token.text n.name token.describe, token.start⟩ m
  | overflow {token : Token} {rest : List Token} {n : Nonterminal} {t : Terminal}
      {p : Production} {below : List Symbol} (input : m.rest = token :: rest)
      (top : m.stack.items = .nonterminal n :: below) (kind : token.kind = .terminal t)
      (cell : T.lookup n t = some p)
      (full : m.stack.capacity - below.length < (spelled p.body).length) :
      Refusal T m ⟨.stackOverflow m.stack.capacity, token.start⟩
        (m.turn m.rest ((spelled p.body).drop
          ((spelled p.body).length - (m.stack.capacity - below.length)) ++ below))

/-- The effect of a step, read off its verdict. -/
def Effect (T : Table) (m : Machine) : Verdict × Machine → Prop
  | (.ongoing, m') => Move T m m'
  | (.accepted, m') => m.Accepting ∧ m' = m
  | (.rejected d, m') => Refusal T m d m'

variable {T : Table} {m m' : Machine} {d : Diagnostic}

theorem isTypeKeyword_iff {t : Terminal} :
    t.isTypeKeyword = true ↔ t ≠ .ident ∧ t ≠ .endMark := by
  cases t <;> decide

theorem effect_matchTerminal {token : Token} {rest : List Token} {t : Terminal}
    {below : List Symbol} (input : m.rest = token :: rest)
    (top : m.stack.items = .terminal t :: below)
    (notEnd : ¬ (t = .endMark ∧ token.kind = .terminal t)) :
    Effect T m (m.matchTerminal t token) := by
  unfold matchTerminal
  by_cases kind : token.kind = .terminal t
  · simp only [if_pos kind]
    by_cases hid : t = .ident
    · subst hid
      simp only [if_true, takeName, advance, input, List.tail_cons, Stack.pop, top]
      cases rest with
      | nil => exact .nameless input top kind
      | cons next rest =>
          by_cases hl : next.kind = .lexeme
          · simp only [if_pos hl]
            exact .name input top kind hl
          · simp only [if_neg hl]
            exact .missing input top kind hl
    · have keyword : t.isTypeKeyword = true :=
        isTypeKeyword_iff.mpr ⟨hid, fun h => notEnd ⟨h, kind⟩⟩
      simp only [if_neg hid, if_pos keyword, advance, input, List.tail_cons, Stack.pop, top]
      exact .shift input top kind keyword
  · simp only [if_neg kind]
    exact .mismatch input top kind

theorem bind_terminal?_eq_some_iff {α : Type} {kind : TokenKind} {f : Terminal → Option α} {a : α} :
    kind.terminal?.bind f = some a ↔ ∃ t, kind = .terminal t ∧ f t = some a := by
  cases kind <;> simp [TokenKind.terminal?]

theorem effect_expand {token : Token} {rest : List Token} {n : Nonterminal}
    {below : List Symbol} (input : m.rest = token :: rest)
    (top : m.stack.items = .nonterminal n :: below) : Effect T m (expand T m n token) := by
  unfold expand expandBy
  cases cell : token.kind.terminal?.bind (T.lookup n) with
  | none => exact .unexpected input top cell
  | some p =>
      obtain ⟨t, kind, hp⟩ := bind_terminal?_eq_some_iff.mp cell
      simp only [Stack.pop, top, List.tail_cons, Stack.pushBody, Stack.room, Stack.size]
      by_cases fits : (spelled p.body).length ≤ m.stack.capacity - below.length
      · simp only [if_pos fits, Nat.sub_eq_zero_of_le fits, List.drop_zero]
        exact .expand input top kind hp fits
      · simp only [if_neg fits]
        exact .overflow input top kind hp (Nat.lt_of_not_le fits)

theorem effect_step (T : Table) (m : Machine) : Effect T m (m.step T) := by
  unfold step stepBy
  split
  · rename_i top
    exact .unstacked top
  · rename_i input _
    exact .exhausted input
  · rename_i top input
    split
    · rename_i h
      obtain ⟨rfl, kind⟩ := h
      exact ⟨⟨_, _, _, input, kind, top⟩, rfl⟩
    · rename_i h
      apply effect_matchTerminal input top
      rintro ⟨rfl, kind⟩
      exact h ⟨rfl, kind⟩
  · rename_i top input
    exact effect_expand input top
  · rename_i top input
    simp only [Stack.pop, top, List.tail_cons]
    exact .drop input top

theorem move_of_step (h : m.step T = (.ongoing, m')) : Move T m m' := by
  have := effect_step T m
  rwa [h] at this

theorem accepting_of_step (h : m.step T = (.accepted, m')) : m.Accepting ∧ m' = m := by
  have := effect_step T m
  rwa [h] at this

theorem refusal_of_step (h : m.step T = (.rejected d, m')) : Refusal T m d m' := by
  have := effect_step T m
  rwa [h] at this

theorem Accepting.step_eq (h : m.Accepting) : m.step T = (.accepted, m) := by
  obtain ⟨token, rest, below, input, kind, top⟩ := h
  simp only [step, stepBy, top, input, kind, and_self, if_true]

theorem Move.step_eq (h : Move T m m') : m.step T = (.ongoing, m') := by
  cases h with
  | shift input top kind keyword =>
      obtain ⟨hid, hend⟩ := isTypeKeyword_iff.mp keyword
      simp [step, stepBy, input, top, matchTerminal, kind, keyword, hid, hend, advance, Stack.pop,
        turn]
  | name input top marks kind =>
      simp [step, stepBy, input, top, matchTerminal, takeName, marks, kind, advance, Stack.pop,
        turn]
  | expand input top kind cell fits =>
      simp [step, stepBy, input, top, Machine.expand, expandBy, kind, TokenKind.terminal?, cell,
        Stack.pushBody, Stack.room, Stack.size, Stack.pop, fits, Nat.sub_eq_zero_of_le fits, turn]
  | drop input top => simp [step, stepBy, input, top, Stack.pop, turn]

theorem Refusal.step_eq (h : Refusal T m d m') : m.step T = (.rejected d, m') := by
  cases h with
  | unstacked top => simp [step, stepBy, top, reject]
  | exhausted input =>
      unfold step stepBy
      split <;> simp_all [reject]
  | @mismatch token _ t _ input top kind =>
      have notEnd : ¬ (t = .endMark ∧ token.kind = .terminal .endMark) := by
        rintro ⟨rfl, h⟩
        exact kind h
      simp [step, stepBy, input, top, notEnd, matchTerminal, kind, reject]
  | nameless input top marks =>
      simp [step, stepBy, input, top, matchTerminal, takeName, marks, advance, Stack.pop, reject,
        position, turn]
  | missing input top marks kind =>
      simp [step, stepBy, input, top, matchTerminal, takeName, marks, kind, advance, Stack.pop,
        reject, turn]
  | unexpected input top cell =>
      simp [step, stepBy, input, top, Machine.expand, expandBy, cell, reject]
  | overflow input top kind cell full =>
      simp [step, stepBy, input, top, Machine.expand, expandBy, kind, TokenKind.terminal?, cell,
        Stack.pushBody, Stack.room, Stack.size, Stack.pop, Nat.not_le.mpr full, reject,
        Stack.overflow, turn]

end DeclLine.Machine

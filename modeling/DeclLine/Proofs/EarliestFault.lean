import DeclLine.Proofs.Recognition

/-!
A token is blamed at the first moment. The terminals matched before it begin a form of the grammar,
and with the token itself they do not: had they done so, the moves that led to the refusal would
have followed that derivation, and the refusing step would have gone on along it.
-/
namespace DeclLine

/-- The lookahead is blamed: it is not the terminal on top of the stack, or the nonterminal there
has no production for it. -/
def Fault.BlamesLookahead : Fault → Prop
  | .terminalMismatch .. | .unexpectedToken .. => True
  | _ => False

/-- What tokens spell is read from the left. -/
theorem Spells.unappend {v w : List Terminal} {us ts : List Token} (h : Spells v us)
    (k : Spells w (us ++ ts)) : ∃ x, w = v ++ x ∧ Spells x ts := by
  induction h generalizing w with
  | nil => exact ⟨w, rfl, k⟩
  | @keyword _ _ _ us kind notIdent _ _ ih =>
      rw [List.cons_append] at k
      generalize us ++ ts = rest at k ih
      cases k with
      | keyword kind' _ _ k =>
          obtain rfl := TokenKind.terminal.inj (kind.symm.trans kind')
          obtain ⟨x, rfl, spells⟩ := ih k
          exact ⟨x, rfl, spells⟩
      | name marks _ _ => exact absurd (TokenKind.terminal.inj (kind.symm.trans marks)) notIdent
  | name marks _ _ ih =>
      cases k with
      | keyword kind notIdent _ _ =>
          exact absurd (TokenKind.terminal.inj (kind.symm.trans marks)) notIdent
      | name _ _ k =>
          obtain ⟨x, rfl, spells⟩ := ih k
          exact ⟨x, rfl, spells⟩

namespace Machine

variable {g : Grammar} {T : Table} {m m' : Machine} {token : Token} {after : List Token}
  {t : Terminal}

/-- From the stack the grammar derives what the tokens up to `token` spell, and `t` behind it. -/
def Expects (g : Grammar) (token : Token) (after : List Token) (t : Terminal) (m : Machine) :
    Prop :=
  (Sets.ofGrammar g).Followed ∅ m.stack.items ∧
  ∃ w ts form, m.rest = ts ++ token :: after ∧ Spells w ts ∧
    g.Derives m.stack.items (w.map .terminal ++ .terminal t :: form)

theorem Expects.expand (built : Table.build g = .ok T) (kind : token.kind = .terminal t)
    (h : Expects g token after t m) {next : Token} {rest : List Token} {n : Nonterminal}
    {u : Terminal} {p : Production} {below : List Symbol} (input : m.rest = next :: rest)
    (top : m.stack.items = .nonterminal n :: below) (kindU : next.kind = .terminal u)
    (cell : T.lookup n u = some p) :
    Expects g token after t (m.turn m.rest (spelled p.body ++ below)) := by
  obtain ⟨followed, w, ts, form, split, spells, derives⟩ := h
  obtain ⟨first, later, u', tail, front, kindU', formU⟩ := spells.front kind after form
  obtain ⟨rfl, rfl⟩ := List.cons.inj (input.symm.trans (split.trans front))
  obtain rfl := TokenKind.terminal.inj (kindU.symm.trans kindU')
  rw [top] at followed derives
  obtain ⟨q, mem, rfl, cell', rewritten⟩ := lookup_of_derives built followed (formU ▸ derives)
  obtain rfl := Option.some.inj (cell.symm.trans cell')
  exact ⟨followed.expand mem, w, ts, form, split, spells, formU ▸ rewritten⟩

theorem Expects.pop (h : Expects g token after t m) {u : Terminal} {below : List Symbol}
    {us rest : List Token} (top : m.stack.items = .terminal u :: below)
    (input : m.rest = us ++ rest) (unit : Spells [u] us)
    (ahead : (token :: after).length ≤ rest.length) :
    Expects g token after t (m.turn rest below) := by
  obtain ⟨followed, w, ts, form, split, spells, derives⟩ := h
  rw [top] at followed derives
  obtain ⟨later, same, shown⟩ := derives.fixed (by simp)
  -- The tokens of `u` are among those that are spelled, since `token` lies behind them.
  have shorter : us.length ≤ ts.length := by
    have := congrArg List.length (input.symm.trans split)
    simp only [List.length_append] at this
    omega
  obtain ⟨ts', rfl⟩ : us <+: ts :=
    List.prefix_of_prefix_length_le ⟨rest, input.symm⟩ ⟨token :: after, split.symm⟩ shorter
  obtain rfl : rest = ts' ++ token :: after := by
    simpa using input.symm.trans split
  obtain ⟨x, rfl, spellsLater⟩ := unit.unappend spells
  obtain ⟨_, rfl⟩ := List.cons.inj same
  exact ⟨followed, x, ts', form, rfl, spellsLater, shown⟩

/-- A move keeps to a derivation of tokens that are still ahead of it. -/
theorem Expects.move (built : Table.build g = .ok T) (kind : token.kind = .terminal t)
    (h : Expects g token after t m) (move : Move T m m')
    (ahead : (token :: after).length ≤ m'.rest.length) : Expects g token after t m' := by
  cases move with
  | expand input top kindU cell _ => exact h.expand built kind input top kindU cell
  | drop _ top =>
      obtain ⟨_, w, ts, form, _, spells, derives⟩ := h
      obtain ⟨_, _, _, _, _, _, formU⟩ := spells.front kind after form
      rw [top, formU] at derives
      cases derives.begins
  | shift input top kindU keyword =>
      obtain ⟨notIdent, notEnd⟩ := isTypeKeyword_iff.mp keyword
      exact h.pop top input (.keyword kindU notIdent notEnd .nil) ahead
  | name input top marks kindU => exact h.pop top input (.name marks kindU .nil) ahead

theorem Expects.moves (built : Table.build g = .ok T) (kind : token.kind = .terminal t)
    (h : Expects g token after t m) (moves : Moves T m m')
    (ahead : (token :: after).length ≤ m'.rest.length) : Expects g token after t m' := by
  induction moves with
  | refl => exact h
  | tail _ move ih =>
      refine (ih ?_).move built kind move ahead
      obtain ⟨_, _, same | shorter⟩ := move.passes
      · rwa [same.1] at ahead
      · omega

theorem Expects.lookahead (h : Expects g token after t m) (input : m.rest = token :: after) :
    ∃ form, g.Derives m.stack.items (.terminal t :: form) := by
  obtain ⟨_, w, ts, form, split, spells, derives⟩ := h
  obtain rfl : ts = [] := List.self_eq_append_left.mp (input.symm.trans split)
  cases spells
  exact ⟨form, derives⟩

/-- A refusal that blames the lookahead changes nothing, and no derivation from the stack shows the
lookahead next. -/
theorem Refusal.blamed (built : Table.build g = .ok T) {d : Diagnostic}
    (refusal : Refusal T m d m') (blames : d.fault.BlamesLookahead) :
    m' = m ∧ ∃ token after, m.rest = token :: after ∧ d.position = token.start ∧
      ∀ t, token.kind = .terminal t → ¬ Expects g token after t m := by
  cases refusal with
  | unstacked _ | exhausted _ | nameless _ _ _ | missing _ _ _ _ | overflow _ _ _ _ _ =>
      cases blames
  | mismatch input top differs =>
      refine ⟨rfl, _, _, input, rfl, ?_⟩
      intro t kind expects
      obtain ⟨form, derives⟩ := expects.lookahead input
      rw [top] at derives
      obtain ⟨_, same, _⟩ := derives.fixed (by simp)
      obtain rfl := Symbol.terminal.inj (List.cons.inj same).1
      exact differs kind
  | unexpected input top empty =>
      refine ⟨rfl, _, _, input, rfl, ?_⟩
      intro t kind expects
      obtain ⟨form, derives⟩ := expects.lookahead input
      have followed := expects.1
      rw [top] at followed derives
      obtain ⟨p, _, _, cell, _⟩ := lookup_of_derives built followed derives
      simp [kind, TokenKind.terminal?, cell] at empty

end Machine

namespace Reading

variable {g : Grammar} {T : Table}

/-- Over every grammar with a table, a fault that blames the lookahead stands at the first token
that cannot go on: what the tokens before it spell begins a form of the grammar, and together with
the terminal that the token shows it does not. -/
theorem blames_first_impossible_token (hz : g.start = .Z) (built : Table.build g = .ok T)
    (tokens : List Token) (r : Registry) :
    ∃ reading, ofTokens T tokens r = some reading ∧
      ∀ d, reading.result = .error d → d.fault.BlamesLookahead →
        ∃ (n : Nat) (last : Machine) (i : Nat) (token : Token) (w : List Terminal),
          (Machine.start tokens).stepFor T n = (.rejected d, last) ∧
          last.rest = tokens.drop i ∧ tokens[i]? = some token ∧ d.position = token.start ∧
          Spells w (tokens.take i) ∧
          (∃ form, g.Derives startForm (w.map .terminal ++ form)) ∧
          ∀ t form, token.kind = .terminal t →
            ¬ g.Derives startForm (w.map .terminal ++ .terminal t :: form) := by
  obtain ⟨n, ⟨verdict, last⟩, ends⟩ := Machine.halts built (.start tokens)
  have read := ofTokens_of_ends r ends
  cases verdict with
  | ongoing => exact absurd rfl ends.final
  | accepted => exact ⟨_, read, fun d failed => by cases failed⟩
  | rejected d =>
      refine ⟨_, read, fun d' failed blames => ?_⟩
      obtain rfl := Except.error.inj failed
      obtain ⟨m, moves, step⟩ := ends.last
      obtain ⟨rfl, token, after, input, place, impossible⟩ :=
        (Machine.refusal_of_step step).blamed built blames
      obtain ⟨w, ts, rfl, spells, derives⟩ :=
        (Machine.sentential_start g tokens).moves built moves
      refine ⟨n + 1, last, ts.length, token, w, ends.stepFor_eq, by simp, by simp [input], place,
        by simpa using spells, ⟨_, derives⟩, ?_⟩
      intro t form kind shown
      have followed := Sets.followed_start g
      rw [hz] at followed
      have expects : Machine.Expects g token after t (.start (ts ++ last.rest)) :=
        ⟨followed, w, ts, form, by rw [← input]; rfl, spells, shown⟩
      exact impossible t kind (expects.moves built kind moves (by rw [input]))

/-- Behind a name the end of the line is expected. -/
theorem blames_first_impossible_token_leftRecursive :
    ∃ T reading d, Table.build Machine.leftRecursive = .ok T ∧
      ofTokens T (Token.ofLine "shell" "x int") (.withBuckets 1) = some reading ∧
      reading.result = .error d ∧ d.fault = .terminalMismatch "#" "int" ∧
      ∃ (n : Nat) (last : Machine) (i : Nat) (token : Token) (w : List Terminal),
        (Machine.start (Token.ofLine "shell" "x int")).stepFor T n = (.rejected d, last) ∧
        last.rest = (Token.ofLine "shell" "x int").drop i ∧
        (Token.ofLine "shell" "x int")[i]? = some token ∧ d.position = token.start ∧
        Spells w ((Token.ofLine "shell" "x int").take i) ∧
        (∃ form, Machine.leftRecursive.Derives startForm (w.map .terminal ++ form)) ∧
        ∀ t form, token.kind = .terminal t →
          ¬ Machine.leftRecursive.Derives startForm (w.map .terminal ++ .terminal t :: form) := by
  have computed : (Table.build Machine.leftRecursive).map (fun T =>
      ((Machine.start (Token.ofLine "shell" "x int")).stepFor T 9).1) =
        .ok (.rejected ⟨.terminalMismatch "#" "int", ⟨2, "shell"⟩⟩) := by
    decide +kernel
  obtain ⟨T, built⟩ := Table.exists_of_isOk (g := Machine.leftRecursive) (by decide +kernel)
  rw [built] at computed
  generalize out : (Machine.start (Token.ofLine "shell" "x int")).stepFor T 9 = ended
  obtain ⟨verdict, m⟩ := ended
  obtain rfl : verdict = .rejected ⟨.terminalMismatch "#" "int", ⟨2, "shell"⟩⟩ := by
    simpa [Except.map, out] using computed
  obtain ⟨n, ends⟩ := Machine.ends_of_stepFor out (by simp)
  obtain ⟨reading, read, blamed⟩ :=
    blames_first_impossible_token rfl built (Token.ofLine "shell" "x int") (.withBuckets 1)
  obtain rfl := Option.some.inj (read.symm.trans (ofTokens_of_ends _ ends))
  exact ⟨T, _, _, built, read, rfl, rfl, blamed _ rfl trivial⟩

end Reading

end DeclLine

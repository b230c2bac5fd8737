import DeclLine.Proofs.Run
import DeclLine.Proofs.Table

/-!
Every run ends. Expansions take no token, so the argument is about one lookahead: a nonterminal
that cannot begin with it is replaced along the derivation of the empty string, one that can is
replaced along the derivation that brings the lookahead to the front. A table without conflicts
leaves no other choice.
-/
namespace DeclLine.Machine

def Halts (T : Table) (m : Machine) : Prop :=
  ∃ n out, Ends T n m out

variable {g : Grammar} {T : Table} {m : Machine} {t : Terminal}

theorem turn_self {items : List Symbol} (h : m.stack.items = items) :
    m.turn m.rest items = m := by
  subst h
  rfl

theorem Halts.of_move {m' : Machine} (move : Move T m m') (h : Halts T m') : Halts T m := by
  obtain ⟨n, out, ends⟩ := h
  exact ⟨n + 1, out, .later move ends⟩

theorem Halts.of_refusal {m' : Machine} {d : Diagnostic} (h : Refusal T m d m') : Halts T m :=
  ⟨0, _, ends_of_refusal h⟩

/-- An expansion halts at once, or goes on from the body in the cell. -/
theorem Halts.expand {token : Token} {rest : List Token} {n : Nonterminal} {below : List Symbol}
    (input : m.rest = token :: rest) (top : m.stack.items = .nonterminal n :: below)
    (kind : token.kind = .terminal t)
    (h : ∀ p, T.lookup n t = some p → Halts T (m.turn m.rest (spelled p.body ++ below))) :
    Halts T m := by
  cases cell : T.lookup n t with
  | none => exact .of_refusal (.unexpected input top (by simp [kind, TokenKind.terminal?, cell]))
  | some p =>
      by_cases fits : (spelled p.body).length ≤ m.stack.capacity - below.length
      · exact .of_move (.expand input top kind cell fits) (h p cell)
      · exact .of_refusal (.overflow input top kind cell (Nat.lt_of_not_le fits))

/-- A form that vanishes and cannot begin with the lookahead is taken off the stack. -/
theorem Halts.of_vanishes (built : Table.build g = .ok T) {token : Token} {rest : List Token}
    (kind : token.kind = .terminal t) {a : List Symbol} (h : g.Vanishes a)
    (first : t ∉ (Sets.ofGrammar g).firstOfSequence a) {m : Machine} {below : List Symbol}
    (input : m.rest = token :: rest) (top : m.stack.items = a ++ below)
    (later : Halts T (m.turn m.rest below)) : Halts T m := by
  induction h generalizing m below with
  | nil => rwa [turn_self (by simpa using top)] at later
  | @cons tail p mem body _ ihBody ihTail =>
      have gone : (Sets.ofGrammar g).erasable p.body = true := Sets.erasable_iff_vanishes.mpr body
      have nullable := Sets.isNullable_iff_vanishes.mpr (Grammar.vanishes_head mem body)
      rw [FirstSets.mem_firstOfSequence_nonterminal] at first
      have firstHead : t ∉ (Sets.ofGrammar g).firstOf p.head := fun k => first (.inl k)
      have firstBody : ∀ q ∈ g.productions, q.head = p.head →
          t ∉ (Sets.ofGrammar g).firstOfSequence q.body := fun q hq heads k =>
        firstHead (heads ▸ (FirstSets.settled_closed g q hq).2 t k)
      refine Halts.expand input top kind fun q cell => ?_
      obtain ⟨hq, heads, selects⟩ := (Table.lookup_eq_some_iff built).mp cell
      -- The cell can only have been claimed through FOLLOW, which `p` claims as well.
      have follow : t ∈ (Sets.ofGrammar g).followOf p.head := by
        rcases selects with k | ⟨_, k⟩
        · exact absurd k (firstBody q hq heads)
        · rwa [heads] at k
      obtain rfl := Table.selects_unique built hq mem heads selects (.inr ⟨gone, follow⟩)
      refine ihBody ?_ input rfl ?_
      · rw [FirstSets.firstOfSequence_spelled]
        exact firstBody q hq rfl
      · exact ihTail (fun k => first (.inr ⟨nullable, k⟩)) input rfl later

/-- A form that begins with the lookahead is rewritten until the lookahead is on top. -/
theorem Halts.of_begins (built : Table.build g = .ok T) {token : Token} {rest : List Token}
    (kind : token.kind = .terminal t) {a : List Symbol} (h : g.Begins t a)
    {beyond : TerminalSet} (followed : (Sets.ofGrammar g).Followed beyond a) {m : Machine}
    {below : List Symbol} (input : m.rest = token :: rest) (top : m.stack.items = a ++ below)
    (later : ∀ items, Halts T (m.turn m.rest (.terminal t :: items))) : Halts T m := by
  induction h generalizing m below beyond with
  | here tail =>
      have := later (tail ++ below)
      rwa [turn_self (by simpa using top)] at this
  | @inside tail p mem body ih =>
      have first := Sets.mem_firstOfSequence_iff_begins.mpr body
      refine Halts.expand input top kind fun q cell => ?_
      obtain ⟨hq, heads, selects⟩ := (Table.lookup_eq_some_iff built).mp cell
      obtain rfl := Table.selects_unique built hq mem heads selects (.inl first)
      exact ih (Sets.followed_spelled (Sets.followed_body hq)) input rfl later
  | @behind n tail gone begins ih =>
      have nullable := Sets.isNullable_iff_vanishes.mpr gone
      have next : t ∈ (Sets.ofGrammar g).firstOfSequence tail :=
        (FirstSets.settled_closed g).mem_firstOfSequence begins
      have first : t ∉ (Sets.ofGrammar g).firstOf n := fun k =>
        Table.first_follow_disjoint built nullable k (followed.1 t next)
      refine Halts.of_vanishes built kind gone ?_ input top ?_
      · rwa [FirstSets.mem_firstOfSequence_singleton]
      · exact ih followed.2.2 input rfl later

theorem Halts.of_terminal {u : Terminal} {below : List Symbol}
    (top : m.stack.items = .terminal u :: below)
    (later : ∀ m', m'.rest.length < m.rest.length → Halts T m') : Halts T m := by
  have effect := effect_step T m
  generalize m.step T = out at effect
  obtain ⟨_ | _ | d, m'⟩ := out
  · refine .of_move effect (later m' ?_)
    cases effect with
    | shift input _ _ _ | name input _ _ _ =>
        simp only [turn, input, List.length_cons]
        omega
    | expand _ top' _ _ _ | drop _ top' => simp [top] at top'
  · exact ⟨0, _, ends_of_accepting effect.1⟩
  · exact .of_refusal effect

theorem halts (built : Table.build g = .ok T) (m : Machine) : Halts T m := by
  -- On the tokens ahead and, for one lookahead, on the stack: it shrinks when its top vanishes.
  generalize len : m.rest.length = l
  induction l using Nat.strong_induction_on generalizing m with
  | _ l outer =>
      have later : ∀ m', m'.rest.length < l → Halts T m' := fun m' lt => outer _ lt m' rfl
      cases input : m.rest with
      | nil => exact .of_refusal (.exhausted input)
      | cons token rest =>
          generalize top : m.stack.items = items
          induction items generalizing m with
          | nil => exact .of_refusal (.unstacked top)
          | cons x below inner =>
              have skip : Halts T (m.turn m.rest below) := inner _ len input rfl
              cases x with
              | epsilon => exact .of_move (.drop input top) skip
              | terminal u => exact .of_terminal top (fun m' lt => later m' (len ▸ lt))
              | nonterminal n =>
                  cases kind : token.kind with
                  | lexeme | unknown =>
                      exact .of_refusal
                        (.unexpected input top (by simp [kind, TokenKind.terminal?]))
                  | terminal t =>
                      by_cases first : t ∈ (Sets.ofGrammar g).firstOf n
                      · refine .of_begins built kind (Sets.mem_firstOf_iff_begins.mp first)
                          (Sets.followed_singleton n) input top fun items => ?_
                        exact .of_terminal rfl (fun m' lt => later m' (len ▸ lt))
                      · by_cases nullable : (Sets.ofGrammar g).isNullable n = true
                        · refine .of_vanishes built kind
                            (Sets.isNullable_iff_vanishes.mp nullable) ?_ input top skip
                          rwa [FirstSets.mem_firstOfSequence_singleton]
                        · refine .expand input top kind fun p cell => ?_
                          obtain ⟨hp, rfl, selects⟩ := (Table.lookup_eq_some_iff built).mp cell
                          have closed := FirstSets.settled_closed g p hp
                          rcases selects with k | ⟨k, _⟩
                          · exact absurd (closed.2 t k) first
                          · exact absurd (closed.1 k) nullable

/-- For every table that is built and every list of tokens, some number of steps leads to
acceptance or rejection, and the run reports just that. -/
theorem run_ends_for_every_table (built : Table.build g = .ok T) (tokens : List Token) :
    ∃ n, ((start tokens).stepFor T n).1 ≠ .ongoing ∧
      (start tokens).run T = conclude ((start tokens).stepFor T n) := by
  obtain ⟨n, out, ends⟩ := halts built (start tokens)
  refine ⟨n + 1, ?_, ?_⟩
  · rw [ends.stepFor_eq]
    exact ends.final
  · rw [ends.stepFor_eq]
    exact ends.run_eq (fits_start tokens)

/-- Keywords and perhaps a name, beside a nonterminal that only ever begins with itself. -/
def leftRecursive : Grammar where
  start := .Z
  productions :=
    [⟨.Z, [.nonterminal .A, .nonterminal .S]⟩, ⟨.A, [.terminal .int, .epsilon, .nonterminal .A]⟩,
     ⟨.A, [.epsilon]⟩, ⟨.S, [.terminal .ident]⟩, ⟨.S, []⟩,
     ⟨.B, [.nonterminal .B, .terminal .int]⟩]

/-- Two keywords and a name are read to the end, and the name is noted under the last keyword. -/
theorem run_ends_for_leftRecursive :
    ∃ T, Table.build leftRecursive = .ok T ∧
      (start (Token.ofLine "shell" "int Int x")).run T = some (.ok ⟨some .int, some "x"⟩) ∧
      ∃ n, ((start (Token.ofLine "shell" "int Int x")).stepFor T n).1 ≠ .ongoing ∧
        conclude ((start (Token.ofLine "shell" "int Int x")).stepFor T n) =
          some (.ok ⟨some .int, some "x"⟩) := by
  have computed : (Table.build leftRecursive).map (fun T =>
      (start (Token.ofLine "shell" "int Int x")).run T) =
      .ok (some (.ok ⟨some .int, some "x"⟩)) := by
    decide +kernel
  obtain ⟨T, built, run⟩ := Table.exists_of_map_eq_ok computed
  obtain ⟨n, ended, same⟩ :=
    run_ends_for_every_table built (Token.ofLine "shell" "int Int x")
  exact ⟨T, built, run, n, ended, same.symm.trans run⟩

end DeclLine.Machine

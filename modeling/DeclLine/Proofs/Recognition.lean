import DeclLine.Declaration
import DeclLine.Proofs.Termination

/-!
The automaton recognizes what the grammar derives. The terminals that it has matched, followed by
the stack, are always a form that the grammar derives; and as long as the tokens ahead can still
be derived from the stack, the cell that a step consults holds the production to go on with.
-/
namespace DeclLine

/-- Terminals as tokens write them: a keyword by its token, a name by its marker and its text. -/
inductive Spells : List Terminal → List Token → Prop
  | nil : Spells [] []
  | keyword {t : Terminal} {w : List Terminal} {token : Token} {tokens : List Token}
      (kind : token.kind = .terminal t) (notIdent : t ≠ .ident) (notEnd : t ≠ .endMark)
      (rest : Spells w tokens) : Spells (t :: w) (token :: tokens)
  | name {w : List Terminal} {marker token : Token} {tokens : List Token}
      (marks : marker.kind = .terminal .ident) (kind : token.kind = .lexeme)
      (rest : Spells w tokens) : Spells (.ident :: w) (marker :: token :: tokens)

theorem Spells.append {v w : List Terminal} {ts us : List Token} (h : Spells v ts)
    (k : Spells w us) : Spells (v ++ w) (ts ++ us) := by
  induction h with
  | nil => exact k
  | keyword kind notIdent notEnd _ ih => exact .keyword kind notIdent notEnd ih
  | name marks kind _ ih => exact .name marks kind ih

theorem Spells.front {w : List Terminal} {ts : List Token} (h : Spells w ts) {last : Token}
    {u : Terminal} (kind : last.kind = .terminal u) (rest : List Token) (form : List Symbol) :
    ∃ token after t tail, ts ++ last :: rest = token :: after ∧ token.kind = .terminal t ∧
      w.map Symbol.terminal ++ .terminal u :: form = .terminal t :: tail := by
  cases h with
  | nil => exact ⟨last, rest, u, form, rfl, kind, rfl⟩
  | keyword kind _ _ _ | name kind _ _ => exact ⟨_, _, _, _, rfl, kind, rfl⟩

def startForm : List Symbol :=
  [.nonterminal .Z, .terminal .endMark]

/-- The tokens begin with terminals `w` and an end marker such that the grammar derives a form
that begins with `w` and an end marker. -/
def Grammar.Recognizes (g : Grammar) (tokens : List Token) : Prop :=
  ∃ w ts token rest form, tokens = ts ++ token :: rest ∧ Spells w ts ∧
    token.kind = .terminal .endMark ∧
    g.Derives startForm (w.map .terminal ++ .terminal .endMark :: form)

namespace Grammar

variable {g : Grammar}

theorem not_mem_spelled (body : List Symbol) : .epsilon ∉ spelled body := by
  simp [spelled]

theorem Derives.epsilon_free {a b : List Symbol} (h : g.Derives a b) (free : .epsilon ∉ a) :
    .epsilon ∉ b := by
  induction h with
  | refl _ => exact free
  | step p _ _ ih =>
      apply ih
      have := not_mem_spelled p.body
      simp_all

theorem Derives.single {p : Production} (mem : p ∈ g.productions) (u v : List Symbol) :
    g.Derives (u ++ .nonterminal p.head :: v) (u ++ (spelled p.body ++ v)) := by
  rw [← List.append_assoc]
  exact .step p mem (.refl _)

end Grammar

namespace Machine

variable {g : Grammar} {T : Table} {m m' : Machine} {tokens : List Token}

/-- The matched terminals and the stack below them make up a form of the grammar. -/
def Sentential (g : Grammar) (tokens : List Token) (m : Machine) : Prop :=
  ∃ w ts, tokens = ts ++ m.rest ∧ Spells w ts ∧
    g.Derives startForm (w.map .terminal ++ m.stack.items)

theorem sentential_start (g : Grammar) (tokens : List Token) :
    Sentential g tokens (start tokens) :=
  ⟨[], [], rfl, .nil, .refl _⟩

theorem Sentential.epsilon_free (h : Sentential g tokens m) : .epsilon ∉ m.stack.items := by
  obtain ⟨w, ts, _, _, derives⟩ := h
  have := derives.epsilon_free (by simp [startForm])
  simp_all

theorem Sentential.move (built : Table.build g = .ok T) (h : Sentential g tokens m)
    (move : Move T m m') : Sentential g tokens m' := by
  have free := h.epsilon_free
  obtain ⟨w, ts, split, spells, derives⟩ := h
  cases move with
  | @shift token rest t below input top kind keyword =>
      obtain ⟨notIdent, notEnd⟩ := isTypeKeyword_iff.mp keyword
      refine ⟨w ++ [t], ts ++ [token], by simp [turn, split, input],
        spells.append (.keyword kind notIdent notEnd .nil), ?_⟩
      simpa [turn, top] using derives
  | @name marker token rest below input top marks kind =>
      refine ⟨w ++ [.ident], ts ++ [marker, token], by simp [turn, split, input],
        spells.append (.name marks kind .nil), ?_⟩
      simpa [turn, top] using derives
  | @expand token rest n t p below input top kind cell fits =>
      obtain ⟨mem, rfl, _⟩ := (Table.lookup_eq_some_iff built).mp cell
      rw [top] at derives
      exact ⟨w, ts, split, spells, derives.trans (.single mem _ _)⟩
  | drop input top => simp [top] at free

theorem Sentential.moves (built : Table.build g = .ok T) (h : Sentential g tokens m)
    (moves : Moves T m m') : Sentential g tokens m' := by
  induction moves with
  | refl => exact h
  | tail _ move ih => exact ih.move built move

theorem Sentential.recognizes (h : Sentential g tokens m) (accepting : m.Accepting) :
    g.Recognizes tokens := by
  obtain ⟨w, ts, split, spells, derives⟩ := h
  obtain ⟨token, rest, below, input, kind, top⟩ := accepting
  rw [input] at split
  rw [top] at derives
  exact ⟨w, ts, token, rest, below, split, spells, kind, derives⟩

/-- The tokens up to an end marker can be derived from the stack, and FOLLOW covers the stack. -/
def Viable (g : Grammar) (m : Machine) : Prop :=
  (Sets.ofGrammar g).Followed ∅ m.stack.items ∧
  ∃ w ts token rest form, m.rest = ts ++ token :: rest ∧ Spells w ts ∧
    token.kind = .terminal .endMark ∧
    g.Derives m.stack.items (w.map .terminal ++ .terminal .endMark :: form)

theorem viable_start (hz : g.start = .Z) (h : g.Recognizes tokens) : Viable g (start tokens) := by
  have followed := Sets.followed_start g
  rw [hz] at followed
  exact ⟨followed, h⟩

/-- The production that a derivation uses next is the one that the lookahead selects. -/
theorem lookup_of_derives (built : Table.build g = .ok T) {n : Nonterminal}
    {below form : List Symbol} {t : Terminal}
    (followed : (Sets.ofGrammar g).Followed ∅ (.nonterminal n :: below))
    (derives : g.Derives (.nonterminal n :: below) (.terminal t :: form)) :
    ∃ p ∈ g.productions, p.head = n ∧ T.lookup n t = some p ∧
      g.Derives (spelled p.body ++ below) (.terminal t :: form) := by
  obtain ⟨p, mem, rfl, rewritten⟩ := derives.unfold
  refine ⟨p, mem, rfl, (Table.lookup_eq_some_iff built).mpr ⟨mem, rfl, ?_⟩, rewritten⟩
  rcases Grammar.begins_append.mp rewritten.begins with begins | ⟨gone, begins⟩
  · exact .inl (Sets.mem_firstOfSequence_iff_begins.mpr begins)
  · refine .inr ⟨Sets.erasable_iff_vanishes.mpr gone, followed.1 t ?_⟩
    exact (FirstSets.settled_closed g).mem_firstOfSequence begins

theorem Viable.expand (built : Table.build g = .ok T) (h : Viable g m) {n : Nonterminal}
    {below : List Symbol} (top : m.stack.items = .nonterminal n :: below) :
    (∃ m', Move T m m' ∧ Viable g m') ∨
      ∃ d m', Refusal T m d m' ∧ d.fault = .stackOverflow m.stack.capacity := by
  obtain ⟨followed, w, ts, last, rest, form, input, spells, kind, derives⟩ := h
  obtain ⟨token, after, t, tail, front, kindT, formT⟩ := spells.front kind rest form
  rw [top] at followed derives
  obtain ⟨p, mem, rfl, cell, rewritten⟩ := lookup_of_derives built followed (formT ▸ derives)
  have input' := input.trans front
  by_cases fits : (spelled p.body).length ≤ m.stack.capacity - below.length
  · refine .inl ⟨_, .expand input' top kindT cell fits, followed.expand mem, ?_⟩
    exact ⟨w, ts, last, rest, form, input, spells, kind, formT ▸ rewritten⟩
  · exact .inr ⟨_, _, .overflow input' top kindT cell (Nat.lt_of_not_le fits), rfl⟩

theorem Viable.matches (h : Viable g m) {u : Terminal} {below : List Symbol}
    (top : m.stack.items = .terminal u :: below) :
    m.Accepting ∨ ∃ m', Move T m m' ∧ Viable g m' := by
  obtain ⟨followed, w, ts, last, rest, form, input, spells, kind, derives⟩ := h
  rw [top] at followed derives
  obtain ⟨later, same, derivesBelow⟩ := derives.fixed (by simp)
  cases spells with
  | nil =>
      obtain ⟨hu, rfl⟩ := List.cons.inj same
      obtain rfl := Symbol.terminal.inj hu
      exact .inl ⟨last, rest, below, input, kind, top⟩
  | keyword kindT notIdent notEnd spells =>
      obtain ⟨hu, rfl⟩ := List.cons.inj same
      obtain rfl := Symbol.terminal.inj hu
      have keyword := isTypeKeyword_iff.mpr ⟨notIdent, notEnd⟩
      refine .inr ⟨_, .shift input top kindT keyword, followed, ?_⟩
      exact ⟨_, _, last, rest, form, rfl, spells, kind, derivesBelow⟩
  | name marks kindT spells =>
      obtain ⟨hu, rfl⟩ := List.cons.inj same
      obtain rfl := Symbol.terminal.inj hu
      refine .inr ⟨_, .name input top marks kindT, followed, ?_⟩
      exact ⟨_, _, last, rest, form, rfl, spells, kind, derivesBelow⟩

/-- From a viable configuration a step accepts, stays viable, or finds the stack full. -/
theorem Viable.progress (built : Table.build g = .ok T) (h : Viable g m) :
    m.Accepting ∨ (∃ m', Move T m m' ∧ Viable g m') ∨
      ∃ d m', Refusal T m d m' ∧ d.fault = .stackOverflow m.stack.capacity := by
  cases top : m.stack.items with
  | nil =>
      obtain ⟨_, w, ts, last, rest, form, _, spells, kind, derives⟩ := h
      obtain ⟨_, _, _, _, _, _, formT⟩ := spells.front kind rest form
      rw [top, formT] at derives
      cases derives.begins
  | cons x below =>
      cases x with
      | terminal u =>
          rcases h.matches (T := T) top with accepting | move
          · exact .inl accepting
          · exact .inr (.inl move)
      | nonterminal n => exact .inr (h.expand built top)
      | epsilon =>
          obtain ⟨_, w, ts, last, rest, form, _, spells, kind, derives⟩ := h
          obtain ⟨_, _, _, _, _, _, formT⟩ := spells.front kind rest form
          rw [top, formT] at derives
          cases derives.begins

theorem Viable.outcome (built : Table.build g = .ok T) (h : Viable g m) {n : Nat}
    {out : Verdict × Machine} (ends : Ends T n m out) :
    out.1 = .accepted ∨ ∃ d c, out.1 = .rejected d ∧ d.fault = .stackOverflow c := by
  induction ends with
  | now step final =>
      rcases h.progress built with accepting | ⟨m', move, _⟩ | ⟨d, m', refusal, full⟩
      · rw [accepting.step_eq] at step
        exact .inl (step ▸ rfl)
      · rw [move.step_eq] at step
        exact absurd (step ▸ rfl) final
      · rw [refusal.step_eq] at step
        exact .inr ⟨d, _, step ▸ rfl, full⟩
  | later move _ ih =>
      rcases h.progress built with accepting | ⟨m', move', viable⟩ | ⟨d, m', refusal, _⟩
      · have := move.step_eq.symm.trans accepting.step_eq
        cases this
      · obtain ⟨_, rfl⟩ := Prod.mk.inj (move.step_eq.symm.trans move'.step_eq)
        exact ih viable
      · have := move.step_eq.symm.trans refusal.step_eq
        cases this

end Machine

namespace Reading

variable {g : Grammar} {T : Table}

theorem ofTokens_of_ends {tokens : List Token} (r : Registry) {n : Nat}
    {out : Verdict × Machine} (ends : Machine.Ends T n (.start tokens) out) :
    ofTokens T tokens r = (Machine.conclude out).map (ofOutcome r) := by
  rw [ofTokens, ends.run_eq (Machine.fits_start tokens)]

/-- Over a table that is built, the automaton accepts or rejects, and the reading is its outcome. -/
theorem ofTokens_cases (built : Table.build g = .ok T) (tokens : List Token) (r : Registry) :
    (∃ n last, Machine.Ends T n (.start tokens) (.accepted, last) ∧
      ofTokens T tokens r = some (ofOutcome r (.ok last.pending))) ∨
    ∃ n last d, Machine.Ends T n (.start tokens) (.rejected d, last) ∧
      ofTokens T tokens r = some (ofOutcome r (.error d)) := by
  obtain ⟨n, ⟨verdict, last⟩, ends⟩ := Machine.halts built (.start tokens)
  have read := ofTokens_of_ends r ends
  cases verdict with
  | ongoing => exact absurd rfl ends.final
  | accepted => exact .inl ⟨n, last, ends, read⟩
  | rejected d => exact .inr ⟨n, last, d, ends, read⟩

/-- Over every grammar with a table, unless the stack overflows, tokens are accepted exactly when
the grammar recognizes them. -/
theorem accepted_iff_recognized (hz : g.start = .Z) (built : Table.build g = .ok T)
    (tokens : List Token) (r : Registry) :
    ∃ reading, ofTokens T tokens r = some reading ∧
      ((∀ d c, reading.result = .error d → d.fault ≠ .stackOverflow c) →
        ((∃ declared, reading.result = .ok declared) ↔ g.Recognizes tokens)) := by
  obtain ⟨n, ⟨verdict, last⟩, ends⟩ := Machine.halts built (.start tokens)
  have read := ofTokens_of_ends r ends
  cases verdict with
  | ongoing => exact absurd rfl ends.final
  | accepted =>
      refine ⟨_, read, fun _ => ⟨fun _ => ?_, fun _ => ⟨_, rfl⟩⟩⟩
      obtain ⟨k, moves, step⟩ := ends.last
      exact ((Machine.sentential_start g tokens).moves built moves).recognizes
        (Machine.accepting_of_step step).1
  | rejected d =>
      refine ⟨_, read, fun fits => ⟨?_, fun recognized => ?_⟩⟩
      · rintro ⟨_, h⟩
        cases h
      · rcases (Machine.viable_start hz recognized).outcome built ends with h | ⟨e, c, h, full⟩
        · cases h
        · cases h
          exact absurd full (fits d c rfl)

/-- A keyword and a name, read over a grammar with an erasable and a left-recursive part. -/
theorem accepted_iff_recognized_leftRecursive :
    ∃ T reading, Table.build Machine.leftRecursive = .ok T ∧
      ofTokens T (Token.ofLine "shell" "int x") (.withBuckets 1) = some reading ∧
      (∃ declared, reading.result = .ok declared) ∧
      Machine.leftRecursive.Recognizes (Token.ofLine "shell" "int x") := by
  have computed : (Table.build Machine.leftRecursive).map (fun T =>
      ((Machine.start (Token.ofLine "shell" "int x")).stepFor T 9).1) = .ok .accepted := by
    decide +kernel
  obtain ⟨T, built⟩ := Table.exists_of_isOk (g := Machine.leftRecursive) (by decide +kernel)
  rw [built] at computed
  generalize out : (Machine.start (Token.ofLine "shell" "int x")).stepFor T 9 = ended
  obtain ⟨verdict, m⟩ := ended
  obtain rfl : verdict = .accepted := by simpa [Except.map, out] using computed
  obtain ⟨n, ends⟩ := Machine.ends_of_stepFor out (by simp)
  obtain ⟨reading, read, exact⟩ :=
    accepted_iff_recognized rfl built (Token.ofLine "shell" "int x") (.withBuckets 1)
  obtain rfl := Option.some.inj (read.symm.trans (ofTokens_of_ends _ ends))
  refine ⟨T, _, built, read, ⟨_, rfl⟩, (exact ?_).mp ⟨_, rfl⟩⟩
  intro d c failed
  cases failed

end Reading

end DeclLine

import DeclLine.Proofs.Session

/-!
All or nothing. Along a run the automaton notes the last type keyword and the last name among the
tokens that it has consumed. A commit records the two together: the new entry is always found
again under its fresh identifier, so that no entry stays behind a commit that declares nothing.
-/
namespace DeclLine

namespace Token

def keyword? (t : Token) : Option Terminal :=
  t.kind.terminal?.filter Terminal.isTypeKeyword

def lexeme? (t : Token) : Option String :=
  if t.kind = .lexeme then some t.text else none

end Token

namespace Pending

/-- The last type keyword and the last lexeme of the tokens. -/
def ofTokens (tokens : List Token) : Pending where
  keyword := (tokens.filterMap Token.keyword?).getLast?
  name := (tokens.filterMap Token.lexeme?).getLast?

/-- The type is missing, or the name is missing or empty. -/
def Incomplete (p : Pending) : Prop :=
  p.keyword = .none ∨ p.name = .none ∨ p.name = some ""

theorem ofTokens_keyword (tokens : List Token) {token : Token} {k : Terminal}
    (kind : token.kind = .terminal k) (isType : k.isTypeKeyword = true) :
    ofTokens (tokens ++ [token]) = { ofTokens tokens with keyword := some k } := by
  simp [ofTokens, Token.keyword?, Token.lexeme?, kind, TokenKind.terminal?, isType]

theorem ofTokens_name (tokens : List Token) {marker token : Token}
    (marks : marker.kind = .terminal .ident) (kind : token.kind = .lexeme) :
    ofTokens (tokens ++ [marker, token]) = { ofTokens tokens with name := some token.text } := by
  simp [ofTokens, Token.keyword?, Token.lexeme?, marks, kind, TokenKind.terminal?,
    Terminal.isTypeKeyword]

end Pending

namespace Machine

variable {T : Table} {m m' : Machine} {tokens : List Token}

/-- The machine has noted what the tokens before its lookahead say. -/
def Recalls (tokens : List Token) (m : Machine) : Prop :=
  ∃ consumed, tokens = consumed ++ m.rest ∧ m.pending = Pending.ofTokens consumed

theorem recalls_start (tokens : List Token) : Recalls tokens (start tokens) :=
  ⟨[], rfl, rfl⟩

theorem Recalls.move (h : Recalls tokens m) (move : Move T m m') : Recalls tokens m' := by
  obtain ⟨consumed, split, noted⟩ := h
  cases move with
  | @shift token rest t below input _ kind keyword =>
      refine ⟨consumed ++ [token], by simp [turn, split, input], ?_⟩
      rw [Pending.ofTokens_keyword consumed kind keyword, ← noted]
  | @name marker token rest below input _ marks kind =>
      refine ⟨consumed ++ [marker, token], by simp [turn, split, input], ?_⟩
      rw [Pending.ofTokens_name consumed marks kind, ← noted]
  | expand _ _ _ _ _ | drop _ _ => exact ⟨consumed, split, noted⟩

theorem Recalls.moves (h : Recalls tokens m) (moves : Moves T m m') : Recalls tokens m' := by
  induction moves with
  | refl => exact h
  | tail _ move ih => exact ih.move move

/-- An accepting step changes nothing, so the machine that accepts is the last one of the run. -/
theorem Ends.recalls {n : Nat} (ends : Ends T n (start tokens) (.accepted, m)) :
    Recalls tokens m := by
  obtain ⟨k, moves, step⟩ := ends.last
  obtain ⟨_, same⟩ := accepting_of_step step
  rw [same]
  exact (recalls_start tokens).moves moves

end Machine

namespace Registry

/-- The declaration, and the one entry that it has added, which both searches find. -/
structure Records (r r' : Registry) (k : Terminal) (name : String) (d : Declaration) : Prop where
  declared : d = ⟨r.nextId, Text.bounded name 64, k⟩
  added : ∃ e, e.id = d.id ∧ e.name = d.name ∧ r.Adds r' e ∧
    r'.lookupId d.id 1 = some e ∧ r'.lookupName name 1 = some e

/-- What comes of a pending declaration: all of it is recorded, or nothing has changed. -/
structure Settles (r : Registry) (p : Pending) (declared : Option Declaration) (r' : Registry) :
    Prop where
  none_iff : declared = none ↔ p.Incomplete
  unchanged : declared = none → r' = r
  recorded : ∀ d, declared = some d →
    ∃ k name, p.keyword = some k ∧ p.name = some name ∧ r.Records r' k name d

theorem settles_nothing (r : Registry) {p : Pending} (incomplete : p.Incomplete) :
    r.Settles p none r :=
  ⟨iff_of_true rfl incomplete, fun _ => rfl, nofun⟩

theorem settles_records {r r' : Registry} {k : Terminal} {name : String} {d : Declaration}
    (ne : name ≠ "") (records : r.Records r' k name d) :
    r.Settles ⟨some k, some name⟩ (some d) r' := by
  refine ⟨iff_of_false nofun ?_, nofun, ?_⟩
  · simpa [Pending.Incomplete] using ne
  · intro d' same
    cases same
    exact ⟨k, name, rfl, rfl, records⟩

end Registry

theorem Accounts.records_insert {r : Registry} {l : Ledger} (h : Accounts r l)
    (few : l.count + 1 < 2 ^ 32) (k : Terminal) {name : String} (ne : name ≠ "") :
    r.Records (r.insert (Declaration.item k name)).2 k name
      ⟨r.nextId, Text.bounded name 64, k⟩ := by
  refine ⟨rfl, (Declaration.item k name).toEntry r.nextId, rfl, rfl, ?_, ?_, ?_⟩
  · exact h.reflects.adds_insert ne few
  · exact h.reflects.lookupId_insert h.wf ne rfl
  · exact h.reflects.lookupName_insert (x := Declaration.item k name) ne

theorem Accounts.settles_commit {r : Registry} {l : Ledger} (h : Accounts r l)
    (few : l.count + 1 < 2 ^ 32) (p : Pending) :
    r.Settles p (r.commit p).1 (r.commit p).2 := by
  match p with
  | ⟨none, name⟩ => exact r.settles_nothing (.inl rfl)
  | ⟨some k, none⟩ => exact r.settles_nothing (.inr (.inl rfl))
  | ⟨some k, some name⟩ =>
      by_cases ne : name = ""
      · subst ne
        exact r.settles_nothing (.inr (.inr rfl))
      · rw [Registry.commit_declaration h.reflects h.wf ne]
        exact Registry.settles_records ne (h.records_insert few k ne)

namespace Reading

variable {g : Grammar} {T : Table}

/-- Over every grammar with a table and on every registry that a session leaves: a reading that
declares nothing changes nothing, and one that declares adds just the entry of the last type
keyword and the last name that were consumed. A commit by itself does the same with what it is
given. -/
theorem commits_all_or_nothing {count : Nat} {script : List Action} {ids : List UInt32}
    {r : Registry} (reached : (Registry.withBuckets count).session script = some (ids, r))
    (few : ids.length < 2 ^ 32 - 1) (built : Table.build g = .ok T) (tokens : List Token) :
    (∃ reading, ofTokens T tokens r = some reading ∧
      (∀ d, reading.result = .error d → reading.registry = r) ∧
      ∀ declared, reading.result = .ok declared →
        ∃ n last consumed, (Machine.start tokens).stepFor T n = (.accepted, last) ∧
          tokens = consumed ++ last.rest ∧
          r.Settles (Pending.ofTokens consumed) declared reading.registry) ∧
    ∀ p, r.Settles p (r.commit p).1 (r.commit p).2 := by
  have none : Ledger.empty.count = 0 := rfl
  obtain ⟨l, accounts, counts⟩ := (Accounts.start count).session reached (by omega)
  have room : l.count + 1 < 2 ^ 32 := by
    have := counts.total
    omega
  have commits := accounts.settles_commit room
  refine ⟨?_, commits⟩
  cases ofTokens_cases built tokens r with
  | inr rejected =>
      obtain ⟨_, _, d, _, read⟩ := rejected
      exact ⟨_, read, fun _ _ => rfl, nofun⟩
  | inl accepted =>
      obtain ⟨n, last, ends, read⟩ := accepted
      refine ⟨_, read, nofun, ?_⟩
      intro declared ok
      cases ok
      obtain ⟨consumed, split, noted⟩ := ends.recalls
      exact ⟨n + 1, last, consumed, ends.stepFor_eq, split, noted ▸ commits last.pending⟩

/-- A line of any number of declarations. -/
def declarationList : Grammar where
  start := .Z
  productions :=
    [⟨.Z, [.nonterminal .A, .nonterminal .B, .nonterminal .Z]⟩, ⟨.Z, [.epsilon]⟩,
     ⟨.A, [.terminal .int]⟩, ⟨.A, [.terminal .str]⟩, ⟨.B, [.terminal .ident]⟩]

/-- Of two declarations in one line, the last one is recorded. -/
theorem commits_all_or_nothing_last :
    ∃ T r reading k name, Table.build declarationList = .ok T ∧
      (Registry.withBuckets 2).session [.commit ⟨some .int, some "y"⟩] = some ([0], r) ∧
      ofTokens T (Token.ofLine "shell" "int x str y") r = some reading ∧
      reading.result = .ok (some ⟨1, "y", .str⟩) ∧
      r.Records reading.registry k name ⟨1, "y", .str⟩ ∧ (r.commit ⟨none, some "x"⟩).2 = r := by
  have reached : (Registry.withBuckets 2).session [.commit ⟨some .int, some "y"⟩] =
      some ([0], _) := rfl
  have computed : (Table.build declarationList).map (fun T =>
      ((Registry.withBuckets 2).session [.commit ⟨some .int, some "y"⟩]).bind fun start =>
        (ofTokens T (Token.ofLine "shell" "int x str y") start.2).map (·.result)) =
      .ok (some (.ok (some ⟨1, "y", .str⟩))) := by
    decide +kernel
  obtain ⟨T, built, run⟩ := Table.exists_of_map_eq_ok computed
  obtain ⟨⟨reading, read, _, accepted⟩, commits⟩ :=
    commits_all_or_nothing reached (by decide) built (Token.ofLine "shell" "int x str y")
  rw [reached, Option.bind_some, read] at run
  have result := Option.some.inj run
  obtain ⟨n, last, consumed, _, _, settles⟩ := accepted _ result
  obtain ⟨k, name, _, _, records⟩ := settles.recorded _ rfl
  refine ⟨T, _, reading, k, name, built, reached, read, result, records, ?_⟩
  have nothing := commits ⟨none, some "x"⟩
  exact nothing.unchanged (nothing.none_iff.mpr (.inl rfl))

end Reading

end DeclLine

import DeclLine.Proofs.Recognition
import DeclLine.Proofs.Refinement
import DeclLine.Proofs.Words

/-!
Whole lines under the grammar of declarations. The automaton reads a type keyword, the marker with
a name and the end marker; whatever token stands there instead is the fault. An accepted line
leaves one new entry in the registry, and a rejected one leaves the registry alone.
-/
namespace DeclLine

def Grammar.declarationFor : Nonterminal → Terminal → Option Production
  | .Z, t => if t.isTypeKeyword then some ⟨.Z, [.nonterminal .S, .terminal .endMark]⟩ else none
  | .S, t => if t.isTypeKeyword then some ⟨.S, [.nonterminal .A, .nonterminal .B]⟩ else none
  | .A, t => if t.isTypeKeyword then some ⟨.A, [.terminal t]⟩ else none
  | .B, t => if t = .ident then some ⟨.B, [.terminal .ident]⟩ else none

namespace Table

theorem build_declarations :
    (build Grammar.declarations).map (fun T => cells.map fun c => T.lookup c.1 c.2) =
      .ok (cells.map fun c => Grammar.declarationFor c.1 c.2) := by
  decide +kernel

theorem exists_declarations : ∃ T, build Grammar.declarations = .ok T ∧
    ∀ n t, T.lookup n t = Grammar.declarationFor n t := by
  have computed := build_declarations
  cases built : build Grammar.declarations with
  | error d =>
      rw [built] at computed
      cases computed
  | ok T =>
      rw [built] at computed
      have same := List.map_inj_left.mp (Except.ok.inj computed)
      exact ⟨T, rfl, fun n t => same (n, t) (mem_cells n t)⟩

end Table

namespace Token

/-- Why tokens are refused: the first of them that is not what a declaration has in its place. -/
inductive Refused : List Token → Diagnostic → Prop
  | type {type : Token} {rest : List Token}
      (other : ∀ k : Terminal, k.isTypeKeyword = true → type.kind ≠ .terminal k) :
      Refused (type :: rest) ⟨.unexpectedToken type.text "Z" type.describe, type.start⟩
  | marker {type marker : Token} {rest : List Token} {k : Terminal}
      (isType : k.isTypeKeyword = true) (typeKind : type.kind = .terminal k)
      (other : marker.kind ≠ .terminal .ident) :
      Refused (type :: marker :: rest)
        ⟨.unexpectedToken marker.text "B" marker.describe, marker.start⟩
  | name {type marker name : Token} {rest : List Token} {k : Terminal}
      (isType : k.isTypeKeyword = true) (typeKind : type.kind = .terminal k)
      (markerKind : marker.kind = .terminal .ident) (other : name.kind ≠ .lexeme) :
      Refused (type :: marker :: name :: rest)
        ⟨.missingIdentifier name.describe, name.start⟩
  | last {type marker name last : Token} {rest : List Token} {k : Terminal}
      (isType : k.isTypeKeyword = true) (typeKind : type.kind = .terminal k)
      (markerKind : marker.kind = .terminal .ident) (nameKind : name.kind = .lexeme)
      (other : last.kind ≠ .terminal .endMark) :
      Refused (type :: marker :: name :: last :: rest)
        ⟨.terminalMismatch "#" last.describe, last.start⟩

theorem exists_front (ts : List Token) (last : Token) :
    ∃ token rest, ts ++ [last] = token :: rest ∧
      (token.kind ≠ last.kind → ∃ ts', rest = ts' ++ [last]) := by
  cases ts with
  | nil => exact ⟨last, [], rfl, fun other => absurd rfl other⟩
  | cons token ts => exact ⟨token, ts ++ [last], rfl, fun _ => ⟨ts, rfl⟩⟩

/-- Tokens that an end marker closes do not run out before they declare a name or have a fault. -/
theorem declare_or_refused (ts : List Token) {last : Token}
    (lastKind : last.kind = .terminal .endMark) :
    (∃ k name, Declare (ts ++ [last]) k name) ∨ ∃ d, Refused (ts ++ [last]) d := by
  obtain ⟨type, rest, front, more⟩ := exists_front ts last
  rw [front]
  by_cases known : ∃ k : Terminal, k.isTypeKeyword = true ∧ type.kind = .terminal k
  case neg => exact .inr ⟨_, .type fun k isType typeKind => known ⟨k, isType, typeKind⟩⟩
  obtain ⟨k, isType, typeKind⟩ := known
  have notEnd : type.kind ≠ last.kind := by
    rw [typeKind, lastKind]
    rintro ⟨⟩
    cases isType
  obtain ⟨ts, rfl⟩ := more notEnd
  obtain ⟨marker, rest, front, more⟩ := exists_front ts last
  rw [front]
  by_cases markerKind : marker.kind = .terminal .ident
  case neg => exact .inr ⟨_, .marker isType typeKind markerKind⟩
  obtain ⟨ts, rfl⟩ := more (by simp [markerKind, lastKind])
  obtain ⟨name, rest, front, more⟩ := exists_front ts last
  rw [front]
  by_cases nameKind : name.kind = .lexeme
  case neg => exact .inr ⟨_, .name isType typeKind markerKind nameKind⟩
  obtain ⟨ts, rfl⟩ := more (by simp [nameKind, lastKind])
  obtain ⟨token, rest, front, _⟩ := exists_front ts last
  rw [front]
  by_cases tokenKind : token.kind = .terminal .endMark
  case neg => exact .inr ⟨_, .last isType typeKind markerKind nameKind tokenKind⟩
  exact .inl ⟨_, _, .intro isType typeKind markerKind nameKind tokenKind⟩

end Token

namespace Machine

variable {T : Table} (cells : ∀ n t, T.lookup n t = Grammar.declarationFor n t)

include cells

/-- The type keyword is read, the name is next. -/
theorem moves_type {type : Token} (rest : List Token) {k : Terminal}
    (isType : k.isTypeKeyword = true) (typeKind : type.kind = .terminal k) :
    Moves T (start (type :: rest))
      ⟨rest, finishOf (type :: rest),
        ⟨[.nonterminal .B, .terminal .endMark, .terminal .endMark], Limits.stackDepth⟩,
        ⟨some k, none⟩⟩ := by
  have line : T.lookup .Z k = some ⟨.Z, [.nonterminal .S, .terminal .endMark]⟩ := by
    rw [cells, Grammar.declarationFor, if_pos isType]
  have declaration : T.lookup .S k = some ⟨.S, [.nonterminal .A, .nonterminal .B]⟩ := by
    rw [cells, Grammar.declarationFor, if_pos isType]
  have keyword : T.lookup .A k = some ⟨.A, [.terminal k]⟩ := by
    rw [cells, Grammar.declarationFor, if_pos isType]
  refine .head (.expand rfl rfl typeKind line (Nat.le_of_ble_eq_true rfl)) ?_
  refine .head (.expand rfl rfl typeKind declaration (Nat.le_of_ble_eq_true rfl)) ?_
  refine .head (.expand rfl rfl typeKind keyword (Nat.le_of_ble_eq_true rfl)) ?_
  exact .head (.shift rfl rfl typeKind isType) .refl

theorem moves_marker {type marker : Token} (rest : List Token) {k : Terminal}
    (isType : k.isTypeKeyword = true) (typeKind : type.kind = .terminal k)
    (markerKind : marker.kind = .terminal .ident) :
    Moves T (start (type :: marker :: rest))
      ⟨marker :: rest, finishOf (type :: marker :: rest),
        ⟨[.terminal .ident, .terminal .endMark, .terminal .endMark], Limits.stackDepth⟩,
        ⟨some k, none⟩⟩ := by
  have cell : T.lookup .B .ident = some ⟨.B, [.terminal .ident]⟩ := cells .B .ident
  refine .tail (moves_type cells (marker :: rest) isType typeKind) ?_
  exact .expand rfl rfl markerKind cell (Nat.le_of_ble_eq_true rfl)

theorem moves_name {type marker name : Token} (rest : List Token) {k : Terminal}
    (isType : k.isTypeKeyword = true) (typeKind : type.kind = .terminal k)
    (markerKind : marker.kind = .terminal .ident) (nameKind : name.kind = .lexeme) :
    Moves T (start (type :: marker :: name :: rest))
      ⟨rest, finishOf (type :: marker :: name :: rest),
        ⟨[.terminal .endMark, .terminal .endMark], Limits.stackDepth⟩,
        ⟨some k, some name.text⟩⟩ :=
  .tail (moves_marker cells (name :: rest) isType typeKind markerKind)
    (.name rfl rfl markerKind nameKind)

theorem ends_of_declare {tokens : List Token} {k : Terminal} {name : String}
    (h : Token.Declare tokens k name) :
    ∃ n m, Ends T n (start tokens) (.accepted, m) ∧ m.pending = ⟨some k, some name⟩ := by
  cases h with
  | @intro _ _ _ _ rest _ isType typeKind markerKind nameKind lastKind =>
      obtain ⟨n, ends⟩ := Ends.of_moves
        (moves_name cells _ isType typeKind markerKind nameKind)
        (ends_of_accepting ⟨_, rest, _, rfl, lastKind, rfl⟩)
      exact ⟨n, _, ends, rfl⟩

theorem no_cell {kind : TokenKind} {n : Nonterminal}
    (h : ∀ t, kind = .terminal t → Grammar.declarationFor n t = none) :
    kind.terminal?.bind (T.lookup n) = none := by
  cases kind with
  | terminal t => exact (cells n t).trans (h t rfl)
  | lexeme | unknown => rfl

theorem ends_of_refused {tokens : List Token} {d : Diagnostic} (h : Token.Refused tokens d) :
    ∃ n m, Ends T n (start tokens) (.rejected d, m) := by
  cases h with
  | @type type rest other =>
      have cell : type.kind.terminal?.bind (T.lookup .Z) = none :=
        no_cell cells fun t kind => if_neg fun isType => other t isType kind
      exact ⟨0, _, ends_of_refusal (.unexpected rfl rfl cell)⟩
  | @marker type marker rest k isType typeKind other =>
      have cell : marker.kind.terminal?.bind (T.lookup .B) = none := by
        refine no_cell cells fun t kind => if_neg ?_
        rintro rfl
        exact other kind
      obtain ⟨n, ends⟩ := Ends.of_moves (moves_type cells (marker :: rest) isType typeKind)
        (ends_of_refusal (.unexpected rfl rfl cell))
      exact ⟨n, _, ends⟩
  | @name type marker name rest k isType typeKind markerKind other =>
      obtain ⟨n, ends⟩ := Ends.of_moves
        (moves_marker cells (name :: rest) isType typeKind markerKind)
        (ends_of_refusal (.missing rfl rfl markerKind other))
      exact ⟨n, _, ends⟩
  | @last type marker name last rest k isType typeKind markerKind nameKind other =>
      obtain ⟨n, ends⟩ := Ends.of_moves
        (moves_name cells (last :: rest) isType typeKind markerKind nameKind)
        (ends_of_refusal (.mismatch rfl rfl other))
      exact ⟨n, _, ends⟩

end Machine

namespace Registry

/-- What a name holds right after its declaration: zero, the empty text, false, an empty array of
integers with ten places, or an empty dictionary of texts with 101 buckets. -/
def initialValue : Terminal → Option Value
  | .int => some (.int 0)
  | .str => some (.string "")
  | .float => some (.float ⟨0⟩)
  | .bool => some (.bool false)
  | .array => some (.array ⟨.int, [], 10⟩)
  | .dict => some (.dict ⟨.string, .string, 0, List.replicate 101 []⟩)
  | .const | .ident | .endMark => none

theorem defaultFor?_eq_initialValue (k : Terminal) : Value.defaultFor? k = initialValue k := by
  cases k <;> rfl

/-- One more entry, at the head of the bucket of its name, and one more identifier. -/
structure Gains (r r' : Registry) (k : Terminal) (name : String) : Prop where
  bucket_lt : r.bucketOf (Text.bounded name 64) < r.bucketCount
  buckets_eq : r'.buckets = r.buckets.modify (r.bucketOf (Text.bounded name 64)) (
    { id := r.nextId
      name := Text.bounded name 64
      typeName := k.name
      value := initialValue k
      isConst := false
      isInitialized := true
      scope := 1 } :: ·)
  valueless_iff : initialValue k = none ↔ k = .const
  nextId_eq : r'.nextId.toNat = r.nextId.toNat + 1

variable {r : Registry} {l : Ledger} {k : Terminal} {name : String}

/-- What a declaration adds can be found under the identifier that it was given. -/
theorem commit_declaration (h : Reflects r l) (wf : l.WellFormed) (ne : name ≠ "") :
    r.commit ⟨some k, some name⟩ = (some ⟨r.nextId, Text.bounded name 64, k⟩,
      (r.insert (Declaration.item k name)).2) := by
  have found : (r.insert (Declaration.item k name)).2.lookupId r.nextId Scope.localLevel = _ :=
    h.lookupId_insert wf ne rfl
  rw [r.insert_eq ne] at found
  have inserted := r.insert_eq (x := Declaration.item k name) ne
  simp only [commit, inserted, found, Option.map_some]
  rfl

theorem gains_insert (h : Reflects r l) (few : l.count + 1 < 2 ^ 32)
    (isType : k.isTypeKeyword = true) (ne : name ≠ "") :
    r.Gains (r.insert (Declaration.item k name)).2 k name := by
  have adds := h.adds_insert (x := Declaration.item k name) ne few
  refine ⟨adds.bucket_lt, ?_, ?_, adds.nextId_eq⟩
  · have type : Text.bounded k.name 32 = k.name := by cases k <;> decide
    rw [adds.buckets_eq]
    simp only [Item.toEntry, Declaration.item, Limits.typeBytes, type,
      defaultFor?_eq_initialValue]
    rfl
  · cases k with
    | ident | endMark => cases isType
    | _ => simp [initialValue]

end Registry

namespace Reading

theorem ofLine_of_short (T : Table) {source line : String}
    (short : (Token.ofLine source line).length ≤ Limits.tokens) (r : Registry) :
    ofLine T source line r = ofTokens T (Token.ofLine source line) r := by
  simp only [ofLine, Token.tokenize, List.getElem?_eq_none short]

variable {T : Table} {r : Registry}

theorem ofTokens_of_declare (cells : ∀ n t, T.lookup n t = Grammar.declarationFor n t)
    {l : Ledger} (reflects : Reflects r l) (wf : l.WellFormed) (few : l.count + 1 < 2 ^ 32)
    {tokens : List Token} {k : Terminal} {name : String} (h : Token.Declare tokens k name)
    (ne : name ≠ "") :
    ∃ reading, ofTokens T tokens r = some reading ∧
      reading.result = .ok (some ⟨r.nextId, Text.bounded name 64, k⟩) ∧
      r.Gains reading.registry k name := by
  obtain ⟨n, m, ends, pending⟩ := Machine.ends_of_declare cells h
  have isType : k.isTypeKeyword = true := by
    cases h
    assumption
  have committed := Registry.commit_declaration (k := k) reflects wf ne
  have read : ofTokens T tokens r = some (ofOutcome r (.ok m.pending)) :=
    ofTokens_of_ends r ends
  rw [pending, ofOutcome, committed] at read
  exact ⟨_, read, rfl, Registry.gains_insert reflects few isType ne⟩

theorem ofTokens_of_refused (cells : ∀ n t, T.lookup n t = Grammar.declarationFor n t)
    {tokens : List Token} {d : Diagnostic} (h : Token.Refused tokens d) (r : Registry) :
    ofTokens T tokens r = some ⟨.error d, r⟩ := by
  obtain ⟨n, m, ends⟩ := Machine.ends_of_refused cells h
  exact ofTokens_of_ends r ends

/-- A line is accepted exactly when its words declare a name, and then adds that name and nothing
else. Any other line changes nothing and is refused for its first token out of place. -/
theorem ofLine_declarations {source line : String} {count : Nat} {script : List Request}
    (reached : (Registry.withBuckets count).after script = r)
    (few : script.countP Request.declares < 2 ^ 32 - 1)
    (short : (Token.ofLine source line).length ≤ Limits.tokens) :
    ∃ T, Table.build Grammar.declarations = .ok T ∧
      ∃ reading, ofLine T source line r = some reading ∧
        ((∃ declared, reading.result = .ok declared) ↔
          ∃ k name, Lexicon.Declares (Text.pieces line) k name) ∧
        (∀ k name, Lexicon.Declares (Text.pieces line) k name →
          reading.result = .ok (some ⟨r.nextId, Text.bounded name 64, k⟩) ∧
            r.Gains reading.registry k name) ∧
        ((¬ ∃ k name, Lexicon.Declares (Text.pieces line) k name) →
          reading.registry = r ∧
            ∃ d, reading.result = .error d ∧ Token.Refused (Token.ofLine source line) d) := by
  obtain ⟨T, built, cells⟩ := Table.exists_declarations
  refine ⟨T, built, ?_⟩
  obtain ⟨l, reflects, wf, total⟩ := (Reflects.start count).after Ledger.wellFormed_empty script
    (by simp only [Ledger.empty]; omega)
  rw [reached] at reflects
  have room : l.count + 1 < 2 ^ 32 := by
    simp only [Ledger.empty] at total
    omega
  rw [ofLine_of_short T short]
  have accepted (k : Terminal) (name : String) (h : Lexicon.Declares (Text.pieces line) k name) :=
    ofTokens_of_declare cells reflects wf room
      ((Token.declare_ofLine_iff source line k name).mpr h) h.ne_empty
  have lastKind : (Token.endOf source line).kind = .terminal .endMark := rfl
  rcases Token.declare_or_refused (Token.ofWords source false (Text.words line)) lastKind with
    ⟨k, name, h⟩ | ⟨d, h⟩
  · have words := (Token.declare_ofLine_iff source line k name).mp h
    obtain ⟨reading, read, ok, _⟩ := accepted k name words
    refine ⟨reading, read, ⟨fun _ => ⟨k, name, words⟩, fun _ => ⟨_, ok⟩⟩, ?_,
      fun none => absurd ⟨k, name, words⟩ none⟩
    intro k' name' words'
    obtain ⟨reading', read', ok', gains⟩ := accepted k' name' words'
    obtain rfl := Option.some.inj (read.symm.trans read')
    exact ⟨ok', gains⟩
  · have read := ofTokens_of_refused cells h r
    have none : ¬ ∃ k name, Lexicon.Declares (Text.pieces line) k name := by
      rintro ⟨k, name, words⟩
      obtain ⟨reading, read', ok, _⟩ := accepted k name words
      obtain rfl := Option.some.inj (read.symm.trans read')
      cases ok
    refine ⟨_, read, ⟨?_, fun some => absurd some none⟩,
      fun k name words => absurd ⟨k, name, words⟩ none, fun _ => ⟨rfl, d, rfl, h⟩⟩
    rintro ⟨_, ok⟩
    cases ok

/-- A name that is known already, declared again behind a marker and before an end marker. -/
theorem ofLine_declarations_marked :
    ∃ (r : Registry) (T : Table) (reading : Reading),
      (Registry.withBuckets 0).after [.insert ⟨"x", "str", none, 1, false, true⟩, .resize 3] = r ∧
      (Token.ofLine "shell" "Int iD x # 7").length ≤ Limits.tokens ∧
      Table.build Grammar.declarations = .ok T ∧
      ofLine T "shell" "Int iD x # 7" r = some reading ∧
      reading.result = .ok (some ⟨1, "x", .int⟩) ∧ r.Gains reading.registry .int "x" ∧
      reading.registry.buckets =
        [[⟨1, "x", "int", some (.int 0), false, true, 1⟩, ⟨0, "x", "str", none, false, true, 1⟩],
          [], []] := by
  have reached : (Registry.withBuckets 0).after
      [.insert ⟨"x", "str", none, 1, false, true⟩, .resize 3] = _ := rfl
  have short : (Token.ofLine "shell" "Int iD x # 7").length ≤ Limits.tokens := by decide +kernel
  have words : Text.pieces "Int iD x # 7" = ["Int", "iD", "x", "#", "7"] := by decide +kernel
  have declares : Lexicon.Declares (Text.pieces "Int iD x # 7") .int "x" := by
    rw [words]
    exact .marked rfl (by decide) (by decide) (by decide) (by decide)
  obtain ⟨T, built, reading, read, _, gained, _⟩ :=
    ofLine_declarations reached (by decide) short
  obtain ⟨ok, gains⟩ := gained .int "x" declares
  exact ⟨_, T, reading, reached, short, built, read, ok, gains, gains.buckets_eq.trans rfl⟩

end Reading

end DeclLine

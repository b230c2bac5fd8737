import DeclLine.Machine.Run
import DeclLine.Registry.Basic

/-!
Whole lines, and the declaration that an accepted line leaves in the registry. A rejected line
leaves nothing.
-/
namespace DeclLine

/-- A declaration as the registry recorded it. -/
structure Declaration where
  id : UInt32
  name : String
  keyword : Terminal
  deriving DecidableEq, Repr

/-- The entry that a declaration asks for: local, initialized with the default of its type. -/
def Declaration.item (keyword : Terminal) (name : String) : Item where
  name := name
  typeName := keyword.name
  value := Value.defaultFor? keyword
  scope := Scope.localLevel
  isConst := false
  isInitialized := true

/-- Records what a line declared. Without a type or without a name there is nothing to record. -/
def Registry.commit (r : Registry) (p : Pending) : Option Declaration × Registry :=
  match p.keyword, p.name with
  | some keyword, some name =>
      match r.insert (Declaration.item keyword name) with
      | (none, r) => (none, r)
      | (some id, r) =>
          ((r.lookupId id Scope.localLevel).map fun e => ⟨id, e.name, keyword⟩, r)
  | _, _ => (none, r)

/-- The outcome of a line and the registry after it. -/
structure Reading where
  result : Except Diagnostic (Option Declaration)
  registry : Registry

namespace Reading

/-- A rejected line leaves the registry as it was. -/
def ofOutcome (r : Registry) : Except Diagnostic Pending → Reading
  | .error d => ⟨.error d, r⟩
  | .ok p => ⟨.ok (r.commit p).1, (r.commit p).2⟩

/-- `none` for tokens on which the automaton never ends. -/
def ofTokens (T : Table) (tokens : List Token) (r : Registry) : Option Reading :=
  ((Machine.start tokens).run T).map (ofOutcome r)

def ofLine (T : Table) (source line : String) (r : Registry) : Option Reading :=
  match Token.tokenize source line with
  | .error d => some ⟨.error d, r⟩
  | .ok tokens => ofTokens T tokens r

end Reading

end DeclLine

import DeclLine.Declaration

/-!
What the library reports while it works. The events of an operation are computed from its
arguments, beside the operation itself.
-/
namespace DeclLine

inductive Level where
  | debug
  | info
  | warn
  deriving DecidableEq, Repr

def Level.name : Level → String
  | .debug => "DEBUG"
  | .info => "INFO"
  | .warn => "WARN"

inductive Event where
  | firstSettled (rounds : Nat)
  | followSettled (rounds : Nat)
  | tableBuilt (size : Nat)
  | token (t : Token)
  | step (stack : Stack) (lookahead : Token)
  | expansion (p : Production)
  | declared (d : Declaration)
  | nothingDeclared
  | emptyName
  | inserting (x : Item) (id : UInt32)
  | notFound (id : UInt32) (scope : Scope)
  | constant (name : String)
  | updated (id : UInt32)
  | analysing (line : String)

namespace Event

def level : Event → Level
  | .tableBuilt _ | .declared _ | .nothingDeclared => .info
  | .emptyName | .notFound .. | .constant _ => .warn
  | _ => .debug

/-- The part of the program that an event is attributed to. -/
def target : Event → String
  | .firstSettled _ | .followSettled _ => "decl_parser::grammar::sets"
  | .tableBuilt _ => "decl_parser::grammar::table"
  | .token _ => "decl_parser::lexer::tokens"
  | .step .. | .expansion _ | .declared _ | .nothingDeclared => "decl_parser::parser::parser"
  | .emptyName | .inserting .. | .notFound .. | .constant _ | .updated _ =>
      "decl_parser::symbols::table"
  | .analysing _ => "decl_parser"

def text : Event → String
  | .firstSettled n => "FIRST sets stable after " ++ toString n ++ " rounds"
  | .followSettled n => "FOLLOW sets stable after " ++ toString n ++ " rounds"
  | .tableBuilt n => "parse table built with " ++ toString n ++ " entries"
  | .token t =>
      match t.kind with
      | .terminal k => k.name ++ " ()"
      | .lexeme | .unknown => t.kind.name ++ " (" ++ t.text ++ ")"
  | .step stack lookahead => "stack " ++ stack.render ++ " | lookahead " ++ lookahead.describe
  | .expansion p => p.head.name ++ " -> " ++ p.render
  | .declared d =>
      "accepted declaration of `" ++ d.name ++ "` as " ++ d.keyword.name ++ " (id "
        ++ toString d.id.toNat ++ ")"
  | .nothingDeclared => "accepted line without a complete declaration"
  | .emptyName => "ignoring symbol insertion with an empty name"
  | .inserting x id =>
      "inserting `" ++ storedName x.name ++ "` (" ++ x.typeName ++ ") as id "
        ++ toString id.toNat ++ " in scope " ++ toString x.scope.toNat
  | .notFound id scope =>
      "symbol " ++ toString id.toNat ++ " not found in scope " ++ toString scope.toNat
  | .constant name => "refusing to update const symbol `" ++ name ++ "`"
  | .updated id => "updated value of symbol " ++ toString id.toNat
  | .analysing line => "analysing " ++ Text.quoted line

end Event

namespace Journal

def ofSets (g : Grammar) : List Event :=
  [.firstSettled (Sets.firstRounds g), .followSettled (Sets.followRounds g)]

/-- Building the table of `g` over the sets of `basis`. -/
def ofTable (g basis : Grammar) : List Event :=
  ofSets basis ++
    match Table.buildWith g (Sets.ofGrammar basis) with
    | .ok T => [.tableBuilt T.size]
    | .error _ => []

/-- Tokens are reported as they are taken, so up to the limit. -/
def ofTokens (source line : String) : List Event :=
  ((Token.ofLine source line).take Limits.tokens).map .token

def ofStep (T : Table) (m : Machine) : List Event :=
  match m.stack.items, m.rest with
  | top :: _, token :: _ =>
      .step m.stack token ::
        match top with
        | .nonterminal n =>
            ((token.kind.terminal?.bind (T.lookup n)).map Event.expansion).toList
        | .terminal _ | .epsilon => []
  | _, _ => []

/-- The events of up to `2 ^ k` steps, and how they end. -/
def ofRun (T : Table) : Nat → Machine → List Event × Verdict × Machine
  | 0, m => (ofStep T m, m.step T)
  | k + 1, m =>
      match ofRun T k m with
      | (events, .ongoing, m) => (ofRun T k m).map (events ++ ·) id
      | ended => ended

def ofInsert (r : Registry) (x : Item) : List Event :=
  if x.name.isEmpty then [.emptyName] else [.inserting x r.nextId]

def ofUpdate (r : Registry) (id : UInt32) (scope : Scope) : List Event :=
  match r.lookupId id scope with
  | none => [.notFound id scope]
  | some e => if e.isConst then [.constant e.name] else [.updated id]

def ofCommit (r : Registry) (p : Pending) : List Event :=
  match p.keyword, p.name with
  | some keyword, some name => ofInsert r (Declaration.item keyword name)
  | _, _ => []

/-- Recording what an accepted line declared. -/
def ofAccepted (r : Registry) (p : Pending) : List Event :=
  ofCommit r p ++
    match (r.commit p).1 with
    | some d => [.declared d]
    | none => [.nothingDeclared]

def ofParse (T : Table) (tokens : List Token) (r : Registry) : List Event :=
  let m := Machine.start tokens
  match ofRun T m.horizon m with
  | (events, .accepted, m) => events ++ ofAccepted r m.pending
  | (events, _) => events

def ofLine (T : Table) (source line : String) (r : Registry) : List Event :=
  ofTokens source line ++
    match Token.tokenize source line with
    | .ok tokens => ofParse T tokens r
    | .error _ => []

end Journal

end DeclLine

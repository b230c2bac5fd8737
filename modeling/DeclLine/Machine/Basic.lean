import DeclLine.Grammar.Table
import DeclLine.Machine.Stack
import DeclLine.Token

/-!
The predictive automaton. A step looks at the top of the stack and at the next token: it matches
a terminal, expands a nonterminal by the parse table, accepts, or rejects. A rejecting step may
have changed the machine already; what it leaves behind is part of its outcome. How an expansion
puts a body on the stack is a parameter, since the limit of the stack matters nowhere else.
-/
namespace DeclLine

/-- What a line has declared so far. -/
structure Pending where
  keyword : Option Terminal
  name : Option String
  deriving DecidableEq, Repr

def Pending.none : Pending := ⟨.none, .none⟩

structure Machine where
  /-- The tokens from the lookahead on. -/
  rest : List Token
  /-- The place behind the last token. -/
  finish : Position
  stack : Stack
  pending : Pending
  deriving DecidableEq, Repr

inductive Verdict where
  | ongoing
  | accepted
  | rejected (d : Diagnostic)
  deriving DecidableEq, Repr

namespace Machine

def finishOf (tokens : List Token) : Position :=
  match tokens.getLast? with
  | some t => t.stop
  | none => .null

/-- The start symbol on top of the end marker, and all tokens ahead. -/
def start (tokens : List Token) : Machine where
  rest := tokens
  finish := finishOf tokens
  stack := ⟨[.nonterminal .Z, .terminal .endMark], Limits.stackDepth⟩
  pending := .none

/-- The start of the lookahead, or the place behind the last token. -/
def position (m : Machine) : Position :=
  match m.rest with
  | t :: _ => t.start
  | [] => m.finish

def lookahead? (m : Machine) : Option Token :=
  m.rest.head?

def advance (m : Machine) : Machine :=
  { m with rest := m.rest.tail }

def reject (m : Machine) (fault : Fault) (position : Position) : Verdict × Machine :=
  (.rejected ⟨fault, position⟩, m)

/-- Takes the text of an identifier behind its marker. -/
def takeName (m : Machine) : Verdict × Machine :=
  match m.rest with
  | [] => m.reject .inputExhausted m.position
  | token :: _ =>
      if token.kind = .lexeme then
        (.ongoing, { m.advance with pending := { m.pending with name := some token.text } })
      else m.reject (.missingIdentifier token.describe) token.start

/-- Matches a terminal of the stack with the lookahead, and notes the type or the name. -/
def matchTerminal (m : Machine) (expected : Terminal) (token : Token) : Verdict × Machine :=
  if token.kind = .terminal expected then
    let m := { m.advance with stack := m.stack.pop }
    if expected = .ident then m.takeName
    else if expected.isTypeKeyword then
      (.ongoing, { m with pending := { m.pending with keyword := some expected } })
    else (.ongoing, m)
  else m.reject (.terminalMismatch expected.name token.describe) token.start

/-- Replaces a nonterminal of the stack by the body that the table gives, put there by `grow`. -/
def expandBy (grow : Stack → List Symbol → Option Fault × Stack) (T : Table) (m : Machine)
    (n : Nonterminal) (token : Token) : Verdict × Machine :=
  match token.kind.terminal?.bind (T.lookup n) with
  | none => m.reject (.unexpectedToken token.text n.name token.describe) token.start
  | some p =>
      match grow m.stack.pop p.body with
      | (none, stack) => (.ongoing, { m with stack })
      | (some fault, stack) => { m with stack }.reject fault token.start

/-- One step, with `expand` for the nonterminals. -/
def stepBy (expand : Machine → Nonterminal → Token → Verdict × Machine) (m : Machine) :
    Verdict × Machine :=
  match m.stack.items, m.rest with
  | [], _ | _, [] => m.reject .inputExhausted m.position
  | .terminal t :: _, token :: _ =>
      if t = .endMark ∧ token.kind = .terminal .endMark then (.accepted, m)
      else m.matchTerminal t token
  | .nonterminal n :: _, token :: _ => expand m n token
  | .epsilon :: _, _ :: _ => (.ongoing, { m with stack := m.stack.pop })

def expand (T : Table) : Machine → Nonterminal → Token → Verdict × Machine :=
  expandBy Stack.pushBody T

def step (T : Table) (m : Machine) : Verdict × Machine :=
  m.stepBy (expand T)

end Machine

end DeclLine

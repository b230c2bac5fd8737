import DeclLine.Position
import DeclLine.Text.Quoted

/-!
Why a line or a grammar is refused, and the wording of each cause.
-/
namespace DeclLine

inductive Fault where
  /-- Two productions claim one cell of a parse table. -/
  | duplicateEntry (nonterminal terminal : String)
  /-- The terminal on top of the stack is not the one that stands in the input. -/
  | terminalMismatch (expected received : String)
  /-- The nonterminal on top of the stack has no production for the lookahead. -/
  | unexpectedToken (token nonterminal lookahead : String)
  /-- The `ID` marker is not followed by the text of an identifier. -/
  | missingIdentifier (token : String)
  /-- The input ends before its end marker was matched. -/
  | inputExhausted
  | stackOverflow (capacity : Nat)
  | tokenOverflow (capacity : Nat)
  deriving DecidableEq, Repr

namespace Fault

def name : Fault → String
  | .duplicateEntry .. => "DuplicateTableEntry"
  | .terminalMismatch .. => "TerminalMismatch"
  | .unexpectedToken .. => "UnexpectedToken"
  | .missingIdentifier _ => "MissingIdentifier"
  | .inputExhausted => "InputExhausted"
  | .stackOverflow _ => "StackOverflow"
  | .tokenOverflow _ => "TokenOverflow"

def message : Fault → String
  | .duplicateEntry n t => "duplicate parse table entry for (" ++ n ++ ", " ++ t ++ ")"
  | .terminalMismatch expected received =>
      "terminal mismatch: expected " ++ Text.quoted expected ++ ", received "
        ++ Text.quoted received
  | .unexpectedToken token n lookahead =>
      "unexpected token " ++ Text.quoted token ++ ": no entry for (" ++ n ++ ", " ++ lookahead
        ++ ")"
  | .missingIdentifier token =>
      "expected an identifier after ID, received " ++ Text.quoted token
  | .inputExhausted => "input exhausted before the derivation completed"
  | .stackOverflow capacity =>
      "parser stack exceeded its capacity of " ++ toString capacity
  | .tokenOverflow capacity => "input exceeded the token limit of " ++ toString capacity

/-- A hint for the writer of the line. Input that just ends calls for none. -/
def tip : Fault → Option String
  | .duplicateEntry n t =>
      some ("Cell (" ++ n ++ ", " ++ t
        ++ ") is claimed by two productions, the grammar is not LL(1)")
  | .terminalMismatch expected received =>
      some ("Expected `" ++ expected ++ "`, received `" ++ received ++ "`")
  | .unexpectedToken token n lookahead =>
      some ("Unexpected token: `" ++ token ++ "`, no production of `" ++ n ++ "` starts with `"
        ++ lookahead ++ "`")
  | .missingIdentifier token =>
      some ("Expected an identifier after `ID`, received `" ++ token ++ "`")
  | .inputExhausted => none
  | .stackOverflow capacity =>
      some ("The parser stack is limited to " ++ toString capacity ++ " symbols")
  | .tokenOverflow capacity =>
      some ("A declaration may not produce more than " ++ toString capacity ++ " tokens")

end Fault

end DeclLine

import DeclLine.Grammar.Symbol
import DeclLine.Text.Layout

/-!
Productions, and grammars as a start symbol with an ordered list of them.
-/
namespace DeclLine

/-- The symbols of a body without the marks for the empty string. -/
def spelled (body : List Symbol) : List Symbol :=
  body.filter (· ≠ .epsilon)

structure Production where
  head : Nonterminal
  body : List Symbol
  deriving DecidableEq, Repr

namespace Production

/-- A body that spells the empty string. An empty body does so too. -/
def isEpsilon (p : Production) : Bool :=
  p.body.all (· = .epsilon)

def render (p : Production) : String :=
  Text.joined " " (p.body.map Symbol.name)

end Production

structure Grammar where
  start : Nonterminal
  productions : List Production
  deriving DecidableEq, Repr

namespace Grammar

/-- A line is a declaration and the end marker, a declaration is a type and a name. -/
def declarations : Grammar where
  start := .Z
  productions :=
    [⟨.Z, [.nonterminal .S, .terminal .endMark]⟩, ⟨.S, [.nonterminal .A, .nonterminal .B]⟩]
      ++ Terminal.typeKeywords.map (fun t => ⟨.A, [.terminal t]⟩)
      ++ [⟨.B, [.terminal .ident]⟩]

def productionsFor (g : Grammar) (head : Nonterminal) : List Production :=
  g.productions.filter (·.head = head)

end Grammar

end DeclLine

/-!
The closed alphabet of declaration grammars: nine terminals, four nonterminals and the mark for
the empty string.
-/
namespace DeclLine

inductive Terminal where
  | int
  | str
  | const
  | float
  | bool
  | array
  | dict
  | ident
  | endMark
  deriving DecidableEq, Repr

namespace Terminal

/-- Every terminal, in the column order of parse tables. -/
def all : List Terminal :=
  [.int, .str, .const, .float, .bool, .array, .dict, .ident, .endMark]

/-- Place of the terminal in `all`. -/
def column : Terminal → Nat
  | .int => 0
  | .str => 1
  | .const => 2
  | .float => 3
  | .bool => 4
  | .array => 5
  | .dict => 6
  | .ident => 7
  | .endMark => 8

def name : Terminal → String
  | .int => "int"
  | .str => "str"
  | .const => "const"
  | .float => "float"
  | .bool => "bool"
  | .array => "array"
  | .dict => "dict"
  | .ident => "ID"
  | .endMark => "#"

/-- All but the two markers. -/
def isTypeKeyword : Terminal → Bool
  | .ident | .endMark => false
  | _ => true

def typeKeywords : List Terminal :=
  all.filter isTypeKeyword

theorem mem_all (t : Terminal) : t ∈ all := by
  cases t <;> decide

theorem column_lt (t : Terminal) : t.column < 9 := by
  cases t <;> decide

theorem column_inj {t u : Terminal} : t.column = u.column ↔ t = u := by
  cases t <;> cases u <;> decide

end Terminal

/-- `Z` is the line with its end marker, `S` the declaration, `A` its type and `B` its name. -/
inductive Nonterminal where
  | Z
  | S
  | A
  | B
  deriving DecidableEq, Repr

namespace Nonterminal

/-- Every nonterminal, in the row order of parse tables. -/
def all : List Nonterminal :=
  [.Z, .S, .A, .B]

def name : Nonterminal → String
  | .Z => "Z"
  | .S => "S"
  | .A => "A"
  | .B => "B"

theorem mem_all (n : Nonterminal) : n ∈ all := by
  cases n <;> decide

end Nonterminal

inductive Symbol where
  | terminal (t : Terminal)
  | nonterminal (n : Nonterminal)
  /-- The empty string, written out. -/
  | epsilon
  deriving DecidableEq, Repr

def Symbol.name : Symbol → String
  | .terminal t => t.name
  | .nonterminal n => n.name
  | .epsilon => "ε"

end DeclLine

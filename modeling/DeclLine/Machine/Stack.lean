import DeclLine.Fault
import DeclLine.Grammar.Basic
import DeclLine.Limits

/-!
The parser stack: grammar symbols up to a fixed number, the top at the head of the list.
-/
namespace DeclLine

structure Stack where
  items : List Symbol
  capacity : Nat
  deriving DecidableEq, Repr

namespace Stack

def empty (capacity : Nat) : Stack := ⟨[], capacity⟩

def size (s : Stack) : Nat :=
  s.items.length

/-- Number of symbols that still fit. -/
def room (s : Stack) : Nat :=
  s.capacity - s.size

def overflow (s : Stack) : Fault :=
  .stackOverflow s.capacity

def push (s : Stack) (x : Symbol) : Except Fault Stack :=
  if s.size < s.capacity then .ok { s with items := x :: s.items } else .error s.overflow

def pop (s : Stack) : Stack :=
  { s with items := s.items.tail }

def top? (s : Stack) : Option Symbol :=
  s.items.head?

/-- Puts a body on top, its first symbol uppermost, without the marks for the empty string.
Symbols go on from the last to the first; those that find no room are left out, and a fault
says so. -/
def pushBody (s : Stack) (body : List Symbol) : Option Fault × Stack :=
  let symbols := spelled body
  (if symbols.length ≤ s.room then none else some s.overflow,
   { s with items := symbols.drop (symbols.length - s.room) ++ s.items })

/-- The symbols from bottom to top. -/
def toList (s : Stack) : List Symbol :=
  s.items.reverse

def render (s : Stack) : String :=
  "[" ++ Text.joined " " (s.toList.map Symbol.name) ++ "]"

end Stack

end DeclLine

import DeclLine.Value.Basic

/-!
Arrays that double their capacity whenever a push finds them full.
-/
namespace DeclLine.Growable

variable {α : Type}

/-- The capacity that a full array grows to. -/
def grown (a : Growable α) : Nat :=
  max a.capacity 1 * 2

/-- Appends a value of the element type. -/
def push (a : Growable Value) (v : Value) : Except TypeError (Growable Value) :=
  if v.type = a.element then
    .ok { a with
      items := a.items ++ [v]
      capacity := if a.items.length < a.capacity then a.capacity else a.grown }
  else .error (.element a.element v.type)

def get? (a : Growable α) (i : Nat) : Option α :=
  a.items[i]?

def size (a : Growable α) : Nat :=
  a.items.length

end DeclLine.Growable

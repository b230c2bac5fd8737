/-!
Places in an analysed line.
-/
namespace DeclLine

/-- A byte offset, and the name of the source that the line came from. -/
structure Position where
  offset : UInt32
  source : String
  deriving DecidableEq, Repr

namespace Position

/-- Name of a source that the caller left unnamed. -/
def defaultSource : String := "shell"

/-- The place of a fault without any token. -/
def null : Position := ⟨0, "<null>"⟩

/-- The place of a fault in a grammar. -/
def grammar : Position := ⟨0, "<grammar>"⟩

/-- Offsets are kept in 32 bits. -/
def ofOffset (source : String) (offset : Nat) : Position :=
  ⟨offset.toUInt32, source⟩

end Position

end DeclLine

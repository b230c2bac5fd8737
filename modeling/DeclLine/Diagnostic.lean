import DeclLine.Fault
import DeclLine.Text.Blank
import DeclLine.Text.Bounded
import DeclLine.Text.Layout

/-!
Located faults, and their display under the line that they belong to.
-/
namespace DeclLine

structure Diagnostic where
  fault : Fault
  position : Position
  deriving DecidableEq, Repr

namespace Diagnostic

def message (d : Diagnostic) : String :=
  d.fault.message ++ " (" ++ d.position.source ++ ":" ++ toString d.position.offset.toNat ++ ")"

def headline (d : Diagnostic) : String :=
  match d.fault.tip with
  | none => "Error: " ++ d.fault.name
  | some tip => "Error: " ++ d.fault.name ++ " (" ++ tip ++ ")"

/-- Bytes of the spaces and tabs in front of a line. -/
def indentOf (line : String) : Nat :=
  Text.byteLength (line.toList.takeWhile Text.isIndent)

/-- The line without its indent and without the blanks at its end. -/
def echo (line : String) : String :=
  String.ofList (Text.trimEnd (line.toList.dropWhile Text.isIndent))

/-- Bytes from the start of the echoed line to the fault. -/
def caretColumn (d : Diagnostic) (line : String) : Nat :=
  min d.position.offset.toNat (Text.byteLength line.toList) - indentOf line

/-- The headline, the source, the echoed line, and a caret under the place of the fault. -/
def render (d : Diagnostic) (line : String) : String :=
  Text.unlines
    [d.headline,
     "-> " ++ d.position.source,
     "  |",
     "1 | " ++ echo line,
     "  | " ++ Text.repeated (d.caretColumn line) '-' ++ "^"]

end Diagnostic

end DeclLine

import DeclLine.Text.Blank
import DeclLine.Text.Bounded

/-!
The words of a line: its maximal runs of characters that are not blank, each with the byte
offset at which it stands.
-/
namespace DeclLine.Text

structure Word where
  text : String
  start : Nat
  deriving DecidableEq, Repr

/-- Offset of the byte behind the word. -/
def Word.stop (w : Word) : Nat :=
  w.start + byteLength w.text.toList

/-- Puts the word spelled by `run` in front of `later`, unless the run is empty. -/
def closeWord (offset : Nat) (run : List Char) (later : List Word) : List Word :=
  match run with
  | [] => later
  | _ :: _ => ⟨String.ofList run, offset⟩ :: later

/-- The run that stands at the very front, still open to the left, and the words after it. -/
def scanWords (offset : Nat) : List Char → List Char × List Word
  | [] => ([], [])
  | c :: cs =>
      let tail := scanWords (offset + c.utf8Size) cs
      if isBlank c then ([], closeWord (offset + c.utf8Size) tail.1 tail.2)
      else (c :: tail.1, tail.2)

def words (line : String) : List Word :=
  let front := scanWords 0 line.toList
  closeWord 0 front.1 front.2

end DeclLine.Text

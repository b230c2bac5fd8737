import DeclLine.Grammar.Table

/-!
Display of sets and parse tables.
-/
namespace DeclLine

def TerminalSet.render (s : TerminalSet) (name : String) : String :=
  name ++ ": \x7b " ++ Text.joined ", " (s.toList.map Terminal.name) ++ " \x7d"

namespace Sets

def renderFirst (s : Sets) : String :=
  Text.unlines ("FIRST sets:" :: Nonterminal.all.map fun n => (s.firstOf n).render n.name)

def renderFollow (s : Sets) : String :=
  Text.unlines ("FOLLOW sets:" :: Nonterminal.all.map fun n => (s.followOf n).render n.name)

end Sets

namespace Table

def cellWidth : Nat := 12

/-- Cells side by side, each filled up to the cell width. A longer cell moves those after it. -/
def renderCells (cells : List String) : String :=
  Text.concat (cells.map (Text.padRight cellWidth))

/-- An empty cell reads `error`. -/
def renderCell (T : Table) (n : Nonterminal) (t : Terminal) : String :=
  match T.lookup n t with
  | some p => p.render
  | none => "error"

/-- A grid with a row for each nonterminal and a column for each terminal. -/
def render (T : Table) : String :=
  Text.unlines
    (["Parse table:", "",
      renderCells ("" :: Terminal.all.map Terminal.name),
      Text.repeated ((Terminal.all.length + 1) * cellWidth) '-']
      ++ Nonterminal.all.map fun n =>
        renderCells (n.name :: Terminal.all.map (T.renderCell n)))

end Table

end DeclLine

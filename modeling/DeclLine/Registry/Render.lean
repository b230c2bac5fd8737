import DeclLine.Registry.Basic
import DeclLine.Value.Render

/-!
The listing of a registry: a bordered grid, one row for each entry in order of iteration, with
every column as wide as its widest cell.
-/
namespace DeclLine.Registry

def headers : List String :=
  ["ID", "Name", "Type", "Scope", "Value"]

def valueCell (e : Entry) : String :=
  if e.isInitialized then
    match e.value with
    | some v => v.render
    | none => "N/A"
  else "(uninitialized)"

def cells (e : Entry) : List String :=
  [toString e.id.toNat, e.name, e.typeName, toString e.scope.toNat, valueCell e]

/-- Widths of the columns of a grid, whose rows are as long as the first. -/
def widths (header : List String) (rows : List (List String)) : List Nat :=
  rows.foldl (fun ws row => List.zipWith max ws (row.map String.length))
    (header.map String.length)

def border (widths : List Nat) : String :=
  "+" ++ Text.concat (widths.map fun w => Text.repeated (w + 2) '-' ++ "+")

def renderRow (widths : List Nat) (row : List String) : String :=
  "|" ++ Text.concat (List.zipWith (fun w c => " " ++ Text.padRight w c ++ " |") widths row)

/-- A grid ends with a border, which a grid without rows shares with its header. -/
def renderGrid (header : List String) (rows : List (List String)) : String :=
  let ws := widths header rows
  let edge := border ws
  Text.unlines
    ([edge, renderRow ws header, edge] ++ rows.map (renderRow ws)
      ++ (if rows.isEmpty then [] else [edge]))

def render (r : Registry) : String :=
  renderGrid headers (r.entries.map cells)

end DeclLine.Registry

/-!
Plain-text layout. Widths count characters, not bytes.
-/
namespace DeclLine.Text

def repeated (n : Nat) (c : Char) : String :=
  String.ofList (List.replicate n c)

/-- Fills the text with spaces on its right up to `width` characters. -/
def padRight (width : Nat) (text : String) : String :=
  text ++ repeated (width - text.length) ' '

/-- The texts with `sep` between them. -/
def joined (sep : String) : List String → String
  | [] => ""
  | [t] => t
  | t :: u :: ts => t ++ sep ++ joined sep (u :: ts)

def concat : List String → String
  | [] => ""
  | t :: ts => t ++ concat ts

/-- Every line followed by a line break. -/
def unlines (lines : List String) : String :=
  concat (lines.map (· ++ "\n"))

end DeclLine.Text

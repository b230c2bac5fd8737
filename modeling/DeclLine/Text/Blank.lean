import DeclLine.Text.CodeRange

/-!
White space: the characters that part the words of a line.
-/
namespace DeclLine.Text

/-- Ranges of the property White_Space. -/
def blankRanges : List CodeRange :=
  [(0x09, 0x0d), (0x20, 0x20), (0x85, 0x85), (0xa0, 0xa0), (0x1680, 0x1680), (0x2000, 0x200a),
   (0x2028, 0x2029), (0x202f, 0x202f), (0x205f, 0x205f), (0x3000, 0x3000)]

def isBlank (c : Char) : Bool :=
  inRanges blankRanges c

/-- Spaces and tabs, the only blanks that indent an echoed line. -/
def isIndent (c : Char) : Bool :=
  c == ' ' || c == '\t'

/-- Removes the blanks at the end. -/
def trimEnd (cs : List Char) : List Char :=
  (cs.reverse.dropWhile isBlank).reverse

end DeclLine.Text

/-!
Inclusive ranges of code points, the form in which character properties are tabulated.
-/
namespace DeclLine.Text

/-- First and last code point of a range. -/
abbrev CodeRange := Nat × Nat

def inRanges (ranges : List CodeRange) (c : Char) : Bool :=
  ranges.any fun r => r.1 ≤ c.toNat && c.toNat ≤ r.2

end DeclLine.Text

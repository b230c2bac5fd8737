/-!
Byte counts of text, and truncation to a byte bound that never splits a character.
-/
namespace DeclLine.Text

/-- Bytes that the characters take in UTF-8. -/
def byteLength : List Char → Nat
  | [] => 0
  | c :: cs => c.utf8Size + byteLength cs

/-- The UTF-8 bytes of a text. -/
def bytes (text : String) : List UInt8 :=
  text.toList.flatMap String.utf8EncodeChar

/-- The longest run of leading characters that takes at most `room` bytes. -/
def fitting : Nat → List Char → List Char
  | _, [] => []
  | room, c :: cs =>
      if c.utf8Size ≤ room then c :: fitting (room - c.utf8Size) cs else []

/-- The longest prefix that fits `limit` bytes, one of which is kept for a terminator. -/
def bounded (text : String) (limit : Nat) : String :=
  String.ofList (fitting (limit - 1) text.toList)

end DeclLine.Text

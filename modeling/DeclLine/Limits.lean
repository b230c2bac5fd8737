/-!
The fixed sizes of the library: bucket counts, byte bounds of stored text, the depth of the
parser stack and the length of a token list.
-/
namespace DeclLine.Limits

/-- Buckets of a dictionary, and of a registry made without a count of its own. -/
def buckets : Nat := 101

/-- Base of the polynomials that place names and text keys. -/
def hashBase : Nat := 31

/-- Bytes of a stored name, one of them kept for a terminator. -/
def nameBytes : Nat := 64

/-- Bytes of a stored type name, one of them kept for a terminator. -/
def typeBytes : Nat := 32

/-- Bytes of a stored string value, one of them kept for a terminator. -/
def stringBytes : Nat := 64

/-- Most symbols that the parser stack holds. -/
def stackDepth : Nat := 100

/-- Most tokens that one line may give, the end marker included. -/
def tokens : Nat := 1000

/-- Places of a fresh array. -/
def arrayCapacity : Nat := 10

end DeclLine.Limits

import DeclLine.Limits
import DeclLine.Text.Bounded

/-!
Polynomial hashes of byte strings, and the bucket that a hash falls into.
-/
namespace DeclLine.RollingHash

/-- The byte as a signed number, carried over to 32 bits. -/
def signExtended (b : UInt8) : UInt32 :=
  b.toInt8.toInt32.toUInt32

/-- Hash of a name: 32 bits, bytes taken as signed. -/
def ofName (bytes : List UInt8) : UInt32 :=
  bytes.foldl (fun h b => h * Limits.hashBase.toUInt32 + signExtended b) 0

/-- Hash of a text key: 64 bits, bytes taken as unsigned. -/
def ofKey (bytes : List UInt8) : UInt64 :=
  bytes.foldl (fun h b => h * Limits.hashBase.toUInt64 + b.toUInt64) 0

/-- The bucket of a hash. A count of zero stands for one bucket. -/
def bucket (hash count : Nat) : Nat :=
  hash % max count 1

/-- Bucket of a name in a registry. -/
def nameBucket (name : String) (count : Nat) : Nat :=
  bucket (ofName (Text.bytes name)).toNat count

end DeclLine.RollingHash

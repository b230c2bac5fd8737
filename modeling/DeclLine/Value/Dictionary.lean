import DeclLine.Numeric.RollingHash
import DeclLine.Value.Basic

/-!
Dictionaries with a fixed number of chained buckets. A key picks its bucket by hash; keys match
as numbers or as texts, so a NaN matches nothing and the two zeros match.
-/
namespace DeclLine

namespace Value

/-- Hash of a key of the given type: the polynomial of a text, the value of a number. -/
def keyHash (key : Value) (type : KeyType) : Except TypeError UInt64 :=
  match type, key with
  | .string, .string text => .ok (RollingHash.ofKey (Text.bytes text))
  | .int, .int n => .ok n.toUInt64
  | .float, .float x => .ok x.truncate.toUInt64
  | type, key => .error (.mismatch type.toValueType key.type)

/-- Bucket of a key among `count` buckets. -/
def keyBucket (key : Value) (type : KeyType) (count : Nat) : Except TypeError Nat :=
  (keyHash key type).map fun h => RollingHash.bucket h.toNat count

/-- Whether two keys are one. Only scalars that can be keys match. -/
def keyMatches : Value → Value → Bool
  | .string s, .string t => s == t
  | .int m, .int n => m == n
  | .float x, .float y => x == y
  | _, _ => false

end Value

namespace Dictionary

abbrev Chain := List (Value × Value)

/-- The value that a chain holds under a key. -/
def chainGet? (key : Value) : Chain → Option Value
  | [] => none
  | (k, v) :: rest => if k.keyMatches key then some v else chainGet? key rest

/-- The chain with another value under a key that it holds. The stored key stays. -/
def chainReplace? (key value : Value) : Chain → Option Chain
  | [] => none
  | (k, v) :: rest =>
      if k.keyMatches key then some ((k, value) :: rest)
      else (chainReplace? key value rest).map ((k, v) :: ·)

variable {α : Type}

def chain (d : Dictionary α) (i : Nat) : List (α × α) :=
  d.buckets[i]?.getD []

/-- All pairs, bucket by bucket, the head of each chain first. -/
def entries (d : Dictionary α) : List (α × α) :=
  d.buckets.flatten

/-- Puts a value under a key: in place if the key is there, else at the head of its bucket. -/
def set (d : Dictionary Value) (key value : Value) : Except TypeError (Dictionary Value) :=
  match key.keyBucket d.keyType d.buckets.length with
  | .error e => .error e
  | .ok i =>
      match value.validate d.valueType with
      | .error e => .error e
      | .ok () =>
          match chainReplace? key value (d.chain i) with
          | some c => .ok { d with buckets := d.buckets.set i c }
          | none =>
              .ok { d with
                size := d.size + 1
                buckets := d.buckets.set i ((key, value) :: d.chain i) }

/-- The value under a key. No key of another type is there. -/
def get? (d : Dictionary Value) (key : Value) : Option Value :=
  match key.keyBucket d.keyType d.buckets.length with
  | .error _ => none
  | .ok i => chainGet? key (d.chain i)

def contains (d : Dictionary Value) (key : Value) : Bool :=
  (d.get? key).isSome

end Dictionary

end DeclLine

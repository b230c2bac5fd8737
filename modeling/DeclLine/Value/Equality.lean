import DeclLine.Value.Basic

/-!
Equality of values. Floats compare as numbers, arrays by their elements whatever their
capacities, dictionaries bucket by bucket with each chain in order.
-/
namespace DeclLine.Value

mutual

def same : Value → Value → Bool
  | .int m, .int n => m == n
  | .float x, .float y => x == y
  | .string s, .string t => s == t
  | .bool b, .bool c => b == c
  | .array a, .array b => sameArray a b
  | .dict d, .dict e => sameDict d e
  | _, _ => false
termination_by structural v => v

def sameArray : Growable Value → Growable Value → Bool
  | ⟨s, xs, _⟩, ⟨t, ys, _⟩ => s == t && sameItems xs ys
termination_by structural a => a

def sameItems : List Value → List Value → Bool
  | [], [] => true
  | x :: xs, y :: ys => same x y && sameItems xs ys
  | _, _ => false
termination_by structural xs => xs

def sameDict : Dictionary Value → Dictionary Value → Bool
  | ⟨k, v, m, xs⟩, ⟨l, w, n, ys⟩ => k == l && v == w && m == n && sameBuckets xs ys
termination_by structural d => d

def sameBuckets : List (List (Value × Value)) → List (List (Value × Value)) → Bool
  | [], [] => true
  | x :: xs, y :: ys => sameChain x y && sameBuckets xs ys
  | _, _ => false
termination_by structural xs => xs

def sameChain : List (Value × Value) → List (Value × Value) → Bool
  | [], [] => true
  | p :: ps, q :: qs => samePair p q && sameChain ps qs
  | _, _ => false
termination_by structural ps => ps

def samePair : Value × Value → Value × Value → Bool
  | (k, v), (l, w) => same k l && same v w
termination_by structural p => p

end

instance : BEq Value := ⟨same⟩

end DeclLine.Value

import DeclLine.Numeric.RollingHash
import DeclLine.Value.Basic

/-!
The registry of declared names: chained buckets, in which a name picks its bucket by hash and a
new entry goes to the head of its chain. Entries of one name therefore stand newest first, and
the newest wins a search by name. Identifiers count up through 32 bits.
-/
namespace DeclLine

abbrev Scope := UInt32

namespace Scope

/-- Visible from itself and from the local scope. -/
def globalLevel : Scope := 0

def localLevel : Scope := 1

/-- Whether an entry of scope `owner` can be seen from `viewer`. -/
def sees (viewer owner : Scope) : Bool :=
  owner == viewer || (viewer == localLevel && owner == globalLevel)

end Scope

structure Entry where
  id : UInt32
  name : String
  typeName : String
  value : Option Value
  isConst : Bool
  isInitialized : Bool
  scope : Scope

/-- The entry after a value was given to it. -/
def Entry.assign (e : Entry) (value : Value) : Entry :=
  { e with value := some value, isInitialized := true }

/-- A name to be declared, as the caller gives it. -/
structure Item where
  name : String
  typeName : String
  value : Option Value
  scope : Scope
  isConst : Bool
  isInitialized : Bool

/-- Bounds a name as stored names are bounded. -/
def storedName (name : String) : String :=
  Text.bounded name Limits.nameBytes

def Item.toEntry (x : Item) (id : UInt32) : Entry where
  id := id
  name := storedName x.name
  typeName := Text.bounded x.typeName Limits.typeBytes
  value := x.value
  isConst := x.isConst
  isInitialized := x.isInitialized
  scope := x.scope

structure Registry where
  buckets : List (List Entry)
  nextId : UInt32

namespace Registry

/-- An empty registry of at least one bucket. -/
def withBuckets (count : Nat) : Registry :=
  ⟨List.replicate (max count 1) [], 0⟩

def empty : Registry := withBuckets Limits.buckets

def bucketCount (r : Registry) : Nat :=
  r.buckets.length

def bucketOf (r : Registry) (name : String) : Nat :=
  RollingHash.nameBucket name r.bucketCount

def chain (r : Registry) (i : Nat) : List Entry :=
  r.buckets[i]?.getD []

/-- All entries, bucket by bucket, the head of each chain first. -/
def entries (r : Registry) : List Entry :=
  r.buckets.flatten

def size (r : Registry) : Nat :=
  r.entries.length

def isEmpty (r : Registry) : Bool :=
  r.buckets.all List.isEmpty

/-- Puts an entry at the head of its chain among the buckets. -/
def place (e : Entry) (buckets : List (List Entry)) : List (List Entry) :=
  buckets.modify (RollingHash.nameBucket e.name buckets.length) (e :: ·)

/-- Declares a name under a fresh identifier. An empty name is ignored. -/
def insert (r : Registry) (x : Item) : Option UInt32 × Registry :=
  if x.name.isEmpty then (none, r)
  else
    let e := x.toEntry r.nextId
    (some e.id, ⟨place e r.buckets, r.nextId + 1⟩)

/-- The newest entry of a stored name that belongs to the scope itself. -/
def findIn (r : Registry) (name : String) (scope : Scope) : Option Entry :=
  (r.chain (r.bucketOf name)).find? fun e => e.name == name && e.scope == scope

/-- Searches the scope itself and, from the local scope, the global one after it. -/
def lookupName (r : Registry) (name : String) (scope : Scope) : Option Entry :=
  if name.isEmpty then none
  else
    match r.findIn (storedName name) scope with
    | some e => some e
    | none =>
        if scope = Scope.localLevel then r.findIn (storedName name) Scope.globalLevel else none

/-- The entry of an identifier, if it can be seen from the scope. -/
def lookupId (r : Registry) (id : UInt32) (scope : Scope) : Option Entry :=
  (r.entries.find? (·.id == id)).filter fun e => scope.sees e.scope

def containsName (r : Registry) (name : String) (scope : Scope) : Bool :=
  (r.lookupName name scope).isSome

def containsId (r : Registry) (id : UInt32) (scope : Scope) : Bool :=
  (r.lookupId id scope).isSome

/-- Changes the first entry of a chain that satisfies `p`. -/
def modifyChain (p : Entry → Bool) (f : Entry → Entry) : List Entry → List Entry
  | [] => []
  | e :: es => if p e then f e :: es else e :: modifyChain p f es

/-- Changes the first entry, in order of iteration, that satisfies `p`. -/
def modifyFirst (p : Entry → Bool) (f : Entry → Entry) : List (List Entry) → List (List Entry)
  | [] => []
  | b :: bs => if b.any p then modifyChain p f b :: bs else b :: modifyFirst p f bs

/-- Gives an entry that is not constant a value and marks it initialized. Tells whether it did. -/
def update (r : Registry) (id : UInt32) (value : Value) (scope : Scope) : Bool × Registry :=
  match r.lookupId id scope with
  | none => (false, r)
  | some e =>
      if e.isConst then (false, r)
      else
        (true, { r with buckets := modifyFirst (·.id == id) (·.assign value) r.buckets })

/-- Removes the newest entry of a name, whatever its scope. -/
def deleteName (r : Registry) (name : String) : Option Entry × Registry :=
  if name.isEmpty then (none, r)
  else
    let name := storedName name
    let i := r.bucketOf name
    match (r.chain i).find? (·.name == name) with
    | none => (none, r)
    | some e => (some e, { r with buckets := r.buckets.modify i (·.eraseP (·.name == name)) })

/-- Removes the first entry, in order of iteration, that satisfies `p`. -/
def eraseFirst (p : Entry → Bool) : List (List Entry) → List (List Entry)
  | [] => []
  | b :: bs => if b.any p then b.eraseP p :: bs else b :: eraseFirst p bs

def deleteId (r : Registry) (id : UInt32) : Option Entry × Registry :=
  match r.entries.find? (·.id == id) with
  | none => (none, r)
  | some e => (some e, { r with buckets := eraseFirst (·.id == id) r.buckets })

/-- Drops every entry. Identifiers go on counting. -/
def clear (r : Registry) : Registry :=
  { r with buckets := r.buckets.map fun _ => [] }

/-- Places all entries anew, bucket by bucket, each chain from its tail to its head. -/
def resize (r : Registry) (count : Nat) : Registry :=
  { r with buckets :=
      r.buckets.foldl (fun new chain => chain.foldr place new) (List.replicate (max count 1) []) }

end Registry

end DeclLine

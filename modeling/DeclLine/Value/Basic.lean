import DeclLine.Grammar.Symbol
import DeclLine.Limits
import DeclLine.Numeric.Binary64
import DeclLine.Text.Bounded

/-!
Declared values: scalars, growable arrays and dictionaries, nested to any depth, with the type
of each value and the default of each type.
-/
namespace DeclLine

inductive ValueType where
  | bool
  | int
  | float
  | string
  | array
  | dict
  deriving DecidableEq, Repr

namespace ValueType

def all : List ValueType :=
  [.bool, .int, .float, .string, .array, .dict]

def name : ValueType → String
  | .bool => "bool"
  | .int => "int"
  | .float => "float"
  | .string => "string"
  | .array => "array"
  | .dict => "dict"

/-- The type that a keyword declares; `const` declares none. -/
def ofKeyword? : Terminal → Option ValueType
  | .int => some .int
  | .str => some .string
  | .float => some .float
  | .bool => some .bool
  | .array => some .array
  | .dict => some .dict
  | .const | .ident | .endMark => none

end ValueType

/-- The types that can key a dictionary. -/
inductive KeyType where
  | int
  | float
  | string
  deriving DecidableEq, Repr

def KeyType.toValueType : KeyType → ValueType
  | .int => .int
  | .float => .float
  | .string => .string

/-- Why a container refuses a value. -/
inductive TypeError where
  /-- An array takes no element of the received type. -/
  | element (expected received : ValueType)
  /-- A value, or a key, is not of the type that is asked for. -/
  | mismatch (expected received : ValueType)
  | unsupportedKey (type : ValueType)
  deriving DecidableEq, Repr

namespace TypeError

def name : TypeError → String
  | .element .. => "ElementTypeMismatch"
  | .mismatch .. => "TypeMismatch"
  | .unsupportedKey _ => "UnsupportedKeyType"

def message : TypeError → String
  | .element expected received =>
      "element type mismatch: expected " ++ expected.name ++ ", received " ++ received.name
  | .mismatch expected received =>
      "Type mismatch: Expected " ++ expected.name ++ ", got " ++ received.name
  | .unsupportedKey type => "unsupported key type " ++ type.name

end TypeError

def ValueType.toKeyType : ValueType → Except TypeError KeyType
  | .int => .ok .int
  | .float => .ok .float
  | .string => .ok .string
  | .bool => .error (.unsupportedKey .bool)
  | .array => .error (.unsupportedKey .array)
  | .dict => .error (.unsupportedKey .dict)

/-- A growable array of elements of one type. -/
structure Growable (α : Type) where
  element : ValueType
  items : List α
  capacity : Nat

/-- A hashed dictionary: each bucket chains its pairs of key and value, newest first. -/
structure Dictionary (α : Type) where
  keyType : KeyType
  valueType : ValueType
  size : Nat
  buckets : List (List (α × α))

inductive Value where
  | int (n : Int64)
  | float (x : Binary64)
  | string (text : String)
  | bool (b : Bool)
  | array (a : Growable Value)
  | dict (d : Dictionary Value)

/-- An empty array with its first places. -/
def Growable.new (α : Type) (element : ValueType) : Growable α :=
  ⟨element, [], Limits.arrayCapacity⟩

/-- An empty dictionary. -/
def Dictionary.new (α : Type) (keyType : KeyType) (valueType : ValueType) : Dictionary α :=
  ⟨keyType, valueType, 0, List.replicate Limits.buckets []⟩

namespace Value

def type : Value → ValueType
  | .int _ => .int
  | .float _ => .float
  | .string _ => .string
  | .bool _ => .bool
  | .array _ => .array
  | .dict _ => .dict

/-- A string value, cut to the bound of stored strings. -/
def ofText (text : String) : Value :=
  .string (Text.bounded text Limits.stringBytes)

/-- Zero, empty or false. Arrays hold integers, dictionaries map strings to strings. -/
def default : ValueType → Value
  | .bool => .bool false
  | .int => .int 0
  | .float => .float .zero
  | .string => .string ""
  | .array => .array (.new Value .int)
  | .dict => .dict (.new Value .string .string)

/-- The value of a name declared with the keyword. -/
def defaultFor? (keyword : Terminal) : Option Value :=
  (ValueType.ofKeyword? keyword).map default

/-- Checks a value against a declared type. -/
def validate (v : Value) (declared : ValueType) : Except TypeError Unit :=
  if v.type = declared then .ok () else .error (.mismatch declared v.type)

end Value

end DeclLine

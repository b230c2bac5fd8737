import DeclLine.Text.Layout
import DeclLine.Value.Basic

/-!
Display of values. Strings are shown bare, also inside containers.
-/
namespace DeclLine.Value

mutual

def render : Value → String
  | .int n => toString n.toInt
  | .float x => x.render
  | .string text => text
  | .bool b => if b then "true" else "false"
  | .array a => renderArray a
  | .dict d => renderDict d
termination_by structural v => v

def renderArray : Growable Value → String
  | ⟨_, items, _⟩ => "[" ++ Text.joined ", " (renderItems items) ++ "]"
termination_by structural a => a

def renderItems : List Value → List String
  | [] => []
  | x :: xs => render x :: renderItems xs
termination_by structural xs => xs

def renderDict : Dictionary Value → String
  | ⟨_, _, _, buckets⟩ => "\x7b" ++ Text.joined ", " (renderBuckets buckets) ++ "\x7d"
termination_by structural d => d

def renderBuckets : List (List (Value × Value)) → List String
  | [] => []
  | b :: bs => renderChain b ++ renderBuckets bs
termination_by structural bs => bs

def renderChain : List (Value × Value) → List String
  | [] => []
  | p :: ps => renderPair p :: renderChain ps
termination_by structural ps => ps

def renderPair : Value × Value → String
  | (k, v) => render k ++ ": " ++ render v
termination_by structural p => p

end

end DeclLine.Value

import DeclLine.Journal

/-!
The arguments of the command. They are read from left to right; help and version answer as soon
as they are reached, and what stands behind `--` belongs to the declaration.
-/
namespace DeclLine.Command

structure Options where
  /-- The words of the declaration; none asks for a line of input. -/
  declaration : List String
  sourceName : Option String
  verbose : Bool
  quiet : Bool
  deriving DecidableEq, Repr

namespace Options

def none : Options := ⟨[], .none, false, false⟩

def source (o : Options) : String :=
  o.sourceName.getD Position.defaultSource

/-- All events when verbose, none when quiet, else the warnings. -/
def shows (o : Options) (l : Level) : Bool :=
  o.verbose || (!o.quiet && l = .warn)

end Options

/-- What the arguments ask for. -/
inductive Request where
  | help
  | version
  | check (o : Options)
  | misuse
  deriving DecidableEq, Repr

/-- A flag, by either of its names. -/
inductive Flag where
  | verbose
  | quiet
  | help
  | version
  deriving DecidableEq, Repr

namespace Flag

def ofLong? (name : String) : Option Flag :=
  if name = "verbose" then some .verbose
  else if name = "quiet" then some .quiet
  else if name = "help" then some .help
  else if name = "version" then some .version
  else none

def ofShort? : Char → Option Flag
  | 'v' => some .verbose
  | 'q' => some .quiet
  | 'h' => some .help
  | 'V' => some .version
  | _ => none

/-- Sets the flag, which must not be set yet, or answers the request that it makes. -/
def apply (f : Flag) (o : Options) : Except Request Options :=
  match f with
  | .verbose => if o.verbose then .error .misuse else .ok { o with verbose := true }
  | .quiet => if o.quiet then .error .misuse else .ok { o with quiet := true }
  | .help => .error .help
  | .version => .error .version

/-- Sets the flags of a cluster of short names, in order. -/
def applyCluster (o : Options) : List Char → Except Request Options
  | [] => .ok o
  | c :: cs =>
      match ofShort? c with
      | some f =>
          match f.apply o with
          | .ok o => applyCluster o cs
          | .error r => .error r
      | none => .error .misuse

end Flag

/-- How one argument reads on its own. -/
inductive Argument where
  /-- The mark after which every argument is a word. -/
  | dashes
  | word (text : String)
  | long (name : String) (value : Option String)
  | cluster (letters : List Char)
  deriving DecidableEq, Repr

/-- A long name reaches up to its first equals sign. A lone dash is a word. -/
def Argument.ofString (text : String) : Argument :=
  match text.toList with
  | ['-', '-'] => .dashes
  | '-' :: '-' :: cs =>
      .long (String.ofList (cs.takeWhile (· ≠ '=')))
        (match cs.dropWhile (· ≠ '=') with
          | _ :: value => some (String.ofList value)
          | [] => none)
  | '-' :: c :: cs => .cluster (c :: cs)
  | _ => .word text

/-- The two flags that exclude each other are compared once all arguments are read. -/
def finish (o : Options) : Request :=
  if o.verbose && o.quiet then .misuse else .check o

def setSource (o : Options) (name : String) : Except Request Options :=
  match o.sourceName with
  | some _ => .error .misuse
  | none => .ok { o with sourceName := some name }

/-- Reads the arguments. While `awaiting`, the next one is the name of the source, which must
not look like an option. -/
def readArguments (o : Options) (awaiting : Bool) : List String → Request
  | [] => if awaiting then .misuse else finish o
  | arg :: rest =>
      match awaiting, Argument.ofString arg with
      | true, .word name =>
          match setSource o name with
          | .ok o => readArguments o false rest
          | .error r => r
      | true, _ => .misuse
      | false, .word text =>
          readArguments { o with declaration := o.declaration ++ [text] } false rest
      | false, .dashes => finish { o with declaration := o.declaration ++ rest }
      | false, .cluster letters =>
          match Flag.applyCluster o letters with
          | .ok o => readArguments o false rest
          | .error r => r
      | false, .long name value =>
          if name = "source-name" then
            match value with
            | none => readArguments o true rest
            | some v =>
                match setSource o v with
                | .ok o => readArguments o false rest
                | .error r => r
          else
            match Flag.ofLong? name, value with
            | some f, none =>
                match f.apply o with
                | .ok o => readArguments o false rest
                | .error r => r
            | _, _ => .misuse

def Request.ofArguments (args : List String) : Request :=
  readArguments .none false args

end DeclLine.Command

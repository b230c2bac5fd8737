import DeclLine.Command.Options
import DeclLine.Grammar.Render
import DeclLine.Registry.Render
import DeclLine.Text.ControlSequence

/-!
The command: checks one declaration, given as arguments or as a line of input, and reports the
diagnostic or the sets, the parse table and the registry.
-/
namespace DeclLine.Command

def helpText : String :=
  Text.unlines
    ["Checks `<type> <identifier>` declarations",
     "",
     "Usage: decl-parser [OPTIONS] [DECLARATION]...",
     "",
     "Arguments:",
     "  [DECLARATION]...  The declaration to check; read from stdin when omitted",
     "",
     "Options:",
     "      --source-name <SOURCE_NAME>  Name shown for the input in diagnostics [default: shell]",
     "  -v, --verbose                    Log every parser step to stderr",
     "  -q, --quiet                      Only report acceptance or the diagnostic",
     "  -h, --help                       Print help",
     "  -V, --version                    Print version"]

def versionText : String := "decl-parser 0.1.0\n"

structure Output where
  exitCode : UInt8
  stdout : String
  stderr : String
  deriving DecidableEq, Repr

/-- The level is filled up to five letters, the length of the longest one. The line is written
without control sequences; one that the event leaves open hides the rest of the line. -/
def logLine (e : Event) : String :=
  Text.plain ("[" ++ Text.padRight 5 e.level.name ++ " " ++ e.target ++ "] " ++ e.text ++ "\n")

def log (o : Options) (events : List Event) : String :=
  Text.concat ((events.filter fun e => o.shows e.level).map logLine)

/-- Everything that is known after a line was accepted. -/
def report (T : Table) (r : Registry) : String :=
  Text.unlines
    ["", T.sets.renderFirst, T.sets.renderFollow, T.render, "Symbol table after analysis:"]
    ++ r.render

/-- Checks a line against a table. `before` holds the events so far. -/
def checkLine (o : Options) (T : Table) (before : List Event) (line : String) : Output :=
  let events := before ++ .analysing line :: Journal.ofLine T o.source line .empty
  match Reading.ofLine T o.source line .empty with
  | none => ⟨1, "", log o events⟩
  | some ⟨.error d, _⟩ => ⟨1, "", log o events ++ d.render line⟩
  | some ⟨.ok _, r⟩ =>
      ⟨0, "The declaration is syntactically correct!\n" ++ (if o.quiet then "" else report T r),
        log o events⟩

/-- The first line of the input, up to and with its line break. -/
def firstLine : List UInt8 → List UInt8
  | [] => []
  | b :: bs => if b = 10 then [b] else b :: firstLine bs

/-- Removes line breaks and carriage returns at the end. -/
def trimBreaks (cs : List Char) : List Char :=
  (cs.reverse.dropWhile fun c => c == '\n' || c == '\r').reverse

/-- The first line of the input as text, if its bytes are text. -/
def inputLine? (input : List UInt8) : Option String :=
  (String.fromUTF8? ⟨(firstLine input).toArray⟩).map fun line =>
    String.ofList (trimBreaks line.toList)

def unreadable : String :=
  "error: failed to read the declaration: stream did not contain valid UTF-8\n"

/-- The line to check: the words of the declaration, or else the first line of the input. -/
def lineOf? (o : Options) (input : List UInt8) : Option String :=
  if o.declaration.isEmpty then inputLine? input else some (Text.joined " " o.declaration)

def check (o : Options) (input : List UInt8) : Output :=
  let g := Grammar.declarations
  let events := Journal.ofTable g g
  match Table.build g with
  | .error d => ⟨2, "", log o events ++ "error: " ++ d.message ++ "\n"⟩
  | .ok T =>
      match lineOf? o input with
      | none => ⟨2, "", log o events ++ unreadable⟩
      | some line => checkLine o T events line

/-- What is shown before the input is read. -/
def promptFor : Request → String
  | .check o => if o.declaration.isEmpty then "Enter a declaration: " else ""
  | .help | .version | .misuse => ""

/-- What is shown after the input is read; `none` for arguments that make no request. -/
def answer (r : Request) (input : List UInt8) : Option Output :=
  match r with
  | .misuse => none
  | .help => some ⟨0, helpText, ""⟩
  | .version => some ⟨0, versionText, ""⟩
  | .check o => some (check o input)

/-- All that the command shows. -/
def run (args : List String) (input : List UInt8) : Option Output :=
  let r := Request.ofArguments args
  (answer r input).map fun o => { o with stdout := promptFor r ++ o.stdout }

end DeclLine.Command

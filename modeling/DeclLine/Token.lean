import DeclLine.Diagnostic
import DeclLine.Lexicon
import DeclLine.Limits
import DeclLine.Text.Words

/-!
Tokens of a line. An identifier gives the `ID` marker and its own text, unless the line spells
the marker out right before it; any other word gives one token. The end marker closes every line.
-/
namespace DeclLine

inductive TokenKind where
  | terminal (t : Terminal)
  /-- The text of an identifier, behind its marker. -/
  | lexeme
  /-- A word that is neither reserved nor an identifier. -/
  | unknown
  deriving DecidableEq, Repr

namespace TokenKind

def terminal? : TokenKind → Option Terminal
  | .terminal t => some t
  | .lexeme | .unknown => none

def name : TokenKind → String
  | .terminal t => t.name
  | .lexeme => "Lexeme"
  | .unknown => "Unknown"

end TokenKind

structure Token where
  kind : TokenKind
  text : String
  start : Position
  stop : Position
  deriving DecidableEq, Repr

namespace Token

/-- What diagnostics call the token: the name of a terminal, the text of any other. -/
def describe (t : Token) : String :=
  match t.kind with
  | .terminal k => k.name
  | .lexeme | .unknown => t.text

def render (t : Token) : String :=
  "Token \x7b\nkind: " ++ t.kind.name ++ ",\nvalue: " ++ t.text ++ "\x7d"

/-- A token of the given kind that spans the whole word. -/
def ofWord (source : String) (kind : TokenKind) (w : Text.Word) : Token :=
  ⟨kind, w.text, .ofOffset source w.start, .ofOffset source w.stop⟩

/-- Classifies words in order. `marked` tells whether an `ID` marker stands right before. -/
def ofWords (source : String) : Bool → List Text.Word → List Token
  | _, [] => []
  | marked, w :: ws =>
      match Lexicon.reserved? w.text with
      | some t => ofWord source (.terminal t) w :: ofWords source (t = .ident) ws
      | none =>
          if Lexicon.isIdentifier w.text then
            (if marked then [] else [ofWord source (.terminal .ident) w])
              ++ ofWord source .lexeme w :: ofWords source false ws
          else ofWord source .unknown w :: ofWords source false ws

/-- The end marker, behind the last byte of the line. -/
def endOf (source line : String) : Token :=
  let stop := Position.ofOffset source (Text.byteLength line.toList)
  ⟨.terminal .endMark, Terminal.endMark.name, stop, stop⟩

/-- The tokens of a line, however many. -/
def ofLine (source line : String) : List Token :=
  ofWords source false (Text.words line) ++ [endOf source line]

/-- The tokens of a line, refused at the first that exceeds the limit. -/
def tokenize (source line : String) : Except Diagnostic (List Token) :=
  let tokens := ofLine source line
  match tokens[Limits.tokens]? with
  | some t => .error ⟨.tokenOverflow Limits.tokens, t.start⟩
  | none => .ok tokens

end Token

end DeclLine

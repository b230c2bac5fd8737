import DeclLine.Grammar.Symbol

/-!
What single words are: reserved words, identifiers, or neither.
-/
namespace DeclLine.Lexicon

/-- The terminal that a word stands for, in any letter case. Only ASCII letters have case here. -/
def reserved? (word : String) : Option Terminal :=
  Terminal.all.find? fun t =>
    t.name.toList.map Char.toLower = word.toList.map Char.toLower

def isNameStart (c : Char) : Bool :=
  c.isAlpha || c == '_'

def isNamePart (c : Char) : Bool :=
  c.isAlphanum || c == '_'

/-- Whether the word is made like a name: ASCII letters, digits and underscores, no digit first. -/
def isNameLike (word : String) : Bool :=
  match word.toList with
  | [] => false
  | c :: cs => isNameStart c && cs.all isNamePart

def isIdentifier (word : String) : Bool :=
  isNameLike word && (reserved? word).isNone

end DeclLine.Lexicon

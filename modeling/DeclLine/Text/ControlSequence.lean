/-!
Terminal control sequences, and text without them. A sequence begins with an escape character
and is followed through the states below; only what stands outside of every sequence is text.
A sequence that is not complete takes in whatever comes after it.
-/
namespace DeclLine.Text

/-- Where a reader of terminal output stands. -/
inductive SequenceState where
  /-- Outside of every sequence. -/
  | ground
  | escape
  | escapeIntermediate
  /-- Control sequences proper, which begin with `[`. -/
  | csiEntry
  | csiParam
  | csiIntermediate
  | csiIgnore
  /-- Device control strings, which begin with `P`. -/
  | dcsEntry
  | dcsParam
  | dcsIntermediate
  | dcsIgnore
  | dcsData
  /-- System commands, which begin with `]` and end with a bell. -/
  | command
  /-- The other strings, which begin with `X`, `^` or `_`. -/
  | controlString
  deriving DecidableEq, Repr

def isIntermediate (c : Char) : Bool :=
  ' ' ≤ c && c ≤ '/'

/-- Digits and the two separators of parameters. -/
def isParameter (c : Char) : Bool :=
  '0' ≤ c && c ≤ ';'

def isPrivateMark (c : Char) : Bool :=
  '<' ≤ c && c ≤ '?'

def isFinal (c : Char) : Bool :=
  '@' ≤ c && c ≤ '~'

/-- Whether the string terminator, the byte 9C, is among the bytes of the character. -/
def hasTerminator (c : Char) : Bool :=
  (String.utf8EncodeChar c).contains 0x9c

/-- Line breaks and tabs, which terminals carry out even inside of a short sequence. -/
def isLayout (c : Char) : Bool :=
  c = '\t' || c = '\n' || c = '\x0c' || c = '\r'

namespace SequenceState

/-- The state behind a character that neither cancels nor begins a sequence. -/
def within : SequenceState → Char → SequenceState
  | .ground, _ => .ground
  | .escape, c =>
      if isIntermediate c then .escapeIntermediate
      else if c = '[' then .csiEntry
      else if c = ']' then .command
      else if c = 'P' then .dcsEntry
      else if c = 'X' || c = '^' || c = '_' then .controlString
      else if isParameter c || isPrivateMark c || isFinal c then .ground
      else .escape
  | .escapeIntermediate, c =>
      if isParameter c || isPrivateMark c || isFinal c then .ground else .escapeIntermediate
  | .csiEntry, c =>
      if isIntermediate c then .csiIntermediate
      else if isParameter c || isPrivateMark c then .csiParam
      else if isFinal c then .ground
      else .csiEntry
  | .csiParam, c =>
      if isIntermediate c then .csiIntermediate
      else if isPrivateMark c then .csiIgnore
      else if isFinal c then .ground
      else .csiParam
  | .csiIntermediate, c =>
      if isParameter c || isPrivateMark c then .csiIgnore
      else if isFinal c then .ground
      else .csiIntermediate
  | .csiIgnore, c => if isFinal c then .ground else .csiIgnore
  | .dcsEntry, c =>
      if isIntermediate c then .dcsIntermediate
      else if isParameter c || isPrivateMark c then .dcsParam
      else if isFinal c then .dcsData
      else .dcsEntry
  | .dcsParam, c =>
      if isIntermediate c then .dcsIntermediate
      else if isPrivateMark c then .dcsIgnore
      else if isFinal c then .dcsData
      else .dcsParam
  | .dcsIntermediate, c =>
      if isParameter c || isPrivateMark c then .dcsIgnore
      else if isFinal c then .dcsData
      else .dcsIntermediate
  | .dcsIgnore, c => if hasTerminator c then .ground else .dcsIgnore
  | .dcsData, c => if hasTerminator c then .ground else .dcsData
  | .command, c => if c = '\x07' then .ground else .command
  | .controlString, c => if hasTerminator c then .ground else .controlString

/-- The state behind a character. Cancel and substitute end every sequence, an escape begins one. -/
def next (s : SequenceState) (c : Char) : SequenceState :=
  if c = '\x18' || c = '\x1a' then .ground
  else if c = '\x1b' then .escape
  else s.within c

/-- Whether a character is shown. Strings hide everything, other sequences all but the layout. -/
def shows : SequenceState → Char → Bool
  | .ground, c => (' ' ≤ c && c ≠ '\x7f') || isLayout c
  | .escape, c | .escapeIntermediate, c | .csiEntry, c | .csiParam, c
  | .csiIntermediate, c | .csiIgnore, c => isLayout c
  | .dcsEntry, _ | .dcsParam, _ | .dcsIntermediate, _ | .dcsIgnore, _ | .dcsData, _
  | .command, _ | .controlString, _ => false

/-- The characters that are shown, read from the given state on. -/
def filter : SequenceState → List Char → List Char
  | _, [] => []
  | s, c :: cs => if s.shows c then c :: filter (s.next c) cs else filter (s.next c) cs

end SequenceState

/-- The text without control characters and control sequences. -/
def plain (text : String) : String :=
  String.ofList (SequenceState.ground.filter text.toList)

end DeclLine.Text

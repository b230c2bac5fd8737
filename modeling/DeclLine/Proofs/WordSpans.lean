import DeclLine.Text.Words

/-!
Where words stand. The words of a line are its maximal runs of characters that are not blank, each
at the byte where it begins, in their order and with a gap between any two of them. Blank is what
has the property White_Space, listed here by code points.
-/
namespace DeclLine.Text

def whiteSpace : List Nat :=
  [0x09, 0x0a, 0x0b, 0x0c, 0x0d, 0x20, 0x85, 0xa0, 0x1680, 0x2000, 0x2001, 0x2002, 0x2003, 0x2004,
   0x2005, 0x2006, 0x2007, 0x2008, 0x2009, 0x200a, 0x2028, 0x2029, 0x202f, 0x205f, 0x3000]

def Blank (c : Char) : Prop :=
  c.toNat ∈ whiteSpace

instance (c : Char) : Decidable (Blank c) :=
  inferInstanceAs (Decidable (_ ∈ _))

theorem isBlank_iff {c : Char} : isBlank c = true ↔ Blank c := by
  simp only [isBlank, inRanges, blankRanges, Blank, whiteSpace, List.any_cons, List.any_nil,
    Bool.or_eq_true, Bool.and_eq_true, decide_eq_true_eq, Bool.false_eq_true, List.mem_cons,
    List.not_mem_nil, or_false]
  omega

theorem byteLength_append (cs ds : List Char) :
    byteLength (cs ++ ds) = byteLength cs + byteLength ds := by
  induction cs with
  | nil => simp [byteLength]
  | cons c cs ih => simp [byteLength, ih, Nat.add_assoc]

theorem utf8ByteSize_ofList (cs : List Char) :
    (String.ofList cs).utf8ByteSize = byteLength cs := by
  induction cs with
  | nil => rfl
  | cons c cs ih =>
      rw [String.ofList_cons, String.utf8ByteSize_append, String.utf8ByteSize_singleton, ih,
        byteLength]

theorem byteLength_toList (text : String) : byteLength text.toList = text.utf8ByteSize := by
  rw [← utf8ByteSize_ofList, String.ofList_toList]

/-- Between `before` and `after` the word is a run of characters that are not blank and goes on
neither to the left nor to the right. -/
structure Word.Maximal (before : List Char) (w : Word) (after : List Char) : Prop where
  nonempty : w.text.toList ≠ []
  unbroken : ∀ c ∈ w.text.toList, ¬ Blank c
  opens : ∀ c, before.getLast? = some c → Blank c
  closes : ∀ c, after.head? = some c → Blank c

/-- The word is a maximal run of a text that begins at `offset`, and `before` is the part of the
text in front of it. -/
def Word.StandsBehind (w : Word) (before : List Char) (offset : Nat) (text : List Char) : Prop :=
  ∃ after, text = before ++ w.text.toList ++ after ∧ w.start = offset + byteLength before ∧
    w.Maximal before after

/-- The word is a maximal run of the line, and starts at the byte that its place says. -/
def Word.StandsIn (line : String) (w : Word) : Prop :=
  ∃ before, w.StandsBehind before 0 line.toList

variable {offset : Nat} {c : Char} {cs before after run : List Char} {w : Word} {later : List Word}

theorem scanWords_blank (blank : Blank c) (offset : Nat) (cs : List Char) :
    scanWords offset (c :: cs) =
      ([], closeWord (offset + c.utf8Size) (scanWords (offset + c.utf8Size) cs).1
        (scanWords (offset + c.utf8Size) cs).2) := by
  rw [scanWords, if_pos (isBlank_iff.mpr blank)]

theorem scanWords_letter (letter : ¬ Blank c) (offset : Nat) (cs : List Char) :
    scanWords offset (c :: cs) =
      (c :: (scanWords (offset + c.utf8Size) cs).1, (scanWords (offset + c.utf8Size) cs).2) := by
  rw [scanWords, if_neg (mt isBlank_iff.mp letter)]

/-- Words that begin no earlier than `bound`, each behind the end of the one before it. -/
structure Ordered (bound : Nat) (ws : List Word) : Prop where
  bounded : ∀ w ∈ ws, bound ≤ w.start
  apart : ws.Pairwise fun v w => v.stop < w.start

theorem Ordered.closeWord (ordered : Ordered (offset + byteLength run + 1) later) :
    Ordered offset (closeWord offset run later) := by
  have bounded : ∀ w ∈ later, offset ≤ w.start := by
    intro w mem
    have := ordered.bounded w mem
    omega
  cases run with
  | nil => exact ⟨bounded, ordered.apart⟩
  | cons c run =>
      refine ⟨?_, List.pairwise_cons.mpr ⟨?_, ordered.apart⟩⟩
      · intro w mem
        cases mem with
        | head => exact Nat.le_refl offset
        | tail _ mem => exact bounded w mem
      · intro w mem
        have := ordered.bounded w mem
        simp only [Word.stop, String.toList_ofList]
        omega

end DeclLine.Text

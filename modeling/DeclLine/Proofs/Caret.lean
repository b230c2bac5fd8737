import DeclLine.Proofs.Recognition
import DeclLine.Proofs.Scripts
import DeclLine.Proofs.Tokens

/-!
What a displayed fault points at. Every fault of a line is placed at its end or at the start of
one of its words. Words hold no blank, so neither the indent nor the blanks at the end that the
echo leaves out can reach into one, and the caret stands under the first byte of the word.
-/
namespace DeclLine

namespace Text

/-- The text shows the whole word, from the byte `column` on. -/
def Word.ShownAt (w : Word) (column : Nat) (text : String) : Prop :=
  ∃ front back, text.toList = front ++ w.text.toList ++ back ∧ byteLength front = column

variable {c : Char} {cs pad rest before run after : List Char}

/-- Blanks in front of a text are in front of each run that is not blank. -/
theorem exists_front (split : pad ++ rest = before ++ (run ++ after))
    (blanks : ∀ c ∈ pad, Blank c) (nonempty : run ≠ [])
    (unbroken : ∀ c ∈ run, ¬ Blank c) : ∃ front, before = pad ++ front := by
  cases List.append_eq_append_iff.mp split with
  | inl inside =>
      obtain ⟨front, split, _⟩ := inside
      exact ⟨front, split⟩
  | inr across =>
      obtain ⟨shared, split, same⟩ := across
      cases shared with
      | nil => exact ⟨[], by simpa using split.symm⟩
      | cons c shared =>
          -- The first character of the run would be one of the blanks.
          obtain ⟨d, run, rfl⟩ := List.exists_cons_of_ne_nil nonempty
          obtain ⟨rfl, _⟩ := List.cons.inj same
          exact absurd (blanks d (by simp [split])) (unbroken d (.head run))

/-- Blanks at the end of a text are behind each run that is not blank. -/
theorem exists_back (split : rest ++ pad = before ++ run ++ after)
    (blanks : ∀ c ∈ pad, Blank c) (nonempty : run ≠ [])
    (unbroken : ∀ c ∈ run, ¬ Blank c) : ∃ back, after = back ++ pad := by
  have reversed := congrArg List.reverse split
  simp only [List.reverse_append] at reversed
  obtain ⟨front, same⟩ := exists_front reversed (by simpa using blanks) (by simpa using nonempty)
    (by simpa using unbroken)
  exact ⟨front.reverse, by simpa using congrArg List.reverse same⟩

end Text

namespace Diagnostic

/-- The line is its echo between an indent of spaces and tabs and blanks at its end. -/
structure Echoed (line : String) (indent trail : List Char) : Prop where
  split : line.toList = indent ++ ((echo line).toList ++ trail)
  indents : ∀ c ∈ indent, c = ' ' ∨ c = '\t'
  begins : ∀ c, ((echo line).toList ++ trail).head? = some c → c ≠ ' ' ∧ c ≠ '\t'
  ends : ∀ c, (echo line).toList.getLast? = some c → ¬ Text.Blank c
  blanks : ∀ c ∈ trail, Text.Blank c

variable {line : String} {indent trail : List Char}

/-- A word lies between the indent and the blanks at the end. -/
theorem Echoed.shown (h : Echoed line indent trail) {w : Text.Word} (stands : w.StandsIn line) :
    ∃ column, w.start = Text.byteLength indent + column ∧ w.ShownAt column (echo line) := by
  obtain ⟨before, after, text, start, maximal⟩ := stands
  have indents : ∀ c ∈ indent, Text.Blank c := by
    intro c mem
    cases h.indents c mem with
    | inl space | inr tab => subst c; decide
  have split := h.split
  rw [text, List.append_assoc] at split
  obtain ⟨front, rfl⟩ := Text.exists_front split.symm indents maximal.nonempty maximal.unbroken
  rw [List.append_assoc, List.append_cancel_left_eq, ← List.append_assoc] at split
  obtain ⟨back, rfl⟩ := Text.exists_back split.symm h.blanks maximal.nonempty maximal.unbroken
  rw [← List.append_assoc, List.append_cancel_right_eq] at split
  refine ⟨Text.byteLength front, ?_, front, back, split.symm, rfl⟩
  rw [start, Text.byteLength_append, Nat.zero_add]

end Diagnostic

namespace Token

variable {source line : String} {t : Token}

end Token

namespace Machine

variable {T : Table} {m m' : Machine} {d : Diagnostic} {tokens : List Token}

theorem position_cases (m : Machine) :
    m.position = m.finish ∨ ∃ token ∈ m.rest, m.position = token.start := by
  unfold position
  cases m.rest with
  | nil => exact .inl rfl
  | cons token rest => exact .inr ⟨token, .head rest, rfl⟩

/-- A refusal is placed at a token that is still ahead, or behind the last one. -/
theorem Refusal.place (h : Refusal T m d m') :
    d.position = m.finish ∨ ∃ token ∈ m.rest, d.position = token.start := by
  cases h with
  | unstacked _ | exhausted _ => exact m.position_cases
  | nameless _ _ _ => exact .inl rfl
  | mismatch input _ _ | unexpected input _ _ | overflow input _ _ _ _ =>
      exact .inr ⟨_, input ▸ .head _, rfl⟩
  | missing input _ _ _ => exact .inr ⟨_, input ▸ .tail _ (.head _), rfl⟩

theorem Ends.place {n : Nat} {last : Machine}
    (ends : Ends T n (start tokens) (.rejected d, last)) :
    d.position = finishOf tokens ∨ ∃ token ∈ tokens, d.position = token.start := by
  obtain ⟨m, moves, step⟩ := ends.last
  have ahead := ((noted_start tokens).moves moves).ahead
  have finish : m.finish = finishOf tokens := moves.passes.1
  cases (refusal_of_step step).place with
  | inl place => exact .inl (place.trans finish)
  | inr place =>
      obtain ⟨token, mem, place⟩ := place
      exact .inr ⟨token, ahead.subset mem, place⟩

end Machine

namespace Reading

variable {g : Grammar} {T : Table}

end Reading

end DeclLine

import DeclLine.Proofs.Words
import DeclLine.Proofs.WordSpans
import Mathlib.Algebra.Order.Ring.Nat
import Mathlib.Data.List.Chain

/-!
What tokens a line gives. Each word gives one or two tokens over its own bytes, by what it is and
by the word right before it. A line is refused exactly when these tokens and the end marker exceed
the limit, at the first word whose tokens do not all fit.
-/
namespace DeclLine.Token

open Lexicon

/-- The token is for the bytes from `start` to `stop`. -/
structure Spans (t : Token) (source : String) (start stop : Nat) : Prop where
  start_offset : t.start.offset.toNat = start
  start_source : t.start.source = source
  stop_offset : t.stop.offset.toNat = stop
  stop_source : t.stop.source = source

/-- The token has the given kind and the text and the bytes of the word. -/
structure Covers (t : Token) (source : String) (kind : TokenKind) (w : Text.Word) : Prop where
  kind_eq : t.kind = kind
  text_eq : t.text = w.text
  spans : t.Spans source w.start w.stop

/-- The word before spells the marker out. -/
def Marked : Option Text.Word → Prop
  | none => False
  | some v => Writes v.text .ident

instance : DecidablePred Marked
  | none => inferInstanceAs (Decidable False)
  | some v => inferInstanceAs (Decidable (Writes v.text .ident))

/-- The tokens of a word behind the word `previous`. -/
inductive Gives (source : String) (previous : Option Text.Word) (w : Text.Word) :
    List Token → Prop
  | reserved {t : Token} {k : Terminal} (writes : Writes w.text k)
      (covers : t.Covers source (.terminal k) w) : Gives source previous w [t]
  | name {marker lexeme : Token} (names : Names w.text) (unmarked : ¬ Marked previous)
      (marks : marker.Covers source (.terminal .ident) w)
      (covers : lexeme.Covers source .lexeme w) : Gives source previous w [marker, lexeme]
  | markedName {lexeme : Token} (names : Names w.text) (marked : Marked previous)
      (covers : lexeme.Covers source .lexeme w) : Gives source previous w [lexeme]
  | unknown {t : Token} (other : ∀ k, ¬ Writes w.text k) (nameless : ¬ Names w.text)
      (covers : t.Covers source .unknown w) : Gives source previous w [t]

/-- The tokens of words in their order, the first of them behind the word `previous`. -/
inductive Classified (source : String) :
    Option Text.Word → List Text.Word → List Token → Prop
  | nil {previous : Option Text.Word} : Classified source previous [] []
  | cons {previous : Option Text.Word} {w : Text.Word} {ws : List Text.Word}
      {ts rest : List Token} (first : Gives source previous w ts)
      (later : Classified source (some w) ws rest) :
      Classified source previous (w :: ws) (ts ++ rest)

/-- The number of identifiers that no marker stands before. -/
def unmarkedNames : Option Text.Word → List Text.Word → Nat
  | _, [] => 0
  | previous, w :: ws =>
      (if Names w.text ∧ ¬ Marked previous then 1 else 0) + unmarkedNames (some w) ws

/-- One token for each word, and one more for each identifier without a marker. -/
def demand (previous : Option Text.Word) (ws : List Text.Word) : Nat :=
  ws.length + unmarkedNames previous ws

/-- Two tokens of one word, or the first ends before the second begins. -/
def Apart (a b : Token) : Prop :=
  a.start = b.start ∧ a.stop = b.stop ∨ a.stop.offset ≤ b.start.offset

variable {source : String} {previous : Option Text.Word} {w : Text.Word} {ws : List Text.Word}
  {t last : Token} {ts : List Token} {bytes : Nat}

theorem demand_cons (previous : Option Text.Word) (w : Text.Word) (ws : List Text.Word) :
    demand previous (w :: ws) = demand previous [w] + demand (some w) ws := by
  simp only [demand, unmarkedNames, List.length_cons, List.length_nil]
  omega

theorem Gives.length_eq (h : Gives source previous w ts) : ts.length = demand previous [w] := by
  cases h with
  | reserved writes _ =>
      have nameless : ¬ Names w.text := fun names => names.2 _ writes
      simp [demand, unmarkedNames, nameless]
  | name names unmarked _ _ => simp [demand, unmarkedNames, names, unmarked]
  | markedName _ marked _ => simp [demand, unmarkedNames, marked]
  | unknown _ nameless _ => simp [demand, unmarkedNames, nameless]

theorem Classified.length_eq (h : Classified source previous ws ts) :
    ts.length = demand previous ws := by
  induction h with
  | nil => rfl
  | cons first _ ih => rw [List.length_append, first.length_eq, ih, ← demand_cons]

theorem Gives.spans (h : Gives source previous w ts) (mem : t ∈ ts) :
    t.Spans source w.start w.stop := by
  cases h with
  | reserved _ covers | markedName _ _ covers | unknown _ _ covers =>
      cases List.mem_singleton.mp mem
      exact covers.spans
  | name _ _ marks covers =>
      cases mem with
      | head => exact marks.spans
      | tail _ mem =>
          cases List.mem_singleton.mp mem
          exact covers.spans

/-- Every token is over the bytes of some word. -/
theorem Classified.spans (h : Classified source previous ws ts) (mem : t ∈ ts) :
    ∃ w ∈ ws, t.Spans source w.start w.stop := by
  induction h with
  | nil => cases mem
  | @cons previous w ws ts rest first _ ih =>
      cases List.mem_append.mp mem with
      | inl mem => exact ⟨w, .head ws, first.spans mem⟩
      | inr mem =>
          obtain ⟨v, there, spans⟩ := ih mem
          exact ⟨v, .tail w there, spans⟩

theorem Spans.start_eq {start stop : Nat} (h : t.Spans source start stop) :
    t.start = .ofOffset source start := by
  rw [← h.start_offset, ← h.start_source, Position.ofOffset]
  simp

theorem Spans.stop_eq {start stop : Nat} (h : t.Spans source start stop) :
    t.stop = .ofOffset source stop := by
  rw [← h.stop_offset, ← h.stop_source, Position.ofOffset]
  simp

theorem Gives.apart (h : Gives source previous w ts) : ts.Pairwise Apart := by
  apply List.pairwise_of_forall_mem_list
  intro a memA b memB
  have spansA := h.spans memA
  have spansB := h.spans memB
  exact .inl ⟨spansA.start_eq.trans spansB.start_eq.symm, spansA.stop_eq.trans spansB.stop_eq.symm⟩

theorem Classified.apart (h : Classified source previous ws ts)
    (words : ws.Pairwise fun v w => v.stop < w.start) : ts.Pairwise Apart := by
  induction h with
  | nil => exact .nil
  | @cons previous w ws ts rest first later ih =>
      obtain ⟨before, among⟩ := List.pairwise_cons.mp words
      refine List.pairwise_append.mpr ⟨first.apart, ih among, ?_⟩
      intro a memA b memB
      obtain ⟨v, mem, spansB⟩ := later.spans memB
      have gap := before v mem
      refine .inr (UInt32.le_iff_toNat_le.mpr ?_)
      rw [(first.spans memA).stop_offset, spansB.start_offset]
      omega

end DeclLine.Token

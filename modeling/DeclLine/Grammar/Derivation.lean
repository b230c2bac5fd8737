import DeclLine.Grammar.Basic

/-!
Derivations: what the sets and the parse table of a grammar are about. Sentential forms hold no
marks for the empty string, since a body enters them as it is spelled.
-/
namespace DeclLine.Grammar

/-- Replacing nonterminals by bodies, any number of times, leads from the first form to the
second. -/
inductive Derives (g : Grammar) : List Symbol → List Symbol → Prop
  | refl (w : List Symbol) : Derives g w w
  | step {u v w : List Symbol} (p : Production) (mem : p ∈ g.productions)
      (rest : Derives g (u ++ spelled p.body ++ v) w) :
      Derives g (u ++ .nonterminal p.head :: v) w

namespace Derives

variable {g : Grammar}

theorem trans {a b c : List Symbol} (h : g.Derives a b) (k : g.Derives b c) : g.Derives a c := by
  induction h with
  | refl _ => exact k
  | step p mem _ ih => exact .step p mem (ih k)

/-- A derivation goes on unchanged between any two forms. -/
theorem between {a b : List Symbol} (h : g.Derives a b) (u v : List Symbol) :
    g.Derives (u ++ a ++ v) (u ++ b ++ v) := by
  induction h with
  | refl _ => exact .refl _
  | @step x y w p mem _ ih =>
      have := Derives.step (u := u ++ x) (v := y ++ v) p mem (by simpa using ih)
      simpa using this

theorem append {a b c d : List Symbol} (h : g.Derives a b) (k : g.Derives c d) :
    g.Derives (a ++ c) (b ++ d) := by
  have h' := h.between [] c
  have k' := k.between b []
  simp only [List.nil_append, List.append_nil] at h' k'
  exact h'.trans k'

end Derives

end DeclLine.Grammar

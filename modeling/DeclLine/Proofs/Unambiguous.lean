import DeclLine.Proofs.Conflicts
import DeclLine.Proofs.Termination

/-!
A grammar with a table is unambiguous: a string of terminals has at most one leftmost derivation
from the start symbol. Two derivations agree up to some form. The production that either applies
there claims the cell of the next terminal of the string, or of the end marker where the string
is over, and that cell has one claim only.
-/
namespace DeclLine

namespace Grammar

/-- Replacing the leftmost nonterminal, each time by the production at the next of the given places
of the production list, leads from the first form to the second. -/
inductive Leftmost (g : Grammar) : List Nat → List Symbol → List Symbol → Prop
  | refl (a : List Symbol) : Leftmost g [] a a
  | step {i : Nat} {is : List Nat} {p : Production} {v b : List Symbol} (u : List Terminal)
      (place : g.productions[i]? = some p)
      (rest : Leftmost g is (u.map .terminal ++ (spelled p.body ++ v)) b) :
      Leftmost g (i :: is) (u.map .terminal ++ .nonterminal p.head :: v) b

variable {g : Grammar} {is : List Nat} {a b v : List Symbol} {n : Nonterminal}

theorem Leftmost.derives (h : g.Leftmost is a b) : g.Derives a b := by
  induction h with
  | refl a => exact .refl a
  | step u place _ ih =>
      apply Derives.step _ (List.mem_of_getElem? place)
      rwa [List.append_assoc]

theorem terminals_ne (w u : List Terminal) :
    w.map Symbol.terminal ≠ u.map .terminal ++ .nonterminal n :: v := by
  intro h
  have : Symbol.nonterminal n ∈ w.map Symbol.terminal := by simp [h]
  simp at this

theorem leftmost_split {u u' : List Terminal} {n' : Nonterminal} {v' : List Symbol}
    (h : u.map Symbol.terminal ++ .nonterminal n :: v =
      u'.map .terminal ++ .nonterminal n' :: v') : u = u' ∧ n = n' ∧ v = v' := by
  induction u generalizing u' with
  | nil =>
      cases u' with
      | nil => simpa using h
      | cons t u' => simp at h
  | cons t u ih =>
      cases u' with
      | nil => simp at h
      | cons t' u' =>
          simp only [List.map_cons, List.cons_append, List.cons.injEq, Symbol.terminal.injEq] at h
          obtain ⟨rfl, same⟩ := h
          obtain ⟨rfl, rfl, rfl⟩ := ih same
          exact ⟨rfl, rfl, rfl⟩

theorem Leftmost.eq_nil {w : List Terminal} (h : g.Leftmost is (w.map .terminal) b) : is = [] := by
  generalize start : w.map Symbol.terminal = a at h
  cases h with
  | refl _ => rfl
  | step u _ _ => exact absurd start (terminals_ne w u)

theorem Leftmost.uncons {u w : List Terminal}
    (h : g.Leftmost is (u.map .terminal ++ .nonterminal n :: v) (w.map .terminal)) :
    ∃ i js p, is = i :: js ∧ g.productions[i]? = some p ∧ p.head = n ∧
      g.Leftmost js (u.map .terminal ++ (spelled p.body ++ v)) (w.map .terminal) := by
  generalize start : u.map Symbol.terminal ++ .nonterminal n :: v = a at h
  generalize goal : w.map Symbol.terminal = b at h
  cases h with
  | refl _ => exact absurd (goal.trans start.symm) (terminals_ne w u)
  | step u' place rest =>
      obtain ⟨rfl, rfl, rfl⟩ := leftmost_split start
      exact ⟨_, _, _, rfl, place, rfl, goal ▸ rest⟩

theorem Derives.strip {u w : List Terminal}
    (h : g.Derives (u.map .terminal ++ a) (w.map .terminal)) :
    ∃ x, w = u ++ x ∧ g.Derives a (x.map .terminal) := by
  induction u generalizing w with
  | nil => exact ⟨w, rfl, h⟩
  | cons t u ih =>
      obtain ⟨later, same, derives⟩ := Derives.fixed (x := .terminal t) (by simp) h
      cases w with
      | nil => simp at same
      | cons t' w =>
          obtain ⟨ht, rfl⟩ := List.cons.inj same
          obtain rfl := Symbol.terminal.inj ht
          obtain ⟨x, rfl, rest⟩ := ih derives
          exact ⟨x, rfl, rest⟩

/-- What a parser sees in front of a string: its first terminal, or the end marker behind it. -/
def ahead : List Terminal → Terminal
  | [] => .endMark
  | t :: _ => t

theorem selects_ahead {p : Production} {w : List Terminal}
    (followed : (Sets.ofGrammar g).Followed {.endMark} (.nonterminal p.head :: v))
    (derives : g.Derives (spelled p.body ++ v) (w.map .terminal)) :
    p.Selects (Sets.ofGrammar g) (ahead w) := by
  have closed := FirstSets.settled_closed g
  cases w with
  | nil =>
      obtain ⟨body, rest⟩ := vanishes_append.mp derives.vanishes
      refine .inr ⟨Sets.erasable_iff_vanishes.mpr body, ?_⟩
      exact followed.2.1 (closed.erasable rest) .endMark (TerminalSet.mem_singleton.mpr rfl)
  | cons t w =>
      cases begins_append.mp derives.begins with
      | inl body => exact .inl (Sets.mem_firstOfSequence_iff_begins.mpr body)
      | inr later =>
          refine .inr ⟨Sets.erasable_iff_vanishes.mpr later.1, ?_⟩
          exact followed.1 t (closed.mem_firstOfSequence later.2)

end Grammar

namespace Table

variable {g : Grammar} {T : Table} {is js : List Nat}

theorem place_unique (built : build g = .ok T) {i j : Nat} {p q : Production} {t : Terminal}
    (hi : g.productions[i]? = some p) (hj : g.productions[j]? = some q) (heads : p.head = q.head)
    (sp : p.Selects (Sets.ofGrammar g) t) (sq : q.Selects (Sets.ofGrammar g) t) : i = j := by
  apply Classical.byContradiction
  intro ne
  apply exists_build_iff.mp ⟨T, built⟩
  exact ⟨i, j, p, q, t, ne, hi, hj, heads, Production.selects_iff_select.mp sp,
    Production.selects_iff_select.mp sq⟩

theorem leftmost_unique_from (built : build g = .ok T) {a : List Symbol} {w : List Terminal}
    (followed : (Sets.ofGrammar g).Followed {.endMark} a)
    (h : g.Leftmost is a (w.map .terminal)) (k : g.Leftmost js a (w.map .terminal)) : is = js := by
  generalize goal : w.map Symbol.terminal = b at h
  induction h generalizing js with
  | refl a =>
      subst goal
      exact k.eq_nil.symm
  | @step i is p v b u place rest ih =>
      subst goal
      obtain ⟨j, js, q, rfl, place', heads, rest'⟩ := k.uncons
      -- Either production is chosen for what the string shows behind the terminals `u`.
      obtain ⟨x, rfl, derives⟩ := rest.derives.strip
      obtain ⟨x', same, derives'⟩ := rest'.derives.strip
      obtain rfl := List.append_cancel_left same
      have selects := Grammar.selects_ahead followed.suffix derives
      have selects' := Grammar.selects_ahead (heads ▸ followed.suffix) derives'
      obtain rfl := place_unique built place place' heads.symm selects selects'
      obtain rfl := Option.some.inj (place.symm.trans place')
      have later := followed.derives
        (.step p (List.mem_of_getElem? place) (by simpa using .refl _))
      rw [ih later rest' rfl]

/-- Over a grammar with a table, two leftmost derivations of one string of terminals from the start
symbol apply the same productions in the same order. -/
theorem leftmost_derivation_unique (built : build g = .ok T) (w : List Terminal)
    (h : g.Leftmost is [.nonterminal g.start] (w.map .terminal))
    (k : g.Leftmost js [.nonterminal g.start] (w.map .terminal)) : is = js :=
  leftmost_unique_from built (Sets.followed_goal g) h k

theorem leftmost_leftRecursive :
    Machine.leftRecursive.Leftmost [0, 1, 2, 3] [.nonterminal .Z]
      [.terminal .int, .terminal .ident] := by
  apply Grammar.Leftmost.step (p := ⟨.Z, [.nonterminal .A, .nonterminal .S]⟩) [] rfl
  apply Grammar.Leftmost.step (p := ⟨.A, [.terminal .int, .epsilon, .nonterminal .A]⟩) [] rfl
  apply Grammar.Leftmost.step (p := ⟨.A, [.epsilon]⟩) [.int] rfl
  apply Grammar.Leftmost.step (p := ⟨.S, [.terminal .ident]⟩) [.int] rfl
  exact .refl _

/-- One keyword and a name have the derivation that repeats the keyword part once. -/
theorem leftmost_derivation_unique_leftRecursive :
    Machine.leftRecursive.Leftmost [0, 1, 2, 3] [.nonterminal .Z]
        [.terminal .int, .terminal .ident] ∧
      ∀ js, Machine.leftRecursive.Leftmost js [.nonterminal .Z]
        [.terminal .int, .terminal .ident] → js = [0, 1, 2, 3] := by
  obtain ⟨T, built⟩ := exists_of_isOk (g := Machine.leftRecursive) (by decide +kernel)
  refine ⟨leftmost_leftRecursive, fun js h => ?_⟩
  exact leftmost_derivation_unique built [.int, .ident] h leftmost_leftRecursive

end Table

end DeclLine

import DeclLine.Proofs.FollowExact
import DeclLine.Proofs.Table
import Mathlib.Data.List.Pairwise

/-!
A table is refused exactly when two places of the production list share a head and a lookahead.
A cell can also be claimed twice by one production, through its body and through its head; along
the derivation of the lookahead from the body there is then a nonterminal where two different
productions meet.
-/
namespace DeclLine

/-- The production can be chosen for the lookahead: its body derives a form that begins with it,
or derives the empty string while the lookahead can follow the head. -/
def Grammar.Select (g : Grammar) (p : Production) (t : Terminal) : Prop :=
  (∃ rest, g.Derives (spelled p.body) (.terminal t :: rest)) ∨
    g.Derives (spelled p.body) [] ∧ g.Follows p.head t

/-- Two places of the production list have one head and can be chosen for one lookahead. -/
def Grammar.Conflict (g : Grammar) : Prop :=
  ∃ (i j : Nat) (p q : Production) (t : Terminal), i ≠ j ∧ g.productions[i]? = some p ∧
    g.productions[j]? = some q ∧ p.head = q.head ∧ g.Select p t ∧ g.Select q t

namespace Production

variable {p : Production} {t : Terminal}

theorem selects_iff_select {g : Grammar} :
    p.Selects (Sets.ofGrammar g) t ↔ g.Select p t := by
  apply or_congr
  · rw [Sets.mem_firstOfSequence_iff_begins, Grammar.begins_iff_derives]
  · rw [Sets.erasable_iff_vanishes, Grammar.vanishes_iff_derives, Sets.mem_followOf_iff_follows]

end Production

namespace Grammar

variable {g : Grammar}

theorem conflict_iff_not_pairwise :
    g.Conflict ↔
      ¬ g.productions.Pairwise fun p q => ¬ Production.Meets (Sets.ofGrammar g) p q := by
  rw [List.pairwise_iff_getElem]
  constructor
  · intro conflict apart
    obtain ⟨i, j, p, q, t, ne, hi, hj, heads, sp, sq⟩ := conflict
    obtain ⟨li, rfl⟩ := List.getElem?_eq_some_iff.mp hi
    obtain ⟨lj, rfl⟩ := List.getElem?_eq_some_iff.mp hj
    have meets : Production.Meets (Sets.ofGrammar g) g.productions[i] g.productions[j] :=
      ⟨heads, t, Production.selects_iff_select.mpr sp, Production.selects_iff_select.mpr sq⟩
    cases Nat.lt_or_gt_of_ne ne with
    | inl lt => exact apart i j li lj lt meets
    | inr gt => exact apart j i lj li gt meets.symm
  · intro h
    apply Classical.byContradiction
    intro none
    apply h
    intro i j li lj lt meets
    obtain ⟨heads, t, sp, sq⟩ := meets
    exact none ⟨i, j, _, _, t, Nat.ne_of_lt lt, List.getElem?_eq_getElem li,
      List.getElem?_eq_getElem lj, heads, Production.selects_iff_select.mp sp,
      Production.selects_iff_select.mp sq⟩

theorem Vanishes.uncons {n : Nonterminal} {rest : List Symbol}
    (h : g.Vanishes (.nonterminal n :: rest)) :
    (∃ q ∈ g.productions, q.head = n ∧ g.Vanishes (spelled q.body)) ∧ g.Vanishes rest := by
  cases h with
  | cons q mem body tail => exact ⟨⟨q, mem, rfl, body⟩, tail⟩

/-- Where different productions do not meet, no form can vanish, begin with a terminal and be
followed by it. -/
theorem Begins.not_vanishes {t : Terminal} {a : List Symbol} (begins : g.Begins t a)
    (unique : ∀ p ∈ g.productions, ∀ q ∈ g.productions,
      Production.Meets (Sets.ofGrammar g) p q → p = q)
    {beyond : TerminalSet} (followed : (Sets.ofGrammar g).Followed beyond a)
    (behind : t ∈ beyond) : ¬ g.Vanishes a := by
  intro gone
  induction begins generalizing beyond with
  | here _ => cases gone
  | @inside rest p mem body ih =>
      obtain ⟨⟨q, memq, heads, bodyq⟩, tail⟩ := gone.uncons
      have erased := (FirstSets.settled_closed g).erasable tail
      have follow : t ∈ (Sets.ofGrammar g).followOf p.head := followed.2.1 erased t behind
      -- `p` brings the lookahead to the front and `q` vanishes before it: they claim one cell.
      have sp : p.Selects (Sets.ofGrammar g) t :=
        .inl (Sets.mem_firstOfSequence_iff_begins.mpr body)
      have sq : q.Selects (Sets.ofGrammar g) t :=
        .inr ⟨Sets.erasable_iff_vanishes.mpr bodyq, heads ▸ follow⟩
      obtain rfl := unique p mem q memq ⟨heads.symm, t, sp, sq⟩
      exact ih (Sets.followed_spelled (Sets.followed_body mem)) follow bodyq
  | behind _ _ ih => exact ih followed.2.2 behind gone.uncons.2

theorem apart_of_pairwise
    (pairwise : g.productions.Pairwise fun p q => ¬ Production.Meets (Sets.ofGrammar g) p q)
    {p : Production} (mem : p ∈ g.productions) : p.Apart (Sets.ofGrammar g) := by
  intro t first gone follow
  have : Std.Symm fun p q => ¬ Production.Meets (Sets.ofGrammar g) p q :=
    ⟨fun _ _ h meets => h meets.symm⟩
  have unique : ∀ p ∈ g.productions, ∀ q ∈ g.productions,
      Production.Meets (Sets.ofGrammar g) p q → p = q := fun p hp q hq meets =>
    Classical.byContradiction fun ne => pairwise.forall hp hq ne meets
  exact (Sets.mem_firstOfSequence_iff_begins.mp first).not_vanishes unique
    (Sets.followed_spelled (Sets.followed_body mem)) follow (Sets.erasable_iff_vanishes.mp gone)

theorem nodup_cells_iff_no_conflict :
    ((g.claims (Sets.ofGrammar g)).map Claim.cell).Nodup ↔ ¬ g.Conflict := by
  rw [nodup_cells_iff, conflict_iff_not_pairwise, Classical.not_not]
  exact ⟨And.right, fun pairwise => ⟨fun _ => apart_of_pairwise pairwise, pairwise⟩⟩

end Grammar

namespace Table

variable {g : Grammar}

theorem duplicate_of_build {d : Diagnostic} (h : build g = .error d) : ∃ c, d = duplicate c := by
  obtain ⟨_, c, _, _, _, _, fault⟩ := buildWith_eq_error h
  exact ⟨c, fault⟩

theorem exists_build_iff : (∃ T, build g = .ok T) ↔ ¬ g.Conflict := by
  rw [← Grammar.nodup_cells_iff_no_conflict]
  simp only [build, buildWith_eq_ok_iff, exists_and_left, exists_eq, and_true]

/-- Building fails, always with a duplicate entry, exactly for a conflict between two places of the
production list. A production that can vanish, and whose body can begin with what follows its
head, never stands alone: such a conflict comes with it. -/
theorem build_fails_iff_conflict (g : Grammar) :
    ((∃ d, build g = .error d) ↔ g.Conflict) ∧
      (∀ d, build g = .error d → ∃ (n : Nonterminal) (t : Terminal),
        d = ⟨.duplicateEntry n.name t.name, .grammar⟩) ∧
      ∀ p ∈ g.productions, ∀ t rest, g.Derives (spelled p.body) [] →
        g.Derives (spelled p.body) (.terminal t :: rest) → g.Follows p.head t → g.Conflict := by
  refine ⟨?_, ?_, ?_⟩
  · rw [← Classical.not_not (a := g.Conflict), ← exists_build_iff]
    cases build g with
    | error d => simp
    | ok T => simp
  · intro d failed
    obtain ⟨c, rfl⟩ := duplicate_of_build failed
    exact ⟨c.cell.1, c.cell.2, rfl⟩
  · intro p mem t rest gone shown follow
    rw [Grammar.conflict_iff_not_pairwise]
    intro pairwise
    exact Grammar.apart_of_pairwise pairwise mem t
      (Sets.mem_firstOfSequence_iff_begins.mpr shown.begins)
      (Sets.erasable_iff_vanishes.mpr gone.vanishes) (Sets.mem_followOf_iff_follows.mpr follow)

end Table

end DeclLine

import DeclLine.Proofs.FirstSets

/-!
What the settled FOLLOW sets cover. In a form where every nonterminal is followed as its FOLLOW
set allows, replacing a nonterminal by a body keeps that so, because the sets are closed under
the productions.
-/
namespace DeclLine

namespace Sets

/-- Behind each nonterminal of the form stands what its FOLLOW set allows: all that can begin the
symbols after it and, where these can vanish, all of `beyond`. -/
def Followed (s : Sets) (beyond : TerminalSet) : List Symbol → Prop
  | [] => True
  | .nonterminal n :: rest =>
      s.firstOfSequence rest ⊆ s.followOf n ∧
      (s.erasable rest = true → beyond ⊆ s.followOf n) ∧
      Followed s beyond rest
  | .terminal _ :: rest | .epsilon :: rest => Followed s beyond rest

variable {s : Sets}

theorem followed_alone {beyond : TerminalSet} {n : Nonterminal} (sub : beyond ⊆ s.followOf n) :
    s.Followed beyond [.nonterminal n] := by
  refine ⟨?_, fun _ => sub, trivial⟩
  intro t ht
  simp [FirstSets.firstOfSequence] at ht

theorem followed_singleton (n : Nonterminal) : s.Followed ∅ [.nonterminal n] := by
  apply followed_alone
  intro t ht
  simp at ht

theorem followed_spelled {beyond : TerminalSet} {a : List Symbol} (h : s.Followed beyond a) :
    s.Followed beyond (spelled a) := by
  induction a with
  | nil => exact h
  | cons x a ih =>
      cases x with
      | nonterminal n =>
          simp only [spelled_nonterminal, Followed, FirstSets.firstOfSequence_spelled,
            FirstSets.erasable_spelled]
          exact ⟨h.1, h.2.1, ih h.2.2⟩
      | terminal _ | epsilon => simpa [Followed] using ih h

/-- Two forms join where all that the second can show is allowed behind the first. -/
theorem Followed.append {between beyond : TerminalSet} {a rest : List Symbol}
    (ha : s.Followed between a) (hr : s.Followed beyond rest)
    (first : s.firstOfSequence rest ⊆ between)
    (gone : s.erasable rest = true → beyond ⊆ between) : s.Followed beyond (a ++ rest) := by
  induction a with
  | nil => exact hr
  | cons x a ih =>
      cases x with
      | nonterminal n =>
          rw [List.cons_append]
          refine ⟨?_, ?_, ih ha.2.2⟩
          · intro t ht
            rcases (FirstSets.mem_firstOfSequence_append ..).mp ht with ht | ⟨he, ht⟩
            · exact ha.1 t ht
            · exact ha.2.1 he t (first t ht)
          · intro he t ht
            simp only [FirstSets.erasable_append, Bool.and_eq_true] at he
            exact ha.2.1 he.1 t (gone he.2 t ht)
      | terminal _ | epsilon => exact ih ha

end Sets

namespace FollowSets

theorem Below.antisymm {w v : Family TerminalSet} (h₁ : Below w v) (h₂ : Below v w) : w = v :=
  Family.ext fun n => TerminalSet.ext fun t => ⟨h₁ n t, h₂ n t⟩

theorem followed_of_spread {s : Sets} {head : Nonterminal} {body : List Symbol}
    (h : s.spread head body s.follow = s.follow) :
    s.Followed (s.followOf head) body := by
  induction body with
  | nil => trivial
  | cons x rest ih =>
      cases x with
      | terminal _ | epsilon => exact ih h
      | nonterminal n =>
          simp only [FirstSets.spread] at h
          generalize hadd : (if s.erasable rest = true then
            s.firstOfSequence rest ∪ s.follow.get head else s.firstOfSequence rest) = added at h
          have grown := below_set_union s.follow n added
          have back := below_spread s.toFirstSets head rest
            (s.follow.set n (s.follow.get n ∪ added))
          rw [h] at back
          have same := back.antisymm grown
          rw [same] at h
          have covered : added ⊆ s.followOf n := by
            intro t ht
            have := congrArg (Family.get · n) same
            simp only [Family.get_set, if_true] at this
            rw [Sets.followOf, ← this]
            exact TerminalSet.mem_union.mpr (.inr ht)
          refine ⟨?_, ?_, ih h⟩
          · intro t ht
            apply covered t
            rw [← hadd]
            split <;> simp [ht]
          · intro he t ht
            apply covered t
            rw [← hadd, if_pos he]
            exact TerminalSet.mem_union.mpr (.inr ht)

end FollowSets

namespace Sets

variable {g : Grammar}

/-- In a body, nonterminals are followed as FOLLOW of the head demands. -/
theorem followed_body {p : Production} (mem : p ∈ g.productions) :
    (ofGrammar g).Followed ((ofGrammar g).followOf p.head) p.body := by
  have stable : g.productions.foldl (fun w q => (ofGrammar g).spread q.head q.body w)
      (ofGrammar g).follow = (ofGrammar g).follow :=
    settle_fixed ((ofGrammar g).followRound g) _ _ _
  apply FollowSets.followed_of_spread
  exact eq_of_foldl_eq FollowSets.Below.refl (fun _ _ _ => FollowSets.Below.trans)
    (fun _ _ => FollowSets.Below.antisymm)
    (fun w q => FollowSets.below_spread _ q.head q.body w) stable p mem

theorem endMark_mem_followOf_start (g : Grammar) :
    .endMark ∈ (ofGrammar g).followOf g.start := by
  refine settle_induction ((ofGrammar g).followRound g) FollowSets.missing _
    (motive := fun w => Terminal.endMark ∈ w.get g.start) ?_ _ ?_
  · intro w h
    exact FollowSets.below_followRound _ g w g.start _ h
  · simp [Grammar.followSeed, Family.get_set]

/-- The form that a parser starts from, with the end marker behind the start symbol. -/
theorem followed_start (g : Grammar) :
    (ofGrammar g).Followed ∅ [.nonterminal g.start, .terminal .endMark] := by
  refine ⟨?_, ?_, trivial⟩
  · intro t ht
    obtain rfl := TerminalSet.mem_singleton.mp ht
    exact endMark_mem_followOf_start g
  · intro he
    simp [FirstSets.erasable] at he

theorem Followed.expand {beyond : TerminalSet} {p : Production} (mem : p ∈ g.productions)
    {rest : List Symbol} (h : (ofGrammar g).Followed beyond (.nonterminal p.head :: rest)) :
    (ofGrammar g).Followed beyond (spelled p.body ++ rest) :=
  (followed_spelled (followed_body mem)).append h.2.2 h.1 h.2.1

end Sets

end DeclLine

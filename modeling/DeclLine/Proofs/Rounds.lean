import DeclLine.Proofs.FollowSets

/-!
The rounds that settle FIRST and FOLLOW, fact by fact. Each round starts unmarked and is marked
when it adds a fact that was missing, in whatever set; rounds are repeated until one stays unmarked.
The mark tells exactly whether the round changed a set, so that the repetition ends in the settled
sets, and every round but the last takes at least one of the missing facts.
-/
namespace DeclLine

/-- Facts under way, and whether this round has added to them. -/
structure Marked (α : Type) where
  facts : α
  changed : Bool

section Marks

variable {α β : Type} {missing : α → Nat} {a b : α} {m m' m'' : Marked α}

/-- On the way from `m` to `m'` facts were only added, and the mark was set if there were any. -/
structure Marked.Tells (missing : α → Nat) (m m' : Marked α) : Prop where
  le : missing m'.facts ≤ missing m.facts
  mark : m'.changed = true ↔ m.changed = true ∨ missing m'.facts < missing m.facts

/-- What was added is known, so nothing happens. -/
theorem Marked.Tells.of_known (facts : m'.facts = m.facts) (mark : m'.changed = m.changed) :
    Tells missing m m' := by
  refine ⟨Nat.le_of_eq (congrArg missing facts), ?_⟩
  simp [facts, mark]

/-- What was added is new. -/
theorem Marked.Tells.of_new (fewer : missing m'.facts < missing m.facts)
    (mark : m'.changed = true) : Tells missing m m' := by
  refine ⟨Nat.le_of_lt fewer, ?_⟩
  simp [fewer, mark]

theorem Marked.Tells.trans (h : Tells missing m m') (k : Tells missing m' m'') :
    Tells missing m m'' := by
  have le := h.le
  have le' := k.le
  refine ⟨Nat.le_trans le' le, ?_⟩
  rw [k.mark, h.mark, or_assoc]
  refine or_congr_right ?_
  omega

theorem Marked.Tells.foldl {op : Marked α → β → Marked α} (step : ∀ m b, Tells missing m (op m b))
    (bs : List β) (m : Marked α) : Tells missing m (bs.foldl op m) := by
  induction bs generalizing m with
  | nil => exact .of_known rfl rfl
  | cons b bs ih => exact (step m b).trans (ih (op m b))

/-- A round from `a` to `b` ends marked exactly if it changed anything. -/
theorem Marked.Tells.changed_iff (h : Tells missing ⟨a, false⟩ m) (facts : m.facts = b)
    (shrinks : b ≠ a → missing b < missing a) : m.changed = true ↔ b ≠ a := by
  rw [h.mark, facts]
  constructor
  · intro told same
    cases told with
    | inl set => exact Bool.false_ne_true set
    | inr fewer => exact Nat.ne_of_lt fewer (congrArg missing same)
  · intro other
    exact .inr (shrinks other)

end Marks

section Repetition

variable {α : Type} {round : α → Marked α} {a b b' : α} {n n' : Nat}

/-- Rounds are repeated until one stays unmarked: from `a` they end in `b` with the `n`-th one. -/
inductive Repeats (round : α → Marked α) : α → α → Nat → Prop
  | stop {a : α} (idle : (round a).changed = false) : Repeats round a (round a).facts 1
  | again {a b : α} {n : Nat} (busy : (round a).changed = true)
      (rest : Repeats round (round a).facts b n) : Repeats round a b (n + 1)

theorem Repeats.unique (h : Repeats round a b n) (k : Repeats round a b' n') : b = b' ∧ n = n' := by
  induction h generalizing b' n' with
  | stop idle =>
      cases k with
      | stop _ => exact ⟨rfl, rfl⟩
      | again busy _ => exact absurd (idle.symm.trans busy) Bool.false_ne_true
  | again busy _ ih =>
      cases k with
      | stop idle => exact absurd (idle.symm.trans busy) Bool.false_ne_true
      | again _ rest =>
          obtain ⟨same, count⟩ := ih rest
          exact ⟨same, congrArg (· + 1) count⟩

/-- Repeated from `start`, the rounds end in `final`, with the given number of rounds that does not
pass the bound, and one more of them would add nothing. -/
structure EndsWithin (round : α → Marked α) (start final : α) (rounds bound : Nat) : Prop where
  repeats : ∀ b n, Repeats round start b n ↔ b = final ∧ n = rounds
  rounds_le : rounds ≤ bound
  idle : round final = ⟨final, false⟩

section Settling

variable {next : α → α} (facts : ∀ a, (round a).facts = next a)
  (mark : ∀ a, (round a).changed = true ↔ next a ≠ a)
include facts mark

theorem round_eq_of_fixed (fixed : next a = a) : round a = ⟨a, false⟩ := by
  have same : (round a).facts = a := (facts a).trans fixed
  have idle : (round a).changed = false := by
    rw [Bool.eq_false_iff, Ne, mark]
    exact fun other => other fixed
  cases h : round a
  simp_all

theorem repeats_settle [DecidableEq α] {missing : α → Nat}
    (shrinks : ∀ a, next a ≠ a → missing (next a) < missing a) (a : α) :
    Repeats round a (settle next missing shrinks a).1 (settle next missing shrinks a).2 := by
  fun_induction settle next missing shrinks a with
  | case1 a fixed =>
      have last := round_eq_of_fixed facts mark fixed
      have idle := Repeats.stop (congrArg Marked.changed last)
      rwa [last] at idle
  | case2 a other r ih =>
      refine .again ((mark a).mpr other) ?_
      rw [facts]
      exact ih

end Settling

theorem endsWithin_settle [DecidableEq α] {next : α → α} {missing : α → Nat}
    (shrinks : ∀ a, next a ≠ a → missing (next a) < missing a)
    (facts : ∀ a, (round a).facts = next a)
    (tells : ∀ a, Marked.Tells missing ⟨a, false⟩ (round a)) (start : α) :
    EndsWithin round start (settle next missing shrinks start).1
      (settle next missing shrinks start).2 (missing start + 1) := by
  have mark (a : α) : (round a).changed = true ↔ next a ≠ a :=
    (tells a).changed_iff (facts a) (shrinks a)
  have ends := repeats_settle facts mark shrinks start
  refine ⟨?_, settle_rounds_le next missing shrinks start, ?_⟩
  · intro b n
    constructor
    · exact fun other => other.unique ends
    · rintro ⟨rfl, rfl⟩
      exact ends
  · exact round_eq_of_fixed facts mark (settle_fixed next missing shrinks start)

end Repetition

namespace Marked

/-- Adds a terminal to the set of a nonterminal. A terminal that was there leaves the mark alone. -/
def insert (n : Nonterminal) (m : Marked (Family TerminalSet)) (t : Terminal) :
    Marked (Family TerminalSet) where
  facts := m.facts.set n (m.facts.get n ∪ {t})
  changed := m.changed || !(m.facts.get n).contains t

/-- Adds the members of a set one after the other. -/
def insertAll (n : Nonterminal) (s : TerminalSet) (m : Marked (Family TerminalSet)) :
    Marked (Family TerminalSet) :=
  s.toList.foldl (insert n) m

variable (n : Nonterminal) (m : Marked (Family TerminalSet))

theorem tells_insert (t : Terminal) : Tells FollowSets.missing m (m.insert n t) := by
  by_cases known : t ∈ m.facts.get n
  · apply Tells.of_known
    · apply Family.set_eq_self
      apply TerminalSet.ext
      intro u
      rw [TerminalSet.mem_union, TerminalSet.mem_singleton]
      refine ⟨?_, .inl⟩
      intro h
      cases h with
      | inl old => exact old
      | inr same => exact same ▸ known
    · simp [insert, TerminalSet.mem_iff.mp known]
  · apply Tells.of_new
    · apply FollowSets.missing_lt_of_below (FollowSets.below_set_union m.facts n {t})
      intro same
      apply known
      rw [← same, Family.get_set, if_pos rfl]
      exact TerminalSet.mem_union.mpr (.inr (TerminalSet.mem_singleton.mpr rfl))
    · have absent : (m.facts.get n).contains t = false := Bool.eq_false_iff.mpr known
      simp [insert, absent]

theorem mem_foldl_insert (ts : List Terminal) (k : Nonterminal) (t : Terminal) :
    t ∈ (ts.foldl (insert n) m).facts.get k ↔ t ∈ m.facts.get k ∨ k = n ∧ t ∈ ts := by
  induction ts generalizing m with
  | nil => simp
  | cons u ts ih =>
      rw [List.foldl_cons, ih, insert, Family.get_set]
      by_cases here : k = n <;> simp [here, or_assoc]

theorem facts_insertAll (s : TerminalSet) :
    (m.insertAll n s).facts = m.facts.set n (m.facts.get n ∪ s) := by
  apply Family.ext
  intro k
  apply TerminalSet.ext
  intro t
  rw [insertAll, mem_foldl_insert, Family.get_set]
  split <;> simp_all

theorem tells_insertAll (s : TerminalSet) : Tells FollowSets.missing m (m.insertAll n s) :=
  Tells.foldl (tells_insert n) s.toList m

end Marked

namespace FirstSets

/-- Adds terminals to FIRST of a nonterminal. -/
def addFirst (n : Nonterminal) (s : TerminalSet) (m : Marked FirstSets) : Marked FirstSets :=
  let added := Marked.insertAll n s ⟨m.facts.first, m.changed⟩
  ⟨{ m.facts with first := added.facts }, added.changed⟩

/-- Adds a nonterminal to those that can vanish. -/
def addNullable (n : Nonterminal) (m : Marked FirstSets) : Marked FirstSets where
  facts := { m.facts with nullable := m.facts.nullable.set n true }
  changed := m.changed || !m.facts.isNullable n

/-- Adds what one production shows. Its body is read before anything is added. -/
def absorbMarked (m : Marked FirstSets) (p : Production) : Marked FirstSets :=
  let added := addFirst p.head (m.facts.firstOfSequence p.body) m
  if m.facts.erasable p.body then addNullable p.head added else added

def markedRound (g : Grammar) (f : FirstSets) : Marked FirstSets :=
  g.productions.foldl absorbMarked ⟨f, false⟩

variable (n : Nonterminal) (m : Marked FirstSets)

theorem missing_eq (f : FirstSets) :
    f.missing = f.nullable.total unknown + FollowSets.missing f.first :=
  rfl

theorem tells_addFirst (s : TerminalSet) : Marked.Tells missing m (addFirst n s m) := by
  have added := Marked.tells_insertAll n ⟨m.facts.first, m.changed⟩ s
  constructor
  · exact Nat.add_le_add_left added.le _
  · rw [missing_eq, missing_eq, addFirst, added.mark, Nat.add_lt_add_iff_left]

theorem tells_addNullable : Marked.Tells missing m (addNullable n m) := by
  cases known : m.facts.isNullable n with
  | true =>
      apply Marked.Tells.of_known
      · have same : m.facts.nullable.set n true = m.facts.nullable := Family.set_eq_self known.symm
        rw [addNullable, same]
      · simp [addNullable, known]
  | false =>
      apply Marked.Tells.of_new
      · apply missing_lt_of_below
        · intro k
          refine ⟨?_, TerminalSet.subset_refl _⟩
          intro old
          simp only [addNullable, isNullable, Family.get_set]
          split
          · rfl
          · exact old
        · intro same
          have gained : (addNullable n m).facts.isNullable n = true := by
            simp [addNullable, isNullable, Family.get_set]
          rw [same, known] at gained
          exact Bool.false_ne_true gained
      · simp [addNullable, known]

theorem tells_absorbMarked (p : Production) : Marked.Tells missing m (absorbMarked m p) := by
  have added := tells_addFirst p.head m (m.facts.firstOfSequence p.body)
  unfold absorbMarked
  dsimp only
  split
  · exact added.trans (tells_addNullable p.head _)
  · exact added

theorem facts_absorbMarked (p : Production) : (absorbMarked m p).facts = m.facts.absorb p := by
  have first : (addFirst p.head (m.facts.firstOfSequence p.body) m).facts =
      ⟨m.facts.nullable, m.facts.first.set p.head
        (m.facts.firstOf p.head ∪ m.facts.firstOfSequence p.body)⟩ := by
    rw [addFirst, Marked.facts_insertAll, firstOf]
  unfold absorbMarked
  dsimp only
  split
  · rename_i vanishes
    rw [addNullable, first, absorb, vanishes, Bool.or_true]
  · rename_i stays
    have same : m.facts.nullable.set p.head (m.facts.isNullable p.head) = m.facts.nullable :=
      Family.set_eq_self rfl
    rw [first, absorb, Bool.eq_false_iff.mpr stays, Bool.or_false, same]

theorem facts_markedRound (g : Grammar) (f : FirstSets) : (markedRound g f).facts = round g f :=
  (List.foldl_hom Marked.facts fun m p => (facts_absorbMarked m p).symm).symm

theorem tells_markedRound (g : Grammar) (f : FirstSets) :
    Marked.Tells missing ⟨f, false⟩ (markedRound g f) :=
  .foldl tells_absorbMarked _ _

/-- Some nonterminal vanishes, or begins with a terminal, by `h` and not by `f`. -/
def Gains (f h : FirstSets) : Prop :=
  ∃ n, (h.isNullable n = true ∧ f.isNullable n = false) ∨ ∃ t, t ∈ h.firstOf n ∧ t ∉ f.firstOf n

theorem not_below_iff_gains {f h : FirstSets} : ¬ h.Below f ↔ f.Gains h := by
  simp only [Below, Gains, Classical.not_forall, Classical.not_and_iff_not_or_not,
    exists_prop, Bool.not_eq_true, TerminalSet.not_subset_iff]

theorem Below.ne_iff_gains {f h : FirstSets} (le : f.Below h) : h ≠ f ↔ f.Gains h := by
  rw [← not_below_iff_gains]
  apply not_congr
  constructor
  · intro same
    exact same ▸ le
  · intro back
    exact back.antisymm le

theorem changed_markedRound_iff (g : Grammar) (f : FirstSets) :
    (markedRound g f).changed = true ↔ f.Gains (round g f) := by
  rw [← (below_round g f).ne_iff_gains]
  exact (tells_markedRound g f).changed_iff (facts_markedRound g f) (missing_round_lt g f)

end FirstSets

namespace FollowSets

/-- Goes through a body and adds to FOLLOW of each of its nonterminals. -/
def spreadMarked (f : FirstSets) (head : Nonterminal) :
    List Symbol → Marked (Family TerminalSet) → Marked (Family TerminalSet)
  | [], m => m
  | .nonterminal n :: rest, m =>
      let own := f.firstOfSequence rest
      let added := if f.erasable rest then own ∪ m.facts.get head else own
      spreadMarked f head rest (m.insertAll n added)
  | .terminal _ :: rest, m => spreadMarked f head rest m
  | .epsilon :: rest, m => spreadMarked f head rest m

def markedRound (f : FirstSets) (g : Grammar) (w : Family TerminalSet) :
    Marked (Family TerminalSet) :=
  g.productions.foldl (fun m p => spreadMarked f p.head p.body m) ⟨w, false⟩

variable (f : FirstSets)

theorem tells_spreadMarked (head : Nonterminal) (body : List Symbol)
    (m : Marked (Family TerminalSet)) : Marked.Tells missing m (spreadMarked f head body m) := by
  induction body generalizing m with
  | nil => exact .of_known rfl rfl
  | cons x rest ih =>
      cases x with
      | nonterminal n => exact (Marked.tells_insertAll n m _).trans (ih _)
      | terminal _ | epsilon => exact ih m

theorem facts_spreadMarked (head : Nonterminal) (body : List Symbol)
    (m : Marked (Family TerminalSet)) :
    (spreadMarked f head body m).facts = f.spread head body m.facts := by
  induction body generalizing m with
  | nil => rfl
  | cons x rest ih =>
      cases x with
      | nonterminal n => rw [spreadMarked, ih, Marked.facts_insertAll, FirstSets.spread]
      | terminal _ | epsilon => exact ih m

theorem facts_markedRound (g : Grammar) (w : Family TerminalSet) :
    (markedRound f g w).facts = f.followRound g w :=
  (List.foldl_hom Marked.facts fun m p => (facts_spreadMarked f p.head p.body m).symm).symm

theorem tells_markedRound (g : Grammar) (w : Family TerminalSet) :
    Marked.Tells missing ⟨w, false⟩ (markedRound f g w) :=
  .foldl (fun m (p : Production) => tells_spreadMarked f p.head p.body m) _ _

/-- Some nonterminal is followed by a terminal by `v` and not by `w`. -/
def Gains (w v : Family TerminalSet) : Prop :=
  ∃ n, ∃ t, t ∈ v.get n ∧ t ∉ w.get n

theorem not_below_iff_gains {w v : Family TerminalSet} : ¬ Below v w ↔ Gains w v := by
  simp only [Below, Gains, Classical.not_forall, TerminalSet.not_subset_iff]

theorem Below.ne_iff_gains {w v : Family TerminalSet} (le : Below w v) : v ≠ w ↔ Gains w v := by
  rw [← not_below_iff_gains]
  apply not_congr
  constructor
  · intro same
    exact same ▸ le
  · intro back
    exact back.antisymm le

theorem changed_markedRound_iff (g : Grammar) (w : Family TerminalSet) :
    (markedRound f g w).changed = true ↔ Gains w (f.followRound g w) := by
  rw [← (below_followRound f g w).ne_iff_gains]
  exact (tells_markedRound f g w).changed_iff (facts_markedRound f g w)
    (missing_followRound_lt f g w)

theorem missing_followSeed (g : Grammar) : missing g.followSeed = 35 := by
  rw [Grammar.followSeed]
  cases g.start <;> decide

end FollowSets

/-- For every grammar the rounds of FIRST end with the forty-first at the latest, and those of
FOLLOW with the thirty-sixth, in the sets of the grammar and after as many rounds as are reported.
In any round the mark is set exactly if the round adds a fact. -/
theorem Sets.rounds_end_within (g : Grammar) :
    EndsWithin (FirstSets.markedRound g) .none (ofGrammar g).toFirstSets (firstRounds g) 41 ∧
    EndsWithin (FollowSets.markedRound (ofGrammar g).toFirstSets g) g.followSeed
      (ofGrammar g).follow (followRounds g) 36 ∧
    (∀ f, (FirstSets.markedRound g f).facts = FirstSets.round g f ∧
      ((FirstSets.markedRound g f).changed = true ↔ f.Gains (FirstSets.round g f))) ∧
    (∀ f w, (FollowSets.markedRound f g w).facts = f.followRound g w ∧
      ((FollowSets.markedRound f g w).changed = true ↔
        FollowSets.Gains w (f.followRound g w))) := by
  refine ⟨?_, ?_, ?_, ?_⟩
  · exact endsWithin_settle (FirstSets.missing_round_lt g) (FirstSets.facts_markedRound g)
      (FirstSets.tells_markedRound g) .none
  · have ends := endsWithin_settle (FollowSets.missing_followRound_lt (ofGrammar g).toFirstSets g)
      (FollowSets.facts_markedRound _ g) (FollowSets.tells_markedRound _ g) g.followSeed
    rwa [FollowSets.missing_followSeed] at ends
  · intro f
    exact ⟨FirstSets.facts_markedRound g f, FirstSets.changed_markedRound_iff g f⟩
  · intro f w
    exact ⟨FollowSets.facts_markedRound f g w, FollowSets.changed_markedRound_iff f g w⟩

-- Listed from the top down, each production sees what the next one added only a round later.
example : Sets.firstRounds ⟨.Z, [⟨.Z, [.nonterminal .S]⟩, ⟨.S, [.nonterminal .A]⟩,
    ⟨.A, [.nonterminal .B]⟩, ⟨.B, [.terminal .int]⟩]⟩ = 5 := by
  cbv

end DeclLine

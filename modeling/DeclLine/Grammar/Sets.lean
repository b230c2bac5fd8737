import DeclLine.Grammar.Basic
import DeclLine.Grammar.Settle
import DeclLine.Grammar.TerminalSet

/-!
Nullable nonterminals and the FIRST and FOLLOW sets. Each is the outcome of rounds over the
productions, repeated until a round adds nothing. A round works in place: what one production
adds is seen by the productions after it.
-/
namespace DeclLine

/-- Which nonterminals can vanish, and which terminals can begin what they derive. -/
structure FirstSets where
  nullable : Family Bool
  first : Family TerminalSet
  deriving DecidableEq, Repr

namespace FirstSets

def isNullable (f : FirstSets) (n : Nonterminal) : Bool :=
  f.nullable.get n

def firstOf (f : FirstSets) (n : Nonterminal) : TerminalSet :=
  f.first.get n

/-- Whether all of the sequence can vanish. -/
def erasable (f : FirstSets) : List Symbol → Bool
  | [] => true
  | .epsilon :: rest => f.erasable rest
  | .terminal _ :: _ => false
  | .nonterminal n :: rest => f.isNullable n && f.erasable rest

/-- The terminals that can begin the sequence. -/
def firstOfSequence (f : FirstSets) : List Symbol → TerminalSet
  | [] => ∅
  | .epsilon :: rest => f.firstOfSequence rest
  | .terminal t :: _ => {t}
  | .nonterminal n :: rest =>
      if f.isNullable n then f.firstOf n ∪ f.firstOfSequence rest else f.firstOf n

/-- Adds what one production shows about its head. -/
def absorb (f : FirstSets) (p : Production) : FirstSets where
  nullable := f.nullable.set p.head (f.isNullable p.head || f.erasable p.body)
  first := f.first.set p.head (f.firstOf p.head ∪ f.firstOfSequence p.body)

def round (g : Grammar) (f : FirstSets) : FirstSets :=
  g.productions.foldl absorb f

def none : FirstSets := ⟨.const false, .const ∅⟩

/-- Counts a fact that is not established. -/
def unknown (b : Bool) : Nat :=
  (!b).toNat

/-- Number of facts that could still be added. -/
def missing (f : FirstSets) : Nat :=
  f.nullable.total unknown + f.first.total TerminalSet.room

/-- Every fact of `f` is a fact of `h`. -/
def Below (f h : FirstSets) : Prop :=
  ∀ n, (f.isNullable n = true → h.isNullable n = true) ∧ f.firstOf n ⊆ h.firstOf n

theorem Below.refl (f : FirstSets) : f.Below f :=
  fun _ => ⟨id, TerminalSet.subset_refl _⟩

theorem Below.trans {e f h : FirstSets} (h₁ : e.Below f) (h₂ : f.Below h) : e.Below h :=
  fun n => ⟨fun k => (h₂ n).1 ((h₁ n).1 k), TerminalSet.subset_trans (h₁ n).2 (h₂ n).2⟩

theorem below_absorb (f : FirstSets) (p : Production) : f.Below (f.absorb p) := by
  intro n
  simp only [absorb, isNullable, firstOf, Family.get_set]
  split
  · subst n
    exact ⟨fun h => by simp [h], TerminalSet.subset_union_left _ _⟩
  · exact ⟨id, TerminalSet.subset_refl _⟩

theorem below_foldl_absorb (ps : List Production) (f : FirstSets) :
    f.Below (ps.foldl absorb f) := by
  induction ps generalizing f with
  | nil => exact .refl f
  | cons p ps ih => exact (below_absorb f p).trans (ih (f.absorb p))

theorem below_round (g : Grammar) (f : FirstSets) : f.Below (round g f) :=
  below_foldl_absorb g.productions f

theorem unknown_le {a b : Bool} (h : a = true → b = true) : unknown b ≤ unknown a := by
  cases a <;> cases b <;> simp_all [unknown]

theorem unknown_lt {a b : Bool} (h : a = true → b = true) (ne : b ≠ a) :
    unknown b < unknown a := by
  cases a <;> cases b <;> simp_all [unknown]

theorem missing_lt_of_below {f h : FirstSets} (le : f.Below h) (ne : h ≠ f) :
    h.missing < f.missing := by
  have hn : ∀ n, unknown (h.nullable.get n) ≤ unknown (f.nullable.get n) := fun n =>
    unknown_le (le n).1
  have hs : ∀ n, (h.first.get n).room ≤ (f.first.get n).room := fun n =>
    TerminalSet.room_le_of_subset (le n).2
  have hnt := Family.total_le unknown hn
  have hst := Family.total_le TerminalSet.room hs
  simp only [missing]
  by_cases hnull : ∀ n, h.nullable.get n = f.nullable.get n
  · have : ∃ n, h.first.get n ≠ f.first.get n := by
      apply Classical.byContradiction
      intro hne
      have h₁ : h.nullable = f.nullable := Family.ext hnull
      have h₂ : h.first = f.first := Family.ext fun n =>
        Classical.byContradiction fun k => hne ⟨n, k⟩
      apply ne
      cases h
      cases f
      simp_all
    obtain ⟨n, hne⟩ := this
    have := Family.total_lt TerminalSet.room hs n
      (TerminalSet.room_lt_of_subset (le n).2 (Ne.symm hne))
    omega
  · obtain ⟨n, hne⟩ := Classical.not_forall.mp hnull
    have := Family.total_lt unknown hn n (unknown_lt (le n).1 hne)
    omega

theorem missing_round_lt (g : Grammar) (f : FirstSets) (ne : round g f ≠ f) :
    (round g f).missing < f.missing :=
  missing_lt_of_below (below_round g f) ne

/-- The settled sets of a grammar and the rounds it took to settle them. -/
def settled (g : Grammar) : FirstSets × Nat :=
  settle (round g) missing (missing_round_lt g) none

/-- Adds to FOLLOW of every nonterminal of a body what can begin the rest of the body and, where
the rest can vanish, FOLLOW of the head. -/
def spread (f : FirstSets) (head : Nonterminal) :
    List Symbol → Family TerminalSet → Family TerminalSet
  | [], w => w
  | .nonterminal n :: rest, w =>
      let own := f.firstOfSequence rest
      let added := if f.erasable rest then own ∪ w.get head else own
      f.spread head rest (w.set n (w.get n ∪ added))
  | .terminal _ :: rest, w => f.spread head rest w
  | .epsilon :: rest, w => f.spread head rest w

def followRound (f : FirstSets) (g : Grammar) (w : Family TerminalSet) : Family TerminalSet :=
  g.productions.foldl (fun w p => f.spread p.head p.body w) w

end FirstSets

/-- FOLLOW before the first round: the end marker follows the start symbol. -/
def Grammar.followSeed (g : Grammar) : Family TerminalSet :=
  (Family.const ∅).set g.start {.endMark}

namespace FollowSets

def missing (w : Family TerminalSet) : Nat :=
  w.total TerminalSet.room

def Below (w v : Family TerminalSet) : Prop :=
  ∀ n, w.get n ⊆ v.get n

theorem Below.refl (w : Family TerminalSet) : Below w w :=
  fun _ => TerminalSet.subset_refl _

theorem Below.trans {u v w : Family TerminalSet} (h₁ : Below u v) (h₂ : Below v w) : Below u w :=
  fun n => TerminalSet.subset_trans (h₁ n) (h₂ n)

theorem below_set_union (w : Family TerminalSet) (n : Nonterminal) (s : TerminalSet) :
    Below w (w.set n (w.get n ∪ s)) := by
  intro m
  rw [Family.get_set]
  split
  · subst m
    exact TerminalSet.subset_union_left _ _
  · exact TerminalSet.subset_refl _

theorem below_spread (f : FirstSets) (head : Nonterminal) (body : List Symbol)
    (w : Family TerminalSet) : Below w (f.spread head body w) := by
  induction body generalizing w with
  | nil => exact .refl w
  | cons x rest ih =>
      cases x with
      | nonterminal n => exact (below_set_union w n _).trans (ih _)
      | terminal _ | epsilon => exact ih w

theorem below_followRound (f : FirstSets) (g : Grammar) (w : Family TerminalSet) :
    Below w (f.followRound g w) := by
  unfold FirstSets.followRound
  generalize g.productions = ps
  induction ps generalizing w with
  | nil => exact .refl w
  | cons p ps ih => exact (below_spread f p.head p.body w).trans (ih _)

theorem missing_lt_of_below {w v : Family TerminalSet} (le : Below w v) (ne : v ≠ w) :
    missing v < missing w := by
  have : ∃ n, v.get n ≠ w.get n := by
    apply Classical.byContradiction
    intro hne
    exact ne (Family.ext fun n => Classical.byContradiction fun k => hne ⟨n, k⟩)
  obtain ⟨n, hne⟩ := this
  exact Family.total_lt TerminalSet.room (fun m => TerminalSet.room_le_of_subset (le m)) n
    (TerminalSet.room_lt_of_subset (le n) (Ne.symm hne))

theorem missing_followRound_lt (f : FirstSets) (g : Grammar) (w : Family TerminalSet)
    (ne : f.followRound g w ≠ w) : missing (f.followRound g w) < missing w :=
  missing_lt_of_below (below_followRound f g w) ne

/-- The settled FOLLOW sets over given FIRST sets, and the rounds it took to settle them. -/
def settled (f : FirstSets) (g : Grammar) : Family TerminalSet × Nat :=
  settle (f.followRound g) missing (missing_followRound_lt f g) g.followSeed

end FollowSets

/-- All that a parse table is made from. -/
structure Sets extends FirstSets where
  follow : Family TerminalSet
  deriving DecidableEq, Repr

namespace Sets

def followOf (s : Sets) (n : Nonterminal) : TerminalSet :=
  s.follow.get n

def ofGrammar (g : Grammar) : Sets where
  toFirstSets := (FirstSets.settled g).1
  follow := (FollowSets.settled (FirstSets.settled g).1 g).1

/-- Rounds that FIRST took, the one that added nothing included. -/
def firstRounds (g : Grammar) : Nat :=
  (FirstSets.settled g).2

/-- Rounds that FOLLOW took, the one that added nothing included. -/
def followRounds (g : Grammar) : Nat :=
  (FollowSets.settled (FirstSets.settled g).1 g).2

end Sets

end DeclLine

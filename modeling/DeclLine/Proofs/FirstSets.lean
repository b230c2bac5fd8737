import DeclLine.Grammar.Sets
import DeclLine.Proofs.Derivation

/-!
The settled sets say what the grammar derives: a sequence is erasable exactly when it vanishes,
and its FIRST set holds the terminals that can come to its front. One half is an invariant of the
rounds, the other follows from the last round having added nothing.
-/
namespace DeclLine

@[simp] theorem spelled_epsilon (a : List Symbol) : spelled (.epsilon :: a) = spelled a := by
  simp [spelled]

@[simp] theorem spelled_terminal (t : Terminal) (a : List Symbol) :
    spelled (.terminal t :: a) = .terminal t :: spelled a := by
  simp [spelled]

@[simp] theorem spelled_nonterminal (n : Nonterminal) (a : List Symbol) :
    spelled (.nonterminal n :: a) = .nonterminal n :: spelled a := by
  simp [spelled]

section Scan

variable {α β : Type} {le : α → α → Prop} {op : α → β → α}

theorem le_foldl (refl : ∀ a, le a a) (trans : ∀ a b c, le a b → le b c → le a c)
    (grows : ∀ a b, le a (op a b)) (bs : List β) (a : α) : le a (bs.foldl op a) := by
  induction bs generalizing a with
  | nil => exact refl a
  | cons b bs ih => exact trans _ _ _ (grows a b) (ih (op a b))

/-- A scan by a growing operation that ends where it started did nothing on the way. -/
theorem eq_of_foldl_eq (refl : ∀ a, le a a) (trans : ∀ a b c, le a b → le b c → le a c)
    (antisymm : ∀ a b, le a b → le b a → a = b) (grows : ∀ a b, le a (op a b))
    {bs : List β} {a : α} (h : bs.foldl op a = a) : ∀ b ∈ bs, op a b = a := by
  induction bs with
  | nil => simp
  | cons b bs ih =>
      have back : le (op a b) a := by
        have := le_foldl refl trans grows bs (op a b)
        rwa [← List.foldl_cons, h] at this
      have same : op a b = a := antisymm _ _ back (grows a b)
      rw [List.foldl_cons, same] at h
      intro c hc
      cases hc with
      | head => exact same
      | tail _ hc => exact ih h c hc

end Scan

namespace FirstSets

variable {g : Grammar} {f : FirstSets}

theorem mem_firstOfSequence_nonterminal (f : FirstSets) (n : Nonterminal) (a : List Symbol)
    (t : Terminal) :
    t ∈ f.firstOfSequence (.nonterminal n :: a) ↔
      t ∈ f.firstOf n ∨ f.isNullable n = true ∧ t ∈ f.firstOfSequence a := by
  simp only [firstOfSequence]
  split <;> simp_all

theorem mem_firstOfSequence_singleton (f : FirstSets) (n : Nonterminal) (t : Terminal) :
    t ∈ f.firstOfSequence [.nonterminal n] ↔ t ∈ f.firstOf n := by
  rw [mem_firstOfSequence_nonterminal]
  simp [firstOfSequence]

theorem erasable_spelled (f : FirstSets) (a : List Symbol) :
    f.erasable (spelled a) = f.erasable a := by
  induction a with
  | nil => rfl
  | cons x a ih => cases x <;> simp [erasable, ih]

theorem firstOfSequence_spelled (f : FirstSets) (a : List Symbol) :
    f.firstOfSequence (spelled a) = f.firstOfSequence a := by
  induction a with
  | nil => rfl
  | cons x a ih => cases x <;> simp [firstOfSequence, ih]

theorem erasable_append (f : FirstSets) (a b : List Symbol) :
    f.erasable (a ++ b) = (f.erasable a && f.erasable b) := by
  induction a with
  | nil => rfl
  | cons x a ih => cases x <;> simp [erasable, ih, Bool.and_assoc]

theorem mem_firstOfSequence_append (f : FirstSets) (a b : List Symbol) (t : Terminal) :
    t ∈ f.firstOfSequence (a ++ b) ↔
      t ∈ f.firstOfSequence a ∨ f.erasable a = true ∧ t ∈ f.firstOfSequence b := by
  induction a with
  | nil => simp [erasable, firstOfSequence]
  | cons x a ih =>
      cases x with
      | terminal u => simp [erasable, firstOfSequence]
      | epsilon => simpa [erasable, firstOfSequence] using ih
      | nonterminal n =>
          simp only [List.cons_append, mem_firstOfSequence_nonterminal, ih, erasable,
            Bool.and_eq_true, and_or_left, or_assoc, and_assoc]

/-- Every fact that the sets hold is a fact of the grammar. -/
def Sound (g : Grammar) (f : FirstSets) : Prop :=
  ∀ n, (f.isNullable n = true → g.Vanishes [.nonterminal n]) ∧
    ∀ t ∈ f.firstOf n, g.Begins t [.nonterminal n]

theorem Sound.vanishes (sound : Sound g f) {a : List Symbol} (h : f.erasable a = true) :
    g.Vanishes (spelled a) := by
  induction a with
  | nil => exact .nil
  | cons x a ih =>
      cases x with
      | terminal t => simp [erasable] at h
      | epsilon => simpa using ih h
      | nonterminal n =>
          simp only [erasable, Bool.and_eq_true] at h
          rw [spelled_nonterminal]
          exact Grammar.vanishes_append.mpr ⟨(sound n).1 h.1, ih h.2⟩

theorem Sound.begins (sound : Sound g f) {a : List Symbol} {t : Terminal}
    (h : t ∈ f.firstOfSequence a) : g.Begins t (spelled a) := by
  induction a with
  | nil => simp [firstOfSequence] at h
  | cons x a ih =>
      cases x with
      | terminal u =>
          obtain rfl := TerminalSet.mem_singleton.mp h
          rw [spelled_terminal]
          exact .here _
      | epsilon => simpa using ih h
      | nonterminal n =>
          rw [spelled_nonterminal]
          rcases (mem_firstOfSequence_nonterminal f n a t).mp h with h | ⟨hn, h⟩
          · exact Grammar.begins_append.mpr (.inl ((sound n).2 t h))
          · exact .behind ((sound n).1 hn) (ih h)

theorem sound_none (g : Grammar) : Sound g none := by
  intro n
  simp [none, isNullable, firstOf]

theorem Sound.absorb (sound : Sound g f) {p : Production} (mem : p ∈ g.productions) :
    Sound g (f.absorb p) := by
  intro n
  simp only [FirstSets.absorb, isNullable, firstOf, Family.get_set]
  by_cases hn : n = p.head
  · subst hn
    simp only [if_true, Bool.or_eq_true, TerminalSet.mem_union]
    refine ⟨?_, ?_⟩
    · rintro (h | h)
      · exact (sound p.head).1 h
      · exact Grammar.vanishes_head mem (sound.vanishes h)
    · rintro t (h | h)
      · exact (sound p.head).2 t h
      · exact .inside p mem (sound.begins h)
  · simp only [if_neg hn]
    exact sound n

theorem Sound.foldl (ps : List Production) (sub : ∀ p ∈ ps, p ∈ g.productions)
    (sound : Sound g f) : Sound g (ps.foldl FirstSets.absorb f) := by
  induction ps generalizing f with
  | nil => exact sound
  | cons p ps ih =>
      exact ih (fun q hq => sub q (.tail p hq)) (sound.absorb (sub p (.head ps)))

theorem settled_sound (g : Grammar) : Sound g (settled g).1 :=
  settle_induction _ _ _ (fun _ h => Sound.foldl _ (fun _ hp => hp) h) _ (sound_none g)

/-- No production has anything left to add. -/
def Closed (g : Grammar) (f : FirstSets) : Prop :=
  ∀ p ∈ g.productions, (f.erasable p.body = true → f.isNullable p.head = true) ∧
    f.firstOfSequence p.body ⊆ f.firstOf p.head

theorem Below.antisymm {e f : FirstSets} (h₁ : e.Below f) (h₂ : f.Below e) : e = f := by
  have hn : e.nullable = f.nullable := Family.ext fun n =>
    Bool.eq_iff_iff.mpr ⟨(h₁ n).1, (h₂ n).1⟩
  have hf : e.first = f.first := Family.ext fun n =>
    TerminalSet.ext fun t => ⟨(h₁ n).2 t, (h₂ n).2 t⟩
  cases e
  cases f
  simp_all

theorem closed_of_round (h : round g f = f) : Closed g f := by
  intro p hp
  have same : f.absorb p = f :=
    eq_of_foldl_eq .refl (fun _ _ _ => .trans) (fun _ _ => Below.antisymm)
      below_absorb h p hp
  constructor
  · intro he
    rw [← same]
    simp [absorb, isNullable, Family.get_set, he]
  · intro t ht
    rw [← same]
    simp [absorb, firstOf, Family.get_set, ht]

theorem settled_closed (g : Grammar) : Closed g (settled g).1 :=
  closed_of_round (settle_fixed _ _ _ _)

theorem Closed.erasable (closed : Closed g f) {a : List Symbol} (h : g.Vanishes a) :
    f.erasable a = true := by
  induction h with
  | nil => rfl
  | cons p mem _ _ ihBody ihTail =>
      rw [erasable_spelled] at ihBody
      simp only [FirstSets.erasable, Bool.and_eq_true]
      exact ⟨(closed p mem).1 ihBody, ihTail⟩

theorem Closed.isNullable (closed : Closed g f) {n : Nonterminal}
    (h : g.Vanishes [.nonterminal n]) : f.isNullable n = true := by
  simpa [FirstSets.erasable] using closed.erasable h

theorem Closed.mem_firstOfSequence (closed : Closed g f) {a : List Symbol} {t : Terminal}
    (h : g.Begins t a) : t ∈ f.firstOfSequence a := by
  induction h with
  | here rest => exact TerminalSet.mem_singleton.mpr rfl
  | inside p mem _ ih =>
      rw [firstOfSequence_spelled] at ih
      exact (mem_firstOfSequence_nonterminal ..).mpr (.inl ((closed p mem).2 t ih))
  | behind gone _ ih =>
      exact (mem_firstOfSequence_nonterminal ..).mpr (.inr ⟨closed.isNullable gone, ih⟩)

end FirstSets

namespace Sets

variable {g : Grammar}

theorem erasable_iff_vanishes {a : List Symbol} :
    (ofGrammar g).erasable a = true ↔ g.Vanishes (spelled a) := by
  refine ⟨(FirstSets.settled_sound g).vanishes, fun h => ?_⟩
  rw [← FirstSets.erasable_spelled]
  exact (FirstSets.settled_closed g).erasable h

theorem mem_firstOfSequence_iff_begins {a : List Symbol} {t : Terminal} :
    t ∈ (ofGrammar g).firstOfSequence a ↔ g.Begins t (spelled a) := by
  refine ⟨(FirstSets.settled_sound g).begins, fun h => ?_⟩
  rw [← FirstSets.firstOfSequence_spelled]
  exact (FirstSets.settled_closed g).mem_firstOfSequence h

theorem isNullable_iff_vanishes {n : Nonterminal} :
    (ofGrammar g).isNullable n = true ↔ g.Vanishes [.nonterminal n] :=
  ⟨(FirstSets.settled_sound g n).1, (FirstSets.settled_closed g).isNullable⟩

theorem mem_firstOf_iff_begins {n : Nonterminal} {t : Terminal} :
    t ∈ (ofGrammar g).firstOf n ↔ g.Begins t [.nonterminal n] := by
  refine ⟨(FirstSets.settled_sound g n).2 t, fun h => ?_⟩
  exact (FirstSets.mem_firstOfSequence_singleton ..).mp
    ((FirstSets.settled_closed g).mem_firstOfSequence h)

/-- Nonterminals and sequences of symbols can vanish, and can begin with a terminal, exactly when
the grammar derives the empty form, or a form with the terminal in front. -/
theorem nullable_first_exact (g : Grammar) :
    (∀ n, (ofGrammar g).isNullable n = true ↔ g.Derives [.nonterminal n] []) ∧
    (∀ n t, t ∈ (ofGrammar g).firstOf n ↔
      ∃ rest, g.Derives [.nonterminal n] (.terminal t :: rest)) ∧
    ∀ a, ((ofGrammar g).erasable a = true ↔ g.Derives (spelled a) []) ∧
      ∀ t, t ∈ (ofGrammar g).firstOfSequence a ↔
        ∃ rest, g.Derives (spelled a) (.terminal t :: rest) := by
  refine ⟨?_, ?_, fun a => ⟨?_, ?_⟩⟩
  · intro n
    rw [isNullable_iff_vanishes, Grammar.vanishes_iff_derives]
  · intro n t
    rw [mem_firstOf_iff_begins, Grammar.begins_iff_derives]
  · rw [erasable_iff_vanishes, Grammar.vanishes_iff_derives]
  · intro t
    rw [mem_firstOfSequence_iff_begins, Grammar.begins_iff_derives]

-- `S` vanishes behind a mark and shows what `A` begins with; `B` is productive nowhere.
example :
    let s := ofGrammar ⟨.Z, [⟨.Z, [.nonterminal .S, .epsilon, .nonterminal .A]⟩,
      ⟨.S, [.epsilon, .nonterminal .S, .epsilon]⟩, ⟨.S, [.epsilon]⟩, ⟨.A, [.terminal .int]⟩,
      ⟨.B, [.nonterminal .B, .terminal .str]⟩]⟩
    s.isNullable .S = true ∧ (s.firstOf .Z).toList = [.int] ∧ (s.firstOf .B).toList = [] := by
  cbv

end Sets

end DeclLine

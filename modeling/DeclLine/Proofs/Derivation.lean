import DeclLine.Grammar.Derivation

/-!
Derivations followed along their trees. A form vanishes, or begins with a terminal, exactly when
rewriting leads there; and what is derived from two forms side by side splits between them.
-/
namespace DeclLine.Grammar

/-- Every symbol of the form derives the empty string. -/
inductive Vanishes (g : Grammar) : List Symbol → Prop
  | nil : Vanishes g []
  | cons {rest : List Symbol} (p : Production) (mem : p ∈ g.productions)
      (body : Vanishes g (spelled p.body)) (tail : Vanishes g rest) :
      Vanishes g (.nonterminal p.head :: rest)

/-- The terminal comes to the front when the leftmost symbols are replaced or vanish. -/
inductive Begins (g : Grammar) (t : Terminal) : List Symbol → Prop
  | here (rest : List Symbol) : Begins g t (.terminal t :: rest)
  | inside {rest : List Symbol} (p : Production) (mem : p ∈ g.productions)
      (body : Begins g t (spelled p.body)) : Begins g t (.nonterminal p.head :: rest)
  | behind {n : Nonterminal} {rest : List Symbol} (gone : Vanishes g [.nonterminal n])
      (later : Begins g t rest) : Begins g t (.nonterminal n :: rest)

variable {g : Grammar} {t : Terminal}

theorem vanishes_append {a b : List Symbol} :
    g.Vanishes (a ++ b) ↔ g.Vanishes a ∧ g.Vanishes b := by
  induction a with
  | nil => exact ⟨fun h => ⟨.nil, h⟩, fun h => h.2⟩
  | cons x a ih =>
      constructor
      · intro h
        cases h with
        | cons p mem body tail => exact ⟨.cons p mem body (ih.mp tail).1, (ih.mp tail).2⟩
      · rintro ⟨h, hb⟩
        cases h with
        | cons p mem body tail => exact .cons p mem body (ih.mpr ⟨tail, hb⟩)

theorem vanishes_head {p : Production} (mem : p ∈ g.productions)
    (body : g.Vanishes (spelled p.body)) : g.Vanishes [.nonterminal p.head] :=
  .cons p mem body .nil

theorem begins_append {a b : List Symbol} :
    g.Begins t (a ++ b) ↔ g.Begins t a ∨ g.Vanishes a ∧ g.Begins t b := by
  induction a with
  | nil =>
      refine ⟨fun h => .inr ⟨.nil, h⟩, ?_⟩
      rintro (h | ⟨_, h⟩)
      · cases h
      · exact h
  | cons x a ih =>
      constructor
      · intro h
        cases h with
        | here _ => exact .inl (.here a)
        | inside p mem body => exact .inl (.inside p mem body)
        | behind gone later =>
            rcases ih.mp later with h | ⟨hv, h⟩
            · exact .inl (.behind gone h)
            · exact .inr ⟨vanishes_append.mpr ⟨gone, hv⟩, h⟩
      · rintro (h | ⟨hv, h⟩)
        · cases h with
          | here _ => exact .here (a ++ b)
          | inside p mem body => exact .inside p mem body
          | behind gone later => exact .behind gone (ih.mpr (.inl later))
        · cases hv with
          | cons p mem body tail =>
              exact .behind (vanishes_head mem body) (ih.mpr (.inr ⟨tail, h⟩))

theorem Vanishes.derives {a : List Symbol} (h : g.Vanishes a) : g.Derives a [] := by
  induction h with
  | nil => exact .refl []
  | cons p mem _ _ ihBody ihTail =>
      exact Derives.step (u := []) p mem (ihBody.append ihTail)

theorem Begins.derives {a : List Symbol} (h : g.Begins t a) :
    ∃ rest, g.Derives a (.terminal t :: rest) := by
  induction h with
  | here rest => exact ⟨rest, .refl _⟩
  | @inside after p mem _ ih =>
      obtain ⟨rest, d⟩ := ih
      exact ⟨rest ++ after, Derives.step (u := []) p mem (d.append (.refl after))⟩
  | behind gone _ ih =>
      obtain ⟨rest, d⟩ := ih
      exact ⟨rest, gone.derives.append d⟩

/-- Rewriting to the empty form takes every symbol away. -/
theorem Derives.vanishes {a : List Symbol} (h : g.Derives a []) : g.Vanishes a := by
  generalize he : ([] : List Symbol) = e at h
  induction h with
  | refl _ => subst he; exact .nil
  | step p mem _ ih =>
      obtain ⟨front, back⟩ := vanishes_append.mp (ih he)
      obtain ⟨front, body⟩ := vanishes_append.mp front
      exact vanishes_append.mpr ⟨front, .cons p mem body back⟩

theorem Derives.begins {a rest : List Symbol} (h : g.Derives a (.terminal t :: rest)) :
    g.Begins t a := by
  generalize he : Symbol.terminal t :: rest = e at h
  induction h with
  | refl _ => subst he; exact .here rest
  | step p mem _ ih =>
      rcases begins_append.mp (ih he) with h | ⟨gone, h⟩
      · rcases begins_append.mp h with h | ⟨gone, h⟩
        · exact begins_append.mpr (.inl h)
        · exact begins_append.mpr (.inr ⟨gone, .inside p mem h⟩)
      · obtain ⟨front, body⟩ := vanishes_append.mp gone
        exact begins_append.mpr (.inr ⟨front, .behind (vanishes_head mem body) h⟩)

theorem vanishes_iff_derives {a : List Symbol} : g.Vanishes a ↔ g.Derives a [] :=
  ⟨Vanishes.derives, Derives.vanishes⟩

theorem begins_iff_derives {a : List Symbol} :
    g.Begins t a ↔ ∃ rest, g.Derives a (.terminal t :: rest) :=
  ⟨Begins.derives, fun ⟨_, derives⟩ => derives.begins⟩

theorem Derives.split {a b c : List Symbol} (h : g.Derives (a ++ b) c) :
    ∃ left right, c = left ++ right ∧ g.Derives a left ∧ g.Derives b right := by
  generalize he : a ++ b = e at h
  induction h generalizing a b with
  | refl _ => exact ⟨a, b, he.symm, .refl a, .refl b⟩
  | @step u v w p mem _ ih =>
      rcases List.append_eq_append_iff.mp he with ⟨m, rfl, rfl⟩ | ⟨m, rfl, hm⟩
      · obtain ⟨left, right, rfl, da, db⟩ :=
          ih (a := a) (b := m ++ spelled p.body ++ v) (by simp)
        exact ⟨left, right, rfl, da, .step p mem db⟩
      · -- The rewritten nonterminal opens `m ++ b`: it belongs to `a` unless `m` is empty.
        cases m with
        | nil =>
            subst hm
            obtain ⟨left, right, rfl, da, db⟩ :=
              ih (a := u) (b := spelled p.body ++ v) (by simp)
            exact ⟨left, right, rfl, by simpa using da, Derives.step (u := []) p mem db⟩
        | cons x m =>
            obtain ⟨rfl, rfl⟩ := List.cons.inj hm
            obtain ⟨left, right, rfl, da, db⟩ :=
              ih (a := u ++ spelled p.body ++ m) (b := b) (by simp)
            exact ⟨left, right, rfl, .step p mem da, db⟩

/-- A symbol that is no nonterminal stays where it is. -/
theorem Derives.fixed {x : Symbol} {a c : List Symbol} (hx : ∀ n, x ≠ .nonterminal n)
    (h : g.Derives (x :: a) c) : ∃ rest, c = x :: rest ∧ g.Derives a rest := by
  obtain ⟨left, right, rfl, dx, da⟩ := Derives.split (a := [x]) h
  refine ⟨right, ?_, da⟩
  generalize he : [x] = e at dx
  cases dx with
  | refl _ => rw [← he, List.singleton_append]
  | step p _ _ =>
      rcases List.append_eq_singleton_iff.mp he.symm with ⟨_, hs⟩ | ⟨_, hs⟩
      · exact absurd (List.cons.inj hs).1.symm (hx p.head)
      · cases hs

/-- A nonterminal that gives way to a terminal is replaced by one of its bodies at once. -/
theorem Derives.unfold {n : Nonterminal} {a rest : List Symbol}
    (h : g.Derives (.nonterminal n :: a) (.terminal t :: rest)) :
    ∃ p ∈ g.productions, p.head = n ∧ g.Derives (spelled p.body ++ a) (.terminal t :: rest) := by
  obtain ⟨left, right, hc, dn, da⟩ := Derives.split (a := [.nonterminal n]) h
  rw [hc]
  generalize he : [Symbol.nonterminal n] = e at dn
  cases dn with
  | refl _ => subst he; simp at hc
  | step p mem d =>
      rcases List.append_eq_singleton_iff.mp he.symm with ⟨rfl, hs⟩ | ⟨_, hs⟩
      · obtain ⟨hn, rfl⟩ := List.cons.inj hs
        refine ⟨p, mem, Symbol.nonterminal.inj hn, ?_⟩
        simpa using d.append da
      · cases hs

end DeclLine.Grammar

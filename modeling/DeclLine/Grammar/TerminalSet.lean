import DeclLine.Grammar.Symbol

/-!
Sets of terminals, one bit for each column, and families that give each nonterminal a value of
its own. Sets only grow while FIRST and FOLLOW are computed; `size_lt_of_subset` makes that
growth a measure.
-/
namespace DeclLine

structure TerminalSet where
  bits : BitVec 9
  deriving DecidableEq, Repr

namespace TerminalSet

def contains (s : TerminalSet) (t : Terminal) : Bool :=
  s.bits.getLsbD t.column

instance : Membership Terminal TerminalSet := ⟨fun s t => s.contains t = true⟩

instance (t : Terminal) (s : TerminalSet) : Decidable (t ∈ s) :=
  inferInstanceAs (Decidable (s.contains t = true))

instance : EmptyCollection TerminalSet := ⟨⟨0#9⟩⟩

instance : Singleton Terminal TerminalSet := ⟨fun t => ⟨BitVec.twoPow 9 t.column⟩⟩

instance : Union TerminalSet := ⟨fun s u => ⟨s.bits ||| u.bits⟩⟩

instance : HasSubset TerminalSet := ⟨fun s u => ∀ t, t ∈ s → t ∈ u⟩

/-- The members in column order. -/
def toList (s : TerminalSet) : List Terminal :=
  Terminal.all.filter s.contains

def size (s : TerminalSet) : Nat :=
  Terminal.all.countP s.contains

theorem mem_iff {t : Terminal} {s : TerminalSet} : t ∈ s ↔ s.contains t = true := Iff.rfl

@[simp] theorem not_mem_empty (t : Terminal) : ¬ t ∈ (∅ : TerminalSet) := by
  cases t <;> decide

@[simp] theorem mem_singleton {t u : Terminal} : t ∈ ({u} : TerminalSet) ↔ t = u := by
  cases t <;> cases u <;> decide

@[simp] theorem mem_union {t : Terminal} {s u : TerminalSet} : t ∈ s ∪ u ↔ t ∈ s ∨ t ∈ u := by
  simp only [mem_iff, contains]
  change (s.bits ||| u.bits).getLsbD t.column = true ↔ _
  simp [BitVec.getLsbD_or]

@[simp] theorem mem_toList {t : Terminal} {s : TerminalSet} : t ∈ s.toList ↔ t ∈ s := by
  simp [toList, Terminal.mem_all, mem_iff]

private theorem column_onto {i : Nat} (h : i < 9) : ∃ t : Terminal, t.column = i := by
  match i, h with
  | 0, _ => exact ⟨.int, rfl⟩
  | 1, _ => exact ⟨.str, rfl⟩
  | 2, _ => exact ⟨.const, rfl⟩
  | 3, _ => exact ⟨.float, rfl⟩
  | 4, _ => exact ⟨.bool, rfl⟩
  | 5, _ => exact ⟨.array, rfl⟩
  | 6, _ => exact ⟨.dict, rfl⟩
  | 7, _ => exact ⟨.ident, rfl⟩
  | 8, _ => exact ⟨.endMark, rfl⟩

@[ext] theorem ext {s u : TerminalSet} (h : ∀ t, t ∈ s ↔ t ∈ u) : s = u := by
  obtain ⟨x⟩ := s
  obtain ⟨y⟩ := u
  congr 1
  apply BitVec.eq_of_getLsbD_eq
  intro i hi
  obtain ⟨t, rfl⟩ := column_onto hi
  exact Bool.eq_iff_iff.mpr (h t)

theorem subset_union_left (s u : TerminalSet) : s ⊆ s ∪ u := by
  intro t h
  exact mem_union.mpr (.inl h)

theorem subset_refl (s : TerminalSet) : s ⊆ s := fun _ h => h

theorem subset_trans {r s u : TerminalSet} (h : r ⊆ s) (k : s ⊆ u) : r ⊆ u :=
  fun t ht => k t (h t ht)

theorem not_subset_iff {s u : TerminalSet} : ¬ s ⊆ u ↔ ∃ t, t ∈ s ∧ t ∉ u := by
  change (¬ ∀ t, t ∈ s → t ∈ u) ↔ _
  simp only [Classical.not_forall, exists_prop]

private theorem countP_eq_of_le {p q : Terminal → Bool} (l : List Terminal)
    (h : ∀ t, p t = true → q t = true) :
    l.countP p ≤ l.countP q ∧ (l.countP q ≤ l.countP p → ∀ t ∈ l, q t = true → p t = true) := by
  induction l with
  | nil => simp
  | cons a l ih =>
      have ha := h a
      cases hp : p a <;> cases hq : q a <;> simp_all
      omega

theorem size_le_of_subset {s u : TerminalSet} (h : s ⊆ u) : s.size ≤ u.size :=
  (countP_eq_of_le Terminal.all h).1

/-- A set that gains a member gains in size. -/
theorem size_lt_of_subset {s u : TerminalSet} (h : s ⊆ u) (ne : s ≠ u) : s.size < u.size := by
  apply Nat.lt_of_not_le
  intro le
  exact ne (ext fun t =>
    ⟨h t, (countP_eq_of_le Terminal.all h).2 le t (Terminal.mem_all t)⟩)

theorem size_le (s : TerminalSet) : s.size ≤ 9 :=
  List.countP_le_length

/-- Number of terminals that are not in the set. -/
def room (s : TerminalSet) : Nat :=
  9 - s.size

theorem room_le_of_subset {s u : TerminalSet} (h : s ⊆ u) : u.room ≤ s.room := by
  have := size_le_of_subset h
  simp only [room]
  omega

theorem room_lt_of_subset {s u : TerminalSet} (h : s ⊆ u) (ne : s ≠ u) : u.room < s.room := by
  have := size_lt_of_subset h ne
  have := size_le u
  simp only [room]
  omega

end TerminalSet

/-- One value for each nonterminal. -/
structure Family (α : Type) where
  Z : α
  S : α
  A : α
  B : α
  deriving DecidableEq, Repr

namespace Family

variable {α β : Type}

def const (a : α) : Family α := ⟨a, a, a, a⟩

def get (x : Family α) : Nonterminal → α
  | .Z => x.Z
  | .S => x.S
  | .A => x.A
  | .B => x.B

def set (x : Family α) (n : Nonterminal) (a : α) : Family α :=
  match n with
  | .Z => { x with Z := a }
  | .S => { x with S := a }
  | .A => { x with A := a }
  | .B => { x with B := a }

/-- Sum of a measure over the four values. -/
def total (f : α → Nat) (x : Family α) : Nat :=
  f x.Z + f x.S + f x.A + f x.B

@[simp] theorem get_const (a : α) (n : Nonterminal) : (const a).get n = a := by
  cases n <;> rfl

theorem get_set (x : Family α) (m n : Nonterminal) (a : α) :
    (x.set m a).get n = if n = m then a else x.get n := by
  cases m <;> cases n <;> rfl

@[ext] theorem ext {x y : Family α} (h : ∀ n, x.get n = y.get n) : x = y := by
  have hz := h .Z
  have hs := h .S
  have ha := h .A
  have hb := h .B
  obtain ⟨_, _, _, _⟩ := x
  obtain ⟨_, _, _, _⟩ := y
  simp_all [get]

theorem set_eq_self {x : Family α} {n : Nonterminal} {a : α} (same : a = x.get n) :
    x.set n a = x := by
  ext k
  rw [get_set]
  split <;> simp_all

theorem total_le (f : α → Nat) {x y : Family α} (h : ∀ n, f (x.get n) ≤ f (y.get n)) :
    x.total f ≤ y.total f := by
  have hz := h .Z
  have hs := h .S
  have ha := h .A
  have hb := h .B
  simp only [get, total] at *
  omega

theorem total_lt (f : α → Nat) {x y : Family α} (h : ∀ n, f (x.get n) ≤ f (y.get n))
    (m : Nonterminal) (lt : f (x.get m) < f (y.get m)) : x.total f < y.total f := by
  have hz := h .Z
  have hs := h .S
  have ha := h .A
  have hb := h .B
  cases m <;> simp only [get, total] at * <;> omega

end Family

end DeclLine

import DeclLine.Value.Growable
import Mathlib.Algebra.Order.Ring.Nat
import Mathlib.Order.Bounds.Defs

/-!
An array holds the values of its element type that were pushed, in the order of the calls. Its
capacity is the first doubling of the fresh capacity that the elements fit into: a push moves it
to the next doubling exactly when the elements fill it.
-/
namespace DeclLine.Growable

/-- The array after a call. A refused call leaves it as it was. -/
def add (a : Growable Value) (v : Value) : Growable Value :=
  match a.push v with
  | .ok a => a
  | .error _ => a

def ofCalls (element : ValueType) (calls : List Value) : Growable Value :=
  calls.foldl add (.new Value element)

/-- The fresh capacity after `k` doublings. -/
def doubled (k : Nat) : Nat :=
  Limits.arrayCapacity * 2 ^ k

theorem doubled_pos (k : Nat) : 0 < doubled k :=
  Nat.mul_pos (by decide) (Nat.two_pow_pos k)

theorem doubled_succ (k : Nat) : doubled (k + 1) = doubled k * 2 := by
  rw [doubled, Nat.pow_succ, ← Nat.mul_assoc, doubled]

theorem lt_of_doubled_lt {j k : Nat} (h : doubled j < doubled k) : j < k :=
  (Nat.pow_lt_pow_iff_right (by decide)).mp (Nat.lt_of_mul_lt_mul_left h)

/-- How often the fresh capacity may be doubled to hold `n` elements. -/
def roomy (n : Nat) : Set Nat :=
  { k | n ≤ doubled k }

section Doubling

variable {n k : Nat} (least : IsLeast (roomy n) k)
include least

theorem isLeast_roomy_of_room (room : n < doubled k) : IsLeast (roomy (n + 1)) k := by
  refine ⟨room, ?_⟩
  intro j fits
  exact least.2 (Nat.le_of_succ_le fits)

theorem isLeast_roomy_of_full (full : ¬ n < doubled k) : IsLeast (roomy (n + 1)) (k + 1) := by
  have fitted : n ≤ doubled k := least.1
  refine ⟨?_, ?_⟩
  · have := doubled_pos k
    change n + 1 ≤ doubled (k + 1)
    rw [doubled_succ]
    omega
  · intro j fits
    have fits : n + 1 ≤ doubled j := fits
    exact lt_of_doubled_lt (by omega)

end Doubling

/-- The array has taken the values, and grew no further than they need. -/
structure Took (element : ValueType) (vs : List Value) (a : Growable Value) : Prop where
  element : a.element = element
  items : a.items = vs
  capacity : ∃ k, a.capacity = doubled k ∧ IsLeast (roomy vs.length) k

variable {element : ValueType} {vs : List Value} {a : Growable Value} {v : Value}

theorem took_new (element : ValueType) : Took element [] (.new Value element) where
  element := rfl
  items := rfl
  capacity := ⟨0, rfl, Nat.zero_le _, fun k _ => Nat.zero_le k⟩

theorem push_error_iff (a : Growable Value) (v : Value) :
    (∃ e, a.push v = .error e) ↔ v.type ≠ a.element := by
  rw [push]
  split <;> simp_all

theorem add_of_type (typed : v.type = a.element) :
    a.add v = { a with
      items := a.items ++ [v]
      capacity := if a.items.length < a.capacity then a.capacity else a.grown } := by
  simp [add, push, typed]

theorem add_of_other (other : v.type ≠ a.element) : a.add v = a := by
  simp [add, push, other]

theorem Took.size_le (h : Took element vs a) : a.size ≤ a.capacity := by
  obtain ⟨k, capacity, least⟩ := h.capacity
  rw [size, h.items, capacity]
  exact least.1

theorem Took.add_of_type (h : Took element vs a) (typed : v.type = element) :
    Took element (vs ++ [v]) (a.add v) := by
  obtain ⟨k, capacity, least⟩ := h.capacity
  rw [Growable.add_of_type (typed.trans h.element.symm)]
  refine ⟨h.element, congrArg (· ++ [v]) h.items, ?_⟩
  rw [List.length_append, List.length_singleton]
  by_cases room : a.items.length < a.capacity
  · refine ⟨k, (if_pos room).trans capacity, isLeast_roomy_of_room least ?_⟩
    rwa [h.items, capacity] at room
  · refine ⟨k + 1, (if_neg room).trans ?_, isLeast_roomy_of_full least ?_⟩
    · rw [grown, capacity, Nat.max_eq_left (doubled_pos k), doubled_succ]
    · rwa [h.items, capacity] at room

theorem Took.add (h : Took element vs a) (v : Value) :
    Took element (vs ++ [v].filter (·.type = element)) (a.add v) := by
  by_cases typed : v.type = element
  · simpa [typed] using h.add_of_type typed
  · rw [add_of_other (h.element ▸ typed)]
    simpa [typed] using h

theorem Took.calls (h : Took element vs a) (calls : List Value) :
    Took element (vs ++ calls.filter (·.type = element)) (calls.foldl Growable.add a) := by
  induction calls generalizing vs a with
  | nil => simpa using h
  | cons v calls ih =>
      have next := ih (h.add v)
      rwa [List.append_assoc, ← List.filter_append] at next

theorem ofCalls_concat (element : ValueType) (calls : List Value) (v : Value) :
    ofCalls element (calls ++ [v]) = (ofCalls element calls).add v := by
  rw [ofCalls, List.foldl_append, ofCalls]
  rfl

/-- After any calls, refused ones among them, the array holds the values that it took and has the
least doubled capacity with room for them; and growth never takes the capacity below the size. -/
theorem capacity_least_doubling (element : ValueType) (calls : List Value) :
    let a := ofCalls element calls
    let taken := calls.filter (·.type = element)
    (∀ v, (∃ e, a.push v = .error e) ↔ v.type ≠ element) ∧
    (∀ v e, a.push v = .error e → ofCalls element (calls ++ [v]) = a) ∧
    (∀ v b, a.push v = .ok b → ofCalls element (calls ++ [v]) = b) ∧
    a.items = taken ∧ a.size = taken.length ∧
    (∀ i, a.get? i = taken[i]?) ∧ (∀ i, a.size ≤ i → a.get? i = none) ∧
    (∃ k, a.capacity = 10 * 2 ^ k ∧ IsLeast { j | a.size ≤ 10 * 2 ^ j } k) ∧
    a.size ≤ a.capacity ∧ a.size ≤ a.grown := by
  intro a taken
  have h : Took element taken a := (took_new element).calls calls
  have size : a.size = taken.length := congrArg List.length h.items
  refine ⟨?_, ?_, ?_, h.items, size, ?_, ?_, ?_, h.size_le, ?_⟩
  · intro v
    rw [push_error_iff, h.element]
  · intro v e refused
    simp only [ofCalls_concat, add, a, refused]
  · intro v b accepted
    simp only [ofCalls_concat, add, a, accepted]
  · intro i
    rw [get?, h.items]
  · intro i beyond
    exact List.getElem?_eq_none beyond
  · rw [size]
    exact h.capacity
  · have := h.size_le
    rw [grown]
    omega

-- The eleventh element doubles the capacity; a text among integers takes no place.
example : (ofCalls .int (List.replicate 10 (.int 0) ++ [.string "x"])).capacity = 10 := by decide

example : (ofCalls .int (List.replicate 11 (.int 0))).capacity = 20 := by decide

end DeclLine.Growable

import DeclLine.Value.Dictionary

/-!
Keys that match are of one type and fall into one bucket, whatever the number of buckets. For
floating-point keys this rests on three facts about numeric equality: it is symmetric, it is
transitive, and equal numbers have one whole part. It is not reflexive.
-/
namespace DeclLine

namespace Binary64

variable {x y z : Binary64}

theorem beq_iff :
    (x == y) = true ↔
      x.isNaN = false ∧ y.isNaN = false ∧ (x = y ∨ x.isZero = true ∧ y.isZero = true) := by
  change Binary64.beq x y = true ↔ _
  have same : x.bits = y.bits ↔ x = y := ⟨fun h => congrArg mk h, congrArg bits⟩
  simp [Binary64.beq, same, and_assoc]

theorem beq_symm (h : (x == y) = true) : (y == x) = true := by
  obtain ⟨hx, hy, same⟩ := beq_iff.mp h
  exact beq_iff.mpr ⟨hy, hx, same.imp Eq.symm And.symm⟩

theorem beq_trans (h : (x == y) = true) (k : (y == z) = true) : (x == z) = true := by
  obtain ⟨hx, _, same⟩ := beq_iff.mp h
  obtain ⟨_, hz, same'⟩ := beq_iff.mp k
  refine beq_iff.mpr ⟨hx, hz, ?_⟩
  cases same with
  | inl same => exact same ▸ same'
  | inr zeros =>
      cases same' with
      | inl same' => exact .inr (same' ▸ zeros)
      | inr zeros' => exact .inr ⟨zeros.1, zeros'.2⟩

theorem truncate_of_isZero (h : x.isZero = true) : x.truncate = 0 := by
  simp only [isZero, Bool.and_eq_true, beq_iff_eq] at h
  have finite : x.isFinite = true := by simp [isFinite, h.1]
  have whole : x.magnitude / unitsPerOne = 0 := by
    simp [magnitude, significand, h.1, h.2]
  simp [truncate, isNaN, finite, whole]

theorem truncate_eq_of_beq (h : (x == y) = true) : x.truncate = y.truncate := by
  obtain ⟨_, _, same⟩ := beq_iff.mp h
  cases same with
  | inl same => rw [same]
  | inr zeros => rw [truncate_of_isZero zeros.1, truncate_of_isZero zeros.2]

end Binary64

namespace Value

/-- Two keys are one: the same integer, the same text, or two equal floating-point numbers. -/
inductive SameKey : Value → Value → Prop
  | int (n : Int64) : SameKey (.int n) (.int n)
  | string (text : String) : SameKey (.string text) (.string text)
  | float {x y : Binary64} (numbers : (x == y) = true) : SameKey (.float x) (.float y)

variable {j k l : Value} {type : KeyType} {count i : Nat}

theorem keyMatches_iff_sameKey : k.keyMatches l = true ↔ SameKey k l := by
  constructor
  · intro h
    cases k <;> cases l <;> simp only [keyMatches, beq_iff_eq, Bool.false_eq_true] at h
    case int | string => subst h; constructor
    case float => exact .float h
  · intro h
    cases h with
    | int n | string text => exact beq_self_eq_true _
    | float numbers => exact numbers

theorem keyMatches_symm (h : k.keyMatches l = true) : l.keyMatches k = true := by
  rw [keyMatches_iff_sameKey] at h ⊢
  cases h with
  | int n => exact .int n
  | string text => exact .string text
  | float numbers => exact .float (Binary64.beq_symm numbers)

theorem keyMatches_false_symm (h : k.keyMatches l = false) : l.keyMatches k = false := by
  rw [Bool.eq_false_iff] at h ⊢
  exact fun hit => h (keyMatches_symm hit)

theorem keyMatches_trans (h : j.keyMatches k = true) (h' : k.keyMatches l = true) :
    j.keyMatches l = true := by
  rw [keyMatches_iff_sameKey] at h h' ⊢
  cases h with
  | int n | string text => exact h'
  | float numbers =>
      cases h' with
      | float numbers' => exact .float (Binary64.beq_trans numbers numbers')

theorem type_eq_of_keyMatches (h : k.keyMatches l = true) : k.type = l.type := by
  cases keyMatches_iff_sameKey.mp h with
  | int _ | string _ | float _ => rfl

theorem keyHash_eq_of_keyMatches (h : k.keyMatches l = true) (type : KeyType) :
    k.keyHash type = l.keyHash type := by
  cases keyMatches_iff_sameKey.mp h with
  | int _ | string _ => rfl
  | float numbers =>
      cases type <;> simp [keyHash, Value.type, Binary64.truncate_eq_of_beq numbers]

theorem keyBucket_eq_of_keyMatches (h : k.keyMatches l = true) (type : KeyType) (count : Nat) :
    k.keyBucket type count = l.keyBucket type count := by
  rw [keyBucket, keyHash_eq_of_keyMatches h, keyBucket]

-- The two zeros are one key; a NaN is found by no key.
example : (Value.float .zero).keyMatches (.float ⟨0x8000000000000000⟩) = true := by decide

example : (Value.float ⟨0x7ff8000000000000⟩).keyMatches (.float ⟨0x7ff8000000000000⟩) = false := by
  decide

theorem keyBucket_lt (h : k.keyBucket type count = .ok i) : i < max count 1 := by
  rw [keyBucket] at h
  cases hash : k.keyHash type with
  | error e => simp [hash, Except.map] at h
  | ok n =>
      simp only [hash, Except.map, Except.ok.injEq] at h
      subst h
      exact Nat.mod_lt _ (by omega)

/-- A bucket is found exactly for the keys of the type. -/
theorem exists_keyBucket_iff :
    (∃ i, k.keyBucket type count = .ok i) ↔ k.type = type.toValueType := by
  cases k <;> cases type <;> simp [keyBucket, keyHash, Except.map, Value.type, KeyType.toValueType]

theorem type_ne_of_keyBucket {e : TypeError} (h : k.keyBucket type count = .error e) :
    k.type ≠ type.toValueType := by
  intro same
  have found : ∃ i, k.keyBucket type count = .ok i := exists_keyBucket_iff.mpr same
  simp [h] at found

end Value

end DeclLine

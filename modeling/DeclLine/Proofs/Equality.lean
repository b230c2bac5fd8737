import DeclLine.Proofs.Dictionary
import DeclLine.Proofs.Growth
import DeclLine.Value.Equality
import Mathlib.Data.List.Forall2

/-!
Equality of values follows their nesting: arrays are equal element by element, dictionaries pair by
pair in every bucket. It is therefore symmetric and transitive as numeric equality is, and a value
differs from itself exactly when a NaN stands in it. A call with equal arguments keeps equal
containers equal, since equal keys take one bucket and match the same pairs of two equal chains.
-/
namespace DeclLine

section Lists

variable {α : Type} {R : α → α → Prop} {xs ys zs : List α}

theorem forall₂_symm (symm : ∀ x ∈ xs, ∀ y, R x y → R y x) (h : List.Forall₂ R xs ys) :
    List.Forall₂ R ys xs := by
  induction h with
  | nil => exact .nil
  | cons head _ ih =>
      refine .cons (symm _ List.mem_cons_self _ head) (ih ?_)
      intro x hx
      exact symm x (List.mem_cons_of_mem _ hx)

theorem forall₂_trans (trans : ∀ x ∈ xs, ∀ y z, R x y → R y z → R x z)
    (h : List.Forall₂ R xs ys) (k : List.Forall₂ R ys zs) : List.Forall₂ R xs zs := by
  induction h generalizing zs with
  | nil => exact k
  | cons head _ ih =>
      cases k with
      | cons head' rest =>
          refine .cons (trans _ List.mem_cons_self _ _ head head') (ih ?_ rest)
          intro x hx
          exact trans x (List.mem_cons_of_mem _ hx)

theorem forall₂_set (h : List.Forall₂ R xs ys) {x y : α} (new : R x y) (i : Nat) :
    List.Forall₂ R (xs.set i x) (ys.set i y) := by
  induction h generalizing i with
  | nil => exact .nil
  | cons head rest ih =>
      cases i with
      | zero => exact .cons new rest
      | succ i => exact .cons head (ih i)

theorem forall₂_getD (h : List.Forall₂ R xs ys) {x y : α} (out : R x y) (i : Nat) :
    R (xs[i]?.getD x) (ys[i]?.getD y) := by
  induction h generalizing i with
  | nil => exact out
  | cons head _ ih =>
      cases i with
      | zero => exact head
      | succ i => exact ih i

end Lists

namespace Value

variable {u v w : Value}

/-- Induction over the elements of arrays and the keys and values of dictionaries. -/
@[elab_as_elim]
theorem nested {motive : Value → Prop}
    (int : ∀ n, motive (.int n)) (float : ∀ x, motive (.float x))
    (string : ∀ text, motive (.string text)) (bool : ∀ b, motive (.bool b))
    (array : ∀ a : Growable Value, (∀ v ∈ a.items, motive v) → motive (.array a))
    (dict : ∀ d : Dictionary Value, (∀ e ∈ d.entries, motive e.1 ∧ motive e.2) →
      motive (.dict d)) (v : Value) : motive v := by
  refine @Value.rec motive (fun a => ∀ v ∈ a.items, motive v)
    (fun d => ∀ e ∈ d.entries, motive e.1 ∧ motive e.2) (fun xs => ∀ v ∈ xs, motive v)
    (fun bs => ∀ e ∈ bs.flatten, motive e.1 ∧ motive e.2)
    (fun c => ∀ e ∈ c, motive e.1 ∧ motive e.2) (fun e => motive e.1 ∧ motive e.2)
    int float string bool array dict (fun _ _ _ items => items) (fun _ _ _ _ pairs => pairs)
    (by simp) ?_ (by simp) ?_ (by simp) ?_ (fun _ _ key value => ⟨key, value⟩) v
  · intro x xs head rest
    exact List.forall_mem_cons.mpr ⟨head, rest⟩
  · intro b bs head rest e he
    rw [List.flatten_cons, List.mem_append] at he
    exact he.elim (head e) (rest e)
  · intro p ps head rest
    exact List.forall_mem_cons.mpr ⟨head, rest⟩

def SamePair (p q : Value × Value) : Prop :=
  (p.1 == q.1) = true ∧ (p.2 == q.2) = true

/-- What two equal values are. -/
inductive Equal : Value → Value → Prop where
  | int (n : Int64) : Equal (.int n) (.int n)
  | float {x y : Binary64} (numbers : (x == y) = true) : Equal (.float x) (.float y)
  | string (text : String) : Equal (.string text) (.string text)
  | bool (b : Bool) : Equal (.bool b) (.bool b)
  | array {a b : Growable Value} (element : a.element = b.element)
      (items : List.Forall₂ (fun x y => (x == y) = true) a.items b.items) :
      Equal (.array a) (.array b)
  | dict {d e : Dictionary Value} (keyType : d.keyType = e.keyType)
      (valueType : d.valueType = e.valueType) (size : d.size = e.size)
      (buckets : List.Forall₂ (List.Forall₂ SamePair) d.buckets e.buckets) :
      Equal (.dict d) (.dict e)

theorem sameItems_iff {xs ys : List Value} :
    sameItems xs ys = true ↔ List.Forall₂ (fun x y => (x == y) = true) xs ys := by
  induction xs generalizing ys with
  | nil => cases ys <;> simp [sameItems]
  | cons x xs ih => cases ys <;> simp [sameItems, ih, BEq.beq]

theorem sameArray_iff {a b : Growable Value} :
    sameArray a b = true ↔ a.element = b.element ∧
      List.Forall₂ (fun x y => (x == y) = true) a.items b.items := by
  obtain ⟨s, xs, m⟩ := a
  obtain ⟨t, ys, n⟩ := b
  simp [sameArray, sameItems_iff]

theorem sameChain_iff {ps qs : List (Value × Value)} :
    sameChain ps qs = true ↔ List.Forall₂ SamePair ps qs := by
  induction ps generalizing qs with
  | nil => cases qs <;> simp [sameChain]
  | cons p ps ih =>
      obtain ⟨k, v⟩ := p
      cases qs <;> simp [sameChain, samePair, SamePair, ih, BEq.beq]

theorem sameBuckets_iff {bs cs : List (List (Value × Value))} :
    sameBuckets bs cs = true ↔ List.Forall₂ (List.Forall₂ SamePair) bs cs := by
  induction bs generalizing cs with
  | nil => cases cs <;> simp [sameBuckets]
  | cons b bs ih => cases cs <;> simp [sameBuckets, sameChain_iff, ih]

theorem sameDict_iff {d e : Dictionary Value} :
    sameDict d e = true ↔ d.keyType = e.keyType ∧ d.valueType = e.valueType ∧ d.size = e.size ∧
      List.Forall₂ (List.Forall₂ SamePair) d.buckets e.buckets := by
  obtain ⟨k, v, m, bs⟩ := d
  obtain ⟨l, w, n, cs⟩ := e
  simp [sameDict, sameBuckets_iff, and_assoc]

theorem equal_of_beq (h : (v == w) = true) : Equal v w := by
  change same v w = true at h
  cases v <;> cases w <;> simp only [same, Bool.false_eq_true, beq_iff_eq] at h
  case int | string | bool =>
      subst h
      constructor
  case float => exact .float h
  case array =>
      obtain ⟨element, items⟩ := sameArray_iff.mp h
      exact .array element items
  case dict =>
      obtain ⟨keyType, valueType, size, buckets⟩ := sameDict_iff.mp h
      exact .dict keyType valueType size buckets

theorem Equal.beq (h : Equal v w) : (v == w) = true := by
  cases h with
  | int | string | bool =>
      change same _ _ = true
      simp [same]
  | float numbers => exact numbers
  | array element items => exact sameArray_iff.mpr ⟨element, items⟩
  | dict keyType valueType size buckets =>
      exact sameDict_iff.mpr ⟨keyType, valueType, size, buckets⟩

theorem type_eq_of_beq (h : (v == w) = true) : v.type = w.type := by
  cases equal_of_beq h <;> rfl

theorem beq_symm (h : (v == w) = true) : (w == v) = true := by
  induction v using nested generalizing w with
  | int | string | bool =>
      cases equal_of_beq h
      exact h
  | float x =>
      cases equal_of_beq h with
      | float numbers => exact Equal.beq (.float (Binary64.beq_symm numbers))
  | array a ih =>
      cases equal_of_beq h with
      | array element items =>
          exact Equal.beq (.array element.symm (forall₂_symm (fun x hx _ => ih x hx) items))
  | dict d ih =>
      cases equal_of_beq h with
      | dict keyType valueType size buckets =>
          refine Equal.beq (.dict keyType.symm valueType.symm size.symm ?_)
          refine forall₂_symm ?_ buckets
          intro b hb c
          apply forall₂_symm
          intro e he f
          have ih := ih e (List.mem_flatten_of_mem hb he)
          exact And.imp ih.1 ih.2

theorem beq_trans (h : (u == v) = true) (k : (v == w) = true) : (u == w) = true := by
  induction u using nested generalizing v w with
  | int | string | bool =>
      cases equal_of_beq h
      exact k
  | float x =>
      cases equal_of_beq h with
      | float numbers =>
          cases equal_of_beq k with
          | float numbers' => exact Equal.beq (.float (Binary64.beq_trans numbers numbers'))
  | array a ih =>
      cases equal_of_beq h with
      | array element items =>
          cases equal_of_beq k with
          | array element' items' =>
              refine Equal.beq (.array (element.trans element') ?_)
              exact forall₂_trans (fun x hx _ _ => ih x hx) items items'
  | dict d ih =>
      cases equal_of_beq h with
      | dict keyType valueType size buckets =>
          cases equal_of_beq k with
          | dict keyType' valueType' size' buckets' =>
              refine Equal.beq (.dict (keyType.trans keyType') (valueType.trans valueType')
                (size.trans size') ?_)
              refine forall₂_trans ?_ buckets buckets'
              intro b hb c c'
              apply forall₂_trans
              intro e he f f' pairs pairs'
              have ih := ih e (List.mem_flatten_of_mem hb he)
              exact ⟨ih.1 pairs.1 pairs'.1, ih.2 pairs.2 pairs'.2⟩

/-- The value stands in the other one, at any depth: as an element, a key or a value under a key. -/
inductive Within (x : Value) : Value → Prop where
  | refl : Within x x
  | element {a : Growable Value} {v : Value} (here : v ∈ a.items) (deep : Within x v) :
      Within x (.array a)
  | key {d : Dictionary Value} {e : Value × Value} (here : e ∈ d.entries) (deep : Within x e.1) :
      Within x (.dict d)
  | value {d : Dictionary Value} {e : Value × Value} (here : e ∈ d.entries) (deep : Within x e.2) :
      Within x (.dict d)

def NaNFree (v : Value) : Prop :=
  ∀ x, Within (.float x) v → x.isNaN = false

theorem nanFree_array {a : Growable Value} : NaNFree (.array a) ↔ ∀ v ∈ a.items, NaNFree v := by
  constructor
  · intro free v hv x deep
    exact free x (.element hv deep)
  · intro free x within
    cases within with
    | element here deep => exact free _ here x deep

theorem nanFree_dict {d : Dictionary Value} :
    NaNFree (.dict d) ↔ ∀ e ∈ d.entries, NaNFree e.1 ∧ NaNFree e.2 := by
  constructor
  · intro free e he
    exact ⟨fun x deep => free x (.key he deep), fun x deep => free x (.value he deep)⟩
  · intro free x within
    cases within with
    | key here deep => exact (free _ here).1 x deep
    | value here deep => exact (free _ here).2 x deep

theorem nanFree_float {x : Binary64} : NaNFree (.float x) ↔ x.isNaN = false := by
  constructor
  · intro free
    exact free x .refl
  · intro number y within
    cases within
    exact number

theorem beq_self_iff : (v == v) = true ↔ NaNFree v := by
  induction v using nested with
  | int | string | bool =>
      refine ⟨?_, fun _ => Equal.beq (by constructor)⟩
      intro _ x within
      cases within
  | float x =>
      rw [nanFree_float]
      change (x == x) = true ↔ _
      simp [Binary64.beq_iff]
  | array a ih =>
      rw [nanFree_array]
      change sameArray a a = true ↔ _
      simp only [sameArray_iff, List.forall₂_same, true_and]
      exact forall₂_congr ih
  | dict d ih =>
      rw [nanFree_dict]
      change sameDict d d = true ↔ _
      simp only [sameDict_iff, List.forall₂_same, true_and, ← List.forall_mem_flatten]
      refine forall₂_congr ?_
      intro e he
      exact and_congr (ih e he).1 (ih e he).2

-- A NaN in an array keeps the array from being equal to itself; spare capacity does not.
example : (array ⟨.float, [.float ⟨0x7ff8000000000000⟩], 10⟩ ==
    array ⟨.float, [.float ⟨0x7ff8000000000000⟩], 10⟩) = false := by decide

example : (array ⟨.int, [.int 1], 10⟩ == array ⟨.int, [.int 1], 20⟩) = true := by decide

theorem add_congr {a b : Growable Value} (containers : (array a == array b) = true)
    (values : (v == w) = true) :
    ((∃ e, a.push v = .error e) ↔ ∃ e, b.push w = .error e) ∧
      (array (a.add v) == array (b.add w)) = true := by
  obtain ⟨element, items⟩ := sameArray_iff.mp containers
  have type : v.type = w.type := type_eq_of_beq values
  refine ⟨by rw [Growable.push_error_iff, Growable.push_error_iff, type, element], ?_⟩
  by_cases typed : v.type = a.element
  · rw [Growable.add_of_type typed, Growable.add_of_type (type ▸ element ▸ typed)]
    exact sameArray_iff.mpr ⟨element, List.rel_append items (.cons values .nil)⟩
  · rw [Growable.add_of_other typed, Growable.add_of_other (type ▸ element ▸ typed)]
    exact containers

section Keys

variable {k l m n : Value} (keys : (k == l) = true)
include keys

theorem keyHash_eq_of_beq (type : KeyType) : k.keyHash type = l.keyHash type := by
  cases equal_of_beq keys with
  | int | string | bool => rfl
  | @float x y numbers =>
      have hit : (float x).keyMatches (float y) = true := numbers
      exact keyHash_eq_of_keyMatches hit type
  | array | dict => cases type <;> rfl

theorem keyBucket_eq_of_beq (type : KeyType) (count : Nat) :
    k.keyBucket type count = l.keyBucket type count := by
  rw [keyBucket, keyHash_eq_of_beq keys, keyBucket]

theorem keyMatches_eq_of_beq (others : (m == n) = true) : m.keyMatches k = n.keyMatches l := by
  cases equal_of_beq others <;> cases equal_of_beq keys <;> try rfl
  case float.float numbers _ _ numbers' =>
      rw [keyMatches, keyMatches, Bool.eq_iff_iff]
      constructor
      · intro hit
        exact Binary64.beq_trans (Binary64.beq_symm numbers) (Binary64.beq_trans hit numbers')
      · intro hit
        exact Binary64.beq_trans numbers (Binary64.beq_trans hit (Binary64.beq_symm numbers'))

end Keys

end Value

namespace Dictionary

open Value

variable {k l v w : Value} {d e : Dictionary Value}

theorem chainReplace?_congr (keys : (k == l) = true) (values : (v == w) = true) {ps qs : Chain}
    (chains : List.Forall₂ SamePair ps qs) :
    Option.Rel (List.Forall₂ SamePair) (chainReplace? k v ps) (chainReplace? l w qs) := by
  induction chains with
  | nil => exact .none
  | @cons p q ps qs pair rest ih =>
      rw [chainReplace?, chainReplace?, keyMatches_eq_of_beq keys pair.1]
      cases q.1.keyMatches l with
      | true => exact .some (.cons ⟨pair.1, values⟩ rest)
      | false =>
          generalize chainReplace? k v ps = c, chainReplace? l w qs = c' at ih
          cases ih with
          | none => exact .none
          | some chains => exact .some (.cons pair chains)

/-- Equal calls on equal dictionaries are refused together or leave equal dictionaries. -/
theorem set_congr (containers : (dict d == dict e) = true) (keys : (k == l) = true)
    (values : (v == w) = true) :
    (∃ err, d.set k v = .error err ∧ e.set l w = .error err) ∨
      ∃ d' e', d.set k v = .ok d' ∧ e.set l w = .ok e' ∧ (dict d' == dict e') = true := by
  obtain ⟨keyType, valueType, size, buckets⟩ := sameDict_iff.mp containers
  have home : k.keyBucket d.keyType d.buckets.length = l.keyBucket e.keyType e.buckets.length := by
    rw [keyBucket_eq_of_beq keys, keyType, buckets.length_eq]
  have valid : v.validate d.valueType = w.validate e.valueType := by
    rw [validate, validate, type_eq_of_beq values, valueType]
  rw [Dictionary.set, Dictionary.set, home, valid]
  cases l.keyBucket e.keyType e.buckets.length with
  | error err => exact .inl ⟨err, rfl, rfl⟩
  | ok i =>
      cases w.validate e.valueType with
      | error err => exact .inl ⟨err, rfl, rfl⟩
      | ok =>
          have chains : List.Forall₂ SamePair (d.chain i) (e.chain i) := forall₂_getD buckets .nil i
          have replaced := chainReplace?_congr keys values chains
          refine .inr ?_
          dsimp only
          generalize chainReplace? k v (d.chain i) = c, chainReplace? l w (e.chain i) = c'
            at replaced ⊢
          cases replaced with
          | some replaced =>
              refine ⟨_, _, rfl, rfl, sameDict_iff.mpr ⟨keyType, valueType, size, ?_⟩⟩
              exact forall₂_set buckets replaced i
          | none =>
              refine ⟨_, _, rfl, rfl, sameDict_iff.mpr ⟨keyType, valueType, ?_, ?_⟩⟩
              · exact congrArg (· + 1) size
              · exact forall₂_set buckets (.cons ⟨keys, values⟩ chains) i

theorem put_congr (containers : (dict d == dict e) = true) (keys : (k == l) = true)
    (values : (v == w) = true) :
    ((∃ err, d.set k v = .error err) ↔ ∃ err, e.set l w = .error err) ∧
      (dict (d.put (k, v)) == dict (e.put (l, w))) = true := by
  rw [put, put]
  cases set_congr containers keys values with
  | inl refused =>
      obtain ⟨err, left, right⟩ := refused
      simp [left, right, containers]
  | inr taken =>
      obtain ⟨d', e', left, right, equal⟩ := taken
      simp [left, right, equal]

end Dictionary

namespace Value

/-- Equality of values, nested to any depth, is a partial equivalence that only a NaN keeps from
being reflexive; and calls on containers cannot tell equal values apart. -/
theorem beq_partial_equivalence_congruence :
    (∀ v w : Value, (v == w) = true → (w == v) = true) ∧
    (∀ u v w : Value, (u == v) = true → (v == w) = true → (u == w) = true) ∧
    (∀ v : Value, (v == v) = true ↔ ∀ x, Within (.float x) v → x.isNaN = false) ∧
    (∀ v w : Value, (v == w) = true → v.type = w.type) ∧
    (∀ (a b : Growable Value) (v w : Value), (array a == array b) = true → (v == w) = true →
      ((∃ err, a.push v = .error err) ↔ ∃ err, b.push w = .error err) ∧
      (array (a.add v) == array (b.add w)) = true) ∧
    (∀ (d e : Dictionary Value) (k l v w : Value), (dict d == dict e) = true →
      (k == l) = true → (v == w) = true →
      ((∃ err, d.set k v = .error err) ↔ ∃ err, e.set l w = .error err) ∧
      (dict (d.put (k, v)) == dict (e.put (l, w))) = true) :=
  ⟨fun _ _ => beq_symm, fun _ _ _ => beq_trans, fun _ => beq_self_iff,
    fun _ _ => type_eq_of_beq, fun _ _ _ _ => add_congr, fun _ _ _ _ _ _ => Dictionary.put_congr⟩

end Value

end DeclLine

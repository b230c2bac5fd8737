import DeclLine.Proofs.Keys
import Mathlib.Data.List.Nodup
import Mathlib.Data.List.Perm.Basic

/-!
A dictionary is a list of pairs, newest first, spread over buckets. Each chain is the part of the
list whose keys fall into that bucket, in the order of the list. A call that is taken changes one
chain and the list alike, because keys that match fall into one bucket.
-/
namespace DeclLine

theorem perm_flatMap_filter {α β : Type} [DecidableEq β] (place : α → β) {classes : List β}
    (nodup : classes.Nodup) {as : List α} (covered : ∀ a ∈ as, place a ∈ classes) :
    (classes.flatMap fun c => as.filter (place · = c)).Perm as := by
  induction classes generalizing as with
  | nil =>
      cases as with
      | nil => exact .refl _
      | cons a as => simpa using covered a (by simp)
  | cons c classes ih =>
      obtain ⟨fresh, nodup⟩ := List.nodup_cons.mp nodup
      have rest : (classes.flatMap fun b => as.filter (place · = b)) =
          classes.flatMap fun b => (as.filter (place · ≠ c)).filter (place · = b) := by
        apply List.flatMap_congr
        intro b hb
        rw [List.filter_filter]
        apply List.filter_congr
        intro a _
        grind
      have kept : ∀ a ∈ as.filter (place · ≠ c), place a ∈ classes := by
        intro a ha
        have := covered a (List.mem_of_mem_filter ha)
        grind
      rw [List.flatMap_cons, rest]
      refine ((ih nodup kept).append_left _).trans ?_
      simpa using List.filter_append_perm (place · = c) as

namespace Dictionary

/-- The dictionary after a call. A refused call leaves it as it was. -/
def put (d : Dictionary Value) (call : Value × Value) : Dictionary Value :=
  match d.set call.1 call.2 with
  | .ok d => d
  | .error _ => d

def ofCalls (kt : KeyType) (vt : ValueType) (calls : List (Value × Value)) : Dictionary Value :=
  calls.foldl put (.new Value kt vt)

/-- Puts the value under each key that matches. -/
def overwrite (call : Value × Value) (ps : Chain) : Chain :=
  ps.map fun e => if e.1.keyMatches call.1 then (e.1, call.2) else e

/-- A call on a list of pairs: pairs of other types are left out, a key that is there keeps its
place and gets the value, any other pair comes to the front. -/
def write (kt : KeyType) (vt : ValueType) (ps : Chain) (call : Value × Value) : Chain :=
  if call.1.type = kt.toValueType ∧ call.2.type = vt then
    if ps.any (·.1.keyMatches call.1) then overwrite call ps else call :: ps
  else ps

def pairsOf (kt : KeyType) (vt : ValueType) (calls : List (Value × Value)) : Chain :=
  calls.foldl (write kt vt) []

variable {kt : KeyType} {vt : ValueType} {d : Dictionary Value} {ps : Chain} {k v : Value}

def Distinct (ps : Chain) : Prop :=
  ps.Pairwise fun e f => e.1.keyMatches f.1 = false

theorem chainGet?_eq_find? (k : Value) (ps : Chain) :
    chainGet? k ps = (ps.find? (·.1.keyMatches k)).map Prod.snd := by
  induction ps with
  | nil => rfl
  | cons e ps ih =>
      rw [chainGet?, List.find?_cons, ih]
      cases e.1.keyMatches k <;> rfl

theorem overwrite_eq_self (absent : ∀ e ∈ ps, e.1.keyMatches k = false) :
    overwrite (k, v) ps = ps := by
  refine (List.map_congr_left ?_).trans (List.map_id ps)
  intro e he
  simp [absent e he]

/-- In a chain without a key twice, replacing the first match replaces every match. -/
theorem chainReplace?_eq (distinct : Distinct ps) :
    chainReplace? k v ps =
      if ps.any (·.1.keyMatches k) then some (overwrite (k, v) ps) else none := by
  induction ps with
  | nil => rfl
  | cons e ps ih =>
      obtain ⟨apart, distinct⟩ := List.pairwise_cons.mp distinct
      rw [chainReplace?, ih distinct, List.any_cons]
      cases hit : e.1.keyMatches k with
      | true =>
          have absent : ∀ f ∈ ps, f.1.keyMatches k = false := by
            intro f hf
            rw [Bool.eq_false_iff]
            intro again
            have := Value.keyMatches_trans hit (Value.keyMatches_symm again)
            simp [apart f hf] at this
          have same : overwrite (k, v) (e :: ps) = (e.1, v) :: ps := by
            rw [overwrite, List.map_cons, ← overwrite, overwrite_eq_self absent, if_pos hit]
          simp [same]
      | false =>
          have same : overwrite (k, v) (e :: ps) = e :: overwrite (k, v) ps := by
            simp [overwrite, hit]
          simp only [Bool.false_eq_true, if_false, Bool.false_or, same]
          split <;> rfl

/-- The key of the pair falls into bucket `i`. -/
def inBucket (kt : KeyType) (i : Nat) (e : Value × Value) : Bool :=
  e.1.keyBucket kt Limits.buckets = .ok i

/-- The dictionary holds the pairs of the list: every chain is the part of the list that falls into
its bucket. -/
structure Holds (kt : KeyType) (vt : ValueType) (ps : Chain) (d : Dictionary Value) : Prop where
  keyType : d.keyType = kt
  valueType : d.valueType = vt
  length : d.buckets.length = Limits.buckets
  size : d.size = ps.length
  chain : ∀ i < Limits.buckets, d.chain i = ps.filter (inBucket kt i)
  typed : ∀ e ∈ ps, e.1.type = kt.toValueType ∧ e.2.type = vt
  distinct : Distinct ps

theorem holds_new (kt : KeyType) (vt : ValueType) : Holds kt vt [] (.new Value kt vt) where
  keyType := rfl
  valueType := rfl
  length := List.length_replicate
  size := rfl
  chain i hi := by simp [chain, Dictionary.new, hi]
  typed e he := by cases he
  distinct := .nil

theorem chain_set (d : Dictionary Value) {i : Nat} (hi : i < d.buckets.length) (c : Chain)
    (n j : Nat) :
    chain { d with size := n, buckets := d.buckets.set i c } j =
      if i = j then c else d.chain j := by
  simp only [chain, List.getElem?_set, hi, if_true]
  split <;> rfl

theorem inBucket_of_keyMatches {e : Value × Value} {i : Nat}
    (home : k.keyBucket kt Limits.buckets = .ok i) (h : e.1.keyMatches k = true) :
    inBucket kt i e = true := by
  simp [inBucket, Value.keyBucket_eq_of_keyMatches h, home]

theorem Distinct.filter (distinct : Distinct ps) (q : Value × Value → Bool) :
    Distinct (ps.filter q) :=
  List.Pairwise.filter q distinct

section Calls

variable {i : Nat} (home : k.keyBucket kt Limits.buckets = .ok i)
include home

theorem inBucket_and_keyMatches (e : Value × Value) :
    (inBucket kt i e && e.1.keyMatches k) = e.1.keyMatches k := by
  cases hit : e.1.keyMatches k with
  | false => rw [Bool.and_false]
  | true => rw [inBucket_of_keyMatches home hit, Bool.and_true]

theorem any_inBucket (ps : Chain) :
    (ps.filter (inBucket kt i)).any (·.1.keyMatches k) = ps.any (·.1.keyMatches k) := by
  simp only [List.any_filter, inBucket_and_keyMatches home]

theorem find?_inBucket (ps : Chain) :
    (ps.filter (inBucket kt i)).find? (·.1.keyMatches k) = ps.find? (·.1.keyMatches k) := by
  simp only [List.find?_filter, Bool.decide_and, Bool.decide_eq_true,
    inBucket_and_keyMatches home]

theorem filter_overwrite (ps : Chain) (j : Nat) :
    (overwrite (k, v) ps).filter (inBucket kt j) =
      if i = j then overwrite (k, v) (ps.filter (inBucket kt j))
      else ps.filter (inBucket kt j) := by
  have keeps : inBucket kt j ∘ (fun e => if e.1.keyMatches k then (e.1, v) else e) =
      inBucket kt j := by
    funext e
    simp only [Function.comp, inBucket]
    split <;> rfl
  have same : (overwrite (k, v) ps).filter (inBucket kt j) =
      overwrite (k, v) (ps.filter (inBucket kt j)) := by
    rw [overwrite, List.filter_map, keeps, overwrite]
  rw [same]
  split
  · rfl
  · rename_i ne
    -- No key of another bucket matches.
    apply overwrite_eq_self
    intro e he
    rw [Bool.eq_false_iff]
    intro hit
    have there := inBucket_of_keyMatches home hit
    have here := (List.mem_filter.mp he).2
    simp only [inBucket, decide_eq_true_eq] at here there
    exact ne (Except.ok.inj (there.symm.trans here))

end Calls

/-- What a call does to the chain of its key. -/
theorem Holds.set_eq (h : Holds kt vt ps d) {i : Nat}
    (home : k.keyBucket kt Limits.buckets = .ok i) (value : v.type = vt) :
    d.set k v = .ok (if ps.any (·.1.keyMatches k) then
        { d with buckets := d.buckets.set i (overwrite (k, v) (ps.filter (inBucket kt i))) }
      else { d with
        size := d.size + 1
        buckets := d.buckets.set i ((k, v) :: ps.filter (inBucket kt i)) }) := by
  have hi : i < Limits.buckets := Value.keyBucket_lt home
  simp only [Dictionary.set, h.keyType, h.length, home, Value.validate, h.valueType, value, if_true,
    h.chain i hi, chainReplace?_eq (h.distinct.filter _), any_inBucket home]
  cases ps.any (·.1.keyMatches k) <;> rfl

theorem Holds.set_error_iff (h : Holds kt vt ps d) (k v : Value) :
    (∃ e, d.set k v = .error e) ↔ k.type ≠ kt.toValueType ∨ v.type ≠ vt := by
  cases home : k.keyBucket kt Limits.buckets with
  | error e =>
      have key := Value.type_ne_of_keyBucket home
      simp [Dictionary.set, h.keyType, h.length, home, key]
  | ok i =>
      have key : k.type = kt.toValueType := Value.exists_keyBucket_iff.mp ⟨i, home⟩
      by_cases value : v.type = vt
      · simp [h.set_eq home value, key, value]
      · simp [Dictionary.set, h.keyType, h.length, home, Value.validate, h.valueType, value]

theorem Holds.replace (h : Holds kt vt ps d) {i : Nat}
    (home : k.keyBucket kt Limits.buckets = .ok i) (value : v.type = vt) :
    Holds kt vt (overwrite (k, v) ps)
      { d with buckets := d.buckets.set i (overwrite (k, v) (ps.filter (inBucket kt i))) } where
  keyType := h.keyType
  valueType := h.valueType
  length := by rw [List.length_set, h.length]
  size := by rw [h.size, overwrite, List.length_map]
  chain j hj := by
    have hi : i < d.buckets.length := h.length ▸ Value.keyBucket_lt home
    rw [chain_set d hi _ d.size, filter_overwrite home, h.chain j hj]
    split <;> simp_all
  typed e he := by
    obtain ⟨f, hf, rfl⟩ := List.mem_map.mp he
    split
    · exact ⟨(h.typed f hf).1, value⟩
    · exact h.typed f hf
  distinct := by
    refine List.pairwise_map.mpr (h.distinct.imp ?_)
    intro e f apart
    split <;> split <;> exact apart

theorem Holds.prepend (h : Holds kt vt ps d) {i : Nat}
    (home : k.keyBucket kt Limits.buckets = .ok i) (value : v.type = vt)
    (absent : ps.any (·.1.keyMatches k) = false) :
    Holds kt vt ((k, v) :: ps) { d with
      size := d.size + 1
      buckets := d.buckets.set i ((k, v) :: ps.filter (inBucket kt i)) } where
  keyType := h.keyType
  valueType := h.valueType
  length := by rw [List.length_set, h.length]
  size := by rw [h.size, List.length_cons]
  chain j hj := by
    have hi : i < d.buckets.length := h.length ▸ Value.keyBucket_lt home
    rw [chain_set d hi, List.filter_cons, h.chain j hj]
    have here : inBucket kt j (k, v) = decide (i = j) := by simp [inBucket, home]
    rw [here]
    by_cases same : i = j <;> simp [same]
  typed e he := by
    cases he with
    | head => exact ⟨Value.exists_keyBucket_iff.mp ⟨i, home⟩, value⟩
    | tail _ he => exact h.typed e he
  distinct := by
    refine List.pairwise_cons.mpr ⟨?_, h.distinct⟩
    intro e he
    have := List.any_eq_false.mp absent e he
    exact Value.keyMatches_false_symm (Bool.eq_false_iff.mpr this)

theorem Holds.put (h : Holds kt vt ps d) (call : Value × Value) :
    Holds kt vt (write kt vt ps call) (d.put call) := by
  obtain ⟨k, v⟩ := call
  rw [write, Dictionary.put]
  split
  · rename_i typed
    obtain ⟨i, home⟩ : ∃ i, k.keyBucket kt Limits.buckets = .ok i :=
      Value.exists_keyBucket_iff.mpr typed.1
    rw [h.set_eq home typed.2]
    cases hit : ps.any (·.1.keyMatches k) with
    | true => exact h.replace home typed.2
    | false => exact h.prepend home typed.2 hit
  · rename_i untyped
    obtain ⟨e, refused⟩ := (h.set_error_iff k v).mpr (not_and_or.mp untyped)
    rw [refused]
    exact h

theorem Holds.calls (h : Holds kt vt ps d) (calls : List (Value × Value)) :
    Holds kt vt (calls.foldl (write kt vt) ps) (calls.foldl Dictionary.put d) := by
  induction calls generalizing ps d with
  | nil => exact h
  | cons call calls ih => exact ih (h.put call)

theorem buckets_eq_chains (d : Dictionary Value) :
    d.buckets = (List.range d.buckets.length).map d.chain := by
  apply List.ext_getElem (by simp)
  intro i hi _
  simp [Dictionary.chain, hi]

theorem Holds.entries_eq (h : Holds kt vt ps d) :
    d.entries = (List.range Limits.buckets).flatMap fun i => ps.filter (inBucket kt i) := by
  rw [Dictionary.entries, buckets_eq_chains, h.length, ← List.flatMap_def]
  apply List.flatMap_congr
  intro i hi
  exact h.chain i (List.mem_range.mp hi)

theorem Holds.perm (h : Holds kt vt ps d) : d.entries.Perm ps := by
  let home (e : Value × Value) := e.1.keyBucket kt Limits.buckets
  have nodup : ((List.range Limits.buckets).map (.ok : Nat → Except TypeError Nat)).Nodup :=
    List.Nodup.map (fun _ _ => Except.ok.inj) List.nodup_range
  have covered : ∀ e ∈ ps, home e ∈ (List.range Limits.buckets).map .ok := by
    intro e he
    obtain ⟨i, found⟩ := Value.exists_keyBucket_iff.mpr (h.typed e he).1
    exact List.mem_map.mpr ⟨i, List.mem_range.mpr (Value.keyBucket_lt found), found.symm⟩
  have := perm_flatMap_filter home nodup covered
  rw [List.flatMap_map] at this
  rw [h.entries_eq]
  exact this

theorem Holds.find?_eq_none (h : Holds kt vt ps d) (other : k.type ≠ kt.toValueType) :
    ps.find? (·.1.keyMatches k) = none := by
  rw [List.find?_eq_none]
  intro e he hit
  exact other ((Value.type_eq_of_keyMatches hit).symm.trans (h.typed e he).1)

theorem Holds.get?_eq (h : Holds kt vt ps d) (k : Value) :
    d.get? k = (ps.find? (·.1.keyMatches k)).map Prod.snd := by
  rw [Dictionary.get?, h.keyType, h.length]
  cases home : k.keyBucket kt Limits.buckets with
  | error e => rw [h.find?_eq_none (Value.type_ne_of_keyBucket home), Option.map_none]
  | ok i =>
      change chainGet? k (d.chain i) = _
      rw [chainGet?_eq_find?, h.chain i (Value.keyBucket_lt home), find?_inBucket home]

theorem Holds.placed (h : Holds kt vt ps d) {i : Nat} {e : Value × Value} (he : e ∈ d.chain i) :
    e.1.keyBucket kt Limits.buckets = .ok i := by
  by_cases hi : i < Limits.buckets
  · rw [h.chain i hi] at he
    simpa [inBucket] using (List.mem_filter.mp he).2
  · have none : d.buckets[i]? = none := List.getElem?_eq_none (by rw [h.length]; omega)
    simp [Dictionary.chain, none] at he

theorem ofCalls_concat (kt : KeyType) (vt : ValueType) (calls : List (Value × Value))
    (call : Value × Value) :
    ofCalls kt vt (calls ++ [call]) = (ofCalls kt vt calls).put call := by
  rw [ofCalls, List.foldl_concat, ofCalls]

theorem pairsOf_concat (kt : KeyType) (vt : ValueType) (calls : List (Value × Value))
    (call : Value × Value) :
    pairsOf kt vt (calls ++ [call]) = write kt vt (pairsOf kt vt calls) call := by
  rw [pairsOf, List.foldl_concat, pairsOf]

/-- After any calls, refused ones among them, the dictionary answers as the list of pairs does; and
the next call changes the list as it changes the dictionary. -/
theorem refines_association_list (kt : KeyType) (vt : ValueType) (calls : List (Value × Value)) :
    let d := ofCalls kt vt calls
    let ps := pairsOf kt vt calls
    (∀ k l : Value, k.keyMatches l = true ↔ Value.SameKey k l) ∧
    (∀ k v, (∃ e, d.set k v = .error e) ↔ k.type ≠ kt.toValueType ∨ v.type ≠ vt) ∧
    (∀ k v e, d.set k v = .error e →
      ofCalls kt vt (calls ++ [(k, v)]) = d ∧ pairsOf kt vt (calls ++ [(k, v)]) = ps) ∧
    (∀ k v d', d.set k v = .ok d' →
      ofCalls kt vt (calls ++ [(k, v)]) = d' ∧
      pairsOf kt vt (calls ++ [(k, v)]) =
        if ps.any (·.1.keyMatches k) then
          ps.map fun e => if e.1.keyMatches k then (e.1, v) else e
        else (k, v) :: ps) ∧
    d.buckets.length = 101 ∧
    (∀ i, ∀ e ∈ d.chain i, e.1.keyBucket kt 101 = .ok i) ∧
    (∀ e ∈ d.entries, e.1.type = kt.toValueType ∧ e.2.type = vt) ∧
    d.entries.Pairwise (fun e f => e.1.keyMatches f.1 = false) ∧
    d.entries.Perm ps ∧ d.size = d.entries.length ∧
    (∀ k, d.get? k = (ps.find? (·.1.keyMatches k)).map Prod.snd) ∧
    (∀ k, k.type ≠ kt.toValueType → d.get? k = none) ∧
    d.entries = (List.range 101).flatMap fun i =>
      ps.filter fun e => e.1.keyBucket kt 101 = .ok i := by
  intro d ps
  have h : Holds kt vt ps d := (holds_new kt vt).calls calls
  refine ⟨fun _ _ => Value.keyMatches_iff_sameKey, h.set_error_iff, ?_, ?_, h.length,
    fun _ _ => h.placed, ?_, ?_, h.perm, ?_, h.get?_eq, ?_, h.entries_eq⟩
  · intro k v e refused
    have untyped := (h.set_error_iff k v).mp ⟨e, refused⟩
    refine ⟨?_, ?_⟩
    · simp only [ofCalls_concat, put, d, refused]
    · rw [pairsOf_concat, write, if_neg (not_and_or.mpr untyped)]
  · intro k v d' taken
    have typed : k.type = kt.toValueType ∧ v.type = vt := by
      apply Classical.byContradiction
      intro untyped
      obtain ⟨e, refused⟩ := (h.set_error_iff k v).mpr (not_and_or.mp untyped)
      cases taken.symm.trans refused
    refine ⟨?_, ?_⟩
    · simp only [ofCalls_concat, put, d, taken]
    · rw [pairsOf_concat, write, if_pos typed, overwrite]
  · intro e he
    exact h.typed e (h.perm.mem_iff.mp he)
  · exact (h.perm.pairwise_iff Value.keyMatches_false_symm).mpr h.distinct
  · rw [h.size, h.perm.length_eq]
  · intro k other
    rw [h.get?_eq, h.find?_eq_none other, Option.map_none]

end Dictionary

end DeclLine

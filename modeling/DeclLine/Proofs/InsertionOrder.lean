import DeclLine.Proofs.Equality
import Mathlib.Data.List.Induction
import Mathlib.Data.List.Pairwise

/-!
What a dictionary keeps of its history. Over integer and text keys, two dictionaries that answer
every key alike hold the same keys with equal values, so they can differ in one thing only: the
order in which a chain lists the keys of its bucket. Chains list keys newest first and no key ever
leaves, so this is the order in which the keys of one bucket were first stored.
-/
namespace DeclLine

theorem or_of_pairwise {α : Type} {R : α → α → Prop} {xs : List α} (h : xs.Pairwise R) {x y : α}
    (hx : x ∈ xs) (hy : y ∈ xs) (apart : x ≠ y) : R x y ∨ R y x := by
  have : Std.Symm fun x y => R x y ∨ R y x := ⟨fun _ _ => Or.symm⟩
  have either : xs.Pairwise fun x y => R x y ∨ R y x := h.imp Or.inl
  exact either.forall hx hy apart

namespace Value

variable {k l : Value} {kt : KeyType} (discrete : kt ≠ .float) (typed : k.type = kt.toValueType)
include discrete typed

theorem keyMatches_iff_eq : k.keyMatches l = true ↔ k = l := by
  cases kt <;> cases k <;> simp [Value.type, KeyType.toValueType] at typed discrete <;>
    cases l <;> simp [keyMatches]

theorem key_beq_iff_eq : (k == l) = true ↔ k = l := by
  change same k l = true ↔ k = l
  cases kt <;> cases k <;> simp [Value.type, KeyType.toValueType] at typed discrete <;>
    cases l <;> simp [same]

end Value

namespace Dictionary

open Value

variable {kt : KeyType} {vt : ValueType} {d e : Dictionary Value} {ps qs : Chain} {k l : Value}
  {calls calls' : List (Value × Value)}

/-- Every key has equal values in the two dictionaries, or none in both. -/
def AnswerAlike (d e : Dictionary Value) : Prop :=
  ∀ k, Option.Rel (fun v w => (v == w) = true) (d.get? k) (e.get? k)

/-- There was a moment in the history at which the first key was stored and the second was not. -/
def StoredBefore (kt : KeyType) (vt : ValueType) (calls : List (Value × Value)) (k l : Value) :
    Prop :=
  ∃ front, front <+: calls ∧
    (ofCalls kt vt front).contains k = true ∧ (ofCalls kt vt front).contains l = false

/-- Any two keys that stand in one bucket were first stored in the same order. -/
def SameOrder (kt : KeyType) (vt : ValueType) (calls calls' : List (Value × Value)) : Prop :=
  ∀ k l, (ofCalls kt vt calls).contains k = true → (ofCalls kt vt calls).contains l = true →
    k.keyBucket kt Limits.buckets = l.keyBucket kt Limits.buckets →
    (StoredBefore kt vt calls k l ↔ StoredBefore kt vt calls' k l)

/-- The keys of a bucket, newest first. -/
def keysAt (d : Dictionary Value) (i : Nat) : List Value :=
  (d.chain i).map Prod.fst

theorem holds_ofCalls (kt : KeyType) (vt : ValueType) (calls : List (Value × Value)) :
    Holds kt vt (pairsOf kt vt calls) (ofCalls kt vt calls) :=
  (holds_new kt vt).calls calls

theorem Holds.contains_eq (h : Holds kt vt ps d) (k : Value) :
    d.contains k = ps.any (·.1.keyMatches k) := by
  rw [contains, h.get?_eq, Option.isSome_map, List.isSome_find?]

theorem Holds.forall₂_buckets (h : Holds kt vt ps d) (h' : Holds kt vt qs e) :
    List.Forall₂ (List.Forall₂ SamePair) d.buckets e.buckets ↔
      ∀ i < Limits.buckets, List.Forall₂ SamePair (d.chain i) (e.chain i) := by
  rw [buckets_eq_chains d, buckets_eq_chains e, h.length, h'.length, List.forall₂_map_left_iff,
    List.forall₂_map_right_iff, List.forall₂_same]
  simp only [List.mem_range]

theorem Holds.keysAt_eq (h : Holds kt vt ps d) {i : Nat} (hi : i < Limits.buckets) :
    d.keysAt i = (ps.filter (inBucket kt i)).map Prod.fst := by
  rw [keysAt, h.chain i hi]

theorem any_write (kt : KeyType) (vt : ValueType) (call : Value × Value)
    (there : ps.any (·.1.keyMatches k) = true) :
    (write kt vt ps call).any (·.1.keyMatches k) = true := by
  rw [write]
  split
  · split
    · obtain ⟨e, he, hit⟩ := List.any_eq_true.mp there
      refine List.any_eq_true.mpr ⟨_, List.mem_map_of_mem he, ?_⟩
      split <;> exact hit
    · rw [List.any_cons, there, Bool.or_true]
  · exact there

/-- No key leaves. -/
theorem contains_of_longer (stored : (ofCalls kt vt calls).contains k = true)
    (longer : calls <+: calls') : (ofCalls kt vt calls').contains k = true := by
  obtain ⟨rest, rfl⟩ := longer
  induction rest using List.reverseRecOn with
  | nil => rwa [List.append_nil]
  | append_singleton rest call ih =>
      rw [(holds_ofCalls kt vt _).contains_eq] at ih ⊢
      rw [← List.append_assoc, pairsOf_concat]
      exact any_write kt vt call ih

theorem StoredBefore.longer (h : StoredBefore kt vt calls k l) (longer : calls <+: calls') :
    StoredBefore kt vt calls' k l := by
  obtain ⟨front, before, moment⟩ := h
  exact ⟨front, before.trans longer, moment⟩

theorem StoredBefore.asymm (h : StoredBefore kt vt calls k l) : ¬ StoredBefore kt vt calls l k := by
  rintro ⟨front', before', there', absent'⟩
  obtain ⟨front, before, there, absent⟩ := h
  cases List.prefix_or_prefix_of_prefix before before' with
  | inl longer => simp [contains_of_longer there longer] at absent'
  | inr longer => simp [contains_of_longer there' longer] at absent

theorem AnswerAlike.contains_eq (alike : AnswerAlike d e) (k : Value) :
    d.contains k = e.contains k := by
  rw [contains, contains]
  have answers := alike k
  generalize d.get? k = v, e.get? k = w at answers
  cases answers <;> rfl

section Discrete

variable (discrete : kt ≠ .float)
include discrete

theorem Holds.contains_iff_mem (h : Holds kt vt ps d) :
    d.contains k = true ↔ k ∈ ps.map Prod.fst := by
  rw [h.contains_eq, List.any_eq_true, List.mem_map]
  refine exists_congr fun e => and_congr_right fun he => ?_
  exact keyMatches_iff_eq discrete (h.typed e he).1

theorem Holds.exists_keyBucket (h : Holds kt vt ps d) (stored : d.contains k = true) :
    ∃ i, k.keyBucket kt Limits.buckets = .ok i := by
  obtain ⟨e, he, rfl⟩ := List.mem_map.mp ((h.contains_iff_mem discrete).mp stored)
  exact exists_keyBucket_iff.mpr (h.typed e he).1

theorem Holds.nodup_keys (h : Holds kt vt ps d) : (ps.map Prod.fst).Nodup := by
  refine List.pairwise_map.mpr (h.distinct.imp_of_mem ?_)
  intro e f he _ apart same
  rw [(keyMatches_iff_eq discrete (h.typed e he).1).mpr same] at apart
  cases apart

/-- The list of pairs stands newest first. -/
theorem pairwise_storedBefore (calls : List (Value × Value)) :
    (pairsOf kt vt calls).Pairwise fun f e => StoredBefore kt vt calls e.1 f.1 := by
  induction calls using List.reverseRecOn with
  | nil => exact .nil
  | append_singleton calls call ih =>
      have h := holds_ofCalls kt vt calls
      have kept : (pairsOf kt vt calls).Pairwise fun f e =>
          StoredBefore kt vt (calls ++ [call]) e.1 f.1 :=
        ih.imp fun before => before.longer (List.prefix_append _ _)
      rw [pairsOf_concat, write]
      split
      · split
        · refine List.pairwise_map.mpr (kept.imp ?_)
          intro f e before
          split <;> split <;> exact before
        · rename_i absent
          -- The call comes to the front, and every pair behind it is stored before the call.
          refine List.pairwise_cons.mpr ⟨?_, kept⟩
          intro e he
          refine ⟨calls, List.prefix_append _ _, ?_, ?_⟩
          · exact (h.contains_iff_mem discrete).mpr (List.mem_map_of_mem he)
          · rw [h.contains_eq]
            exact Bool.eq_false_iff.mpr absent
      · exact kept

theorem Holds.get?_of_mem (h : Holds kt vt ps d) {e : Value × Value} (he : e ∈ ps) :
    d.get? e.1 = some e.2 := by
  obtain ⟨front, back, rfl⟩ := List.append_of_mem he
  have itself : e.1.keyMatches e.1 = true := (keyMatches_iff_eq discrete (h.typed e he).1).mpr rfl
  have ahead : ∀ f ∈ front, ¬ f.1.keyMatches e.1 = true := by
    intro f hf hit
    have apart := (List.pairwise_append.mp h.distinct).2.2 f hf e List.mem_cons_self
    simp [hit] at apart
  rw [h.get?_eq, List.find?_append, List.find?_eq_none.mpr ahead, Option.none_or, List.find?_cons,
    itself]
  rfl

theorem Holds.get?_of_not_mem (h : Holds kt vt ps d) (absent : k ∉ ps.map Prod.fst) :
    d.get? k = none := by
  rwa [← h.contains_iff_mem discrete, contains, Bool.not_eq_true, Option.isSome_eq_false_iff,
    Option.isNone_iff_eq_none] at absent

/-- Two chains of one bucket are equal as soon as they list the same keys. -/
theorem AnswerAlike.chains_iff (alike : AnswerAlike d e) (h : Holds kt vt ps d)
    (h' : Holds kt vt qs e) {i : Nat} (hi : i < Limits.buckets) :
    List.Forall₂ SamePair (d.chain i) (e.chain i) ↔ d.keysAt i = e.keysAt i := by
  have mem : ∀ p ∈ d.chain i, p ∈ ps := fun p hp => List.mem_of_mem_filter (h.chain i hi ▸ hp)
  have mem' : ∀ q ∈ e.chain i, q ∈ qs := fun q hq => List.mem_of_mem_filter (h'.chain i hi ▸ hq)
  rw [keysAt, keysAt, ← List.forall₂_eq_eq_eq, List.forall₂_map_left_iff,
    List.forall₂_map_right_iff, List.forall₂_iff_get, List.forall₂_iff_get]
  refine and_congr_right fun _ => forall₃_congr fun j hj hj' => ?_
  have stored := mem _ (List.get_mem (d.chain i) ⟨j, hj⟩)
  have stored' := mem' _ (List.get_mem (e.chain i) ⟨j, hj'⟩)
  generalize (d.chain i).get ⟨j, hj⟩ = p, (e.chain i).get ⟨j, hj'⟩ = q at stored stored' ⊢
  rw [SamePair, key_beq_iff_eq discrete (h.typed p stored).1, and_iff_left_iff_imp]
  intro keys
  have answers := alike p.1
  rw [h.get?_of_mem discrete stored, keys, h'.get?_of_mem discrete stored'] at answers
  cases answers with
  | some values => exact values

theorem Holds.mem_keysAt (h : Holds kt vt ps d) {i : Nat} (hi : i < Limits.buckets) :
    k ∈ d.keysAt i ↔ d.contains k = true ∧ k.keyBucket kt Limits.buckets = .ok i := by
  rw [h.contains_iff_mem discrete, h.keysAt_eq hi]
  simp only [List.mem_map, List.mem_filter, inBucket, decide_eq_true_eq]
  constructor
  · rintro ⟨e, ⟨he, home⟩, rfl⟩
    exact ⟨⟨e, he, rfl⟩, home⟩
  · rintro ⟨⟨e, he, rfl⟩, home⟩
    exact ⟨e, ⟨he, home⟩, rfl⟩

theorem Holds.nodup_keysAt (h : Holds kt vt ps d) {i : Nat} (hi : i < Limits.buckets) :
    (d.keysAt i).Nodup := by
  rw [h.keysAt_eq hi]
  exact (h.nodup_keys discrete).sublist (List.filter_sublist.map _)

theorem pairwise_keysAt (calls : List (Value × Value)) {i : Nat} (hi : i < Limits.buckets) :
    ((ofCalls kt vt calls).keysAt i).Pairwise fun l k => StoredBefore kt vt calls k l := by
  rw [(holds_ofCalls kt vt calls).keysAt_eq hi]
  exact List.pairwise_map.mpr ((pairwise_storedBefore discrete calls).filter _)

section Histories

variable (alike : AnswerAlike (ofCalls kt vt calls) (ofCalls kt vt calls'))
include alike

theorem AnswerAlike.size_eq : (ofCalls kt vt calls).size = (ofCalls kt vt calls').size := by
  have h := holds_ofCalls kt vt calls
  have h' := holds_ofCalls kt vt calls'
  have perm : ((pairsOf kt vt calls).map Prod.fst).Perm ((pairsOf kt vt calls').map Prod.fst) := by
    refine (List.perm_ext_iff_of_nodup (h.nodup_keys discrete) (h'.nodup_keys discrete)).mpr ?_
    intro k
    rw [← h.contains_iff_mem discrete, alike.contains_eq, h'.contains_iff_mem discrete]
  rw [h.size, h'.size]
  simpa using perm.length_eq

theorem AnswerAlike.keysAt_eq (order : SameOrder kt vt calls calls') {i : Nat}
    (hi : i < Limits.buckets) :
    (ofCalls kt vt calls).keysAt i = (ofCalls kt vt calls').keysAt i := by
  have h := holds_ofCalls kt vt calls
  have h' := holds_ofCalls kt vt calls'
  have perm : ((ofCalls kt vt calls).keysAt i).Perm ((ofCalls kt vt calls').keysAt i) := by
    refine (List.perm_ext_iff_of_nodup (h.nodup_keysAt discrete hi)
      (h'.nodup_keysAt discrete hi)).mpr ?_
    intro k
    rw [h.mem_keysAt discrete hi, h'.mem_keysAt discrete hi, alike.contains_eq]
  refine perm.eq_of_pairwise ?_ (pairwise_keysAt discrete calls hi) ?_
  · intro k l _ _ before after
    exact (before.asymm after).elim
  · refine (pairwise_keysAt discrete calls' hi).imp_of_mem ?_
    intro l k hl hk before
    obtain ⟨storedL, homeL⟩ := (h.mem_keysAt discrete hi).mp (perm.mem_iff.mpr hl)
    obtain ⟨storedK, homeK⟩ := (h.mem_keysAt discrete hi).mp (perm.mem_iff.mpr hk)
    exact (order k l storedK storedL (homeK.trans homeL.symm)).mpr before

end Histories

theorem sameOrder_of_keysAt (same : ∀ i < Limits.buckets,
      (ofCalls kt vt calls).keysAt i = (ofCalls kt vt calls').keysAt i) :
    SameOrder kt vt calls calls' := by
  intro k l storedK storedL home
  have h := holds_ofCalls kt vt calls
  obtain ⟨i, homeK⟩ := h.exists_keyBucket discrete storedK
  have hi : i < Limits.buckets := keyBucket_lt homeK
  have there := (h.mem_keysAt discrete hi).mpr ⟨storedK, homeK⟩
  have there' := (h.mem_keysAt discrete hi).mpr ⟨storedL, home.symm.trans homeK⟩
  by_cases apart : k = l
  · -- No key is stored before itself.
    subst apart
    exact iff_of_false (fun before => before.asymm before) (fun before => before.asymm before)
  · have order : ((ofCalls kt vt calls').keysAt i).Pairwise fun l k =>
        StoredBefore kt vt calls' k l := pairwise_keysAt discrete calls' hi
    have both := (pairwise_keysAt discrete calls hi).and (same i hi ▸ order)
    cases or_of_pairwise both there there' apart with
    | inl after => exact iff_of_false after.1.asymm after.2.asymm
    | inr before => exact iff_of_true before.1 before.2

end Discrete

/-- The pairs decide the answers, in whatever order they stand. -/
theorem answerAlike_of_perm (discrete : kt ≠ .float)
    (perm : (pairsOf kt vt calls).Perm (pairsOf kt vt calls'))
    (free : ∀ e ∈ pairsOf kt vt calls, (e.2 == e.2) = true) :
    AnswerAlike (ofCalls kt vt calls) (ofCalls kt vt calls') := by
  have h := holds_ofCalls kt vt calls
  have h' := holds_ofCalls kt vt calls'
  intro k
  by_cases stored : k ∈ (pairsOf kt vt calls).map Prod.fst
  · obtain ⟨e, he, rfl⟩ := List.mem_map.mp stored
    rw [h.get?_of_mem discrete he, h'.get?_of_mem discrete (perm.mem_iff.mp he)]
    exact .some (free e he)
  · have absent := mt (perm.map Prod.fst).mem_iff.mpr stored
    rw [h.get?_of_not_mem discrete stored, h'.get?_of_not_mem discrete absent]
    exact .none

/-- Two histories over integer or text keys that leave the same answers leave the same number of
keys; and they leave equal dictionaries exactly when the keys of each bucket were first stored in
the same order. -/
theorem beq_iff_sameOrder (discrete : kt ≠ .float)
    (alike : AnswerAlike (ofCalls kt vt calls) (ofCalls kt vt calls')) :
    (ofCalls kt vt calls).size = (ofCalls kt vt calls').size ∧
    ((dict (ofCalls kt vt calls) == dict (ofCalls kt vt calls')) = true ↔
      SameOrder kt vt calls calls') := by
  have h := holds_ofCalls kt vt calls
  have h' := holds_ofCalls kt vt calls'
  have size := alike.size_eq discrete
  refine ⟨size, ?_⟩
  have chains : (dict (ofCalls kt vt calls) == dict (ofCalls kt vt calls')) = true ↔
      ∀ i < Limits.buckets,
        (ofCalls kt vt calls).keysAt i = (ofCalls kt vt calls').keysAt i := by
    change sameDict _ _ = true ↔ _
    rw [sameDict_iff, h.forall₂_buckets h']
    simp only [h.keyType, h'.keyType, h.valueType, h'.valueType, size, true_and]
    exact forall₂_congr fun i hi => alike.chains_iff discrete h h' hi
  rw [chains]
  exact ⟨sameOrder_of_keysAt discrete, fun order i hi => alike.keysAt_eq discrete order hi⟩

/-- A replaced value and a key of another bucket leave no trace. -/
theorem beq_iff_sameOrder_replaced :
    let calls : List (Value × Value) :=
      [(.int 3, .int 1), (.int 5, .int 0), (.int 104, .int 2), (.int 3, .int 9)]
    let calls' : List (Value × Value) := [(.int 3, .int 9), (.int 104, .int 2), (.int 5, .int 0)]
    AnswerAlike (ofCalls .int .int calls) (ofCalls .int .int calls') ∧
      (dict (ofCalls .int .int calls) == dict (ofCalls .int .int calls')) = true ∧
      SameOrder .int .int calls calls' := by
  intro calls calls'
  have alike : AnswerAlike (ofCalls .int .int calls) (ofCalls .int .int calls') :=
    answerAlike_of_perm (by decide) (.swap _ _ _) (by decide)
  have equal : (dict (ofCalls .int .int calls) == dict (ofCalls .int .int calls')) = true := by
    decide +kernel
  exact ⟨alike, equal, (beq_iff_sameOrder (by decide) alike).2.mp equal⟩

/-- Keys 3 and 104 share a bucket, so dictionaries that stored them in opposite orders differ. -/
theorem not_beq_of_answerAlike :
    ¬ ∀ (kt : KeyType) (vt : ValueType) (calls calls' : List (Value × Value)), kt ≠ .float →
      (∀ c ∈ calls, NaNFree c.2) → (∀ c ∈ calls', NaNFree c.2) →
      (ofCalls kt vt calls).size = (ofCalls kt vt calls').size →
      AnswerAlike (ofCalls kt vt calls) (ofCalls kt vt calls') →
      (dict (ofCalls kt vt calls) == dict (ofCalls kt vt calls')) = true := by
  intro forgets
  let calls : List (Value × Value) := [(.int 3, .int 1), (.int 104, .int 2)]
  let calls' : List (Value × Value) := [(.int 104, .int 2), (.int 3, .int 1)]
  have free : ∀ c ∈ calls ++ calls', (c.2 == c.2) = true := by decide
  have alike : AnswerAlike (ofCalls .int .int calls) (ofCalls .int .int calls') :=
    answerAlike_of_perm (by decide) (.swap _ _ _) (by decide)
  have equal := forgets .int .int calls calls' (by decide)
    (fun c hc => beq_self_iff.mp (free c (List.mem_append_left _ hc)))
    (fun c hc => beq_self_iff.mp (free c (List.mem_append_right _ hc))) (by decide +kernel) alike
  have unequal : (dict (ofCalls .int .int calls) == dict (ofCalls .int .int calls')) = false := by
    decide +kernel
  simp [unequal] at equal

end Dictionary

end DeclLine

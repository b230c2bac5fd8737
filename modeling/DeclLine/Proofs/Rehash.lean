import DeclLine.Proofs.Session

/-!
Rehashing, chain by chain. The entries of a new chain come from the old chains, those of the last
bucket first, and keep the order that they had there. In a registry whose entries stand in the
buckets of their names, each new chain of the same number of buckets comes from one old chain, so
that rehashing once more, or to the number of buckets at hand, changes nothing.
-/
namespace DeclLine

/-- The hash of the name falls into bucket `j` of `m`. -/
def Entry.fallsInto (m j : Nat) (e : Entry) : Bool :=
  (RollingHash.ofName (Text.bytes e.name)).toNat % max m 1 = j

/-- If all but one of the parts are empty, the parts in any order make up that one. -/
theorem flatMap_reverse_range {α : Type} {f : Nat → List α} {j : Nat}
    (empty : ∀ i, i ≠ j → f i = []) (n : Nat) :
    (List.range n).reverse.flatMap f = if j < n then f j else [] := by
  induction n with
  | zero => rfl
  | succ n ih =>
      rw [List.range_succ, List.reverse_concat, List.flatMap_cons, ih]
      by_cases here : n = j
      · subst here
        simp
      · have same : j < n + 1 ↔ j < n := by omega
        simp only [empty n here, List.nil_append, same]

namespace Registry

variable {r r' : Registry}

theorem Housed.insert (h : r.Housed) (x : Item) : (r.insert x).2.Housed := by
  unfold Registry.insert
  split
  · exact h
  · constructor
    · dsimp only
      exact place_ne_nil h.nonempty _
    · dsimp only
      exact h.placed.place h.nonempty _

theorem Housed.update (h : r.Housed) (id : UInt32) (value : Value) (scope : Scope) :
    (r.update id value scope).2.Housed := by
  unfold Registry.update
  split
  · exact h
  · split
    · exact h
    · have keeps (e : Entry) : (e.assign value).name = e.name := rfl
      exact h.rebuild (namesWithin_modifyFirst keeps _ _) _

theorem Housed.deleteName (h : r.Housed) (name : String) : (r.deleteName name).2.Housed := by
  unfold Registry.deleteName
  split
  · exact h
  · dsimp only
    split
    · exact h
    · exact h.rebuild (namesWithin_eraseAt _ _ _) _

theorem Housed.deleteId (h : r.Housed) (id : UInt32) : (r.deleteId id).2.Housed := by
  unfold Registry.deleteId
  split
  · exact h
  · exact h.rebuild (namesWithin_eraseFirst _ _) _

theorem Housed.clear (h : r.Housed) : r.clear.Housed :=
  h.rebuild (namesWithin_clear _) _

theorem Housed.perform (h : r.Housed) (q : Request) : (r.perform q).2.Housed := by
  cases q with
  | insert x => exact h.insert x
  | update id value scope => exact h.update id value scope
  | deleteName name => exact h.deleteName name
  | deleteId id => exact h.deleteId id
  | clear => exact h.clear
  | resize count => exact r.housed_resize count
  | lookupName _ _ | lookupId _ _ | containsName _ _ | containsId _ _ => exact h

theorem Housed.commit (h : r.Housed) (p : Pending) : (r.commit p).2.Housed := by
  cases r.commit_inserts p with
  | inl same => rwa [same]
  | inr inserted =>
      obtain ⟨x, same⟩ := inserted
      rw [same]
      exact h.insert x

theorem Housed.act (h : r.Housed) {a : Action} {id : Option UInt32}
    (acted : r.act a = some (id, r')) : r'.Housed := by
  cases a with
  | call q =>
      cases acted
      exact h.perform q
  | commit p =>
      cases acted
      exact h.commit p
  | line T source line =>
      obtain ⟨reading, read, same⟩ := Option.map_eq_some_iff.mp acted
      obtain ⟨outcome, made⟩ := Reading.exists_outcome read
      subst made
      cases same
      cases outcome with
      | error d => exact h
      | ok p => exact h.commit p

/-- Identifiers may run over: buckets depend on names only. -/
theorem Housed.session (h : r.Housed) {script : List Action} {ids : List UInt32}
    (reached : r.session script = some (ids, r')) : r'.Housed := by
  induction script generalizing r ids with
  | nil =>
      cases reached
      exact h
  | cons a script ih =>
      obtain ⟨_, next, later, acted, ended, _⟩ := session_cons reached
      exact ih (h.act acted) ended

section Chains

variable (r : Registry) (m : Nat)

theorem buckets_eq_chains : r.buckets = (List.range r.bucketCount).map r.chain := by
  apply List.ext_getElem
  · simp [bucketCount]
  · intro i inside _
    simp [chain, List.getElem?_eq_getElem inside]

theorem ext_chains {s : Registry} (count : r.bucketCount = s.bucketCount)
    (nextId : r.nextId = s.nextId) (chains : ∀ j, r.chain j = s.chain j) : r = s := by
  have buckets : r.buckets = s.buckets := by
    rw [r.buckets_eq_chains, s.buckets_eq_chains, count, funext chains]
  cases r
  cases s
  simp_all

theorem fallsInto_eq (j : Nat) (e : Entry) :
    e.fallsInto m j = decide (RollingHash.nameBucket e.name (max m 1) = j) := by
  have one : max (max m 1) 1 = max m 1 := by omega
  rw [Entry.fallsInto, RollingHash.nameBucket, RollingHash.bucket, one]

theorem chain_resize_eq (j : Nat) :
    (r.resize m).chain j =
      (List.range r.bucketCount).reverse.flatMap fun i => (r.chain i).filter (·.fallsInto m j) := by
  have parts : r.buckets.reverse.flatten =
      (List.range r.bucketCount).reverse.flatMap r.chain := by
    rw [r.buckets_eq_chains, ← List.map_reverse, List.flatMap_def]
  rw [chain, chain_resize, parts, List.filter_flatMap]
  simp only [fallsInto_eq]

/-- Entries of one old chain that meet again in a new one stand there in their old order. -/
theorem sublist_chain_resize (i j : Nat) :
    ((r.chain i).filter (·.fallsInto m j)).Sublist ((r.resize m).chain j) := by
  rw [chain_resize_eq]
  by_cases inside : i < r.bucketCount
  · have mem : i ∈ (List.range r.bucketCount).reverse := by simpa using inside
    exact List.sublist_flatten_of_mem (List.mem_map_of_mem mem)
  · have none : r.chain i = [] := by
      simp [chain, List.getElem?_eq_none (Nat.le_of_not_lt inside)]
    rw [none]
    exact List.nil_sublist _

end Chains

theorem Housed.filter_chain (h : r.Housed) (i j : Nat) :
    (r.chain i).filter (·.fallsInto r.bucketCount j) = if i = j then r.chain i else [] := by
  have pos : max r.bucketCount 1 = r.bucketCount := by
    have := List.length_pos_iff.mpr h.nonempty
    simp only [bucketCount]
    omega
  have here (e : Entry) (mem : e ∈ r.chain i) : e.fallsInto r.bucketCount j = decide (i = j) := by
    rw [fallsInto_eq, pos, bucketCount, h.placed i e mem]
  split
  · rename_i same
    rw [List.filter_eq_self]
    intro e mem
    rw [here e mem, decide_eq_true same]
  · rename_i other
    rw [List.filter_eq_nil_iff]
    intro e mem
    rw [here e mem, decide_eq_false other]
    exact Bool.false_ne_true

theorem Housed.resize_self (h : r.Housed) : r.resize r.bucketCount = r := by
  have pos := List.length_pos_iff.mpr h.nonempty
  refine ext_chains _ ?_ rfl ?_
  · rw [bucketCount, length_resize, bucketCount]
    omega
  · intro j
    -- Of all the old chains, only that of bucket `j` has entries for it.
    rw [chain_resize_eq]
    simp only [h.filter_chain]
    rw [flatMap_reverse_range (j := j) (fun i other => if_neg other), if_pos rfl]
    split
    · rfl
    · rename_i outside
      simp [chain, List.getElem?_eq_none (Nat.le_of_not_lt outside)]

theorem resize_max (r : Registry) (m : Nat) : r.resize (max m 1) = r.resize m := by
  rw [resize, resize, show max (max m 1) 1 = max m 1 by omega]

theorem resize_resize (r : Registry) (m : Nat) : (r.resize m).resize m = r.resize m := by
  have own := (r.housed_resize m).resize_self
  rwa [bucketCount, length_resize, resize_max] at own

/-- Rehashing a registry of any history: what the new chains are, that all entries are kept, and
that a second time, or the number of buckets at hand, changes nothing. -/
theorem resize_exact {count : Nat} {script : List Action} {ids : List UInt32}
    (reached : (withBuckets count).session script = some (ids, r)) (m : Nat) :
    (r.resize m).bucketCount = max m 1 ∧ (r.resize m).nextId = r.nextId ∧
      (∀ j, (r.resize m).chain j =
        (List.range r.bucketCount).reverse.flatMap fun i =>
          (r.chain i).filter (·.fallsInto m j)) ∧
      (r.resize m).entries.Perm r.entries ∧
      (∀ i j, ((r.chain i).filter (·.fallsInto m j)).Sublist ((r.resize m).chain j)) ∧
      r.resize r.bucketCount = r ∧ (r.resize m).resize m = r.resize m := by
  have housed := (housed_withBuckets count).session reached
  have kept : (r.resize m).entries.Perm r.entries :=
    perm_of_named_eq (named_resize r m housed.placed)
  exact ⟨length_resize r m, rfl, chain_resize_eq r m, kept, sublist_chain_resize r m,
    housed.resize_self, r.resize_resize m⟩

/-- Two of three buckets in use, one of them by two names. -/
def crowded : List Action :=
  [.call (.insert ⟨"a", "int", none, 0, false, false⟩),
   .call (.insert ⟨"b", "int", none, 0, false, false⟩), .commit ⟨some .str, some "d"⟩]

theorem resize_exact_crowded :
    ∃ r, (withBuckets 3).session crowded = some ([0, 1, 2], r) ∧
      (r.entries.map Entry.name) = ["d", "a", "b"] ∧
      (r.resize 2).entries.map Entry.name = ["b", "d", "a"] ∧
      (r.resize 2).bucketCount = 2 ∧ (r.resize 2).entries.Perm r.entries ∧
      r.resize r.bucketCount = r ∧ (r.resize 2).resize 2 = r.resize 2 := by
  have reached : (withBuckets 3).session crowded = some ([0, 1, 2], _) := rfl
  obtain ⟨count, _, _, kept, _, same, once⟩ := resize_exact reached 2
  refine ⟨_, reached, ?_, ?_, count, kept, same, once⟩
  · decide +kernel
  · decide +kernel

end Registry

end DeclLine

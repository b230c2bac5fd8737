import DeclLine.Proofs.Ledger
import Mathlib.Data.List.Find
import Mathlib.Data.List.Nodup

/-!
A registry answers as a ledger does. The two need not agree on one order of all entries, since
rehashing reverses the buckets against each other. They agree on the order of the entries of
each name, which is what every call looks at.
-/
namespace DeclLine

theorem perm_of_named_eq {es fs : List Entry} (h : ∀ name, named name es = named name fs) :
    es.Perm fs := by
  classical
  rw [List.perm_iff_count]
  intro e
  have hes : (named e.name es).count e = es.count e := List.count_filter (by simp)
  have hfs : (named e.name fs).count e = fs.count e := List.count_filter (by simp)
  rw [← hes, ← hfs, h]

/-- One more entry, at the head of the bucket of its name, and one more identifier. -/
structure Registry.Adds (r r' : Registry) (e : Entry) : Prop where
  bucket_lt : r.bucketOf e.name < r.bucketCount
  buckets_eq : r'.buckets = r.buckets.modify (r.bucketOf e.name) (e :: ·)
  nextId_eq : r'.nextId.toNat = r.nextId.toNat + 1

/-- A registry and a ledger of the same entries of every name and the same counter. -/
structure Reflects (r : Registry) (l : Ledger) : Prop where
  nonempty : r.buckets ≠ []
  placed : Registry.Placed r.buckets
  named_eq : ∀ name, named name r.buckets.flatten = named name l.entries
  nextId_eq : r.nextId.toNat = l.count

namespace Reflects

theorem start (count : Nat) : Reflects (Registry.withBuckets count) Ledger.empty where
  nonempty := by simp [Registry.withBuckets]
  placed := Registry.placed_replicate _
  named_eq name := by simp [Registry.withBuckets, Ledger.empty]
  nextId_eq := rfl

variable {r : Registry} {l : Ledger}

theorem housed (h : Reflects r l) : r.Housed :=
  ⟨h.nonempty, h.placed⟩

theorem perm (h : Reflects r l) : r.entries.Perm l.entries :=
  perm_of_named_eq h.named_eq

theorem size_eq (h : Reflects r l) : r.size = l.entries.length :=
  h.perm.length_eq

theorem isEmpty_eq (h : Reflects r l) : r.isEmpty = l.entries.isEmpty := by
  rw [← h.perm.isEmpty_eq, Registry.isEmpty, Registry.entries, Bool.eq_iff_iff]
  simp

theorem nextId_cast (h : Reflects r l) : r.nextId = l.count.toUInt32 := by
  rw [← h.nextId_eq]
  simp

theorem named_chain (h : Reflects r l) (name : String) :
    named name (r.chain (r.bucketOf name)) = named name l.entries := by
  rw [← h.named_eq]
  exact (h.placed.named_eq name).symm

theorem nodup_ids (h : Reflects r l) (wf : l.WellFormed) :
    (r.buckets.flatten.map (·.id)).Nodup :=
  (h.perm.map _).nodup_iff.mpr wf.nodup_ids

theorem findId_eq (h : Reflects r l) (wf : l.WellFormed) (id : UInt32) :
    r.entries.find? (·.id == id) = l.entries.find? (·.id == id) := by
  refine List.find?_eq_find?_of_perm h.perm ?_
  intro d hd e he
  refine List.inj_on_of_nodup_map (h.nodup_ids wf) hd.1 he.1 ?_
  exact (beq_iff_eq.mp hd.2).trans (beq_iff_eq.mp he.2).symm

theorem findIn_eq (h : Reflects r l) (name : String) (scope : Scope) :
    r.findIn (storedName name) scope = l.findIn name scope := by
  rw [Registry.findIn, find?_named, h.named_chain, Ledger.findIn, find?_named]
  rfl

theorem lookupName_eq (h : Reflects r l) (wf : l.WellFormed) (name : String) (scope : Scope) :
    r.lookupName name scope = l.lookupName name scope := by
  rw [Registry.lookupName, Ledger.lookupName]
  by_cases he : name = ""
  · -- A registry does not even search for the empty name; a ledger has no entry under it.
    have missing (s : Scope) : l.findIn name s = none := by
      rw [Ledger.findIn, find?_named, he]
      simp [show Text.bounded "" 64 = "" from storedName_eq_empty_iff.mpr rfl, wf.named_empty]
    simp only [missing, ite_self]
    exact if_pos (by simpa using he)
  · rw [if_neg (by simpa using he), h.findIn_eq, h.findIn_eq]
    rfl

theorem lookupId_eq (h : Reflects r l) (wf : l.WellFormed) (id : UInt32) (scope : Scope) :
    r.lookupId id scope = l.lookupId id scope := by
  rw [Registry.lookupId, h.findId_eq wf, Ledger.lookupId]
  rfl

theorem insert (h : Reflects r l) (x : Item) (few : (l.insert x).2.count < 2 ^ 32) :
    (r.insert x).1 = (l.insert x).1 ∧ Reflects (r.insert x).2 (l.insert x).2 := by
  by_cases ne : x.name = ""
  · have empty : x.name.isEmpty = true := by simpa using ne
    rw [Registry.insert, Ledger.insert, if_pos empty, if_pos empty]
    exact ⟨rfl, h⟩
  · rw [l.insert_eq ne] at few
    rw [r.insert_eq ne, l.insert_eq ne, ← h.nextId_cast]
    refine ⟨rfl, ?_, ?_, ?_, ?_⟩
    · dsimp only
      exact Registry.place_ne_nil h.nonempty _
    · dsimp only
      exact h.placed.place h.nonempty _
    · intro name
      rw [h.placed.named_place h.nonempty, named_cons, named_cons, h.named_eq]
    · have := h.nextId_eq
      simp only [UInt32.toNat_add, this]
      exact Nat.mod_eq_of_lt few

theorem perm_insert (h : Reflects r l) {x : Item} (ne : x.name ≠ "") :
    (r.insert x).2.entries.Perm (x.toEntry r.nextId :: r.entries) := by
  rw [r.insert_eq ne, Registry.entries]
  dsimp only
  exact perm_of_named_eq (h.placed.named_place h.nonempty _)

/-- The identifier of a new entry finds that entry, since all others are below it. -/
theorem find?_insert (h : Reflects r l) (wf : l.WellFormed) {x : Item} (ne : x.name ≠ "") :
    (r.insert x).2.entries.find? (·.id == r.nextId) = some (x.toEntry r.nextId) := by
  have perm := h.perm_insert ne
  cases found : (r.insert x).2.entries.find? (·.id == r.nextId) with
  | none =>
      have new : x.toEntry r.nextId ∈ (r.insert x).2.entries := perm.mem_iff.mpr List.mem_cons_self
      exact absurd (beq_self_eq_true _) (List.find?_eq_none.mp found _ new)
  | some d =>
      have id : d.id = r.nextId := by simpa using List.find?_some found
      cases List.mem_cons.mp (perm.mem_iff.mp (List.mem_of_find?_eq_some found)) with
      | inl new => rw [new]
      | inr old =>
          have below := wf.fresh d (h.perm.mem_iff.mp old)
          rw [id, h.nextId_eq] at below
          omega

theorem lookupId_insert (h : Reflects r l) (wf : l.WellFormed) {x : Item} (ne : x.name ≠ "")
    {scope : Scope} (sees : scope.sees x.scope = true) :
    (r.insert x).2.lookupId r.nextId scope = some (x.toEntry r.nextId) := by
  rw [Registry.lookupId, h.find?_insert wf ne]
  exact Option.filter_some_pos sees

/-- A new entry is before all others of its name, so a search from its scope finds it. -/
theorem lookupName_insert (h : Reflects r l) {x : Item} (ne : x.name ≠ "") :
    (r.insert x).2.lookupName x.name x.scope = some (x.toEntry r.nextId) := by
  have head : (r.insert x).2.chain ((r.insert x).2.bucketOf (storedName x.name)) =
      x.toEntry r.nextId :: r.chain (r.bucketOf (storedName x.name)) := by
    rw [r.insert_eq ne]
    simp only [Registry.chain, Registry.bucketOf, Registry.bucketCount, Registry.length_place]
    exact (Registry.getD_place _ h.nonempty _).trans (if_pos rfl)
  have first : (r.insert x).2.findIn (storedName x.name) x.scope = some (x.toEntry r.nextId) := by
    rw [Registry.findIn, head]
    exact List.find?_cons_of_pos (by simp [Item.toEntry])
  rw [Registry.lookupName, if_neg (by simpa using ne), first]

theorem adds_insert (h : Reflects r l) {x : Item} (ne : x.name ≠ "")
    (few : l.count + 1 < 2 ^ 32) : r.Adds (r.insert x).2 (x.toEntry r.nextId) := by
  rw [r.insert_eq ne]
  refine ⟨Registry.nameBucket_lt_length h.nonempty _, ?_, ?_⟩
  · simp only [Registry.place, Registry.bucketOf, Registry.bucketCount]
  · have := h.nextId_eq
    simp only [UInt32.toNat_add, this]
    exact Nat.mod_eq_of_lt few

/-- Both sides change entries without adding a name to a chain or touching the counter. -/
theorem rebuild (h : Reflects r l) {bs : List (List Entry)} {es : List Entry}
    (within : Registry.NamesWithin r.buckets bs)
    (same : ∀ name, named name bs.flatten = named name es) :
    Reflects ⟨bs, r.nextId⟩ ⟨es, l.count⟩ := by
  have housed := h.housed.rebuild within r.nextId
  exact ⟨housed.nonempty, housed.placed, same, h.nextId_eq⟩

theorem update (h : Reflects r l) (wf : l.WellFormed) (id : UInt32) (value : Value)
    (scope : Scope) :
    (r.update id value scope).1 = (l.update id value scope).1 ∧
      Reflects (r.update id value scope).2 (l.update id value scope).2 := by
  unfold Registry.update Ledger.update
  rw [h.lookupId_eq wf]
  cases l.lookupId id scope with
  | none => exact ⟨rfl, h⟩
  | some e =>
      dsimp only
      by_cases const : e.isConst = true
      · rw [if_pos const, if_pos const]
        exact ⟨rfl, h⟩
      · rw [if_neg const, if_neg const]
        have assigned (d : Entry) : (d.assign value).name = d.name := rfl
        have keeps (d : Entry) : (if d.id == id then d.assign value else d).name = d.name := by
          split <;> rfl
        refine ⟨rfl, h.rebuild (Registry.namesWithin_modifyFirst assigned _ _) ?_⟩
        intro name
        rw [Registry.flatten_modifyFirst,
          Registry.modifyChain_eq_map (Registry.pairwise_of_nodup_ids (h.nodup_ids wf) id),
          named_map keeps, h.named_eq]
        exact (named_map keeps name l.entries).symm

theorem deleteId (h : Reflects r l) (wf : l.WellFormed) (id : UInt32) :
    (r.deleteId id).1 = (l.deleteId id).1 ∧ Reflects (r.deleteId id).2 (l.deleteId id).2 := by
  unfold Registry.deleteId Ledger.deleteId
  rw [h.findId_eq wf]
  cases found : l.entries.find? (·.id == id) with
  | none =>
      have same : l.entries.filter (!·.id == id) = l.entries := by
        rw [List.filter_eq_self]
        intro e he
        simpa using List.find?_eq_none.mp found e he
      rw [same]
      exact ⟨rfl, h⟩
  | some e =>
      refine ⟨rfl, h.rebuild (Registry.namesWithin_eraseFirst _ _) ?_⟩
      intro name
      rw [Registry.flatten_eraseFirst,
        Registry.eraseP_eq_filter (Registry.pairwise_of_nodup_ids (h.nodup_ids wf) id),
        named_filter, named_filter, h.named_eq]

theorem deleteName (h : Reflects r l) (wf : l.WellFormed) (name : String) :
    (r.deleteName name).1 = (l.deleteName name).1 ∧
      Reflects (r.deleteName name).2 (l.deleteName name).2 := by
  have found : (r.chain (r.bucketOf (storedName name))).find? (·.name == storedName name) =
      l.entries.find? (·.name == storedName name) := by
    rw [← List.head?_filter, ← List.head?_filter]
    exact congrArg List.head? (h.named_chain (storedName name))
  change _ = l.entries.find? (·.name == storedName name) ∧
    Reflects _ ⟨l.entries.eraseP (·.name == storedName name), l.count⟩
  have absent (none : l.entries.find? (·.name == storedName name) = none) :
      l.entries.eraseP (·.name == storedName name) = l.entries :=
    List.eraseP_of_forall_not (List.find?_eq_none.mp none)
  unfold Registry.deleteName
  by_cases he : name = ""
  · have none : l.entries.find? (·.name == storedName name) = none := by
      rw [storedName_eq_empty_iff.mpr he, ← List.head?_filter]
      exact congrArg List.head? wf.named_empty
    rw [if_pos (by simpa using he), none, absent none]
    exact ⟨rfl, h⟩
  · rw [if_neg (by simpa using he)]
    simp only [found]
    cases hf : l.entries.find? (·.name == storedName name) with
    | none =>
        rw [absent hf]
        exact ⟨rfl, h⟩
    | some e =>
        refine ⟨rfl, h.rebuild (Registry.namesWithin_eraseAt _ _ _) ?_⟩
        intro other
        rw [named_eraseP, ← h.named_eq]
        exact h.placed.named_eraseAt h.nonempty (storedName name) other

theorem clear (h : Reflects r l) : Reflects r.clear ⟨[], l.count⟩ := by
  refine h.rebuild (Registry.namesWithin_clear _) ?_
  intro name
  simp

theorem resize (h : Reflects r l) (count : Nat) : Reflects (r.resize count) l where
  nonempty := (r.housed_resize count).nonempty
  placed := Registry.placed_resize r count
  named_eq name := (Registry.named_resize r count h.placed name).trans (h.named_eq name)
  nextId_eq := h.nextId_eq

/-- One call is answered alike on both sides and leaves them alike. -/
theorem perform (h : Reflects r l) (wf : l.WellFormed) (q : Request)
    (few : (l.perform q).2.count < 2 ^ 32) :
    (r.perform q).1 = (l.perform q).1 ∧ Reflects (r.perform q).2 (l.perform q).2 := by
  cases q with
  | insert x =>
      obtain ⟨same, next⟩ := h.insert x few
      exact ⟨congrArg Answer.id same, next⟩
  | lookupName name scope => exact ⟨congrArg Answer.entry (h.lookupName_eq wf name scope), h⟩
  | lookupId id scope => exact ⟨congrArg Answer.entry (h.lookupId_eq wf id scope), h⟩
  | containsName name scope =>
      refine ⟨congrArg Answer.flag ?_, h⟩
      rw [Registry.containsName, h.lookupName_eq wf]
  | containsId id scope =>
      refine ⟨congrArg Answer.flag ?_, h⟩
      rw [Registry.containsId, h.lookupId_eq wf]
  | update id value scope =>
      obtain ⟨same, next⟩ := h.update wf id value scope
      exact ⟨congrArg Answer.flag same, next⟩
  | deleteName name =>
      obtain ⟨same, next⟩ := h.deleteName wf name
      exact ⟨congrArg Answer.entry same, next⟩
  | deleteId id =>
      obtain ⟨same, next⟩ := h.deleteId wf id
      exact ⟨congrArg Answer.entry same, next⟩
  | clear => exact ⟨rfl, h.clear⟩
  | resize count => exact ⟨rfl, h.resize count⟩

theorem few_tail {q : Request} {script : List Request}
    (few : l.count + (q :: script).countP Request.declares < 2 ^ 32) :
    (l.perform q).2.count + script.countP Request.declares < 2 ^ 32 := by
  rw [Ledger.count_perform]
  rw [List.countP_cons] at few
  omega

theorem observed_eq (h : Reflects r l) (wf : l.WellFormed) (script : List Request)
    (few : l.count + script.countP Request.declares < 2 ^ 32) :
    r.observed script = l.observed script := by
  induction script generalizing r l with
  | nil => rfl
  | cons q script ih =>
      have rest := few_tail few
      obtain ⟨same, next⟩ := h.perform wf q (by omega)
      have wf' := wf.perform (by omega) q
      rw [Registry.observed, Ledger.observed, same, next.size_eq, next.isEmpty_eq, next.nextId_eq,
        ih next wf' rest]

/-- Whatever was called before, some ledger matches the registry. -/
theorem after (h : Reflects r l) (wf : l.WellFormed) (script : List Request)
    (few : l.count + script.countP Request.declares < 2 ^ 32) :
    ∃ l' : Ledger, Reflects (r.after script) l' ∧ l'.WellFormed ∧
      l'.count = l.count + script.countP Request.declares := by
  induction script generalizing r l with
  | nil => exact ⟨l, h, wf, rfl⟩
  | cons q script ih =>
      have rest := few_tail few
      obtain ⟨_, next⟩ := h.perform wf q (by omega)
      obtain ⟨l', reflects, wf', count⟩ := ih next (wf.perform (by omega) q) rest
      refine ⟨l', reflects, wf', ?_⟩
      rw [count, Ledger.count_perform, List.countP_cons]
      omega

end Reflects

namespace Request

theorem declares_recount (f : Nat → Nat) (q : Request) : (q.recount f).declares = q.declares := by
  cases q <;> rfl

end Request

namespace Ledger

theorem perform_recount (l : Ledger) (f : Nat → Nat) (q : Request) :
    l.perform (q.recount f) = l.perform q := by
  cases q <;> rfl

theorem observed_recount (l : Ledger) (f : Nat → Nat) (script : List Request) :
    l.observed (script.map (Request.recount f)) = l.observed script := by
  induction script generalizing l with
  | nil => rfl
  | cons q script ih => rw [List.map_cons, observed, observed, perform_recount, ih]

end Ledger

namespace Registry

/-- Every answer and counter of a registry is that of the ledger, whatever the number of buckets
at the start and after each resizing. -/
theorem observed_eq_ledger (count : Nat) (script : List Request)
    (few : script.countP Request.declares < 2 ^ 32) :
    (withBuckets count).observed script = Ledger.empty.observed script ∧
      ∀ (count' : Nat) (f : Nat → Nat),
        (withBuckets count').observed (script.map (Request.recount f)) =
          (withBuckets count).observed script := by
  have run (n : Nat) (script : List Request) (few : script.countP Request.declares < 2 ^ 32) :
      (withBuckets n).observed script = Ledger.empty.observed script := by
    refine (Reflects.start n).observed_eq Ledger.wellFormed_empty script ?_
    simpa [Ledger.empty] using few
  refine ⟨run count script few, fun count' f => ?_⟩
  have few' : (script.map (Request.recount f)).countP Request.declares < 2 ^ 32 := by
    rw [List.countP_map]
    simpa [Function.comp_def, Request.declares_recount] using few
  rw [run count' _ few', run count script few, Ledger.observed_recount]

/-- A name declared globally and again locally, before and after a rehash. The global one gets a
value once the local one is gone. -/
def shadowing : List Request :=
  [.insert ⟨"x", "int", none, 0, false, false⟩, .insert ⟨"x", "str", none, 1, true, true⟩,
   .lookupName "x" 1, .resize 7, .lookupName "x" 1, .deleteName "x", .lookupName "x" 1,
   .update 0 (.bool true) 1, .lookupId 0 1, .insert ⟨"", "int", none, 0, false, false⟩,
   .deleteId 0, .clear]

theorem observed_eq_ledger_shadowing :
    shadowing.countP Request.declares < 2 ^ 32 ∧
      (withBuckets 3).observed shadowing = Ledger.empty.observed shadowing ∧
      (withBuckets 0).observed (shadowing.map (Request.recount fun _ => 2)) =
        (withBuckets 3).observed shadowing ∧
      ((withBuckets 3).observed shadowing)[8]? =
        some ⟨.entry (some ⟨0, "x", "int", some (.bool true), false, true, 0⟩), 1, false, 2⟩ := by
  have few : shadowing.countP Request.declares < 2 ^ 32 := by decide
  obtain ⟨same, independent⟩ := observed_eq_ledger 3 shadowing few
  refine ⟨few, same, independent 0 fun _ => 2, ?_⟩
  rw [same]
  rfl

end Registry

end DeclLine

import DeclLine.Proofs.Registry
import Mathlib.Algebra.Order.Ring.Nat
import Mathlib.Data.List.Perm.Basic

/-!
The registry as a plain list. A ledger keeps its entries newest first and counts the identifiers
that it gave. Whatever is asked of a registry, its answers and counters are those of a ledger,
since the two always hold the same entries of every name in the same order.
-/
namespace DeclLine

inductive Request where
  | insert (x : Item)
  | lookupName (name : String) (scope : Scope)
  | lookupId (id : UInt32) (scope : Scope)
  | containsName (name : String) (scope : Scope)
  | containsId (id : UInt32) (scope : Scope)
  | update (id : UInt32) (value : Value) (scope : Scope)
  | deleteName (name : String)
  | deleteId (id : UInt32)
  | clear
  | resize (count : Nat)

inductive Answer where
  | id (id : Option UInt32)
  | entry (e : Option Entry)
  | flag (b : Bool)
  | done

/-- An answer, and the counters after the call. -/
structure Observation where
  answer : Answer
  size : Nat
  isEmpty : Bool
  nextId : Nat

namespace Request

/-- Whether the call succeeds in adding an entry. -/
def declares : Request → Bool
  | .insert x => !x.name.isEmpty
  | _ => false

/-- The same call, with another number of buckets if it is for a number of buckets. -/
def recount (f : Nat → Nat) : Request → Request
  | .resize count => .resize (f count)
  | q => q

end Request

namespace Registry

def perform (r : Registry) : Request → Answer × Registry
  | .insert x => (.id (r.insert x).1, (r.insert x).2)
  | .lookupName name scope => (.entry (r.lookupName name scope), r)
  | .lookupId id scope => (.entry (r.lookupId id scope), r)
  | .containsName name scope => (.flag (r.containsName name scope), r)
  | .containsId id scope => (.flag (r.containsId id scope), r)
  | .update id value scope => (.flag (r.update id value scope).1, (r.update id value scope).2)
  | .deleteName name => (.entry (r.deleteName name).1, (r.deleteName name).2)
  | .deleteId id => (.entry (r.deleteId id).1, (r.deleteId id).2)
  | .clear => (.done, r.clear)
  | .resize count => (.done, r.resize count)

def after (r : Registry) (script : List Request) : Registry :=
  script.foldl (fun r q => (r.perform q).2) r

/-- What the calls of a script show, one after the other. -/
def observed (r : Registry) : List Request → List Observation
  | [] => []
  | q :: script =>
      let next := r.perform q
      ⟨next.1, next.2.size, next.2.isEmpty, next.2.nextId.toNat⟩ :: next.2.observed script

end Registry

/-- Live entries, newest first, and the number of identifiers given so far. -/
structure Ledger where
  entries : List Entry
  count : Nat

namespace Ledger

def empty : Ledger := ⟨[], 0⟩

/-- An entry of 63 bytes of name and 31 bytes of type name at most, in front of all others. -/
def insert (l : Ledger) (x : Item) : Option UInt32 × Ledger :=
  if x.name.isEmpty then (none, l)
  else
    let e : Entry := {
      id := l.count.toUInt32
      name := Text.bounded x.name 64
      typeName := Text.bounded x.typeName 32
      value := x.value
      isConst := x.isConst
      isInitialized := x.isInitialized
      scope := x.scope }
    (some e.id, ⟨e :: l.entries, l.count + 1⟩)

/-- The newest entry of a bounded name that belongs to the scope itself. -/
def findIn (l : Ledger) (name : String) (scope : Scope) : Option Entry :=
  l.entries.find? fun e => e.name == Text.bounded name 64 && e.scope == scope

def lookupName (l : Ledger) (name : String) (scope : Scope) : Option Entry :=
  match l.findIn name scope with
  | some e => some e
  | none => if scope = 1 then l.findIn name 0 else none

def lookupId (l : Ledger) (id : UInt32) (scope : Scope) : Option Entry :=
  (l.entries.find? (·.id == id)).filter fun e =>
    e.scope == scope || (scope == 1 && e.scope == 0)

/-- An entry that the scope sees gets the value and is initialized then, unless it is constant. -/
def update (l : Ledger) (id : UInt32) (value : Value) (scope : Scope) : Bool × Ledger :=
  match l.lookupId id scope with
  | none => (false, l)
  | some e =>
      if e.isConst then (false, l)
      else
        (true, { l with
          entries := l.entries.map fun e =>
            if e.id == id then { e with value := some value, isInitialized := true } else e })

def deleteName (l : Ledger) (name : String) : Option Entry × Ledger :=
  (l.entries.find? (·.name == Text.bounded name 64),
   { l with entries := l.entries.eraseP (·.name == Text.bounded name 64) })

def deleteId (l : Ledger) (id : UInt32) : Option Entry × Ledger :=
  (l.entries.find? (·.id == id), { l with entries := l.entries.filter (!·.id == id) })

def perform (l : Ledger) : Request → Answer × Ledger
  | .insert x => (.id (l.insert x).1, (l.insert x).2)
  | .lookupName name scope => (.entry (l.lookupName name scope), l)
  | .lookupId id scope => (.entry (l.lookupId id scope), l)
  | .containsName name scope => (.flag (l.lookupName name scope).isSome, l)
  | .containsId id scope => (.flag (l.lookupId id scope).isSome, l)
  | .update id value scope => (.flag (l.update id value scope).1, (l.update id value scope).2)
  | .deleteName name => (.entry (l.deleteName name).1, (l.deleteName name).2)
  | .deleteId id => (.entry (l.deleteId id).1, (l.deleteId id).2)
  | .clear => (.done, { l with entries := [] })
  | .resize _ => (.done, l)

def observed (l : Ledger) : List Request → List Observation
  | [] => []
  | q :: script =>
      let next := l.perform q
      ⟨next.1, next.2.entries.length, next.2.entries.isEmpty, next.2.count⟩ ::
        next.2.observed script

/-- Identifiers fall from the newest entry to the oldest and stay below the counter, and no name
is empty. -/
structure WellFormed (l : Ledger) : Prop where
  descending : l.entries.Pairwise fun d e => e.id.toNat < d.id.toNat
  fresh : ∀ e ∈ l.entries, e.id.toNat < l.count
  nonempty : ∀ e ∈ l.entries, e.name ≠ ""

theorem wellFormed_empty : empty.WellFormed :=
  ⟨.nil, by simp [empty], by simp [empty]⟩

variable {l : Ledger}

theorem WellFormed.sublist (wf : l.WellFormed) {es : List Entry} (h : es.Sublist l.entries) :
    WellFormed ⟨es, l.count⟩ :=
  ⟨wf.descending.sublist h, fun e he => wf.fresh e (h.subset he),
    fun e he => wf.nonempty e (h.subset he)⟩

theorem WellFormed.map (wf : l.WellFormed) {f : Entry → Entry} (ids : ∀ e, (f e).id = e.id)
    (names : ∀ e, (f e).name = e.name) : WellFormed ⟨l.entries.map f, l.count⟩ := by
  refine ⟨?_, ?_, ?_⟩
  · rw [List.pairwise_map]
    simpa only [ids] using wf.descending
  · intro e he
    obtain ⟨d, hd, rfl⟩ := List.mem_map.mp he
    rw [ids]
    exact wf.fresh d hd
  · intro e he
    obtain ⟨d, hd, rfl⟩ := List.mem_map.mp he
    rw [names]
    exact wf.nonempty d hd

theorem toNat_count (few : l.count < 2 ^ 32) : l.count.toUInt32.toNat = l.count := by
  simp [Nat.toUInt32]
  omega

theorem WellFormed.insert (wf : l.WellFormed) (few : l.count < 2 ^ 32) (x : Item) :
    (l.insert x).2.WellFormed := by
  unfold Ledger.insert
  split
  · exact wf
  · rename_i named
    have id := toNat_count few
    refine ⟨List.pairwise_cons.mpr ⟨?_, wf.descending⟩, ?_, ?_⟩
    · intro e he
      simp only [id]
      exact wf.fresh e he
    · intro e he
      rcases List.mem_cons.mp he with rfl | he
      · simp only [id]
        exact Nat.lt_succ_self _
      · exact Nat.lt_succ_of_lt (wf.fresh e he)
    · intro e he
      rcases List.mem_cons.mp he with rfl | he
      · intro h
        exact named (String.isEmpty_iff.mpr (storedName_eq_empty_iff.mp h))
      · exact wf.nonempty e he

theorem WellFormed.update (wf : l.WellFormed) (id : UInt32) (value : Value) (scope : Scope) :
    (l.update id value scope).2.WellFormed := by
  unfold Ledger.update
  split
  · exact wf
  · split
    · exact wf
    · apply wf.map <;> intro e <;> split <;> rfl

theorem WellFormed.perform (wf : l.WellFormed) (few : l.count < 2 ^ 32) (q : Request) :
    (l.perform q).2.WellFormed := by
  cases q with
  | insert x => exact wf.insert few x
  | update id value scope => exact wf.update id value scope
  | deleteName name => exact wf.sublist List.eraseP_sublist
  | deleteId id => exact wf.sublist List.filter_sublist
  | clear => exact wf.sublist (List.nil_sublist _)
  | lookupName _ _ | lookupId _ _ | containsName _ _ | containsId _ _ | resize _ => exact wf

theorem count_perform (l : Ledger) (q : Request) :
    (l.perform q).2.count = l.count + if q.declares then 1 else 0 := by
  cases q with
  | insert x =>
      simp only [Ledger.perform, Ledger.insert, Request.declares]
      by_cases h : x.name.isEmpty = true <;> simp [h]
  | update id value scope =>
      simp only [Ledger.perform, Ledger.update, Request.declares]
      split
      · rfl
      · split <;> rfl
  | lookupName _ _ | lookupId _ _ | containsName _ _ | containsId _ _ | deleteName _
  | deleteId _ | clear | resize _ => rfl

theorem insert_eq (l : Ledger) {x : Item} (ne : x.name ≠ "") :
    l.insert x = (some l.count.toUInt32,
      ⟨x.toEntry l.count.toUInt32 :: l.entries, l.count + 1⟩) :=
  if_neg (by simpa using ne)

/-- An identifier belongs to one entry at most. -/
theorem WellFormed.nodup_ids (wf : l.WellFormed) : (l.entries.map (·.id)).Nodup := by
  refine List.pairwise_map.mpr (wf.descending.imp ?_)
  intro d e lt same
  rw [same] at lt
  omega

theorem WellFormed.named_empty (wf : l.WellFormed) : named "" l.entries = [] := by
  rw [named, List.filter_eq_nil_iff]
  intro e he
  simpa using wf.nonempty e he

end Ledger

end DeclLine

import DeclLine.Proofs.Truncation
import DeclLine.Registry.Basic
import Mathlib.Data.List.Forall2

/-!
Chained buckets seen through names. Where every entry stands in the bucket of its name, the
entries of one name are a part of one chain, in the order of that chain. Each operation is
described by what it does to them.
-/
namespace DeclLine

theorem RollingHash.nameBucket_lt (name : String) (count : Nat) :
    nameBucket name count < max count 1 :=
  Nat.mod_lt _ (by omega)

theorem storedName_eq_empty_iff {name : String} : storedName name = "" ↔ name = "" :=
  Text.bounded_eq_empty_iff (by decide)

/-- The entries of one name, in their order. -/
def named (name : String) (es : List Entry) : List Entry :=
  es.filter (·.name == name)

theorem named_cons (name : String) (e : Entry) (es : List Entry) :
    named name (e :: es) = if e.name = name then e :: named name es else named name es := by
  simp [named, List.filter_cons]

theorem named_append (name : String) (es fs : List Entry) :
    named name (es ++ fs) = named name es ++ named name fs :=
  List.filter_append es fs

theorem named_map {f : Entry → Entry} (keeps : ∀ e, (f e).name = e.name) (name : String)
    (es : List Entry) : named name (es.map f) = (named name es).map f := by
  rw [named, List.filter_map, named]
  congr 2
  funext e
  simp only [Function.comp, keeps]

theorem named_filter (name : String) (q : Entry → Bool) (es : List Entry) :
    named name (es.filter q) = (named name es).filter q := by
  rw [named, named, List.filter_filter, List.filter_filter]
  simp only [Bool.and_comm]

theorem named_eraseP (name other : String) (es : List Entry) :
    named other (es.eraseP (·.name == name)) =
      if name = other then (named other es).tail else named other es := by
  induction es with
  | nil => simp [named]
  | cons e es ih =>
      rw [List.eraseP_cons, named_cons]
      by_cases h : e.name = name
      · simp only [h, beq_self_eq_true, cond_true]
        split <;> rfl
      · simp only [beq_eq_false_iff_ne.mpr h, cond_false, named_cons, ih]
        by_cases ho : e.name = other
        · have : name ≠ other := fun hn => h (ho.trans hn.symm)
          simp only [ho, this, if_true, if_false]
        · simp only [ho, if_false]

theorem find?_named (name : String) (es : List Entry) (q : Entry → Bool) :
    es.find? (fun e => e.name == name && q e) = (named name es).find? q := by
  rw [named, List.find?_filter]
  congr 1
  funext e
  cases e.name == name <;> cases q e <;> rfl

namespace Registry

/-- Every entry stands in the bucket of its name. -/
def Placed (bs : List (List Entry)) : Prop :=
  ∀ i, ∀ e ∈ bs[i]?.getD [], RollingHash.nameBucket e.name bs.length = i

theorem placed_replicate (count : Nat) : Placed (List.replicate count []) := by
  intro i e he
  simp only [List.getElem?_replicate] at he
  split at he <;> simp at he

theorem nameBucket_lt_length {bs : List (List Entry)} (ne : bs ≠ []) (name : String) :
    RollingHash.nameBucket name bs.length < bs.length := by
  have := RollingHash.nameBucket_lt name bs.length
  have := List.length_pos_iff.mpr ne
  omega

theorem getD_modify (bs : List (List Entry)) (i j : Nat) (f : List Entry → List Entry)
    (hj : j < bs.length) :
    (bs.modify i f)[j]?.getD [] = if i = j then f (bs[j]?.getD []) else bs[j]?.getD [] := by
  rw [List.getElem?_modify, List.getElem?_eq_getElem hj]
  by_cases h : i = j <;> simp [h]

/-- If only the chain of index `j` holds a name, that chain shows all its entries. -/
theorem named_flatten {bs : List (List Entry)} {name : String} {j : Nat}
    (h : ∀ i, ∀ e ∈ bs[i]?.getD [], e.name = name → i = j) :
    named name bs.flatten = named name (bs[j]?.getD []) := by
  induction bs generalizing j with
  | nil => simp
  | cons b bs ih =>
      rw [List.flatten_cons, named_append]
      have hb : ∀ e ∈ b, e.name = name → 0 = j := h 0
      cases j with
      | zero =>
          have rest : named name bs.flatten = [] := by
            rw [named, List.filter_eq_nil_iff]
            intro e he
            obtain ⟨c, hc, he⟩ := List.mem_flatten.mp he
            obtain ⟨i, hi, rfl⟩ := List.getElem_of_mem hc
            intro hn
            have := h (i + 1) e (by simpa [hi] using he) (by simpa using hn)
            omega
          simp [rest]
      | succ j =>
          have none : named name b = [] := by
            rw [named, List.filter_eq_nil_iff]
            intro e he hn
            have := hb e he (by simpa using hn)
            omega
          rw [none, List.nil_append, List.getElem?_cons_succ]
          apply ih
          intro i e he hn
          exact Nat.succ.inj (h (i + 1) e he hn)

theorem Placed.named_eq {bs : List (List Entry)} (placed : Placed bs) (name : String) :
    named name bs.flatten = named name (bs[RollingHash.nameBucket name bs.length]?.getD []) :=
  named_flatten fun i e he hn => hn ▸ (placed i e he).symm

/-- Each chain of `cs` has only names that the chain of `bs` in the same place has. -/
def NamesWithin (bs cs : List (List Entry)) : Prop :=
  List.Forall₂ (fun b c => ∀ e ∈ c, ∃ d ∈ b, d.name = e.name) bs cs

theorem NamesWithin.refl (bs : List (List Entry)) : NamesWithin bs bs :=
  List.forall₂_same.mpr fun _ _ e he => ⟨e, he, rfl⟩

theorem NamesWithin.length_eq {bs cs : List (List Entry)} (h : NamesWithin bs cs) :
    bs.length = cs.length :=
  List.Forall₂.length_eq h

theorem Placed.of_namesWithin {bs cs : List (List Entry)} (placed : Placed bs)
    (h : NamesWithin bs cs) : Placed cs := by
  intro i e he
  rw [← h.length_eq]
  cases hc : cs[i]? with
  | none => simp [hc] at he
  | some c =>
      obtain ⟨hi, rfl⟩ := List.getElem?_eq_some_iff.mp hc
      simp only [hc, Option.getD_some] at he
      have hi' : i < bs.length := h.length_eq ▸ hi
      obtain ⟨d, hd, same⟩ := List.Forall₂.get h hi' hi e he
      rw [← same]
      exact placed i d (by simpa [List.getElem?_eq_getElem hi'] using hd)

theorem namesWithin_clear (bs : List (List Entry)) : NamesWithin bs (bs.map fun _ => []) :=
  List.forall₂_map_right_iff.mpr (List.forall₂_same.mpr fun _ _ _ mem => by cases mem)

/-- There is a bucket, and every entry stands in the bucket of its name. -/
structure Housed (r : Registry) : Prop where
  nonempty : r.buckets ≠ []
  placed : Placed r.buckets

theorem housed_withBuckets (count : Nat) : (withBuckets count).Housed where
  nonempty := by simp [withBuckets]
  placed := placed_replicate _

theorem Housed.rebuild {r : Registry} (h : r.Housed) {bs : List (List Entry)}
    (within : NamesWithin r.buckets bs) (nextId : UInt32) : Housed ⟨bs, nextId⟩ := by
  refine ⟨?_, h.placed.of_namesWithin within⟩
  rw [← List.length_pos_iff, ← within.length_eq]
  exact List.length_pos_iff.mpr h.nonempty

section Place

variable {bs : List (List Entry)}

theorem length_place (e : Entry) (bs : List (List Entry)) : (place e bs).length = bs.length :=
  List.length_modify ..

theorem getD_place (e : Entry) (ne : bs ≠ []) (j : Nat) :
    (place e bs)[j]?.getD [] =
      if RollingHash.nameBucket e.name bs.length = j then e :: bs[j]?.getD []
      else bs[j]?.getD [] := by
  by_cases hj : j < bs.length
  · exact getD_modify bs _ j _ hj
  · have := nameBucket_lt_length ne e.name
    have out : bs[j]? = none := List.getElem?_eq_none (by omega)
    have out' : (place e bs)[j]? = none := List.getElem?_eq_none (by rw [length_place]; omega)
    rw [if_neg (by omega), out, out']

theorem Placed.place (placed : Placed bs) (ne : bs ≠ []) (e : Entry) : Placed (place e bs) := by
  intro i d hd
  rw [length_place]
  rw [getD_place e ne] at hd
  split at hd
  · rcases List.mem_cons.mp hd with rfl | hd
    · assumption
    · exact placed i d hd
  · exact placed i d hd

theorem Placed.named_place (placed : Placed bs) (ne : bs ≠ []) (e : Entry) (name : String) :
    named name (Registry.place e bs).flatten = named name (e :: bs.flatten) := by
  rw [(placed.place ne e).named_eq, length_place, getD_place e ne, named_cons, placed.named_eq]
  split
  · rw [named_cons]
  · rename_i h
    rw [if_neg]
    rintro rfl
    exact h rfl

theorem place_ne_nil (ne : bs ≠ []) (e : Entry) : place e bs ≠ [] := by
  rw [← List.length_pos_iff, length_place]
  exact List.length_pos_iff.mpr ne

theorem insert_eq (r : Registry) {x : Item} (ne : x.name ≠ "") :
    r.insert x = (some r.nextId, ⟨place (x.toEntry r.nextId) r.buckets, r.nextId + 1⟩) :=
  if_neg (by simpa using ne)

end Place

section Search

variable {p : Entry → Bool} {f : Entry → Entry}

theorem modifyChain_append (p : Entry → Bool) (f : Entry → Entry) (es fs : List Entry) :
    modifyChain p f (es ++ fs) =
      if es.any p then modifyChain p f es ++ fs else es ++ modifyChain p f fs := by
  induction es with
  | nil => rfl
  | cons e es ih =>
      rw [List.cons_append, modifyChain, modifyChain, ih]
      by_cases hp : p e = true
      · simp [hp]
      · have same : (e :: es).any p = es.any p := by simp [hp]
        rw [same, if_neg hp, if_neg hp]
        split <;> rfl

/-- The first match bucket by bucket is the first match of all entries in a row. -/
theorem flatten_modifyFirst (p : Entry → Bool) (f : Entry → Entry) (bs : List (List Entry)) :
    (modifyFirst p f bs).flatten = modifyChain p f bs.flatten := by
  induction bs with
  | nil => rfl
  | cons b bs ih =>
      rw [modifyFirst, List.flatten_cons, modifyChain_append]
      split <;> simp [ih]

theorem flatten_eraseFirst (p : Entry → Bool) (bs : List (List Entry)) :
    (eraseFirst p bs).flatten = bs.flatten.eraseP p := by
  induction bs with
  | nil => rfl
  | cons b bs ih =>
      rw [eraseFirst, List.flatten_cons, List.eraseP_append]
      split <;> simp [ih]

theorem pairwise_of_nodup_ids {es : List Entry} (nodup : (es.map (·.id)).Nodup) (id : UInt32) :
    es.Pairwise fun d e => ¬ ((d.id == id) = true ∧ (e.id == id) = true) := by
  refine (List.pairwise_map.mp nodup).imp ?_
  intro d e ne ⟨hd, he⟩
  exact ne ((beq_iff_eq.mp hd).trans (beq_iff_eq.mp he).symm)

theorem modifyChain_eq_map {es : List Entry}
    (unique : es.Pairwise fun d e => ¬ (p d = true ∧ p e = true)) :
    modifyChain p f es = es.map fun e => if p e then f e else e := by
  induction es with
  | nil => rfl
  | cons e es ih =>
      obtain ⟨head, tail⟩ := List.pairwise_cons.mp unique
      rw [modifyChain, List.map_cons]
      split
      · rename_i hp
        have rest : es.map (fun e => if p e then f e else e) = es := by
          rw [List.map_congr_left (g := id), List.map_id]
          intro d hd
          exact if_neg fun hd' => head d hd ⟨hp, hd'⟩
        rw [rest]
      · rw [ih tail]

theorem eraseP_eq_filter {es : List Entry}
    (unique : es.Pairwise fun d e => ¬ (p d = true ∧ p e = true)) :
    es.eraseP p = es.filter (!p ·) := by
  induction es with
  | nil => rfl
  | cons e es ih =>
      obtain ⟨head, tail⟩ := List.pairwise_cons.mp unique
      rw [List.eraseP_cons, List.filter_cons]
      cases hp : p e with
      | true =>
          have rest : es.filter (!p ·) = es := by
            rw [List.filter_eq_self]
            intro d hd
            have := head d hd
            simp_all
          simp [rest]
      | false => simp [ih tail]

theorem mem_modifyChain {es : List Entry} {e : Entry} (h : e ∈ modifyChain p f es) :
    e ∈ es ∨ ∃ d ∈ es, e = f d := by
  induction es with
  | nil => cases h
  | cons d es ih =>
      rw [modifyChain] at h
      split at h
      · rcases List.mem_cons.mp h with rfl | h
        · exact .inr ⟨d, .head es, rfl⟩
        · exact .inl (.tail d h)
      · rcases List.mem_cons.mp h with rfl | h
        · exact .inl (.head es)
        · rcases ih h with h | ⟨c, hc, rfl⟩
          · exact .inl (.tail d h)
          · exact .inr ⟨c, .tail d hc, rfl⟩

theorem namesWithin_modifyFirst (keeps : ∀ e, (f e).name = e.name) (p : Entry → Bool)
    (bs : List (List Entry)) : NamesWithin bs (modifyFirst p f bs) := by
  induction bs with
  | nil => exact .nil
  | cons b bs ih =>
      rw [modifyFirst]
      split
      · refine .cons ?_ (NamesWithin.refl bs)
        intro e he
        rcases mem_modifyChain he with he | ⟨d, hd, rfl⟩
        · exact ⟨e, he, rfl⟩
        · exact ⟨d, hd, (keeps d).symm⟩
      · exact .cons (fun e he => ⟨e, he, rfl⟩) ih

theorem namesWithin_eraseFirst (p : Entry → Bool) (bs : List (List Entry)) :
    NamesWithin bs (eraseFirst p bs) := by
  induction bs with
  | nil => exact .nil
  | cons b bs ih =>
      rw [eraseFirst]
      split
      · exact .cons (fun e he => ⟨e, List.mem_of_mem_eraseP he, rfl⟩) (NamesWithin.refl bs)
      · exact .cons (fun e he => ⟨e, he, rfl⟩) ih

theorem namesWithin_eraseAt (p : Entry → Bool) (bs : List (List Entry)) (i : Nat) :
    NamesWithin bs (bs.modify i (·.eraseP p)) := by
  induction bs generalizing i with
  | nil =>
      rw [List.modify_nil]
      exact .nil
  | cons b bs ih =>
      cases i with
      | zero =>
          rw [List.modify_zero_cons]
          exact .cons (fun e he => ⟨e, List.mem_of_mem_eraseP he, rfl⟩) (NamesWithin.refl bs)
      | succ i =>
          rw [List.modify_succ_cons]
          exact .cons (fun e he => ⟨e, he, rfl⟩) (ih i)

theorem Placed.named_eraseAt {bs : List (List Entry)} (placed : Placed bs) (ne : bs ≠ [])
    (name other : String) :
    named other (bs.modify (RollingHash.nameBucket name bs.length)
      (·.eraseP (·.name == name))).flatten =
      if name = other then (named other bs.flatten).tail else named other bs.flatten := by
  have placed' := placed.of_namesWithin
    (namesWithin_eraseAt (·.name == name) bs (RollingHash.nameBucket name bs.length))
  rw [placed'.named_eq, placed.named_eq, List.length_modify,
    getD_modify _ _ _ _ (nameBucket_lt_length ne other)]
  split
  · rw [named_eraseP]
  · rename_i h
    rw [if_neg]
    rintro rfl
    exact h rfl

end Search

section Rehash

/-- A chain placed from its tail to its head arrives in its own order. -/
theorem foldr_place (es : List Entry) {bs : List (List Entry)} (ne : bs ≠ []) :
    (es.foldr place bs).length = bs.length ∧
      ∀ j, (es.foldr place bs)[j]?.getD [] =
        es.filter (fun e => RollingHash.nameBucket e.name bs.length = j) ++ bs[j]?.getD [] := by
  induction es with
  | nil => simp
  | cons e es ih =>
      obtain ⟨length, chains⟩ := ih
      have ne' : es.foldr place bs ≠ [] := by
        rw [← List.length_pos_iff, length]
        exact List.length_pos_iff.mpr ne
      rw [List.foldr_cons]
      refine ⟨by rw [length_place, length], fun j => ?_⟩
      rw [getD_place e ne', length, chains j, List.filter_cons]
      by_cases h : RollingHash.nameBucket e.name bs.length = j <;> simp [h]

theorem foldl_place (cs : List (List Entry)) {bs : List (List Entry)} (ne : bs ≠ []) :
    (cs.foldl (fun new c => c.foldr place new) bs).length = bs.length ∧
      ∀ j, (cs.foldl (fun new c => c.foldr place new) bs)[j]?.getD [] =
        (cs.reverse.flatten.filter fun e => RollingHash.nameBucket e.name bs.length = j) ++
          bs[j]?.getD [] := by
  induction cs generalizing bs with
  | nil => simp
  | cons c cs ih =>
      obtain ⟨length, chains⟩ := foldr_place c ne
      have ne' : c.foldr place bs ≠ [] := by
        rw [← List.length_pos_iff, length]
        exact List.length_pos_iff.mpr ne
      obtain ⟨length', chains'⟩ := ih ne'
      rw [List.foldl_cons]
      refine ⟨by rw [length', length], fun j => ?_⟩
      rw [chains', length, chains, List.reverse_cons, List.flatten_append, List.filter_append]
      simp

variable (r : Registry) (count : Nat)

theorem length_resize : (r.resize count).buckets.length = max count 1 := by
  have := (@foldl_place r.buckets (List.replicate (max count 1) []) (by simp)).1
  simpa [resize] using this

/-- The new chains hold the old ones, those of the last bucket first. -/
theorem chain_resize (j : Nat) :
    (r.resize count).buckets[j]?.getD [] =
      r.buckets.reverse.flatten.filter fun e =>
        RollingHash.nameBucket e.name (max count 1) = j := by
  have := (@foldl_place r.buckets (List.replicate (max count 1) []) (by simp)).2 j
  have none : (List.replicate (max count 1) ([] : List Entry))[j]?.getD [] = [] := by
    rw [List.getElem?_replicate]
    split <;> rfl
  rw [List.length_replicate, none, List.append_nil] at this
  exact this

theorem placed_resize : Placed (r.resize count).buckets := by
  intro j e he
  rw [chain_resize] at he
  rw [length_resize]
  simpa using (List.mem_filter.mp he).2

theorem housed_resize : (r.resize count).Housed where
  nonempty := by
    rw [← List.length_pos_iff, length_resize]
    omega
  placed := placed_resize r count

theorem named_resize (placed : Placed r.buckets) (name : String) :
    named name (r.resize count).entries = named name r.entries := by
  have own : named name
      ((r.resize count).buckets[RollingHash.nameBucket name (max count 1)]?.getD []) =
        named name r.buckets.reverse.flatten := by
    rw [chain_resize, named, List.filter_filter]
    apply List.filter_congr
    intro e _
    by_cases h : e.name = name <;> simp [h]
  rw [entries, (placed_resize r count).named_eq, length_resize, own, entries, placed.named_eq]
  by_cases ne : r.buckets = []
  · simp [ne]
  · -- Rehashing reads the buckets from the last to the first, but only one of them has the name.
    have hlt := nameBucket_lt_length ne name
    rw [named_flatten (j := r.buckets.length - 1 - RollingHash.nameBucket name r.buckets.length)]
    · rw [List.getElem?_reverse (by omega)]
      congr 3
      omega
    · intro i e he hn
      by_cases hi : i < r.buckets.length
      · rw [List.getElem?_reverse hi] at he
        have := placed _ e he
        rw [hn] at this
        omega
      · rw [List.getElem?_eq_none (by simpa using hi)] at he
        cases he

end Rehash

end Registry

end DeclLine

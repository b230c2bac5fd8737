import DeclLine.Proofs.Line

/-!
What a registry keeps through a whole session, in which calls, commits and lines follow each other
in any order. Each of them is at most one request to the registry, so the ledger that matches the
registry goes along; it also tells which identifiers were given.
-/
namespace DeclLine

/-- What can be done to a registry: a call, the commit of what a line declared, or a line. -/
inductive Action where
  | call (q : Request)
  | commit (p : Pending)
  | line (T : Table) (source line : String)

/-- The identifier of the new entry, if the answer gives one. -/
def Answer.given : Answer → Option UInt32
  | .id given => given
  | .entry _ | .flag _ | .done => none

def Reading.given (reading : Reading) : Option UInt32 :=
  match reading.result with
  | .ok declared => declared.map Declaration.id
  | .error _ => none

/-- Stored text within its bounds, and a name that is not empty. -/
structure Entry.Sized (e : Entry) : Prop where
  name_pos : 1 ≤ e.name.utf8ByteSize
  name_le : e.name.utf8ByteSize ≤ 63
  typeName_le : e.typeName.utf8ByteSize ≤ 31

namespace Registry

/-- The identifier that an action gives and the registry after it, or `none` for a line that is
read forever. -/
def act (r : Registry) : Action → Option (Option UInt32 × Registry)
  | .call q => some ((r.perform q).1.given, (r.perform q).2)
  | .commit p => some ((r.commit p).1.map Declaration.id, (r.commit p).2)
  | .line T source line =>
      (Reading.ofLine T source line r).map fun reading => (reading.given, reading.registry)

/-- The identifiers that a session gives, in order, and the registry that it leaves. -/
def session (r : Registry) : List Action → Option (List UInt32 × Registry)
  | [] => some ([], r)
  | a :: script =>
      (r.act a).bind fun next =>
        (next.2.session script).map fun last => (next.1.toList ++ last.1, last.2)

/-- Every entry stands in the bucket of its name, within the bounds of stored text and under an
identifier of its own that was given before. The newer entries of a name stand before the older
ones. -/
structure Consistent (r : Registry) : Prop where
  bucketed : 0 < r.bucketCount
  placed : ∀ i, ∀ e ∈ r.chain i, r.bucketOf e.name = i
  sized : ∀ e ∈ r.entries, e.Sized
  distinct : (r.entries.map Entry.id).Nodup
  below : ∀ e ∈ r.entries, e.id < r.nextId
  newestFirst : ∀ i, (r.chain i).Pairwise fun d e => d.name = e.name → e.id < d.id

/-- What an action does to a registry: nothing, or what one request does. -/
inductive Asks (r : Registry) : Option UInt32 × Registry → Prop
  | nothing : Asks r (none, r)
  | request (q : Request) : Asks r ((r.perform q).1.given, (r.perform q).2)

theorem given_perform (r : Registry) (q : Request) :
    (r.perform q).1.given = if q.declares then some r.nextId else none := by
  cases q with
  | insert x =>
      by_cases ne : x.name = ""
      · simp [perform, insert, ne, Answer.given, Request.declares]
      · simp [perform, r.insert_eq ne, ne, Answer.given, Request.declares]
  | lookupName _ _ | lookupId _ _ | containsName _ _ | containsId _ _ | update _ _ _
  | deleteName _ | deleteId _ | clear | resize _ => rfl

theorem session_cons {r r' : Registry} {a : Action} {script : List Action} {ids : List UInt32}
    (reached : r.session (a :: script) = some (ids, r')) :
    ∃ id next later, r.act a = some (id, next) ∧ next.session script = some (later, r') ∧
      ids = id.toList ++ later := by
  obtain ⟨⟨id, next⟩, acted, rest⟩ := Option.bind_eq_some_iff.mp reached
  obtain ⟨⟨later, last⟩, ended, same⟩ := Option.map_eq_some_iff.mp rest
  cases same
  exact ⟨id, next, later, acted, ended, rfl⟩

/-- A commit inserts once or does nothing. -/
theorem commit_inserts (r : Registry) (p : Pending) :
    (r.commit p).2 = r ∨ ∃ x, (r.commit p).2 = (r.insert x).2 := by
  match p with
  | ⟨none, _⟩ | ⟨some _, none⟩ => exact .inl rfl
  | ⟨some k, some name⟩ =>
      refine .inr ⟨Declaration.item k name, ?_⟩
      simp only [commit]
      split <;> simp_all

end Registry

/-- A line leaves what its outcome leaves. One of too many tokens is rejected like any other. -/
theorem Reading.exists_outcome {T : Table} {source line : String} {r : Registry}
    {reading : Reading} (read : ofLine T source line r = some reading) :
    ∃ outcome, reading = ofOutcome r outcome := by
  unfold ofLine at read
  split at read
  · rename_i d _
    exact ⟨.error d, (Option.some.inj read).symm⟩
  · obtain ⟨outcome, _, same⟩ := Option.map_eq_some_iff.mp read
    exact ⟨outcome, same.symm⟩

theorem Item.sized_toEntry {x : Item} (ne : x.name ≠ "") (id : UInt32) : (x.toEntry id).Sized where
  name_pos := by
    rw [Nat.one_le_iff_ne_zero, Ne, String.utf8ByteSize_eq_zero_iff]
    exact fun empty => ne (storedName_eq_empty_iff.mp empty)
  name_le := Text.utf8ByteSize_bounded x.name Limits.nameBytes
  typeName_le := Text.utf8ByteSize_bounded x.typeName Limits.typeBytes

theorem Ledger.sized_perform {l : Ledger} (sized : ∀ e ∈ l.entries, e.Sized) (q : Request) :
    ∀ e ∈ (l.perform q).2.entries, e.Sized := by
  intro e he
  cases q with
  | insert x =>
      by_cases ne : x.name = ""
      · simp only [perform, insert, ne] at he
        exact sized e he
      · simp only [perform, l.insert_eq ne] at he
        cases he with
        | head => exact Item.sized_toEntry ne _
        | tail _ old => exact sized e old
  | update id value scope =>
      simp only [perform, update] at he
      split at he
      · exact sized e he
      · split at he
        · exact sized e he
        · obtain ⟨d, hd, rfl⟩ := List.mem_map.mp he
          have old := sized d hd
          split
          · exact ⟨old.name_pos, old.name_le, old.typeName_le⟩
          · exact old
  | deleteName name => exact sized e (List.mem_of_mem_eraseP he)
  | deleteId id => exact sized e (List.mem_of_mem_filter he)
  | clear => cases he
  | lookupName _ _ | lookupId _ _ | containsName _ _ | containsId _ _ | resize _ =>
      exact sized e he

/-- The identifiers count up from `first`, and the next one is `last`. -/
structure CountsUp (first last : Nat) (ids : List UInt32) : Prop where
  total : last = first + ids.length
  inOrder : ids.map UInt32.toNat = List.range' first ids.length

theorem CountsUp.none (first : Nat) : CountsUp first first [] :=
  ⟨rfl, rfl⟩

theorem CountsUp.append {first middle last : Nat} {ids ids' : List UInt32}
    (h : CountsUp first middle ids) (h' : CountsUp middle last ids') :
    CountsUp first last (ids ++ ids') where
  total := by rw [h'.total, h.total, List.length_append, Nat.add_assoc]
  inOrder := by
    rw [List.map_append, h.inOrder, h'.inOrder, h.total, List.range'_append_1, List.length_append]

/-- A ledger in order that matches the registry, with text that is within its bounds. -/
structure Accounts (r : Registry) (l : Ledger) : Prop where
  reflects : Reflects r l
  wf : l.WellFormed
  sized : ∀ e ∈ l.entries, e.Sized

namespace Accounts

variable {r r' : Registry} {l : Ledger}

theorem start (count : Nat) : Accounts (Registry.withBuckets count) Ledger.empty :=
  ⟨.start count, Ledger.wellFormed_empty, fun _ he => by cases he⟩

theorem perform (h : Accounts r l) (q : Request)
    (few : l.count + (r.perform q).1.given.toList.length < 2 ^ 32) :
    Accounts (r.perform q).2 (l.perform q).2 ∧
      CountsUp l.count (l.perform q).2.count (r.perform q).1.given.toList := by
  have counts : CountsUp l.count (l.perform q).2.count (r.perform q).1.given.toList := by
    rw [l.count_perform, r.given_perform]
    cases q.declares with
    | false => exact .none l.count
    | true => exact ⟨rfl, congrArg (fun n => [n]) h.reflects.nextId_eq⟩
  rw [← counts.total] at few
  have wf := h.wf.perform (by have := counts.total; omega) q
  exact ⟨⟨(h.reflects.perform h.wf q few).2, wf, Ledger.sized_perform h.sized q⟩, counts⟩

theorem asks_commit (h : Accounts r l) (p : Pending) :
    r.Asks ((r.commit p).1.map Declaration.id, (r.commit p).2) := by
  match p with
  | ⟨none, _⟩ | ⟨some _, none⟩ => exact .nothing
  | ⟨some k, some name⟩ =>
      by_cases ne : name = ""
      · rw [ne]
        exact .nothing
      · have inserted := r.insert_eq (x := Declaration.item k name) ne
        have asked := Registry.Asks.request (r := r) (.insert (Declaration.item k name))
        rw [Registry.commit_declaration h.reflects h.wf ne]
        rw [Registry.perform, inserted] at asked
        rwa [inserted]

theorem asks_act (h : Accounts r l) {a : Action} {next : Option UInt32 × Registry}
    (acted : r.act a = some next) : r.Asks next := by
  cases a with
  | call q => exact Option.some.inj acted ▸ .request q
  | commit p => exact Option.some.inj acted ▸ h.asks_commit p
  | line T source line =>
      obtain ⟨reading, read, rfl⟩ := Option.map_eq_some_iff.mp acted
      obtain ⟨outcome, rfl⟩ := Reading.exists_outcome read
      cases outcome with
      | error d => exact .nothing
      | ok p => exact h.asks_commit p

theorem act (h : Accounts r l) {a : Action} {id : Option UInt32}
    (acted : r.act a = some (id, r')) (few : l.count + id.toList.length < 2 ^ 32) :
    ∃ l', Accounts r' l' ∧ CountsUp l.count l'.count id.toList := by
  cases h.asks_act acted with
  | nothing => exact ⟨l, h, .none l.count⟩
  | request q => exact ⟨_, h.perform q few⟩

theorem session (h : Accounts r l) {script : List Action} {ids : List UInt32}
    (reached : r.session script = some (ids, r')) (few : l.count + ids.length < 2 ^ 32) :
    ∃ l', Accounts r' l' ∧ CountsUp l.count l'.count ids := by
  induction script generalizing r l ids with
  | nil =>
      cases reached
      exact ⟨l, h, .none l.count⟩
  | cons a script ih =>
      obtain ⟨id, next, later, acted, ended, rfl⟩ := Registry.session_cons reached
      rw [List.length_append] at few
      obtain ⟨l₁, h₁, counts⟩ := h.act acted (by omega)
      obtain ⟨l₂, h₂, counts'⟩ := ih h₁ ended (by rw [counts.total]; omega)
      exact ⟨l₂, h₂, counts.append counts'⟩

theorem newestFirst (h : Accounts r l) (i : Nat) :
    (r.chain i).Pairwise fun d e => d.name = e.name → e.id < d.id := by
  rw [List.pairwise_iff_forall_sublist]
  intro d e both same
  have here : r.bucketOf d.name = i := h.reflects.placed i d (both.subset List.mem_cons_self)
  have kept : named d.name [d, e] = [d, e] := by simp [named, same]
  have within : [d, e].Sublist l.entries := by
    calc [d, e] = named d.name [d, e] := kept.symm
      List.Sublist _ (named d.name (r.chain i)) := both.filter _
      _ = named d.name l.entries := here ▸ h.reflects.named_chain d.name
      List.Sublist _ l.entries := List.filter_sublist
  exact UInt32.lt_iff_toNat_lt.mpr (List.pairwise_iff_forall_sublist.mp h.wf.descending within)

theorem consistent (h : Accounts r l) : r.Consistent where
  bucketed := List.length_pos_iff.mpr h.reflects.nonempty
  placed := h.reflects.placed
  sized e he := h.sized e (h.reflects.perm.mem_iff.mp he)
  distinct := h.reflects.nodup_ids h.wf
  below e he := by
    rw [UInt32.lt_iff_toNat_lt, h.reflects.nextId_eq]
    exact h.wf.fresh e (h.reflects.perm.mem_iff.mp he)
  newestFirst := h.newestFirst

end Accounts

namespace Registry

/-- Whatever is done to a new registry, of any number of buckets, it stays consistent, and its
identifiers count up from zero: none is ever given twice. -/
theorem consistent_after_every_session {count : Nat} {script : List Action} {ids : List UInt32}
    {r : Registry} (reached : (withBuckets count).session script = some (ids, r))
    (few : ids.length < 2 ^ 32) :
    r.Consistent ∧ r.nextId.toNat = ids.length ∧
      ids.map UInt32.toNat = List.range ids.length ∧ ids.Nodup := by
  have none : Ledger.empty.count = 0 := rfl
  obtain ⟨l, accounts, counts⟩ := (Accounts.start count).session reached (by omega)
  have inOrder : ids.map UInt32.toNat = List.range ids.length := by
    rw [counts.inOrder, none, List.range_eq_range']
  refine ⟨accounts.consistent, ?_, inOrder, ?_⟩
  · rw [accounts.reflects.nextId_eq, counts.total]
    omega
  · exact .of_map UInt32.toNat (inOrder ▸ List.nodup_range)

/-- One name declared by a call, a commit and a line, before and after all entries are dropped. -/
def mixed (T : Table) : List Action :=
  [.line T "shell" "float x", .call .clear, .call (.insert ⟨"x", "int", none, 0, true, true⟩),
   .commit ⟨some .bool, some "x"⟩, .line T "shell" "str x", .line T "shell" "int int",
   .call (.resize 7), .call (.deleteName "x")]

theorem consistent_after_every_session_mixed :
    ∃ T r, Table.build Grammar.declarations = .ok T ∧
      (withBuckets 0).session (mixed T) = some ([0, 1, 2, 3], r) ∧
      r.Consistent ∧ r.nextId.toNat = 4 := by
  have computed : (Table.build Grammar.declarations).map (fun T =>
      ((withBuckets 0).session (mixed T)).map (·.1)) = .ok (some [0, 1, 2, 3]) := by
    decide +kernel
  obtain ⟨T, built, given⟩ := Table.exists_of_map_eq_ok computed
  obtain ⟨⟨ids, r⟩, reached, rfl⟩ := Option.map_eq_some_iff.mp given
  obtain ⟨consistent, next, _⟩ := consistent_after_every_session reached (by simp)
  exact ⟨T, r, built, reached, consistent, next⟩

end Registry

end DeclLine

import DeclLine.Proofs.Session

/-!
What becomes of an entry while a session goes on. Every action keeps an entry as it is, gives it a
value by an update that takes place, or removes it for good: identifiers do not come back. So an
entry that is there at two moments differs only in its value, and only by the last such update.
-/
namespace DeclLine

theorem Scope.sees_iff {viewer owner : Scope} :
    viewer.sees owner = true ↔ viewer = owner ∨ viewer = 1 ∧ owner = 0 := by
  rw [sees, Bool.or_eq_true, Bool.and_eq_true, beq_iff_eq, beq_iff_eq, beq_iff_eq, eq_comm]
  rfl

namespace Registry

/-- No update of the identifier takes place in the session. -/
def Unassigned (r : Registry) (id : UInt32) (script : List Action) : Prop :=
  ∀ front back value scope ids m, script = front ++ .call (.update id value scope) :: back →
    r.session front = some (ids, m) → (m.update id value scope).1 = false

/-- Of the updates of the identifier that take place in the session, the last one gives `value`
from `scope`. -/
def LastAssigned (r : Registry) (id : UInt32) (script : List Action) (value : Value)
    (scope : Scope) : Prop :=
  ∃ front back ids m, script = front ++ .call (.update id value scope) :: back ∧
    r.session front = some (ids, m) ∧ (m.update id value scope).1 = true ∧
    (m.update id value scope).2.Unassigned id back

/-- What two moments show of one identifier, with the session between them. -/
structure Protected (r : Registry) (between : List Action) (e e' : Entry) : Prop where
  name_eq : e'.name = e.name
  typeName_eq : e'.typeName = e.typeName
  scope_eq : e'.scope = e.scope
  isConst_eq : e'.isConst = e.isConst
  stays_initialized : e.isInitialized = true → e'.isInitialized = true
  const_unchanged : e.isConst = true → e'.value = e.value ∧ e'.isInitialized = e.isInitialized
  changed_by_update : e.isConst = false →
    e'.value ≠ e.value ∨ e'.isInitialized ≠ e.isInitialized →
    ∃ value scope, r.LastAssigned e.id between value scope ∧
      (scope = e.scope ∨ scope = 1 ∧ e.scope = 0) ∧ e'.value = some value

/-- What an action makes of an entry that is there before it and after it. -/
inductive Carries (r : Registry) (a : Action) (e : Entry) : Entry → Prop
  | kept (refused : ∀ value scope, a = .call (.update e.id value scope) →
      (r.update e.id value scope).1 = false) : Carries r a e e
  | assigned {value : Value} {scope : Scope} (asked : a = .call (.update e.id value scope))
      (done : (r.update e.id value scope).1 = true) (sees : scope.sees e.scope = true)
      (isVar : e.isConst = false) : Carries r a e (e.assign value)

/-- An update is refused and changes nothing, or it finds an entry that can be seen and is not
constant, and assigns to the first entry of that identifier. -/
theorem update_cases (r : Registry) (id : UInt32) (value : Value) (scope : Scope) :
    r.update id value scope = (false, r) ∨
      ∃ e ∈ r.entries, e.id = id ∧ scope.sees e.scope = true ∧ e.isConst = false ∧
        r.update id value scope =
          (true, ⟨modifyFirst (·.id == id) (·.assign value) r.buckets, r.nextId⟩) := by
  unfold update
  cases found : r.lookupId id scope with
  | none => exact .inl rfl
  | some e =>
      cases const : e.isConst with
      | true => exact .inl (if_pos const)
      | false =>
          obtain ⟨first, sees⟩ := Option.filter_eq_some_iff.mp found
          have own : e.id = id := by simpa using List.find?_some first
          refine .inr ⟨e, List.mem_of_find?_eq_some first, own, sees, const, ?_⟩
          exact if_neg (by simp [const])

theorem update_of_refused {r : Registry} {id : UInt32} {value : Value} {scope : Scope}
    (refused : (r.update id value scope).1 = false) : (r.update id value scope).2 = r := by
  cases r.update_cases id value scope with
  | inl same => rw [same]
  | inr found =>
      obtain ⟨_, _, _, _, _, done⟩ := found
      rw [done] at refused
      cases refused

end Registry

namespace Reflects

variable {r : Registry} {l : Ledger} {e : Entry}

/-- Apart from the entry under the next identifier, an insertion adds nothing. -/
theorem mem_of_mem_insert (h : Reflects r l) {x : Item} (mem : e ∈ (r.insert x).2.entries)
    (old : e.id ≠ r.nextId) : e ∈ r.entries := by
  by_cases ne : x.name = ""
  · simpa [Registry.insert, ne] using mem
  · cases (h.perm_insert ne).mem_iff.mp mem with
    | head => exact absurd rfl old
    | tail _ mem => exact mem

theorem mem_of_mem_deleteName (h : Reflects r l) (wf : l.WellFormed) {name : String}
    (mem : e ∈ (r.deleteName name).2.entries) : e ∈ r.entries := by
  have mem := (h.deleteName wf name).2.perm.mem_iff.mp mem
  exact h.perm.mem_iff.mpr (List.mem_of_mem_eraseP mem)

theorem mem_of_mem_deleteId (h : Reflects r l) (wf : l.WellFormed) {id : UInt32}
    (mem : e ∈ (r.deleteId id).2.entries) : e ∈ r.entries := by
  have mem := (h.deleteId wf id).2.perm.mem_iff.mp mem
  exact h.perm.mem_iff.mpr (List.mem_of_mem_filter mem)

theorem mem_of_mem_resize (h : Reflects r l) {count : Nat}
    (mem : e ∈ (r.resize count).entries) : e ∈ r.entries :=
  h.perm.mem_iff.mpr ((h.resize count).perm.mem_iff.mp mem)

theorem not_mem_clear (h : Reflects r l) : e ∉ r.clear.entries := by
  intro mem
  cases h.clear.perm.mem_iff.mp mem

/-- An update changes the one entry of its identifier, or nothing. -/
theorem carries_update (h : Reflects r l) (wf : l.WellFormed) {id : UInt32} {value : Value}
    {scope : Scope} (mem : e ∈ (r.update id value scope).2.entries) :
    ∃ d ∈ r.entries, r.Carries (.call (.update id value scope)) d e := by
  cases r.update_cases id value scope with
  | inl refused =>
      rw [refused] at mem
      refine ⟨e, mem, .kept ?_⟩
      intro value' scope' asked
      cases asked
      rw [refused]
  | inr found =>
      obtain ⟨c, found, same, sees, isVar, done⟩ := found
      have unique := h.nodup_ids wf
      rw [done, Registry.entries, Registry.flatten_modifyFirst,
        Registry.modifyChain_eq_map (Registry.pairwise_of_nodup_ids unique id)] at mem
      obtain ⟨d, mem, made⟩ := List.mem_map.mp mem
      refine ⟨d, mem, ?_⟩
      by_cases own : d.id = id
      · -- Identifiers are unique, so this is the entry that the update found.
        obtain rfl := List.inj_on_of_nodup_map unique mem found (own.trans same.symm)
        rw [if_pos (by simpa using own)] at made
        subst own made
        exact .assigned rfl (by rw [done]) sees isVar
      · rw [if_neg (by simpa using own)] at made
        subst made
        refine .kept ?_
        intro value' scope' asked
        cases asked
        exact absurd rfl own

end Reflects

namespace Accounts

variable {r r' : Registry} {l : Ledger} {e : Entry}

theorem carries_call (h : Accounts r l) {q : Request} (mem : e ∈ (r.perform q).2.entries)
    (old : e.id ≠ r.nextId) : ∃ d ∈ r.entries, r.Carries (.call q) d e := by
  cases q with
  | update id value scope => exact h.reflects.carries_update h.wf mem
  | insert x => exact ⟨e, h.reflects.mem_of_mem_insert mem old, .kept nofun⟩
  | deleteName name => exact ⟨e, h.reflects.mem_of_mem_deleteName h.wf mem, .kept nofun⟩
  | deleteId id => exact ⟨e, h.reflects.mem_of_mem_deleteId h.wf mem, .kept nofun⟩
  | resize count => exact ⟨e, h.reflects.mem_of_mem_resize mem, .kept nofun⟩
  | clear => exact absurd mem h.reflects.not_mem_clear
  | lookupName _ _ | lookupId _ _ | containsName _ _ | containsId _ _ =>
      exact ⟨e, mem, .kept nofun⟩

theorem mem_of_mem_commit (h : Accounts r l) {p : Pending} (mem : e ∈ (r.commit p).2.entries)
    (old : e.id ≠ r.nextId) : e ∈ r.entries := by
  cases r.commit_inserts p with
  | inl same => rwa [same] at mem
  | inr inserted =>
      obtain ⟨x, same⟩ := inserted
      rw [same] at mem
      exact h.reflects.mem_of_mem_insert mem old

/-- Under an identifier that was given before, an action leaves only what it found there. -/
theorem carries_act (h : Accounts r l) {a : Action} {id : Option UInt32}
    (acted : r.act a = some (id, r')) (mem : e ∈ r'.entries) (old : e.id ≠ r.nextId) :
    ∃ d ∈ r.entries, r.Carries a d e := by
  cases a with
  | call q =>
      cases acted
      exact h.carries_call mem old
  | commit p =>
      cases acted
      exact ⟨e, h.mem_of_mem_commit mem old, .kept nofun⟩
  | line T source line =>
      obtain ⟨reading, read, same⟩ := Option.map_eq_some_iff.mp acted
      obtain ⟨outcome, made⟩ := Reading.exists_outcome read
      subst made
      cases same
      cases outcome with
      | error d => exact ⟨e, mem, .kept nofun⟩
      | ok p => exact ⟨e, h.mem_of_mem_commit mem old, .kept nofun⟩

end Accounts

namespace Registry

/-- What a session makes of an entry that is there before it and after it. -/
inductive Outlives (r : Registry) (script : List Action) (e : Entry) : Entry → Prop
  | kept (none : r.Unassigned e.id script) : Outlives r script e e
  | assigned {value : Value} {scope : Scope} (last : r.LastAssigned e.id script value scope)
      (sees : scope.sees e.scope = true) (isVar : e.isConst = false) :
      Outlives r script e (e.assign value)

variable {r m : Registry} {a : Action} {script : List Action} {id : UInt32} {given : Option UInt32}
  {d e e' : Entry}

theorem session_cons_of_act (acted : r.act a = some (given, m)) (script : List Action) :
    r.session (a :: script) =
      (m.session script).map fun last => (given.toList ++ last.1, last.2) := by
  rw [session, acted]
  rfl

theorem LastAssigned.cons {value : Value} {scope : Scope}
    (h : m.LastAssigned id script value scope) (acted : r.act a = some (given, m)) :
    r.LastAssigned id (a :: script) value scope := by
  obtain ⟨front, back, ids, m', place, reached, done, later⟩ := h
  refine ⟨a :: front, back, given.toList ++ ids, m', ?_, ?_, done, later⟩
  · rw [place, List.cons_append]
  · rw [session_cons_of_act acted, reached]
    rfl

theorem Unassigned.cons (h : m.Unassigned id script) (acted : r.act a = some (given, m))
    (refused : ∀ value scope, a = .call (.update id value scope) →
      (r.update id value scope).1 = false) : r.Unassigned id (a :: script) := by
  intro front back value scope ids m' place reached
  cases front with
  | nil =>
      cases reached
      exact refused value scope (List.cons.inj place).1
  | cons b front =>
      obtain ⟨first, rest⟩ := List.cons.inj place
      subst first
      rw [session_cons_of_act acted] at reached
      obtain ⟨last, ended, same⟩ := Option.map_eq_some_iff.mp reached
      cases same
      exact h front back value scope last.1 last.2 rest ended

/-- The entry goes through one action first and through the rest of the session after it. -/
theorem Carries.outlives (first : r.Carries a d e) (acted : r.act a = some (given, m))
    (rest : m.Outlives script e e') : r.Outlives (a :: script) d e' := by
  cases first with
  | kept refused =>
      cases rest with
      | kept none => exact .kept (none.cons acted refused)
      | assigned last sees isVar => exact .assigned (last.cons acted) sees isVar
  | assigned asked done sees isVar =>
      subst asked
      cases rest with
      | kept none =>
          cases acted
          exact .assigned ⟨[], script, [], r, rfl, rfl, done, none⟩ sees isVar
      | assigned last sees' _ => exact .assigned (last.cons acted) sees' isVar

theorem Outlives.id_eq (h : r.Outlives script e e') : e'.id = e.id := by
  cases h <;> rfl

theorem Outlives.isProtected (h : r.Outlives script e e') : r.Protected script e e' := by
  cases h with
  | kept none =>
      refine ⟨rfl, rfl, rfl, rfl, id, fun _ => ⟨rfl, rfl⟩, ?_⟩
      intro _ differ
      cases differ with
      | inl value => exact absurd rfl value
      | inr initialized => exact absurd rfl initialized
  | assigned last sees isVar =>
      refine ⟨rfl, rfl, rfl, rfl, fun _ => rfl, ?_, ?_⟩
      · intro const
        rw [isVar] at const
        cases const
      · intro _ _
        exact ⟨_, _, last, Scope.sees_iff.mp sees, rfl⟩

end Registry

/-- An entry whose identifier was given before the session was there when it began. -/
theorem Accounts.outlives {r r' : Registry} {l : Ledger} (h : Accounts r l) {script : List Action}
    {ids : List UInt32} (reached : r.session script = some (ids, r'))
    (few : l.count + ids.length < 2 ^ 32) {e' : Entry} (mem : e' ∈ r'.entries)
    (old : e'.id.toNat < l.count) : ∃ e ∈ r.entries, r.Outlives script e e' := by
  induction script generalizing r l ids with
  | nil =>
      cases reached
      refine ⟨e', mem, .kept ?_⟩
      intro front back value scope ids m place
      simp at place
  | cons a script ih =>
      obtain ⟨given, m, later, acted, ended, same⟩ := Registry.session_cons reached
      subst same
      rw [List.length_append] at few
      obtain ⟨l₁, h₁, counts⟩ := h.act acted (by omega)
      have total := counts.total
      obtain ⟨e, there, rest⟩ := ih h₁ ended (by omega) (by omega)
      have before : e.id ≠ r.nextId := by
        intro same
        rw [rest.id_eq, same, h.reflects.nextId_eq] at old
        omega
      obtain ⟨d, found, first⟩ := h.carries_act acted there before
      exact ⟨d, found, first.outlives acted rest⟩

namespace Registry

/-- Whatever is done to a new registry between two moments: an identifier that is there at both
belongs to the same declaration, constants do not change, and all else changes only by an update
of that identifier from a scope that sees it, the last of which counts. A refused update changes
nothing. -/
theorem protected_between_moments {count : Nat} {before between : List Action}
    {given later : List UInt32} {r r' : Registry}
    (first : (withBuckets count).session before = some (given, r))
    (second : r.session between = some (later, r'))
    (few : given.length + later.length < 2 ^ 32) :
    (∀ e ∈ r.entries, ∀ e' ∈ r'.entries, e'.id = e.id → r.Protected between e e') ∧
      ∀ id value scope, (r'.update id value scope).1 = false →
        (r'.update id value scope).2 = r' := by
  refine ⟨?_, fun id value scope => update_of_refused⟩
  intro e mem e' mem' same
  have none : Ledger.empty.count = 0 := rfl
  obtain ⟨l, accounts, counts⟩ := (Accounts.start count).session first (by omega)
  have total := counts.total
  have old : e.id.toNat < l.count :=
    accounts.wf.fresh e (accounts.reflects.perm.mem_iff.mp mem)
  obtain ⟨d, found, outlives⟩ := accounts.outlives second (by omega) mem' (same ▸ old)
  have own : d = e :=
    List.inj_on_of_nodup_map (accounts.reflects.nodup_ids accounts.wf) found mem
      (outlives.id_eq.symm.trans same)
  subst own
  exact outlives.isProtected

/-- A variable behind a constant of the same name. -/
def shadowed : List Action :=
  [.call (.insert ⟨"x", "bool", none, 0, false, false⟩),
   .call (.insert ⟨"x", "bool", some (.bool true), 1, true, true⟩)]

/-- Updates of both, the constant and a foreign scope in vain, around a line and a rehash. -/
def contested (T : Table) : List Action :=
  [.call (.update 0 (.bool true) 0), .call (.update 1 (.bool false) 1),
   .line T "shell" "int x", .call (.resize 7), .call (.update 0 (.bool false) 1),
   .call (.update 0 (.bool true) 2), .call (.deleteName "x")]

theorem protected_between_moments_contested :
    ∃ T r r' e e', Table.build Grammar.declarations = .ok T ∧
      (withBuckets 3).session shadowed = some ([0, 1], r) ∧
      r.session (contested T) = some ([2], r') ∧
      e ∈ r.entries ∧ e' ∈ r'.entries ∧ e'.id = e.id ∧ e.value = none ∧
      e'.value = some (.bool false) ∧ r.Protected (contested T) e e' ∧
      ∃ scope, r.LastAssigned 0 (contested T) (.bool false) scope := by
  have computed : (Table.build Grammar.declarations).map (fun T =>
      ((withBuckets 3).session shadowed).bind fun start =>
        (start.2.session (contested T)).map fun finish =>
          (start.1, finish.1, start.2.entries.any fun e => e.id == 0 && e.value.isNone,
            finish.2.entries.any fun e => e.id == 0 && e.value.any fun
              | .bool b => !b
              | _ => false)) =
      .ok (some ([0, 1], [2], true, true)) := by
    decide +kernel
  obtain ⟨T, built, run⟩ := Table.exists_of_map_eq_ok computed
  obtain ⟨⟨given, r⟩, first, rest⟩ := Option.bind_eq_some_iff.mp run
  obtain ⟨⟨later, r'⟩, second, same⟩ := Option.map_eq_some_iff.mp rest
  simp only [Prod.mk.injEq, List.any_eq_true, Bool.and_eq_true, beq_iff_eq,
    Option.isNone_iff_eq_none, Option.any_eq_true] at same
  obtain ⟨rfl, rfl, ⟨e, mem, id, unset⟩, ⟨e', mem', id', v, holds, negated⟩⟩ := same
  have value' : e'.value = some (.bool false) := by
    cases v with
    | bool b =>
        cases b with
        | false => exact holds
        | true => cases negated
    | _ => cases negated
  have safe := (protected_between_moments first second (by decide)).1 e mem e' mem'
    (id'.trans id.symm)
  have isVar : e.isConst = false := by
    rw [Bool.eq_false_iff]
    intro const
    have kept := (safe.const_unchanged const).1
    simp [unset, value'] at kept
  obtain ⟨value, scope, last, _, now⟩ :=
    safe.changed_by_update isVar (.inl (by simp [unset, value']))
  rw [value'] at now
  cases now
  rw [id] at last
  exact ⟨T, r, r', e, e', built, first, second, mem, mem', id'.trans id.symm, unset, value', safe,
    scope, last⟩

end Registry

end DeclLine

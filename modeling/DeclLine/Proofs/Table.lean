import DeclLine.Grammar.Table
import DeclLine.Proofs.FollowSets
import Mathlib.Data.List.Nodup
import Mathlib.Data.Prod.Basic

/-!
A table that is built holds every claim of its grammar, each in a cell of its own. Hence a cell
holds the only production of its row that selects its column, and a nonterminal that can vanish
never begins with a terminal that can follow it.
-/
namespace DeclLine

/-- The production is chosen for the lookahead: the body can begin with it, or the body can vanish
and the lookahead follow the head. -/
def Production.Selects (p : Production) (s : Sets) (t : Terminal) : Prop :=
  t ∈ s.firstOfSequence p.body ∨ s.erasable p.body = true ∧ t ∈ s.followOf p.head

theorem Claim.mem_map_toList {c : Claim} {p : Production} {ts : TerminalSet} :
    c ∈ ts.toList.map (⟨·, p⟩) ↔ c.production = p ∧ c.lookahead ∈ ts := by
  rw [List.mem_map]
  constructor
  · rintro ⟨t, mem, rfl⟩
    exact ⟨rfl, TerminalSet.mem_toList.mp mem⟩
  · rintro ⟨rfl, mem⟩
    exact ⟨c.lookahead, TerminalSet.mem_toList.mpr mem, rfl⟩

theorem Production.mem_claims {p : Production} {s : Sets} {c : Claim} :
    c ∈ p.claims s ↔ c.production = p ∧ p.Selects s c.lookahead := by
  rw [Production.claims, List.mem_append, Claim.mem_map_toList, Production.Selects, and_or_left]
  apply or_congr_right
  by_cases gone : s.erasable p.body = true
  · rw [if_pos gone, Claim.mem_map_toList]
    simp only [gone, true_and]
  · simp [gone]

theorem Grammar.mem_claims {g : Grammar} {s : Sets} {c : Claim} :
    c ∈ g.claims s ↔ c.production ∈ g.productions ∧ c.production.Selects s c.lookahead := by
  simp only [Grammar.claims, List.mem_flatMap, Production.mem_claims]
  constructor
  · rintro ⟨p, mem, rfl, h⟩
    exact ⟨mem, h⟩
  · rintro ⟨mem, h⟩
    exact ⟨c.production, mem, rfl, h⟩

theorem TerminalSet.nodup_toList (ts : TerminalSet) : ts.toList.Nodup :=
  List.Nodup.filter _ (by decide)

namespace Production

variable {p q : Production} {s : Sets} {n : Nonterminal} {t : Terminal}

/-- No lookahead is claimed both through the body and through the head. -/
def Apart (p : Production) (s : Sets) : Prop :=
  ∀ t ∈ s.firstOfSequence p.body, s.erasable p.body = true → t ∉ s.followOf p.head

/-- The productions claim a common cell. -/
def Meets (s : Sets) (p q : Production) : Prop :=
  p.head = q.head ∧ ∃ t, p.Selects s t ∧ q.Selects s t

theorem Meets.symm (h : Meets s p q) : Meets s q p := by
  obtain ⟨heads, t, sp, sq⟩ := h
  exact ⟨heads.symm, t, sq, sp⟩

theorem cells_eq (p : Production) (s : Sets) :
    (p.claims s).map Claim.cell =
      ((s.firstOfSequence p.body).toList ++
        if s.erasable p.body then (s.followOf p.head).toList else []).map (Prod.mk p.head) := by
  rw [claims]
  split <;> simp [Claim.cell, Function.comp_def]

theorem mem_cells : (n, t) ∈ (p.claims s).map Claim.cell ↔ p.head = n ∧ p.Selects s t := by
  rw [cells_eq, Selects]
  split <;> simp_all [and_comm, ← and_or_left]

theorem nodup_cells_iff : ((p.claims s).map Claim.cell).Nodup ↔ p.Apart s := by
  rw [cells_eq, List.nodup_map_iff (Prod.mk_right_injective _), List.nodup_append']
  split
  · simp_all [Apart, TerminalSet.nodup_toList, List.Disjoint]
  · simp_all [Apart, TerminalSet.nodup_toList]

theorem disjoint_cells_iff :
    ((p.claims s).map Claim.cell).Disjoint ((q.claims s).map Claim.cell) ↔ ¬ Meets s p q := by
  constructor
  · intro disjoint meets
    obtain ⟨heads, t, sp, sq⟩ := meets
    exact disjoint (mem_cells.mpr ⟨heads, sp⟩) (mem_cells.mpr ⟨rfl, sq⟩)
  · intro apart cell hp hq
    obtain ⟨heads, sp⟩ := mem_cells.mp hp
    obtain ⟨heads', sq⟩ := mem_cells.mp hq
    exact apart ⟨heads.trans heads'.symm, cell.2, sp, sq⟩

end Production

theorem Grammar.nodup_cells_iff {g : Grammar} {s : Sets} :
    ((g.claims s).map Claim.cell).Nodup ↔
      (∀ p ∈ g.productions, p.Apart s) ∧
        g.productions.Pairwise fun p q => ¬ Production.Meets s p q := by
  rw [Grammar.claims, List.map_flatMap, List.nodup_flatMap]
  apply and_congr
  · exact forall₂_congr fun p _ => Production.nodup_cells_iff
  · exact List.Pairwise.iff fun p q => Production.disjoint_cells_iff

namespace Table

theorem find?_eq_none_iff {filled : List Claim} {n : Nonterminal} {t : Terminal} :
    find? filled n t = none ↔ (n, t) ∉ filled.map Claim.cell := by
  simp [find?]

theorem find?_eq_some_iff {filled : List Claim} (nodup : (filled.map Claim.cell).Nodup)
    {n : Nonterminal} {t : Terminal} {c : Claim} :
    find? filled n t = some c ↔ c ∈ filled ∧ c.cell = (n, t) := by
  constructor
  · intro h
    exact ⟨List.mem_of_find?_eq_some h, by simpa using List.find?_some h⟩
  · intro ⟨mem, cell⟩
    cases h : find? filled n t with
    | none => exact absurd (cell ▸ List.mem_map_of_mem mem) (find?_eq_none_iff.mp h)
    | some d =>
        have cell' : d.cell = (n, t) := by simpa using List.find?_some h
        have := List.inj_on_of_nodup_map nodup (List.mem_of_find?_eq_some h) mem
          (cell'.trans cell.symm)
        rw [this]

theorem lookup_eq_some_iff_mem {T : Table} (nodup : (T.filled.map Claim.cell).Nodup)
    {n : Nonterminal} {t : Terminal} {p : Production} :
    T.lookup n t = some p ↔ ∃ c ∈ T.filled, c.cell = (n, t) ∧ c.production = p := by
  rw [lookup, Option.map_eq_some_iff]
  simp only [find?_eq_some_iff nodup, and_assoc]

theorem mem_cells (n : Nonterminal) (t : Terminal) : (n, t) ∈ cells :=
  List.mem_flatMap.mpr ⟨n, n.mem_all, List.mem_map.mpr ⟨t, t.mem_all, rfl⟩⟩

/-- A claim that is accepted goes behind the others. -/
theorem nodup_concat {filled : List Claim} {c : Claim} (nodup : (filled.map Claim.cell).Nodup)
    (fresh : find? filled c.cell.1 c.cell.2 = none) :
    ((filled ++ [c]).map Claim.cell).Nodup := by
  rw [List.map_append, List.nodup_append]
  refine ⟨nodup, by simp, ?_⟩
  intro a ha b hb same
  have own : b = c.cell := List.mem_singleton.mp hb
  exact find?_eq_none_iff.mp fresh (own ▸ same ▸ ha)

/-- Accepted claims are kept in order, and none of them shares a cell with another. -/
theorem acceptAll_eq_ok {filled cs out : List Claim} (h : acceptAll filled cs = .ok out)
    (nodup : (filled.map Claim.cell).Nodup) :
    out = filled ++ cs ∧ (out.map Claim.cell).Nodup := by
  induction cs generalizing filled with
  | nil =>
      obtain rfl := Except.ok.inj h
      exact ⟨(List.append_nil _).symm, nodup⟩
  | cons c cs ih =>
      simp only [acceptAll, accept] at h
      cases hc : find? filled c.cell.1 c.cell.2 with
      | some d => simp [hc] at h
      | none =>
          simp only [hc] at h
          obtain ⟨rfl, hn⟩ := ih h (nodup_concat nodup hc)
          exact ⟨by simp, hn⟩

theorem acceptAll_of_nodup {filled cs : List Claim}
    (nodup : ((filled ++ cs).map Claim.cell).Nodup) :
    acceptAll filled cs = .ok (filled ++ cs) := by
  induction cs generalizing filled with
  | nil => simp [acceptAll]
  | cons c cs ih =>
      have fresh : find? filled c.cell.1 c.cell.2 = none := by
        rw [find?_eq_none_iff]
        rw [List.map_append, List.nodup_append'] at nodup
        exact fun taken => nodup.2.2 taken (by simp)
      simp only [acceptAll, accept, fresh]
      rw [ih (by simpa using nodup)]
      simp

/-- The claim at fault is the first that repeats a cell of the claims before it. -/
theorem acceptAll_eq_error {filled cs : List Claim} {d : Diagnostic}
    (h : acceptAll filled cs = .error d) (nodup : (filled.map Claim.cell).Nodup) :
    ∃ front c back, cs = front ++ c :: back ∧ ((filled ++ front).map Claim.cell).Nodup ∧
      c.cell ∈ (filled ++ front).map Claim.cell ∧ d = duplicate c := by
  induction cs generalizing filled with
  | nil => cases h
  | cons c cs ih =>
      simp only [acceptAll, accept] at h
      cases taken : find? filled c.cell.1 c.cell.2 with
      | none =>
          simp only [taken] at h
          obtain ⟨front, e, back, split, distinct, repeated, fault⟩ :=
            ih h (nodup_concat nodup taken)
          rw [List.append_assoc] at distinct repeated
          exact ⟨c :: front, e, back, by rw [split, List.cons_append], distinct, repeated, fault⟩
      | some e =>
          simp only [taken, Except.error.injEq] at h
          obtain ⟨mem, cell⟩ := (find?_eq_some_iff nodup).mp taken
          refine ⟨[], c, cs, rfl, by simpa using nodup, ?_, h.symm⟩
          rw [List.append_nil]
          exact List.mem_map.mpr ⟨e, mem, cell⟩

theorem buildWith_eq_ok_iff {g : Grammar} {s : Sets} {T : Table} :
    buildWith g s = .ok T ↔ ((g.claims s).map Claim.cell).Nodup ∧ T = ⟨s, g.claims s⟩ := by
  rw [buildWith]
  constructor
  · intro built
    cases h : acceptAll [] (g.claims s) with
    | error d => simp [h, Except.map] at built
    | ok out =>
        obtain ⟨rfl, nodup⟩ := acceptAll_eq_ok h List.nodup_nil
        simp only [h, Except.map, Except.ok.injEq] at built
        exact ⟨nodup, built.symm⟩
  · intro ⟨nodup, same⟩
    rw [acceptAll_of_nodup (by simpa using nodup), same]
    rfl

theorem buildWith_eq_error {g : Grammar} {s : Sets} {d : Diagnostic}
    (h : buildWith g s = .error d) :
    ∃ front c back, g.claims s = front ++ c :: back ∧ (front.map Claim.cell).Nodup ∧
      c.cell ∈ front.map Claim.cell ∧ d = duplicate c := by
  rw [buildWith] at h
  cases accepted : acceptAll [] (g.claims s) with
  | error e =>
      simp only [accepted, Except.map, Except.error.injEq] at h
      exact h ▸ acceptAll_eq_error accepted List.nodup_nil
  | ok out => simp [accepted, Except.map] at h

variable {g : Grammar} {T : Table}

theorem filled_of_build (built : build g = .ok T) :
    T.filled = g.claims (Sets.ofGrammar g) ∧
      ((g.claims (Sets.ofGrammar g)).map Claim.cell).Nodup := by
  obtain ⟨nodup, rfl⟩ := buildWith_eq_ok_iff.mp built
  exact ⟨rfl, nodup⟩

theorem mem_filled (built : build g = .ok T) {c : Claim} :
    c ∈ T.filled ↔
      c.production ∈ g.productions ∧ c.production.Selects (Sets.ofGrammar g) c.lookahead := by
  rw [(filled_of_build built).1, Grammar.mem_claims]

theorem lookup_eq_some_iff (built : build g = .ok T) {n : Nonterminal} {t : Terminal}
    {p : Production} :
    T.lookup n t = some p ↔
      p ∈ g.productions ∧ p.head = n ∧ p.Selects (Sets.ofGrammar g) t := by
  have nodup : (T.filled.map Claim.cell).Nodup := by
    obtain ⟨same, nodup⟩ := filled_of_build built
    rwa [same]
  rw [lookup_eq_some_iff_mem nodup]
  simp only [mem_filled built]
  constructor
  · intro ⟨c, ⟨mem, selects⟩, cell, same⟩
    obtain ⟨rfl, rfl⟩ := Prod.mk.inj cell
    subst same
    exact ⟨mem, rfl, selects⟩
  · intro ⟨mem, head, selects⟩
    exact ⟨⟨t, p⟩, ⟨mem, selects⟩, head ▸ rfl, rfl⟩

theorem selects_unique (built : build g = .ok T) {p q : Production} {t : Terminal}
    (hp : p ∈ g.productions) (hq : q ∈ g.productions) (heads : p.head = q.head)
    (sp : p.Selects (Sets.ofGrammar g) t) (sq : q.Selects (Sets.ofGrammar g) t) : p = q := by
  have lp := (lookup_eq_some_iff built).mpr ⟨hp, heads, sp⟩
  have lq := (lookup_eq_some_iff built).mpr ⟨hq, rfl, sq⟩
  exact Option.some.inj (lp.symm.trans lq)

/-- No production claims a cell through its body and through its head at once. -/
theorem body_or_follow (built : build g = .ok T) {p : Production} {t : Terminal}
    (mem : p ∈ g.productions) (first : t ∈ (Sets.ofGrammar g).firstOfSequence p.body)
    (gone : (Sets.ofGrammar g).erasable p.body = true) :
    t ∉ (Sets.ofGrammar g).followOf p.head :=
  (Grammar.nodup_cells_iff.mp (filled_of_build built).2).1 p mem t first gone

theorem first_follow_disjoint (built : build g = .ok T) {n : Nonterminal} {t : Terminal}
    (nullable : (Sets.ofGrammar g).isNullable n = true)
    (first : t ∈ (Sets.ofGrammar g).firstOf n) : t ∉ (Sets.ofGrammar g).followOf n := by
  intro follow
  cases Sets.isNullable_iff_vanishes.mp nullable with
  | cons p hp body _ =>
      have gone := Sets.erasable_iff_vanishes.mpr body
      generalize hn : p.head = n at first
      cases Sets.mem_firstOf_iff_begins.mp first with
      | behind _ later => cases later
      | inside q hq begins =>
          have starts := Sets.mem_firstOfSequence_iff_begins.mpr begins
          obtain rfl := selects_unique built hp hq hn (.inr ⟨gone, follow⟩) (.inl starts)
          exact body_or_follow built hp starts gone follow

theorem exists_of_isOk (h : (build g).isOk = true) : ∃ T, build g = .ok T := by
  cases built : build g with
  | error d =>
      rw [built] at h
      cases h
  | ok T => exact ⟨T, rfl⟩

/-- What was computed from the table of a grammar holds of that table. -/
theorem exists_of_map_eq_ok {α : Type} {f : Table → α} {a : α} (h : (build g).map f = .ok a) :
    ∃ T, build g = .ok T ∧ f T = a := by
  cases built : build g with
  | error d =>
      rw [built] at h
      cases h
  | ok T =>
      rw [built] at h
      exact ⟨T, rfl, Except.ok.inj h⟩

end Table

end DeclLine

import DeclLine.Proofs.Table
import Mathlib.Data.Bool.Basic
import Mathlib.Data.Prod.Lex

/-!
What the construction of a table does over any sets, those of another grammar included. A claim
has an origin: a production of the list, its body or its head, and a lookahead. The table takes
the claims in the order of their origins, keeps all of them if no two meet in a cell, and else
stops at the first that meets an earlier one.
-/
namespace DeclLine

/-- Place of the nonterminal in `all`. -/
def Nonterminal.row : Nonterminal → Nat
  | .Z => 0
  | .S => 1
  | .A => 2
  | .B => 3

structure Origin where
  /-- The place of the production in the list. -/
  index : Nat
  /-- Whether the lookahead follows the head, while the body vanishes, or begins the body. -/
  follows : Bool
  claim : Claim
  deriving DecidableEq, Repr

namespace Origin

def cell (o : Origin) : Nonterminal × Terminal :=
  o.claim.cell

/-- By production, what begins the body before what follows the head, and then by column. -/
def rank (o : Origin) : ℕ ×ₗ Bool ×ₗ ℕ :=
  toLex (o.index, toLex (o.follows, o.claim.lookahead.column))

/-- The production at that place claims the cell, through that part of it. -/
def Arises (g : Grammar) (s : Sets) (o : Origin) : Prop :=
  g.productions[o.index]? = some o.claim.production ∧
    if o.follows then
      s.erasable o.claim.production.body = true ∧
        o.claim.lookahead ∈ s.followOf o.claim.production.head
    else o.claim.lookahead ∈ s.firstOfSequence o.claim.production.body

end Origin

/-- All claims of a grammar over the sets, in their order. -/
structure Grammar.Listing (g : Grammar) (s : Sets) (origins : List Origin) : Prop where
  complete : ∀ o, o ∈ origins ↔ o.Arises g s
  ordered : origins.Pairwise fun a b => a.rank < b.rank

/-- Among the origins, just one claims the cell, and for this production. -/
def OnlyClaim (origins : List Origin) (n : Nonterminal) (t : Terminal) (p : Production) : Prop :=
  ∃ o ∈ origins, o.cell = (n, t) ∧ o.claim.production = p ∧
    ∀ other ∈ origins, other.cell = (n, t) → other = o

theorem TerminalSet.pairwise_toList (ts : TerminalSet) :
    ts.toList.Pairwise fun t u => t.column < u.column :=
  List.Pairwise.filter _ (by decide)

/-- The origins of the claims of one production at place `i`. -/
def Production.origins (p : Production) (s : Sets) (i : Nat) : List Origin :=
  (s.firstOfSequence p.body).toList.map (fun t => ⟨i, false, ⟨t, p⟩⟩)
    ++ (if s.erasable p.body then (s.followOf p.head).toList.map (fun t => ⟨i, true, ⟨t, p⟩⟩)
      else [])

def Grammar.origins (g : Grammar) (s : Sets) : List Origin :=
  g.productions.zipIdx.flatMap fun x => x.1.origins s x.2

namespace Production

variable {p : Production} {s : Sets} {i : Nat} {o : Origin}

theorem map_claim_origins (p : Production) (s : Sets) (i : Nat) :
    (p.origins s i).map Origin.claim = p.claims s := by
  rw [origins, claims]
  split <;> simp [Function.comp_def]

theorem mem_map_origin {follows : Bool} {ts : TerminalSet} :
    o ∈ ts.toList.map (fun t => (⟨i, follows, ⟨t, p⟩⟩ : Origin)) ↔
      o.index = i ∧ o.claim.production = p ∧ o.follows = follows ∧ o.claim.lookahead ∈ ts := by
  rw [List.mem_map]
  constructor
  · intro ⟨t, mem, made⟩
    subst made
    exact ⟨rfl, rfl, rfl, TerminalSet.mem_toList.mp mem⟩
  · intro ⟨index, production, through, mem⟩
    subst index production through
    exact ⟨o.claim.lookahead, TerminalSet.mem_toList.mpr mem, rfl⟩

theorem mem_origins :
    o ∈ p.origins s i ↔ o.index = i ∧ o.claim.production = p ∧
      if o.follows then s.erasable p.body = true ∧ o.claim.lookahead ∈ s.followOf p.head
      else o.claim.lookahead ∈ s.firstOfSequence p.body := by
  rw [origins, List.mem_append, mem_map_origin]
  by_cases gone : s.erasable p.body = true
  · rw [if_pos gone, mem_map_origin]
    cases o.follows <;> simp [gone]
  · rw [if_neg gone]
    cases o.follows <;> simp [gone]

theorem index_of_mem_origins (mem : o ∈ p.origins s i) : o.index = i :=
  (mem_origins.mp mem).1

theorem pairwise_origins (p : Production) (s : Sets) (i : Nat) :
    (p.origins s i).Pairwise fun a b => a.rank < b.rank := by
  have inside (follows : Bool) (ts : TerminalSet) :
      (ts.toList.map fun t => (⟨i, follows, ⟨t, p⟩⟩ : Origin)).Pairwise
        fun a b => a.rank < b.rank := by
    rw [List.pairwise_map]
    refine ts.pairwise_toList.imp ?_
    intro t u before
    simp [Origin.rank, Prod.Lex.toLex_lt_toLex, before]
  rw [origins]
  split
  · refine List.pairwise_append.mpr ⟨inside false _, inside true _, ?_⟩
    intro a memA b memB
    obtain ⟨t, _, rfl⟩ := List.mem_map.mp memA
    obtain ⟨u, _, rfl⟩ := List.mem_map.mp memB
    simp [Origin.rank, Prod.Lex.toLex_lt_toLex]
  · rw [List.append_nil]
    exact inside false _

end Production

namespace Grammar

theorem map_claim_origins (g : Grammar) (s : Sets) :
    (g.origins s).map Origin.claim = g.claims s := by
  rw [origins, claims, List.map_flatMap]
  simp only [Production.map_claim_origins]
  calc g.productions.zipIdx.flatMap (fun x => x.1.claims s)
      = (g.productions.zipIdx.map Prod.fst).flatMap (·.claims s) := by rw [List.flatMap_map]
    _ = g.productions.flatMap (·.claims s) := by rw [List.zipIdx_map_fst]

theorem mem_origins {g : Grammar} {s : Sets} {o : Origin} :
    o ∈ g.origins s ↔ o.Arises g s := by
  simp only [origins, List.mem_flatMap, Production.mem_origins, Origin.Arises]
  constructor
  · intro ⟨⟨p, i⟩, place, index, production, through⟩
    subst index production
    exact ⟨List.mk_mem_zipIdx_iff_getElem?.mp place, through⟩
  · intro ⟨place, through⟩
    exact ⟨(_, _), List.mk_mem_zipIdx_iff_getElem?.mpr place, rfl, rfl, through⟩

theorem listing_origins (g : Grammar) (s : Sets) : g.Listing s (g.origins s) where
  complete _ := mem_origins
  ordered := by
    rw [origins, List.pairwise_flatMap]
    refine ⟨fun x _ => x.1.pairwise_origins s x.2, ?_⟩
    have places : g.productions.zipIdx.Pairwise fun x y => x.2 < y.2 := by
      rw [← List.pairwise_map, List.zipIdx_map_snd]
      exact List.pairwise_lt_range'
    refine places.imp ?_
    intro x y before a memA b memB
    have indexA := Production.index_of_mem_origins memA
    have indexB := Production.index_of_mem_origins memB
    exact Prod.Lex.toLex_lt_toLex.mpr (.inl (by rwa [indexA, indexB]))

theorem map_cell_origins (g : Grammar) (s : Sets) :
    (g.origins s).map Origin.cell = (g.claims s).map Claim.cell := by
  rw [← map_claim_origins, List.map_map]
  rfl

theorem length_claims (g : Grammar) (s : Sets) : (g.claims s).length = (g.origins s).length := by
  rw [← map_claim_origins, List.length_map]

theorem onlyClaim_iff {g : Grammar} {s : Sets}
    (nodup : ((g.origins s).map Origin.cell).Nodup) {n : Nonterminal} {t : Terminal}
    {p : Production} :
    OnlyClaim (g.origins s) n t p ↔ ∃ c ∈ g.claims s, c.cell = (n, t) ∧ c.production = p := by
  rw [← map_claim_origins, OnlyClaim]
  constructor
  · intro ⟨o, mem, cell, production, _⟩
    exact ⟨o.claim, List.mem_map_of_mem mem, cell, production⟩
  · intro ⟨c, mem, cell, production⟩
    obtain ⟨o, there, rfl⟩ := List.mem_map.mp mem
    refine ⟨o, there, cell, production, ?_⟩
    intro other mem' cell'
    exact List.inj_on_of_nodup_map nodup mem' there (cell'.trans cell.symm)

end Grammar

namespace Table

variable {T : Table} {n : Nonterminal} {t : Terminal} {p : Production}

theorem lookup_eq_none_iff : T.lookup n t = none ↔ (n, t) ∉ T.filled.map Claim.cell := by
  rw [lookup, Option.map_eq_none_iff, find?_eq_none_iff]

theorem mem_entries : (n, t, p) ∈ T.entries ↔ T.lookup n t = some p := by
  rw [entries, List.mem_filterMap]
  constructor
  · intro ⟨cell, _, found⟩
    obtain ⟨q, found, same⟩ := Option.map_eq_some_iff.mp found
    cases same
    exact found
  · intro found
    exact ⟨(n, t), mem_cells n t, by rw [found]; rfl⟩

theorem pairwise_entries (T : Table) :
    T.entries.Pairwise fun a b =>
      toLex (a.1.row, a.2.1.column) < toLex (b.1.row, b.2.1.column) := by
  have rows : cells.Pairwise fun a b =>
      toLex (a.1.row, a.2.column) < toLex (b.1.row, b.2.column) := by
    decide
  refine rows.filterMap _ ?_
  intro a b before c foundA d foundB
  obtain ⟨_, _, rfl⟩ := Option.map_eq_some_iff.mp foundA
  obtain ⟨_, _, rfl⟩ := Option.map_eq_some_iff.mp foundB
  exact before

/-- Over any sets, a table is built exactly when no two claims are for one cell. It then gives
each cell the one production that claims it, nothing to any other cell, and lists the cells row by
row. Else the cell at fault is that of the first claim whose cell was claimed before. -/
theorem buildWith_exact (g : Grammar) (s : Sets) :
    ∃ origins, g.Listing s origins ∧
      ((∃ T, buildWith g s = .ok T) ↔ (origins.map Origin.cell).Nodup) ∧
      (∀ T, buildWith g s = .ok T →
        (∀ n t p, T.lookup n t = some p ↔ OnlyClaim origins n t p) ∧
        (∀ n t, T.lookup n t = none ↔ (n, t) ∉ origins.map Origin.cell) ∧
        T.size = origins.length ∧
        (∀ n t p, (n, t, p) ∈ T.entries ↔ T.lookup n t = some p) ∧
        T.entries.Pairwise fun a b =>
          toLex (a.1.row, a.2.1.column) < toLex (b.1.row, b.2.1.column)) ∧
      (¬ (origins.map Origin.cell).Nodup →
        ∃ front o back, origins = front ++ o :: back ∧ (front.map Origin.cell).Nodup ∧
          o.cell ∈ front.map Origin.cell ∧
          buildWith g s = .error ⟨.duplicateEntry o.cell.1.name o.cell.2.name, .grammar⟩) := by
  have succeeds : (∃ T, buildWith g s = .ok T) ↔ ((g.origins s).map Origin.cell).Nodup := by
    simp only [buildWith_eq_ok_iff, exists_and_left, exists_eq, and_true, g.map_cell_origins]
  refine ⟨g.origins s, g.listing_origins s, succeeds, ?_, ?_⟩
  · intro T built
    obtain ⟨nodup, rfl⟩ := buildWith_eq_ok_iff.mp built
    refine ⟨?_, ?_, g.length_claims s, fun n t p => mem_entries, pairwise_entries _⟩
    · intro n t p
      rw [lookup_eq_some_iff_mem nodup, Grammar.onlyClaim_iff (g.map_cell_origins s ▸ nodup)]
    · intro n t
      rw [lookup_eq_none_iff, g.map_cell_origins]
  · intro twice
    cases failed : buildWith g s with
    | ok T => exact absurd (succeeds.mp ⟨T, failed⟩) twice
    | error d =>
        obtain ⟨front, c, back, split, distinct, repeated, rfl⟩ := buildWith_eq_error failed
        -- The claims are those of the origins, so both lists are parted at the same place.
        rw [← g.map_claim_origins] at split
        obtain ⟨before, rest, same, rfl, tail⟩ := List.map_eq_append_iff.mp split
        obtain ⟨o, after, rfl, rfl, rfl⟩ := List.map_eq_cons_iff.mp tail
        rw [List.map_map] at distinct repeated
        exact ⟨before, o, after, same, distinct, repeated, rfl⟩

-- Over sets of another grammar, where a keyword follows the head, the two productions meet.
example : buildWith ⟨.Z, [⟨.Z, [.terminal .int]⟩, ⟨.Z, [.epsilon]⟩]⟩
    (Sets.ofGrammar ⟨.S, [⟨.S, [.nonterminal .Z, .terminal .int]⟩]⟩) =
      .error ⟨.duplicateEntry "Z" "int", .grammar⟩ := by
  cbv

end Table

end DeclLine

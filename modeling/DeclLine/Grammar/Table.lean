import DeclLine.Diagnostic
import DeclLine.Grammar.Sets

/-!
Parse tables. A production claims the cells of its head under the terminals that can begin its
body and, when the body can vanish, under the terminals that can follow its head. A table is
built from the claims in order and refuses a cell that is claimed twice.
-/
namespace DeclLine

/-- A production, and a terminal for which it is chosen. -/
structure Claim where
  lookahead : Terminal
  production : Production
  deriving DecidableEq, Repr

/-- The row and the column that are claimed. -/
def Claim.cell (c : Claim) : Nonterminal × Terminal :=
  (c.production.head, c.lookahead)

/-- The cells that one production claims, in column order, FIRST before FOLLOW. -/
def Production.claims (p : Production) (s : Sets) : List Claim :=
  (s.firstOfSequence p.body).toList.map (⟨·, p⟩)
    ++ (if s.erasable p.body then (s.followOf p.head).toList.map (⟨·, p⟩) else [])

def Grammar.claims (g : Grammar) (s : Sets) : List Claim :=
  g.productions.flatMap (·.claims s)

structure Table where
  sets : Sets
  /-- The accepted claims, oldest first. -/
  filled : List Claim
  deriving DecidableEq, Repr

namespace Table

def find? (filled : List Claim) (n : Nonterminal) (t : Terminal) : Option Claim :=
  filled.find? fun c => c.cell = (n, t)

/-- The production for a nonterminal and a lookahead. -/
def lookup (T : Table) (n : Nonterminal) (t : Terminal) : Option Production :=
  (find? T.filled n t).map Claim.production

def duplicate (c : Claim) : Diagnostic :=
  ⟨.duplicateEntry c.cell.1.name c.cell.2.name, .grammar⟩

/-- Adds a claim behind the accepted ones, unless its cell is taken. -/
def accept (filled : List Claim) (c : Claim) : Except Diagnostic (List Claim) :=
  match find? filled c.cell.1 c.cell.2 with
  | some _ => .error (duplicate c)
  | none => .ok (filled ++ [c])

/-- Accepts all claims in turn; the first that meets a taken cell is the fault. -/
def acceptAll (filled : List Claim) : List Claim → Except Diagnostic (List Claim)
  | [] => .ok filled
  | c :: cs =>
      match accept filled c with
      | .error d => .error d
      | .ok filled => acceptAll filled cs

/-- The table of a grammar over given sets, which may come from another grammar. -/
def buildWith (g : Grammar) (s : Sets) : Except Diagnostic Table :=
  (acceptAll [] (g.claims s)).map (⟨s, ·⟩)

def build (g : Grammar) : Except Diagnostic Table :=
  buildWith g (Sets.ofGrammar g)

def size (T : Table) : Nat :=
  T.filled.length

/-- All cells, row by row. -/
def cells : List (Nonterminal × Terminal) :=
  Nonterminal.all.flatMap fun n => Terminal.all.map fun t => (n, t)

/-- The filled cells, row by row, with their productions. -/
def entries (T : Table) : List (Nonterminal × Terminal × Production) :=
  cells.filterMap fun c => (T.lookup c.1 c.2).map fun p => (c.1, c.2, p)

end Table

end DeclLine

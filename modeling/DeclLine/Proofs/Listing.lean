import DeclLine.Proofs.Display
import DeclLine.Registry.Render
import Mathlib.Algebra.Order.Ring.Nat
import Mathlib.Data.List.Forall2
import Mathlib.Data.List.Induction
import Mathlib.Order.Bounds.Basic

/-!
The listing of a registry is a rectangle that loses nothing. Every line is cut by separators into
one field for each column, and a field is two characters wider than the widest cell of its column;
so all lines have one length, their separators stand below each other, and every cell has room for
its whole text. What the cells of an entry are is said apart from how they are laid out.
-/
namespace DeclLine

theorem Text.toList_concat (ts : List String) : (concat ts).toList = ts.flatMap String.toList := by
  induction ts with
  | nil => rfl
  | cons t ts ih => rw [concat, String.toList_append, ih, List.flatMap_cons]

theorem Text.toList_unlines (lines : List String) :
    (unlines lines).toList = lines.flatMap fun line => line.toList ++ ['\n'] := by
  rw [unlines, toList_concat, List.flatMap_map]
  simp only [String.toList_append]
  rfl

namespace Registry

/-- What stands for the value of an entry. -/
inductive ShowsValue (e : Entry) : String → Prop
  | uninitialized (unset : e.isInitialized = false) : ShowsValue e "(uninitialized)"
  | absent (set : e.isInitialized = true) (holds : e.value = none) : ShowsValue e "N/A"
  | written {v : Value} {text : String} (set : e.isInitialized = true)
      (holds : e.value = some v) (written : v.Written text) : ShowsValue e text

/-- The cells of an entry: its identifier, name, type, scope and value. -/
inductive Shows (e : Entry) : List String → Prop
  | intro {value : String} (shown : ShowsValue e value) :
      Shows e [toString e.id.toNat, e.name, e.typeName, toString e.scope.toNat, value]

/-- A line of a grid: separators with a field between each two of them. -/
def lineOf (sep : Char) : List (List Char) → List Char
  | [] => [sep]
  | f :: fs => sep :: (f ++ lineOf sep fs)

/-- Where the separator in front of column `i` stands in a grid with columns of these widths. -/
def separatorAt (ws : List Nat) (i : Nat) : Nat :=
  ((ws.take i).map (· + 3)).sum

theorem lineOf_eq_cons (sep : Char) (fields : List (List Char)) :
    lineOf sep fields = sep :: fields.flatMap (· ++ [sep]) := by
  induction fields with
  | nil => rfl
  | cons f fs ih => rw [lineOf, ih, List.flatMap_cons, List.append_assoc, List.singleton_append]

/-- Each field is its column and a margin of one character on either side. -/
def Margined (ws : List Nat) (fields : List (List Char)) : Prop :=
  List.Forall₂ (fun w f => f.length = w + 2) ws fields

section Lines

variable {ws : List Nat} {fields : List (List Char)} (margined : Margined ws fields) (sep : Char)
include margined

theorem length_lineOf : (lineOf sep fields).length = 1 + (ws.map (· + 3)).sum := by
  induction margined with
  | nil => rfl
  | cons head _ ih =>
      simp only [lineOf, List.length_cons, List.length_append, ih, head, List.map_cons,
        List.sum_cons]
      omega

theorem drop_lineOf (i : Nat) :
    (lineOf sep fields).drop (separatorAt ws i) = lineOf sep (fields.drop i) := by
  induction margined generalizing i with
  | nil => simp [separatorAt]
  | @cons w f ws fs head _ ih =>
      cases i with
      | zero => rfl
      | succ i =>
          have place : separatorAt (w :: ws) (i + 1) = (sep :: f).length + separatorAt ws i := by
            simp [separatorAt, head]
          rw [place, lineOf, ← List.cons_append, List.drop_length_add_append, ih,
            List.drop_succ_cons]

theorem take_field {i w : Nat} {f : List Char} (hw : ws[i]? = some w)
    (here : fields[i]? = some f) :
    ((lineOf sep fields).drop (separatorAt ws i + 1)).take (w + 2) = f := by
  have width : f.length = w + 2 :=
    List.forall₂_zip margined (List.mem_of_getElem? (List.getElem?_zip_eq_some.mpr ⟨hw, here⟩))
  obtain ⟨hi, rfl⟩ := List.getElem?_eq_some_iff.mp here
  rw [← List.drop_drop, drop_lineOf margined, List.drop_eq_getElem_cons hi]
  exact List.take_left' width

end Lines

/-- The line has a separator at either end and between each two columns of these widths. -/
structure Ruled (ws : List Nat) (sep : Char) (line : String) : Prop where
  length : line.length = 1 + (ws.map (· + 3)).sum
  separators : ∀ i ≤ ws.length, line.toList[separatorAt ws i]? = some sep

/-- Between its separators the line is drawn through. -/
structure Border (ws : List Nat) (line : String) : Prop extends Ruled ws '+' line where
  drawn : ∀ i w, ws[i]? = some w →
    (line.toList.drop (separatorAt ws i + 1)).take (w + 2) = List.replicate (w + 2) '-'

/-- Between its separators the line shows the whole text of each cell, filled up with spaces to the
width of the column, in a margin of one space. -/
structure Row (ws : List Nat) (cells : List String) (line : String) : Prop
    extends Ruled ws '|' line where
  shown : ∀ i w c, ws[i]? = some w → cells[i]? = some c →
    (line.toList.drop (separatorAt ws i + 1)).take (w + 2) =
      ' ' :: (c.toList ++ List.replicate (w - c.length) ' ' ++ [' '])

theorem ruled_of_fields {ws : List Nat} {fields : List (List Char)} (margined : Margined ws fields)
    {sep : Char} {line : String} (drawn : line.toList = lineOf sep fields) : Ruled ws sep line where
  length := by rw [← String.length_toList, drawn, length_lineOf margined]
  separators i _ := by
    have front : (lineOf sep (fields.drop i))[0]? = some sep := by rw [lineOf_eq_cons]; rfl
    rw [drawn, ← front, ← drop_lineOf margined, List.getElem?_drop, Nat.add_zero]

theorem border_drawn (ws : List Nat) : Border ws (border ws) := by
  have drawn : (border ws).toList = lineOf '+' (ws.map fun w => List.replicate (w + 2) '-') := by
    simp [border, Text.toList_concat, Text.repeated, lineOf_eq_cons, List.flatMap_map]
  have margined : Margined ws (ws.map fun w => List.replicate (w + 2) '-') := by
    rw [Margined, List.forall₂_map_right_iff, List.forall₂_same]
    intro w _
    exact List.length_replicate
  refine ⟨ruled_of_fields margined drawn, ?_⟩
  intro i w hw
  rw [drawn]
  apply take_field margined _ hw
  rw [List.getElem?_map, hw, Option.map_some]

/-- What a row shows of a cell in a column. -/
def field (w : Nat) (c : String) : List Char :=
  ' ' :: (c.toList ++ List.replicate (w - c.length) ' ' ++ [' '])

theorem length_field {w : Nat} {c : String} (fits : c.length ≤ w) : (field w c).length = w + 2 := by
  simp only [field, List.length_cons, List.length_append, List.length_replicate,
    String.length_toList, List.length_nil]
  omega

theorem toList_renderRow (ws : List Nat) (row : List String) :
    (renderRow ws row).toList = lineOf '|' (List.zipWith field ws row) := by
  have cell : ∀ w c, (" " ++ Text.padRight w c ++ " |").toList = field w c ++ ['|'] := by
    intro w c
    simp [Text.padRight, Text.repeated, field]
  rw [renderRow, String.toList_append, Text.toList_concat, lineOf_eq_cons, List.flatMap_def,
    List.map_zipWith, List.flatMap_def, List.map_zipWith]
  simp only [cell]
  rfl

theorem margined_fields {ws : List Nat} {row : List String}
    (fits : List.Forall₂ (fun w c => c.length ≤ w) ws row) :
    Margined ws (List.zipWith field ws row) := by
  induction fits with
  | nil => exact .nil
  | cons head _ ih => exact .cons (length_field head) ih

theorem renderRow_shown {ws : List Nat} {row : List String}
    (fits : List.Forall₂ (fun w c => c.length ≤ w) ws row) : Row ws row (renderRow ws row) := by
  have drawn := toList_renderRow ws row
  have margined := margined_fields fits
  refine ⟨ruled_of_fields margined drawn, ?_⟩
  intro i w c hw hc
  rw [drawn]
  apply take_field margined _ hw
  simp [List.getElem?_zipWith, hw, hc, field]

/-- The lengths of the cells of column `i`. -/
def columnLengths (rows : List (List String)) (i : Nat) : Set Nat :=
  { n | ∃ row ∈ rows, ∃ c, row[i]? = some c ∧ c.length = n }

theorem columnLengths_append (rows rows' : List (List String)) (i : Nat) :
    columnLengths (rows ++ rows') i = columnLengths rows i ∪ columnLengths rows' i := by
  ext n
  simp [columnLengths, or_and_right, exists_or]

theorem isGreatest_columnLengths {row : List String} {i : Nat} {c : String}
    (here : row[i]? = some c) : IsGreatest (columnLengths [row] i) c.length := by
  refine ⟨⟨row, List.mem_singleton_self row, c, here, rfl⟩, ?_⟩
  rintro n ⟨row', mem, c', here', rfl⟩
  rw [List.mem_singleton.mp mem, here] at here'
  cases here'
  exact Nat.le_refl _

theorem widths_concat (header : List String) (rows : List (List String)) (row : List String) :
    widths header (rows ++ [row]) =
      List.zipWith max (widths header rows) (row.map String.length) := by
  rw [widths, List.foldl_append, widths]
  rfl

theorem isGreatest_widths (header : List String) (rows : List (List String)) {i w : Nat}
    (here : (widths header rows)[i]? = some w) :
    IsGreatest (columnLengths (header :: rows) i) w := by
  induction rows using List.reverseRecOn generalizing w with
  | nil =>
      rw [widths, List.foldl_nil, List.getElem?_map, Option.map_eq_some_iff] at here
      obtain ⟨c, here, rfl⟩ := here
      exact isGreatest_columnLengths here
  | append_singleton rows row ih =>
      rw [widths_concat, List.getElem?_zipWith_eq_some] at here
      obtain ⟨m, n, before, last, rfl⟩ := here
      rw [List.getElem?_map, Option.map_eq_some_iff] at last
      obtain ⟨c, last, rfl⟩ := last
      rw [← List.cons_append, columnLengths_append]
      exact (ih before).union (isGreatest_columnLengths last)

section Square

variable {header : List String} {rows : List (List String)}
  (square : ∀ row ∈ rows, row.length = header.length)
include square

theorem length_widths : (widths header rows).length = header.length := by
  induction rows using List.reverseRecOn with
  | nil => exact List.length_map _
  | append_singleton rows row ih =>
      have before := ih fun row mem => square row (List.mem_append_left _ mem)
      have last := square row (by simp)
      rw [widths_concat, List.length_zipWith, List.length_map, before, last, Nat.min_self]

theorem fits_widths {row : List String} (mem : row ∈ header :: rows) :
    List.Forall₂ (fun w c => c.length ≤ w) (widths header rows) row := by
  have same : row.length = header.length := by
    cases mem with
    | head => rfl
    | tail _ mem => exact square row mem
  refine List.forall₂_iff_get.mpr ⟨(length_widths square).trans same.symm, ?_⟩
  intro i hw hc
  apply (isGreatest_widths header rows (List.getElem?_eq_getElem hw)).2
  exact ⟨row, mem, _, List.getElem?_eq_getElem hc, rfl⟩

end Square

theorem shows_cells (e : Entry) : Shows e (cells e) := by
  refine .intro ?_
  unfold valueCell
  cases set : e.isInitialized with
  | false => exact .uninitialized set
  | true =>
      cases holds : e.value with
      | none => exact .absent set holds
      | some v => exact .written set holds v.written_render

/-- The listing is made of lines of one length with separators at the same places: two borders
around the headers, a row for each entry that shows every cell whole, and a border behind the rows
if there are any. Each column is as wide as its widest cell, its header included. -/
theorem render_rectangular (r : Registry) :
    ∃ (grid : List (List String)) (ws : List Nat),
      List.Forall₂ Shows r.entries grid ∧ ws.length = 5 ∧
      (∀ i w, ws[i]? = some w →
        IsGreatest (columnLengths (["ID", "Name", "Type", "Scope", "Value"] :: grid) i) w) ∧
      ∃ edge head rows, Border ws edge ∧
        Row ws ["ID", "Name", "Type", "Scope", "Value"] head ∧ List.Forall₂ (Row ws) grid rows ∧
        r.render.toList =
          ([edge, head, edge] ++ rows ++ if r.entries = [] then [] else [edge]).flatMap
            fun line => line.toList ++ ['\n'] := by
  have square : ∀ row ∈ r.entries.map cells, row.length = headers.length := by
    intro row mem
    obtain ⟨e, _, rfl⟩ := List.mem_map.mp mem
    rfl
  let ws := widths headers (r.entries.map cells)
  refine ⟨r.entries.map cells, ws, ?_, length_widths square,
    fun i w => isGreatest_widths headers _, border ws, renderRow ws headers,
    (r.entries.map cells).map (renderRow ws), border_drawn ws,
    renderRow_shown (fits_widths square List.mem_cons_self), ?_, ?_⟩
  · rw [List.forall₂_map_right_iff, List.forall₂_same]
    exact fun e _ => shows_cells e
  · rw [List.forall₂_map_right_iff, List.forall₂_same]
    intro row mem
    exact renderRow_shown (fits_widths square (List.mem_cons_of_mem _ mem))
  · rw [render, renderGrid, Text.toList_unlines]
    simp only [List.isEmpty_map, List.isEmpty_iff]
    rfl

end Registry

end DeclLine

import DeclLine.Proofs.WordSpans
import Mathlib.Data.List.Infix
import Mathlib.Order.Bounds.Basic

/-!
Bounded text. A text has the same prefixes after truncation as before, but for those that take more
bytes than there is room for. The laws of truncation follow from this alone. A search through byte
offsets, from the last one that fits towards the front, stops where a bounded text ends: offset zero
is a boundary, so that the search never leaves the text.
-/
namespace DeclLine.Text

variable {room : Nat} {front cs ds : List Char}

/-- The prefixes of what fits are the prefixes that fit. -/
theorem prefix_fitting_iff :
    front <+: fitting room cs ↔ front <+: cs ∧ byteLength front ≤ room := by
  fun_induction fitting room cs generalizing front with
  | case1 room =>
      rw [List.prefix_nil]
      refine ⟨?_, And.left⟩
      intro empty
      exact ⟨empty, empty ▸ Nat.zero_le room⟩
  | case2 room c cs fits ih =>
      cases front with
      | nil => simp [byteLength]
      | cons d front =>
          rw [List.cons_prefix_cons, List.cons_prefix_cons, ih, and_assoc]
          refine and_congr_right ?_
          intro same
          rw [byteLength, same, Nat.le_sub_iff_add_le' fits]
  | case3 room c cs full =>
      cases front with
      | nil => simp [byteLength]
      | cons d front =>
          rw [List.prefix_nil, List.cons_prefix_cons, byteLength]
          constructor
          · intro empty
            cases empty
          · intro h
            have fits := h.2
            rw [h.1.1] at fits
            omega

theorem eq_of_prefix_iff (same : ∀ front, front <+: cs ↔ front <+: ds) : cs = ds := by
  have there : cs <+: ds := (same cs).mp (List.prefix_refl cs)
  have back : ds <+: cs := (same ds).mpr (List.prefix_refl ds)
  exact there.eq_of_length_le back.length_le

theorem fitting_isPrefix (room : Nat) (cs : List Char) : fitting room cs <+: cs :=
  (prefix_fitting_iff.mp (List.prefix_refl _)).1

theorem fitting_fitting (a b : Nat) (cs : List Char) :
    fitting b (fitting a cs) = fitting (min a b) cs := by
  apply eq_of_prefix_iff
  intro front
  rw [prefix_fitting_iff, prefix_fitting_iff, prefix_fitting_iff, and_assoc, Nat.le_min]

theorem fitting_eq_self (fits : byteLength cs ≤ room) : fitting room cs = cs :=
  (fitting_isPrefix room cs).eq_of_length_le
    (prefix_fitting_iff.mpr ⟨List.prefix_refl cs, fits⟩).length_le

theorem fitting_eq_nil_iff (roomy : 4 ≤ room) : fitting room cs = [] ↔ cs = [] := by
  cases cs with
  | nil => simp [fitting]
  | cons c cs =>
      have fits : c.utf8Size ≤ room := Nat.le_trans c.utf8Size_le_four roomy
      simp [fitting, fits]

variable {text : String} {limit k : Nat}

theorem toList_bounded (text : String) (limit : Nat) :
    (bounded text limit).toList = fitting (limit - 1) text.toList :=
  String.toList_ofList

theorem prefix_bounded_iff :
    front <+: (bounded text limit).toList ↔
      front <+: text.toList ∧ byteLength front ≤ limit - 1 := by
  rw [toList_bounded, prefix_fitting_iff]

theorem bounded_isPrefix (text : String) (limit : Nat) :
    (bounded text limit).toList <+: text.toList :=
  (prefix_bounded_iff.mp (List.prefix_refl _)).1

theorem utf8ByteSize_bounded (text : String) (limit : Nat) :
    (bounded text limit).utf8ByteSize ≤ limit - 1 := by
  rw [← byteLength_toList]
  exact (prefix_bounded_iff.mp (List.prefix_refl _)).2

theorem bounded_bounded (text : String) (a b : Nat) :
    bounded (bounded text a) b = bounded text (min a b) := by
  have both : min (a - 1) (b - 1) = min a b - 1 := by omega
  rw [bounded, toList_bounded, fitting_fitting, both, bounded]

theorem bounded_eq_self (fits : text.utf8ByteSize ≤ limit - 1) : bounded text limit = text := by
  rw [bounded, fitting_eq_self (byteLength_toList text ▸ fits), String.ofList_toList]

/-- No character takes more than four bytes. -/
theorem bounded_eq_empty_iff (roomy : 5 ≤ limit) : bounded text limit = "" ↔ text = "" := by
  rw [← String.toList_eq_nil_iff, toList_bounded, fitting_eq_nil_iff (by omega),
    String.toList_eq_nil_iff]

section Boundaries

/-- A character begins at the byte offset, or the text ends there. -/
def IsBoundary (text : String) (k : Nat) : Prop :=
  (String.Pos.Raw.mk k).IsValid text

instance (text : String) (k : Nat) : Decidable (IsBoundary text k) :=
  inferInstanceAs (Decidable (String.Pos.Raw.IsValid text ⟨k⟩))

theorem isBoundary_iff :
    IsBoundary text k ↔ ∃ front, front <+: text.toList ∧ byteLength front = k := by
  rw [IsBoundary, String.Pos.Raw.isValid_iff_exists_take_toList]
  constructor
  · rintro ⟨i, size⟩
    refine ⟨text.toList.take i, List.take_prefix i _, ?_⟩
    rw [← utf8ByteSize_ofList, ← size]
  · rintro ⟨front, pre, size⟩
    refine ⟨front.length, ?_⟩
    rw [← List.prefix_iff_eq_take.mp pre, utf8ByteSize_ofList, size]

/-- The boundaries up to an offset. -/
def boundariesTo (text : String) (k : Nat) : Set Nat :=
  { e | e ≤ k ∧ IsBoundary text e }

/-- The bounded text ends at the last boundary that leaves room for the terminator. -/
theorem isGreatest_bounded (text : String) (limit : Nat) :
    IsGreatest (boundariesTo text (limit - 1)) (bounded text limit).utf8ByteSize := by
  refine ⟨⟨utf8ByteSize_bounded text limit, ?_⟩, ?_⟩
  · rw [isBoundary_iff]
    exact ⟨_, bounded_isPrefix text limit, byteLength_toList _⟩
  · rintro e ⟨fits, boundary⟩
    obtain ⟨front, pre, rfl⟩ := isBoundary_iff.mp boundary
    obtain ⟨rest, split⟩ := prefix_bounded_iff.mpr ⟨pre, fits⟩
    rw [← byteLength_toList, ← split, byteLength_append]
    exact Nat.le_add_right _ _

/-- Looks for a boundary from an offset towards the front, one byte after the other. There is no
result if the search would have to go on from offset zero. -/
def backUp? (text : String) : Nat → Option Nat
  | 0 => if IsBoundary text 0 then some 0 else none
  | k + 1 => if IsBoundary text (k + 1) then some (k + 1) else backUp? text k

theorem isBoundary_zero (text : String) : IsBoundary text 0 :=
  String.Pos.Raw.isValid_zero

theorem exists_backUp? (text : String) (k : Nat) :
    ∃ e, backUp? text k = some e ∧ IsGreatest (boundariesTo text k) e := by
  induction k with
  | zero =>
      refine ⟨0, if_pos (isBoundary_zero text), ⟨Nat.le_refl 0, isBoundary_zero text⟩, ?_⟩
      exact fun e member => member.1
  | succ k ih =>
      by_cases boundary : IsBoundary text (k + 1)
      · refine ⟨k + 1, if_pos boundary, ⟨Nat.le_refl _, boundary⟩, ?_⟩
        exact fun e member => member.1
      · obtain ⟨e, found, greatest⟩ := ih
        refine ⟨e, (if_neg boundary).trans found, ?_, ?_⟩
        · exact ⟨Nat.le_succ_of_le greatest.1.1, greatest.1.2⟩
        · intro d member
          -- A boundary up to `k + 1` that is not `k + 1` itself is one up to `k`.
          have ne : d ≠ k + 1 := fun same => boundary (same ▸ member.2)
          have le : d ≤ k := Nat.le_of_lt_succ (Nat.lt_of_le_of_ne member.1 ne)
          exact greatest.2 ⟨le, member.2⟩

theorem backUp?_eq (text : String) (limit : Nat) :
    backUp? text (limit - 1) = some (bounded text limit).utf8ByteSize := by
  obtain ⟨e, found, greatest⟩ := exists_backUp? text (limit - 1)
  rw [found, greatest.unique (isGreatest_bounded text limit)]

end Boundaries

section Bytes

theorem length_flatMap_utf8EncodeChar (cs : List Char) :
    (cs.flatMap String.utf8EncodeChar).length = byteLength cs := by
  induction cs with
  | nil => rfl
  | cons c cs ih =>
      rw [List.flatMap_cons, List.length_append, String.length_utf8EncodeChar, ih, byteLength]

theorem take_bytes (short : String) (pre : short.toList <+: text.toList) :
    (bytes text).take short.utf8ByteSize = bytes short := by
  obtain ⟨rest, split⟩ := pre
  rw [bytes, ← split, List.flatMap_append, ← byteLength_toList, bytes]
  exact List.take_left' (length_flatMap_utf8EncodeChar short.toList)

/-- Truncation of the bytes: a text that fits is kept, and any other one is cut at the boundary that
the search finds. -/
def cut? (text : String) (limit : Nat) : Option (List UInt8) :=
  if text.utf8ByteSize ≤ limit - 1 then some (bytes text)
  else (backUp? text (limit - 1)).map (bytes text).take

theorem cut?_eq (text : String) (limit : Nat) :
    cut? text limit = some (bytes (bounded text limit)) := by
  unfold cut?
  split
  · rename_i fits
    rw [bounded_eq_self fits]
  · rw [backUp?_eq, Option.map_some, take_bytes _ (bounded_isPrefix text limit)]

end Bytes

/-- A bounded text ends at the last boundary that the limit allows and has every prefix that fits;
the search for that boundary always succeeds. Bounds in a row act as the smallest of them, and only
the empty text is bounded to nothing where any character fits. -/
theorem bounded_longest_fit (text : String) (limit : Nat) :
    (bounded text limit).toList <+: text.toList ∧
    IsGreatest { k | k ≤ limit - 1 ∧ (String.Pos.Raw.mk k).IsValid text }
      (bounded text limit).utf8ByteSize ∧
    (∀ short : String, short.toList <+: text.toList → short.utf8ByteSize ≤ limit - 1 →
      short.toList <+: (bounded text limit).toList) ∧
    backUp? text (limit - 1) = some (bounded text limit).utf8ByteSize ∧
    cut? text limit = some (bytes (bounded text limit)) ∧
    (∀ a b, bounded (bounded text a) b = bounded text (min a b)) ∧
    bounded (bounded text limit) limit = bounded text limit ∧
    (5 ≤ limit → bounded text limit = "" → text = "") := by
  refine ⟨bounded_isPrefix text limit, isGreatest_bounded text limit, ?_, backUp?_eq text limit,
    cut?_eq text limit, bounded_bounded text, ?_, ?_⟩
  · intro short pre fits
    exact prefix_bounded_iff.mpr ⟨pre, byteLength_toList short ▸ fits⟩
  · rw [bounded_bounded, Nat.min_self]
  · intro roomy
    exact (bounded_eq_empty_iff roomy).mp

-- A limit of four has no room for a character of four bytes, and no character is cut in two.
example : bounded "😀a" 4 = "" ∧ bounded "😀a" 5 = "😀" ∧ bounded "aé" 3 = "a" := by decide

end DeclLine.Text

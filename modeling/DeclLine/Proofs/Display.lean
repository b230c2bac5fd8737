import DeclLine.Proofs.Equality
import DeclLine.Value.Render

/-!
How values are written. A floating-point number is read off its word and rounded to hundredths, the
nearest one and on a tie the even one. Containers are written through their elements, separated by
commas; a dictionary writes its pairs bucket by bucket.
-/
namespace DeclLine

theorem Text.joined_eq_intercalate (sep : String) (ts : List String) :
    joined sep ts = sep.intercalate ts := by
  induction ts with
  | nil => rfl
  | cons t ts ih =>
      cases ts with
      | nil => simp [joined]
      | cons u ts => rw [joined, ih, String.intercalate_cons_cons]

namespace Binary64

/-- The word has this sign, exponent and fraction. -/
structure Parts (x : Binary64) (negative : Bool) (e f : Nat) : Prop where
  exponent_lt : e < 2 ^ 11
  fraction_lt : f < 2 ^ 52
  word : x.bits.toNat = negative.toNat * 2 ^ 63 + e * 2 ^ 52 + f

/-- `n` is above or below `num / den` by a half at most, and by just a half only if it is even. -/
structure Nearest (num den n : Nat) : Prop where
  above : 2 * (n * den) ≤ 2 * num + den
  below : 2 * num ≤ 2 * (n * den) + den
  even : 2 * (n * den) = 2 * num + den ∨ 2 * num = 2 * (n * den) + den → n % 2 = 0

def signOf (negative : Bool) : String :=
  if negative then "-" else ""

/-- The decimal text of a number. A finite one is counted in units of `2 ^ -1074`, where all but the
least exponent put a leading one before the fraction; it is written as `n` hundredths. -/
inductive Written (x : Binary64) : String → Prop
  | nan {negative : Bool} {f : Nat} (parts : x.Parts negative 2047 f) (payload : f ≠ 0) :
      Written x "NaN"
  | infinite {negative : Bool} (parts : x.Parts negative 2047 0) :
      Written x (signOf negative ++ "inf")
  | finite {negative : Bool} {e f n : Nat} (parts : x.Parts negative e f) (below : e < 2047)
      (nearest : Nearest ((if e = 0 then f else 2 ^ 52 + f) * 2 ^ (e - 1) * 100) (2 ^ 1074) n) :
      Written x (signOf negative ++
        (toString (n / 100) ++ "." ++ toString (n / 10 % 10) ++ toString (n % 10)))

theorem pow2_eq (n : Nat) : pow2 n = 2 ^ n := rfl

theorem pow2_pos (n : Nat) : 0 < pow2 n := Nat.two_pow_pos n

theorem nearest_roundDiv (num : Nat) {den : Nat} (pos : 0 < den) :
    Nearest num den (roundDiv num den) := by
  have whole := Nat.div_add_mod num den
  rw [Nat.mul_comm] at whole
  have part := Nat.mod_lt num pos
  have next : (num / den + 1) * den = num / den * den + den := Nat.succ_mul _ _
  simp only [roundDiv, Bool.or_eq_true, Bool.and_eq_true, decide_eq_true_eq, beq_iff_eq]
  split
  · refine ⟨?_, ?_, ?_⟩ <;> omega
  · refine ⟨?_, ?_, ?_⟩ <;> omega

theorem hundredths_eq (n : Nat) :
    hundredths n = toString (n / 100) ++ "." ++ toString (n / 10 % 10) ++ toString (n % 10) := by
  have digits : ∀ cents < 100, (if cents < 10 then "0" else "") ++ toString cents =
      toString (cents / 10) ++ toString (cents % 10) := by decide
  have two := digits (n % 100) (Nat.mod_lt n (by omega))
  have tens : n % 100 / 10 = n / 10 % 10 := by omega
  have ones : n % 100 % 10 = n % 10 := by omega
  rw [tens, ones] at two
  simp only [hundredths, String.append_assoc, two]

theorem parts_exact (x : Binary64) : x.Parts x.isNegative x.exponent x.fraction := by
  have bound := x.bits.toNat_lt
  refine ⟨Nat.mod_lt _ (by decide), Nat.mod_lt _ (by decide), ?_⟩
  change _ = _ + x.bits.toNat / 2 ^ 52 % 2 ^ 11 * 2 ^ 52 + x.bits.toNat % 2 ^ 52
  cases negative : x.isNegative with
  | true =>
      have high : 2 ^ 63 ≤ x.bits.toNat := of_decide_eq_true negative
      rw [Bool.toNat_true]
      omega
  | false =>
      have low : ¬ 2 ^ 63 ≤ x.bits.toNat := of_decide_eq_false negative
      rw [Bool.toNat_false]
      omega

theorem nearest_hundredths (x : Binary64) :
    Nearest ((if x.exponent = 0 then x.fraction else 2 ^ 52 + x.fraction) * 2 ^ (x.exponent - 1)
      * 100) (2 ^ 1074) (roundDiv (x.magnitude * 100) unitsPerOne) := by
  have nearest := nearest_roundDiv (x.magnitude * 100) (pow2_pos 1074)
  simp only [magnitude, significand, shift, unitsPerOne, pow2_eq] at nearest ⊢
  exact nearest

theorem written_render (x : Binary64) : x.Written x.render := by
  have parts := x.parts_exact
  cases finite : x.isFinite with
  | true =>
      have below : x.exponent < 2047 := by
        have := parts.exponent_lt
        simp only [isFinite, bne_iff_ne, ne_eq] at finite
        omega
      have text : x.render = signOf x.isNegative ++
          hundredths (roundDiv (x.magnitude * 100) unitsPerOne) := by
        simp [render, isNaN, finite, signOf]
      rw [text, hundredths_eq]
      exact .finite parts below x.nearest_hundredths
  | false =>
      have top : x.exponent = 2047 := by simpa [isFinite] using finite
      rw [top] at parts
      by_cases zero : x.fraction = 0
      · have text : x.render = signOf x.isNegative ++ "inf" := by
          simp [render, isNaN, finite, zero, signOf]
        rw [text]
        exact .infinite (zero ▸ parts)
      · have text : x.render = "NaN" := by simp [render, isNaN, finite, zero]
        rw [text]
        exact .nan parts zero

-- Both lie halfway between two hundredths.
example : render ⟨0x3fc0000000000000⟩ = "0.12" ∧ render ⟨0xbfd8000000000000⟩ = "-0.38" := by
  decide +kernel

end Binary64

namespace Value

/-- The text of a value. Strings stand bare, also inside containers. -/
inductive Written : Value → String → Prop
  | int (n : Int64) : Written (.int n) (toString n.toInt)
  | float {x : Binary64} {text : String} (number : x.Written text) : Written (.float x) text
  | string (text : String) : Written (.string text) text
  | true : Written (.bool true) "true"
  | false : Written (.bool false) "false"
  | array {a : Growable Value} {texts : List String}
      (items : List.Forall₂ Written a.items texts) :
      Written (.array a) ("[" ++ ", ".intercalate texts ++ "]")
  | dict {d : Dictionary Value} {keys values : List String}
      (keysWritten : List.Forall₂ Written (d.buckets.flatten.map Prod.fst) keys)
      (valuesWritten : List.Forall₂ Written (d.buckets.flatten.map Prod.snd) values) :
      Written (.dict d) ("\x7b" ++
        ", ".intercalate (List.zipWith (fun k v => k ++ ": " ++ v) keys values) ++ "\x7d")

theorem renderItems_eq (items : List Value) : renderItems items = items.map render := by
  induction items with
  | nil => rfl
  | cons v items ih => rw [renderItems, ih, List.map_cons]

theorem renderPair_eq (e : Value × Value) :
    renderPair e = e.1.render ++ ": " ++ e.2.render := by
  cases e
  rw [renderPair]

theorem renderChain_eq (chain : List (Value × Value)) :
    renderChain chain = chain.map renderPair := by
  induction chain with
  | nil => rfl
  | cons e chain ih => rw [renderChain, ih, List.map_cons]

theorem renderBuckets_eq (buckets : List (List (Value × Value))) :
    renderBuckets buckets = buckets.flatten.map renderPair := by
  induction buckets with
  | nil => rfl
  | cons b buckets ih =>
      rw [renderBuckets, renderChain_eq, ih, List.flatten_cons, List.map_append]

theorem render_array (a : Growable Value) :
    (Value.array a).render = "[" ++ ", ".intercalate (a.items.map render) ++ "]" := by
  rw [render, renderArray, Text.joined_eq_intercalate, renderItems_eq]

theorem render_dict (d : Dictionary Value) :
    (Value.dict d).render =
      "\x7b" ++ ", ".intercalate (d.buckets.flatten.map renderPair) ++ "\x7d" := by
  rw [render, renderDict, Text.joined_eq_intercalate, renderBuckets_eq]

theorem written_render (v : Value) : v.Written v.render := by
  induction v using nested with
  | int n => exact .int n
  | float x => exact .float x.written_render
  | string text => exact .string text
  | bool b =>
      cases b with
      | true => exact .true
      | false => exact .false
  | array a ih =>
      rw [render_array]
      exact .array (List.forall₂_map_right_iff.mpr (List.forall₂_same.mpr ih))
  | dict d ih =>
      have pairs : d.buckets.flatten.map renderPair =
          List.zipWith (fun k v => k ++ ": " ++ v) (d.buckets.flatten.map (·.1.render))
            (d.buckets.flatten.map (·.2.render)) := by
        rw [List.zipWith_map, List.zipWith_self]
        exact List.map_congr_left fun e _ => renderPair_eq e
      rw [render_dict, pairs]
      refine .dict ?_ ?_
      · rw [List.forall₂_map_left_iff, List.forall₂_map_right_iff, List.forall₂_same]
        exact fun e he => (ih e he).1
      · rw [List.forall₂_map_left_iff, List.forall₂_map_right_iff, List.forall₂_same]
        exact fun e he => (ih e he).2

end Value

end DeclLine

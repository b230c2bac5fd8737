import DeclLine.Proofs.Keys
import DeclLine.Proofs.Registry
import Mathlib.Algebra.BigOperators.Fin
import Mathlib.Algebra.Order.BigOperators.Group.Finset
import Mathlib.Data.Int.ModEq
import Mathlib.Tactic.Ring

/-!
The hashes of names and of text keys are polynomials. Every step of a hash wraps, but wrapping
respects sums and products, so that a hash is its exact polynomial, reduced once. Names and keys
differ in the width of the reduction and in how they read bytes from 128 on; where neither matters,
they fall into the same bucket.
-/
namespace DeclLine.RollingHash

/-- The byte as a number from -128 to 127. -/
def signed (b : UInt8) : ℤ :=
  if b.toNat < 128 then b.toNat else b.toNat - 256

/-- The byte as a number from 0 to 255. -/
def unsigned (b : UInt8) : ℤ :=
  b.toNat

/-- The exact value of bytes read as digits in base 31, the last one for the units. -/
def polynomial (digit : UInt8 → ℤ) (bytes : List UInt8) : ℤ :=
  ∑ i : Fin bytes.length, digit (bytes.get i) * 31 ^ (bytes.length - 1 - i)

theorem polynomial_cons (digit : UInt8 → ℤ) (b : UInt8) (bytes : List UInt8) :
    polynomial digit (b :: bytes) = digit b * 31 ^ bytes.length + polynomial digit bytes := by
  simp only [polynomial, List.length_cons]
  rw [Fin.sum_univ_succ]
  congr 1
  apply Finset.sum_congr rfl
  intro i _
  rw [Fin.val_succ, Nat.add_sub_cancel, Nat.add_comm, Nat.sub_add_eq]
  rfl

theorem polynomial_congr {digit digit' : UInt8 → ℤ} {bytes : List UInt8}
    (same : ∀ b ∈ bytes, digit b = digit' b) :
    polynomial digit bytes = polynomial digit' bytes := by
  apply Finset.sum_congr rfl
  intro i _
  rw [same _ (bytes.get_mem i)]

section Scan

variable {α : Type} {step : α → UInt8 → α} {val : α → ℕ} {digit : UInt8 → ℤ} {m : ℕ}

/-- What one step does up to a modulus, the whole scan does. -/
theorem foldl_modEq (wraps : ∀ h b, (val (step h b) : ℤ) ≡ val h * 31 + digit b [ZMOD m])
    (bytes : List UInt8) (h : α) :
    (val (bytes.foldl step h) : ℤ) ≡ val h * 31 ^ bytes.length + polynomial digit bytes
      [ZMOD m] := by
  induction bytes generalizing h with
  | nil => simp [polynomial, Int.ModEq.refl]
  | cons b bytes ih =>
      calc
        (val (bytes.foldl step (step h b)) : ℤ)
          ≡ val (step h b) * 31 ^ bytes.length + polynomial digit bytes [ZMOD m] := ih (step h b)
        _ ≡ (val h * 31 + digit b) * 31 ^ bytes.length + polynomial digit bytes [ZMOD m] :=
            ((wraps h b).mul_right _).add_right _
        _ = val h * 31 ^ (b :: bytes).length + polynomial digit (b :: bytes) := by
            rw [polynomial_cons, List.length_cons, pow_succ]
            ring

variable (val) in
/-- A scan from zero whose values stay below the modulus gives the reduced polynomial. -/
theorem foldl_eq_emod (wraps : ∀ h b, (val (step h b) : ℤ) ≡ val h * 31 + digit b [ZMOD m])
    (small : ∀ h, val h < m) {zero : α} (start : val zero = 0) (bytes : List UInt8) :
    (val (bytes.foldl step zero) : ℤ) = polynomial digit bytes % m := by
  have scanned := foldl_modEq wraps bytes zero
  rw [start, Nat.cast_zero, Int.zero_mul, Int.zero_add] at scanned
  rw [← scanned.eq, ← Int.natCast_mod, Nat.mod_eq_of_lt (small _)]

/-- The step of a hash that wraps at the modulus after the product and after the sum. -/
theorem wrapped_modEq {h d : ℕ} {digit : ℤ} (same : (d : ℤ) ≡ digit [ZMOD m]) :
    (((h * 31 % m + d) % m : ℕ) : ℤ) ≡ h * 31 + digit [ZMOD m] := by
  push_cast
  calc
    ((h : ℤ) * 31 % m + d) % m
      ≡ (h : ℤ) * 31 % m + d [ZMOD m] := Int.mod_modEq _ _
    _ ≡ h * 31 + digit [ZMOD m] := (Int.mod_modEq _ _).add same

end Scan

theorem toNat_signExtended (b : UInt8) :
    (signExtended b).toNat = if b.toNat < 128 then b.toNat else b.toNat + (2 ^ 32 - 2 ^ 8) := by
  have small := b.toNat_lt
  have word : (signExtended b).toBitVec = b.toBitVec.signExtend 32 := rfl
  rw [← UInt32.toNat_toBitVec, word, BitVec.toNat_signExtend, BitVec.toNat_setWidth,
    UInt8.toNat_toBitVec, BitVec.msb_eq_decide, UInt8.toNat_toBitVec, Nat.mod_eq_of_lt (by omega)]
  by_cases ascii : b.toNat < 128 <;> simp [ascii]

theorem signExtended_modEq (b : UInt8) :
    ((signExtended b).toNat : ℤ) ≡ signed b [ZMOD (2 ^ 32 : ℕ)] := by
  rw [toNat_signExtended, signed]
  split
  · rfl
  · rw [Int.modEq_iff_dvd]
    refine ⟨-1, ?_⟩
    push_cast
    ring

theorem toNat_ofName (bytes : List UInt8) :
    ((ofName bytes).toNat : ℤ) = polynomial signed bytes % (2 ^ 32 : ℕ) := by
  apply foldl_eq_emod UInt32.toNat _ UInt32.toNat_lt UInt32.toNat_zero
  intro h b
  rw [UInt32.toNat_add, UInt32.toNat_mul]
  exact wrapped_modEq (signExtended_modEq b)

theorem toNat_ofKey (bytes : List UInt8) :
    ((ofKey bytes).toNat : ℤ) = polynomial unsigned bytes % (2 ^ 64 : ℕ) := by
  apply foldl_eq_emod UInt64.toNat _ UInt64.toNat_lt UInt64.toNat_zero
  intro h b
  rw [UInt64.toNat_add, UInt64.toNat_mul, UInt8.toNat_toUInt64]
  exact wrapped_modEq rfl

theorem cast_bucket (hash count : ℕ) :
    (bucket hash count : ℤ) = hash % (max count 1 : ℕ) :=
  Int.natCast_mod _ _

theorem keyBucket_string (text : String) (count : ℕ) :
    (Value.string text).keyBucket .string count =
      .ok (bucket (ofKey (Text.bytes text)).toNat count) :=
  rfl

section Ascii

variable {text : String}

theorem toNat_lt_of_ascii (ascii : ∀ c ∈ text.toList, c.toNat < 128) {b : UInt8}
    (mem : b ∈ Text.bytes text) : b.toNat < 128 := by
  obtain ⟨c, inside, here⟩ := List.mem_flatMap.mp mem
  have small : c.val.toNat < 128 := ascii c inside
  have single : c.utf8Size = 1 := by
    rw [Char.utf8Size_eq_one_iff, UInt32.le_iff_toNat_le]
    exact Nat.le_of_lt_succ small
  rw [String.utf8EncodeChar_eq_singleton single, List.mem_singleton] at here
  rw [here, UInt32.toNat_toUInt8]
  omega

theorem polynomial_signed_of_ascii (ascii : ∀ c ∈ text.toList, c.toNat < 128) :
    polynomial signed (Text.bytes text) = polynomial unsigned (Text.bytes text) := by
  apply polynomial_congr
  intro b mem
  rw [signed, if_pos (toNat_lt_of_ascii ascii mem), unsigned]

theorem polynomial_unsigned_nonneg (bytes : List UInt8) : 0 ≤ polynomial unsigned bytes := by
  apply Finset.sum_nonneg
  intro i _
  exact Int.mul_nonneg (Int.natCast_nonneg _) (Int.pow_nonneg (by decide))

/-- Neither width is reached and no byte is negative, so that the two hashes are one number. -/
theorem toNat_ofName_eq_ofKey (ascii : ∀ c ∈ text.toList, c.toNat < 128)
    (small : polynomial unsigned (Text.bytes text) < 2 ^ 32) :
    (ofName (Text.bytes text)).toNat = (ofKey (Text.bytes text)).toNat := by
  have nonneg := polynomial_unsigned_nonneg (Text.bytes text)
  apply Int.natCast_inj.mp
  rw [toNat_ofName, toNat_ofKey, polynomial_signed_of_ascii ascii, Int.emod_eq_of_lt nonneg,
    Int.emod_eq_of_lt nonneg]
  · push_cast
    omega
  · exact_mod_cast small

end Ascii

/-- The bucket of a name and that of a text key, each as the exact polynomial of the bytes, reduced
to the width of its hash and then to the number of buckets; both are buckets, and they are one where
the text is ASCII and its polynomial fits 32 bits. -/
theorem buckets_of_polynomials (text : String) (count : ℕ) :
    (nameBucket text count : ℤ) =
      polynomial signed (Text.bytes text) % 2 ^ 32 % (max count 1 : ℕ) ∧
    nameBucket text count < max count 1 ∧
    (∃ i, (Value.string text).keyBucket .string count = .ok i ∧
      (i : ℤ) = polynomial unsigned (Text.bytes text) % 2 ^ 64 % (max count 1 : ℕ) ∧
      i < max count 1) ∧
    ((∀ c ∈ text.toList, c.toNat < 128) → polynomial unsigned (Text.bytes text) < 2 ^ 32 →
      (Value.string text).keyBucket .string count = .ok (nameBucket text count)) := by
  refine ⟨?_, nameBucket_lt text count, ⟨_, keyBucket_string text count, ?_, ?_⟩, ?_⟩
  · rw [nameBucket, cast_bucket, toNat_ofName]
    norm_cast
  · rw [cast_bucket, toNat_ofKey]
    norm_cast
  · exact Value.keyBucket_lt (keyBucket_string text count)
  · intro ascii small
    rw [keyBucket_string, nameBucket, toNat_ofName_eq_ofKey ascii small]

-- The first byte of `é` is 195 for a key and -61 for a name.
example : nameBucket "é" 101 = 9 ∧ (Value.string "é").keyBucket .string 101 = .ok 53 := by decide

end DeclLine.RollingHash

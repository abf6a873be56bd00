import Mathlib.Algebra.Field.Rat
import Mathlib.Data.List.TakeWhile

namespace AiterCommerce.Encoding.Decimal

def natural (cs : List Char) : Option ℕ :=
  if (!cs.isEmpty && cs.all Char.isDigit) = true then some (Nat.ofDigitChars 10 cs 0) else none

/-- Digits, and after a point, when there is one, the digits of the fraction. -/
def unsigned (cs : List Char) : Option ℚ :=
  match cs.dropWhile (· ≠ '.') with
  | [] => (natural cs).map fun n : ℕ => (n : ℚ)
  | _ :: fraction =>
      (natural (cs.takeWhile (· ≠ '.'))).bind fun n =>
        (natural fraction).map fun f : ℕ => (n : ℚ) + (f : ℚ) / 10 ^ fraction.length

/-- The number that a decimal text denotes. -/
def signed : List Char → Option ℚ
  | '-' :: cs => (unsigned cs).map fun v => -v
  | cs => unsigned cs

theorem natural_zeros_toDigits (k n : ℕ) :
    natural (List.replicate k '0' ++ Nat.toDigits 10 n) = some n := by
  have hdigits : (List.replicate k '0' ++ Nat.toDigits 10 n).all Char.isDigit = true := by
    rw [List.all_eq_true]
    intro c hc
    rcases List.mem_append.mp hc with hc | hc
    · rw [List.eq_of_mem_replicate hc]
      rfl
    · exact Nat.isDigit_of_mem_toDigits (by decide) (by decide) hc
  have hne : (!(List.replicate k '0' ++ Nat.toDigits 10 n).isEmpty) = true := by
    simp [Nat.toDigits_ne_nil]
  rw [natural, if_pos (Bool.and_eq_true_iff.mpr ⟨hne, hdigits⟩), Nat.ofDigitChars_append, Nat.ofDigitChars_replicate_zero,
    Nat.mul_zero, Nat.ofDigitChars_ten_toDigits]

theorem natural_toDigits (n : ℕ) : natural (Nat.toDigits 10 n) = some n :=
  natural_zeros_toDigits 0 n

theorem isDigit_of_natural {cs : List Char} {n : ℕ} (h : natural cs = some n) :
    ∀ c ∈ cs, c.isDigit = true := by
  rw [natural] at h
  split at h
  next hc => exact List.all_eq_true.mp (Bool.and_eq_true_iff.mp hc).2
  next => cases h

theorem ne_of_isDigit {c d : Char} (hd : d.isDigit = false) (hc : c.isDigit = true) : c ≠ d := by
  rintro rfl
  rw [hd] at hc
  cases hc

theorem unsigned_of_natural {cs : List Char} {n : ℕ} (h : natural cs = some n) :
    unsigned cs = some (n : ℚ) := by
  have hpoint : ∀ c ∈ cs, decide (c ≠ '.') = true := fun c hc =>
    decide_eq_true (ne_of_isDigit rfl (isDigit_of_natural h c hc))
  have hdrop : cs.dropWhile (· ≠ '.') = [] := List.dropWhile_eq_nil_iff.mpr hpoint
  simp only [unsigned, hdrop, h, Option.map_some]

theorem unsigned_point {cs fraction : List Char} {n f : ℕ} (hn : natural cs = some n)
    (hf : natural fraction = some f) :
    unsigned (cs ++ '.' :: fraction) = some ((n : ℚ) + (f : ℚ) / 10 ^ fraction.length) := by
  have hpoint : ∀ c ∈ cs, decide (c ≠ '.') = true := fun c hc =>
    decide_eq_true (ne_of_isDigit rfl (isDigit_of_natural hn c hc))
  have hdrop : (cs ++ '.' :: fraction).dropWhile (· ≠ '.') = '.' :: fraction := by
    rw [List.dropWhile_append_of_pos hpoint]
    simp
  have htake : (cs ++ '.' :: fraction).takeWhile (· ≠ '.') = cs := by
    rw [List.takeWhile_append_of_pos hpoint]
    simp
  simp only [unsigned, hdrop, htake, hn, hf, Option.bind_some, Option.map_some]

theorem toList_toString_int (m : ℤ) : (toString m).toList =
    if m < 0 then '-' :: Nat.toDigits 10 m.natAbs else Nat.toDigits 10 m.natAbs := by
  rw [Int.toString_eq_repr, Int.repr_eq_if]
  split
  next hm =>
    rw [if_neg (by omega), Nat.toList_repr, show m.toNat = m.natAbs by omega]
  next hm =>
    rw [if_pos (by omega), String.toList_append, Nat.toList_repr, show (-m).toNat = m.natAbs by omega]
    rfl

theorem signed_int_append (m : ℤ) (rest : List Char) {v : ℚ}
    (h : unsigned (Nat.toDigits 10 m.natAbs ++ rest) = some v) :
    signed ((toString m).toList ++ rest) = some (if m < 0 then -v else v) := by
  rw [toList_toString_int]
  split
  next =>
    rw [List.cons_append, signed, h, Option.map_some]
  next =>
    rw [← h]
    have hminus : ∀ c ∈ Nat.toDigits 10 m.natAbs, c ≠ '-' := fun c hc =>
      ne_of_isDigit rfl (Nat.isDigit_of_mem_toDigits (by decide) (by decide) hc)
    cases hd : Nat.toDigits 10 m.natAbs with
    | nil => exact absurd hd Nat.toDigits_ne_nil
    | cons c cs =>
        rw [List.cons_append, signed]
        rintro tail htail
        cases htail
        exact hminus _ (hd ▸ List.mem_cons_self) rfl

end AiterCommerce.Encoding.Decimal

import AiterCommerce.Encoding.Decimal
import AiterCommerce.Server.Pages
import Mathlib.Algebra.Order.Field.Rat
import Mathlib.Data.Int.Cast.Lemmas
import Mathlib.Tactic.NormNum

namespace AiterCommerce.Guarantees.Printed

open AiterCommerce.Core Server.Pages Encoding.Decimal

/-- A printed amount, read as a number of major units and a currency. -/
def readAmount (text : String) : Option (ℚ × Currency) :=
  match text.toList.dropWhile (· ≠ ' ') with
  | [] => none
  | _ :: code =>
      (signed (text.toList.takeWhile (· ≠ ' '))).bind fun v =>
        (Currency.ofCode (String.ofList code)).map (v, ·)

def parseAmount (text : String) : Option Amount :=
  (readAmount text).bind fun (v, currency) =>
    let minor := v * 10 ^ currency.minorUnitExponent
    if minor.den = 1 ∧ -2 ^ 63 ≤ minor.num ∧ minor.num < 2 ^ 63 then
      some ⟨Int64.ofInt minor.num, currency⟩
    else none

def perMajor (a : Amount) : ℕ := 10 ^ a.currency.minorUnitExponent

def Denotes (a : Amount) : Prop :=
  readAmount (formatAmount a) = some ((a.units.toInt : ℚ) / perMajor a, a.currency)

def Recovered (a : Amount) : Prop := parseAmount (formatAmount a) = some a

def PrintedAlone (a : Amount) : Prop := ∀ b, formatAmount b = formatAmount a → b = a

/-- Nothing is lost: the text says the amount, gives it back, and is no other's. -/
structure Faithful (a : Amount) : Prop where
  denotes : Denotes a
  recovered : Recovered a
  alone : PrintedAlone a

section Division

def major (a : Amount) : ℤ := a.units.toInt.tdiv (perMajor a)

def frac (a : Amount) : ℕ := a.units.toInt.natAbs % perMajor a

theorem perMajor_cases (a : Amount) : perMajor a = 1 ∧ a.currency.minorUnitExponent = 0 ∨
    perMajor a = 100 ∧ a.currency.minorUnitExponent = 2 := by
  rw [perMajor]
  cases a.currency <;> simp [Currency.minorUnitExponent]

theorem perMajor_pos (a : Amount) : 0 < perMajor a := Nat.pow_pos (by decide)

theorem toInt_divisor (a : Amount) :
    ((10 : Int64) ^ a.currency.minorUnitExponent).toInt = perMajor a := by
  rw [perMajor]
  cases a.currency <;> rfl

theorem toInt_major (a : Amount) :
    (a.units / (10 : Int64) ^ a.currency.minorUnitExponent).toInt = major a := by
  rw [Int64.toInt_div_of_ne_right, toInt_divisor, major]
  intro h
  have hd := toInt_divisor a
  rw [h] at hd
  have hpos := perMajor_pos a
  have hneg : (-1 : Int64).toInt = -1 := rfl
  omega

theorem toInt_abs {n : Int64} (h : -2 ^ 63 < n.toInt) : n.abs.toInt = n.toInt.natAbs := by
  have hne : n.toBitVec ≠ BitVec.intMin 64 := by
    intro heq
    have hmin : n.toInt = (BitVec.intMin 64).toInt := congrArg BitVec.toInt heq
    rw [hmin] at h
    exact absurd h (by decide)
  exact BitVec.toInt_abs_eq_natAbs_of_ne_intMin hne

theorem toInt_frac (a : Amount) :
    ((a.units % (10 : Int64) ^ a.currency.minorUnitExponent).abs).toInt = frac a := by
  have hmod : (a.units % (10 : Int64) ^ a.currency.minorUnitExponent).toInt =
      a.units.toInt.tmod (perMajor a) := by rw [Int64.toInt_mod, toInt_divisor]
  have habs : (a.units.toInt.tmod (perMajor a)).natAbs = frac a := Int.natAbs_tmod _ _
  have hlt : frac a < perMajor a := Nat.mod_lt _ (perMajor_pos a)
  have hsmall : perMajor a ≤ 100 := by
    rcases perMajor_cases a with ⟨h, -⟩ | ⟨h, -⟩ <;> omega
  rw [toInt_abs, hmod, habs]
  rw [hmod]
  omega

theorem natAbs_major (a : Amount) : (major a).natAbs = a.units.toInt.natAbs / perMajor a :=
  Int.natAbs_tdiv _ _

theorem natAbs_units (a : Amount) :
    a.units.toInt.natAbs = perMajor a * (major a).natAbs + frac a := by
  rw [natAbs_major, frac, Nat.div_add_mod]

/-- The quotient is negative only from a whole major unit below zero on. -/
theorem major_neg_iff (a : Amount) : major a < 0 ↔ a.units.toInt ≤ -perMajor a := by
  have habs := natAbs_major a
  have hpos := perMajor_pos a
  have hdiv : a.units.toInt.natAbs / perMajor a = 0 ↔ a.units.toInt.natAbs < perMajor a :=
    Nat.div_eq_zero_iff_lt hpos
  rcases le_or_gt 0 a.units.toInt with hu | hu
  · have hm : 0 ≤ major a := Int.tdiv_nonneg hu (by omega)
    omega
  · have hm : major a ≤ 0 := by
      have h := Int.tdiv_nonneg (Int.neg_nonneg_of_nonpos hu.le) (Int.natCast_nonneg (perMajor a))
      rw [Int.neg_tdiv] at h
      exact Int.nonpos_of_neg_nonneg h
    omega

end Division

section Text

def fracDigits (a : Amount) : List Char :=
  List.replicate (2 - (Nat.toDigits 10 (frac a)).length) '0' ++ Nat.toDigits 10 (frac a)

theorem toList_zeroPadded {n : Int64} {m : ℕ} (h : n.toInt = m) :
    (zeroPadded 2 n).toList = List.replicate (2 - (Nat.toDigits 10 m).length) '0' ++
      Nat.toDigits 10 m := by
  have hneg : ¬ n < 0 := by
    rw [Int64.lt_iff_toInt_lt, h]
    simp
  have hdigits : (toString m).toList = Nat.toDigits 10 m := Nat.toList_repr
  have hlength : (toString m).length = (Nat.toDigits 10 m).length := by
    rw [← hdigits, String.length_toList]
  simp only [zeroPadded, if_neg hneg, h, Int.natAbs_natCast, String.toList_append,
    String.toList_ofList, hdigits, String.empty_append, hlength]

theorem length_fracDigits {a : Amount} (h : perMajor a = 100) : (fracDigits a).length = 2 := by
  have hfrac : frac a < 10 ^ 2 := by
    rw [frac, h]
    exact Nat.mod_lt _ (by decide)
  have hle : (Nat.toDigits 10 (frac a)).length ≤ 2 :=
    (Nat.length_toDigits_le_iff (by decide) (by decide)).mpr hfrac
  rw [fracDigits, List.length_append, List.length_replicate]
  omega

theorem natural_fracDigits (a : Amount) : natural (fracDigits a) = some (frac a) :=
  natural_zeros_toDigits _ _

def numberChars (a : Amount) : List Char :=
  (toString (major a)).toList ++ if perMajor a = 1 then [] else '.' :: fracDigits a

theorem toList_formatAmount (a : Amount) :
    (formatAmount a).toList = numberChars a ++ ' ' :: a.currency.code.toList := by
  rcases perMajor_cases a with ⟨hp, he⟩ | ⟨hp, he⟩
  · simp only [formatAmount, toInt_major, if_pos he, String.toList_append, numberChars, if_pos hp,
      List.append_nil, List.append_assoc]
    rfl
  · have hfrac := toList_zeroPadded (toInt_frac a)
    have hne : ¬ perMajor a = 1 := by omega
    have hne' : ¬ a.currency.minorUnitExponent = 0 := by omega
    simp only [formatAmount, toInt_major, if_neg hne', String.toList_append, numberChars,
      if_neg hne, List.append_assoc, List.cons_append]
    rw [he] at hfrac ⊢
    rw [hfrac]
    rfl

theorem blank_notMem (a : Amount) : ∀ c ∈ numberChars a, decide (c ≠ ' ') = true := by
  intro c hc
  apply decide_eq_true
  rintro rfl
  rcases List.mem_append.mp hc with hc | hc
  · rcases Encoding.Json.mem_toString_int hc with h | h <;> exact absurd h (by decide)
  · split at hc
    next => cases hc
    next =>
      rcases List.mem_cons.mp hc with h | hc
      · exact absurd h (by decide)
      · exact absurd (isDigit_of_natural (natural_fracDigits a) _ hc) (by decide)

/-- The number that is printed, in minor units: the sign goes with the major units. -/
def printedUnits (a : Amount) : ℤ :=
  if a.units.toInt ≤ -perMajor a then a.units.toInt else a.units.toInt.natAbs

theorem printedUnits_eq (a : Amount) :
    (printedUnits a : ℚ) / perMajor a =
      if major a < 0 then -(((major a).natAbs : ℚ) + (frac a : ℚ) / perMajor a)
      else ((major a).natAbs : ℚ) + (frac a : ℚ) / perMajor a := by
  have hpos : (perMajor a : ℚ) ≠ 0 := Nat.cast_ne_zero.mpr (perMajor_pos a).ne'
  have hsum : ((a.units.toInt.natAbs : ℕ) : ℚ) / perMajor a =
      ((major a).natAbs : ℚ) + (frac a : ℚ) / perMajor a := by
    rw [natAbs_units, Nat.cast_add, Nat.cast_mul, add_div, mul_div_cancel_left₀ _ hpos]
  rw [← hsum, printedUnits]
  simp only [major_neg_iff]
  split
  next hu =>
    have habs : (a.units.toInt : ℚ) = -((a.units.toInt.natAbs : ℕ) : ℚ) := by
      rw [← Int.cast_natCast, ← Int.cast_neg]
      congr 1
      omega
    rw [habs, neg_div]
  next => rw [Int.cast_natCast]

theorem signed_numberChars (a : Amount) :
    signed (numberChars a) = some ((printedUnits a : ℚ) / perMajor a) := by
  rw [printedUnits_eq, numberChars]
  apply signed_int_append
  rcases perMajor_cases a with ⟨hp, -⟩ | ⟨hp, -⟩
  · have hfrac : frac a = 0 := by rw [frac, hp, Nat.mod_one]
    rw [if_pos hp, List.append_nil, unsigned_of_natural (natural_toDigits _), hfrac]
    simp
  · have hne : ¬ perMajor a = 1 := by omega
    rw [if_neg hne, unsigned_point (natural_toDigits _) (natural_fracDigits a),
      length_fracDigits hp, hp]
    norm_num

theorem readAmount_formatAmount (a : Amount) :
    readAmount (formatAmount a) = some ((printedUnits a : ℚ) / perMajor a, a.currency) := by
  have hdrop : (formatAmount a).toList.dropWhile (· ≠ ' ') = ' ' :: a.currency.code.toList := by
    rw [toList_formatAmount, List.dropWhile_append_of_pos (blank_notMem a)]
    rfl
  have htake : (formatAmount a).toList.takeWhile (· ≠ ' ') = numberChars a := by
    rw [toList_formatAmount, List.takeWhile_append_of_pos (blank_notMem a)]
    simp
  simp only [readAmount, hdrop, htake, signed_numberChars, Option.bind_some, String.ofList_toList,
    Currency.ofCode_code, Option.map_some]

end Text

section Faithfulness

theorem printedUnits_eq_iff (a : Amount) :
    printedUnits a = a.units.toInt ↔ 0 ≤ a.units.toInt ∨ a.units.toInt ≤ -perMajor a := by
  rw [printedUnits]
  split <;> omega

theorem denotes_iff (a : Amount) : Denotes a ↔ printedUnits a = a.units.toInt := by
  have hpos : (perMajor a : ℚ) ≠ 0 := Nat.cast_ne_zero.mpr (perMajor_pos a).ne'
  rw [Denotes, readAmount_formatAmount, Option.some.injEq, Prod.mk.injEq, and_iff_left rfl,
    div_left_inj' hpos, Int.cast_inj]

theorem printedUnits_range (a : Amount) : -2 ^ 63 ≤ printedUnits a ∧ printedUnits a < 2 ^ 63 := by
  have hlow := a.units.le_toInt
  have hhigh := a.units.toInt_lt
  have hsmall : perMajor a ≤ 100 := by
    rcases perMajor_cases a with ⟨h, -⟩ | ⟨h, -⟩ <;> omega
  rw [printedUnits]
  split <;> omega

theorem parseAmount_formatAmount (a : Amount) :
    parseAmount (formatAmount a) = some ⟨Int64.ofInt (printedUnits a), a.currency⟩ := by
  have hpos : (perMajor a : ℚ) ≠ 0 := Nat.cast_ne_zero.mpr (perMajor_pos a).ne'
  have hminor : (printedUnits a : ℚ) / perMajor a * 10 ^ a.currency.minorUnitExponent =
      (printedUnits a : ℚ) := by
    have hcast : (10 : ℚ) ^ a.currency.minorUnitExponent = perMajor a := by
      rw [perMajor, Nat.cast_pow]
      rfl
    rw [hcast, div_mul_cancel₀ _ hpos]
  rw [parseAmount, readAmount_formatAmount, Option.bind_some]
  simp only [hminor, Rat.den_intCast, Rat.num_intCast, printedUnits_range a, and_self, if_true]

theorem recovered_iff (a : Amount) : Recovered a ↔ printedUnits a = a.units.toInt := by
  obtain ⟨hlow, hhigh⟩ := printedUnits_range a
  rw [Recovered, parseAmount_formatAmount, Option.some.injEq]
  constructor
  · intro h
    have hunits := congrArg (fun b : Amount => b.units.toInt) h
    rwa [Int64.toInt_ofInt_of_le hlow hhigh] at hunits
  · intro h
    rw [h, Int64.ofInt_toInt]

theorem major_eq (a : Amount) : major a = (printedUnits a).tdiv (perMajor a) := by
  have hneg := major_neg_iff a
  have habs := natAbs_major a
  rw [printedUnits]
  split
  next => rfl
  next h =>
    rw [← Int.ofNat_tdiv, ← habs]
    omega

theorem frac_eq (a : Amount) : frac a = (printedUnits a).natAbs % perMajor a := by
  rw [printedUnits, frac]
  split <;> rfl

/-- Two amounts print alike exactly when they are of one currency and the number
that is printed is the same. -/
theorem formatAmount_eq_iff (a b : Amount) : formatAmount a = formatAmount b ↔
    a.currency = b.currency ∧ printedUnits a = printedUnits b := by
  constructor
  · intro h
    have hread := readAmount_formatAmount a
    rw [h, readAmount_formatAmount, Option.some.injEq, Prod.mk.injEq] at hread
    obtain ⟨hvalue, hcurrency⟩ := hread
    have hper : perMajor b = perMajor a := by rw [perMajor, perMajor, hcurrency]
    have hpos : (perMajor a : ℚ) ≠ 0 := Nat.cast_ne_zero.mpr (perMajor_pos a).ne'
    rw [hper, div_left_inj' hpos, Int.cast_inj] at hvalue
    exact ⟨hcurrency.symm, hvalue.symm⟩
  · rintro ⟨hcurrency, hprinted⟩
    have hper : perMajor a = perMajor b := by rw [perMajor, perMajor, hcurrency]
    have hmajor : major a = major b := by rw [major_eq, major_eq, hprinted, hper]
    have hfrac : frac a = frac b := by rw [frac_eq, frac_eq, hprinted, hper]
    apply String.toList_inj.mp
    rw [toList_formatAmount, toList_formatAmount, numberChars, numberChars, fracDigits, fracDigits,
      hcurrency, hper, hmajor, hfrac]

theorem printedAlone_iff (a : Amount) : PrintedAlone a ↔
    a.units.toInt = 0 ∨ perMajor a ≤ a.units.toInt.natAbs := by
  have hsmall : perMajor a ≤ 100 := by
    rcases perMajor_cases a with ⟨h, -⟩ | ⟨h, -⟩ <;> omega
  constructor
  · intro h
    by_contra hno
    rw [not_or] at hno
    have hneg : (Int64.ofInt (-a.units.toInt)).toInt = -a.units.toInt :=
      Int64.toInt_ofInt_of_le (by omega) (by omega)
    have hprinted : printedUnits ⟨Int64.ofInt (-a.units.toInt), a.currency⟩ = printedUnits a := by
      have hper : perMajor ⟨Int64.ofInt (-a.units.toInt), a.currency⟩ = perMajor a := rfl
      rw [printedUnits, printedUnits, hneg, hper]
      split <;> split <;> omega
    have heq := h ⟨Int64.ofInt (-a.units.toInt), a.currency⟩ ((formatAmount_eq_iff _ _).mpr ⟨rfl, hprinted⟩)
    have hunits := congrArg (fun b : Amount => b.units.toInt) heq
    rw [hneg] at hunits
    omega
  · intro h b hb
    obtain ⟨hcurrency, hprinted⟩ := (formatAmount_eq_iff b a).mp hb
    have hper : perMajor b = perMajor a := by rw [perMajor, perMajor, hcurrency]
    rw [printedUnits, printedUnits, hper] at hprinted
    have hunits : b.units.toInt = a.units.toInt := by
      have hpos := perMajor_pos a
      split at hprinted <;> split at hprinted <;> omega
    obtain ⟨units, currency⟩ := b
    obtain rfl := Int64.toInt_inj.mp hunits
    obtain rfl := hcurrency
    rfl

/-- An amount is printed without loss exactly when it is zero or at least a whole
major unit, and is misread exactly between minus one major unit and zero. -/
theorem formatAmount_faithful (a : Amount) :
    (Faithful a ↔ a.units.toInt = 0 ∨ perMajor a ≤ a.units.toInt.natAbs) ∧
    (Denotes a ∧ Recovered a ↔ 0 ≤ a.units.toInt ∨ a.units.toInt ≤ -perMajor a) ∧
    (∀ b, Denotes a ∧ Denotes b ∧ formatAmount a = formatAmount b → a = b) := by
  refine ⟨?_, ?_, ?_⟩
  · rw [← printedAlone_iff]
    refine ⟨fun h => h.alone, fun h => ?_⟩
    have hprinted : printedUnits a = a.units.toInt := by
      have hcase := (printedAlone_iff a).mp h
      rw [printedUnits_eq_iff]
      omega
    exact ⟨(denotes_iff a).mpr hprinted, (recovered_iff a).mpr hprinted, h⟩
  · rw [denotes_iff, recovered_iff, and_self, printedUnits_eq_iff]
  · rintro b ⟨ha, hb, h⟩
    obtain ⟨hcurrency, hprinted⟩ := (formatAmount_eq_iff a b).mp h
    rw [(denotes_iff a).mp ha, (denotes_iff b).mp hb] at hprinted
    obtain ⟨units, currency⟩ := a
    obtain rfl := Int64.toInt_inj.mp hprinted
    obtain rfl := hcurrency
    rfl

/-- Fifty cents owed and fifty cents due are printed as one text. -/
theorem formatAmount_sign_lost : formatAmount ⟨-50, .USD⟩ = "0.50 USD" ∧
    formatAmount ⟨50, .USD⟩ = "0.50 USD" ∧ ¬ ∀ a, Faithful a := by
  refine ⟨by decide, by decide, ?_⟩
  intro h
  have halone := (h ⟨50, .USD⟩).alone ⟨-50, .USD⟩ (by decide)
  exact absurd halone (by decide)

end Faithfulness

end AiterCommerce.Guarantees.Printed

import Mathlib.Algebra.Ring.Int.Defs

namespace AiterCommerce.Machine

def toI64 (x : Int) : Option Int64 :=
  if -2 ^ 63 ≤ x ∧ x < 2 ^ 63 then some (Int64.ofInt x) else none

def Fits (x : Int) : Prop := -2 ^ 63 ≤ x ∧ x < 2 ^ 63

instance (x : Int) : Decidable (Fits x) := inferInstanceAs (Decidable (_ ∧ _))

def checkedAdd (a b : Int64) : Option Int64 := toI64 (a.toInt + b.toInt)

def checkedSub (a b : Int64) : Option Int64 := toI64 (a.toInt - b.toInt)

/-- Multiplication at 128 bits, whose operands are given by their values. -/
def checkedMul128 (a b : Int) : Option Int :=
  if -2 ^ 127 ≤ a * b ∧ a * b < 2 ^ 127 then some (a * b) else none

theorem toI64_eq_some {x : Int} {y : Int64} : toI64 x = some y ↔ y.toInt = x := by
  constructor
  · intro h
    rw [toI64] at h
    split at h
    next hx => cases h; exact Int64.toInt_ofInt_of_le hx.1 hx.2
    next => cases h
  · rintro rfl
    rw [toI64, if_pos ⟨y.le_toInt, y.toInt_lt⟩, Int64.ofInt_toInt]

theorem toI64_isSome {x : Int} : (toI64 x).isSome ↔ -2 ^ 63 ≤ x ∧ x < 2 ^ 63 := by
  rw [toI64]
  split <;> simp_all

theorem fits_toInt (x : Int64) : Fits x.toInt := ⟨x.le_toInt, x.toInt_lt⟩

theorem toInt_ofInt_of_fits {x : Int} (h : Fits x) : (Int64.ofInt x).toInt = x :=
  Int64.toInt_ofInt_of_le h.1 h.2

theorem bind_eq_ok {E A B : Type} {x : Except E A} {f : A → Except E B} {b : B} :
    x >>= f = .ok b ↔ ∃ a, x = .ok a ∧ f a = .ok b := by
  cases x with
  | error e => simp [bind, Except.bind]
  | ok a => simp [bind, Except.bind]

/-- A 64-bit and a 32-bit factor never leave the 128-bit range. -/
theorem checkedMul128_eq (a : Int64) (q : UInt32) :
    checkedMul128 a.toInt q.toNat = some (a.toInt * q.toNat) := by
  have hl := a.le_toInt
  have hu := a.toInt_lt
  have hq : (q.toNat : Int) < 2 ^ 32 := by exact_mod_cast q.toNat_lt
  have hq0 : (0 : Int) ≤ q.toNat := Int.natCast_nonneg _
  have h1 : a.toInt * q.toNat ≤ 2 ^ 63 * (q.toNat : Int) :=
    Int.mul_le_mul_of_nonneg_right (Int.le_of_lt hu) hq0
  have h2 : -2 ^ 63 * (q.toNat : Int) ≤ a.toInt * q.toNat :=
    Int.mul_le_mul_of_nonneg_right hl hq0
  rw [checkedMul128, if_pos]
  constructor <;> omega

theorem toInt_add_of_lt {a b : Int64} (hl : -2 ^ 63 ≤ a.toInt + b.toInt)
    (hu : a.toInt + b.toInt < 2 ^ 63) : (a + b).toInt = a.toInt + b.toInt := by
  rw [Int64.toInt_add]
  exact Int.bmod_eq_of_le (by omega) (by omega)

theorem toInt_sub_of_le {a b : Int64} (hl : -2 ^ 63 ≤ a.toInt - b.toInt)
    (hu : a.toInt - b.toInt < 2 ^ 63) : (a - b).toInt = a.toInt - b.toInt := by
  rw [Int64.toInt_sub]
  exact Int.bmod_eq_of_le (by omega) (by omega)

/-- A sum of 64-bit values above their range wraps to a negative one. -/
theorem toInt_add_neg_of_ge {a b : Int64} (h : 2 ^ 63 ≤ a.toInt + b.toInt) :
    (a + b).toInt < 0 := by
  have ha := a.toInt_lt
  have hb := b.toInt_lt
  rw [Int64.toInt_add, Int.bmod_def]
  split <;> omega

end AiterCommerce.Machine

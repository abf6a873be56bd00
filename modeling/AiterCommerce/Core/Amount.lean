import AiterCommerce.Machine.Checked

namespace AiterCommerce.Core

open Machine

inductive Currency
  | USD | EUR | GBP | JPY | INR | CAD | AUD | CHF | CNY | KRW
  deriving DecidableEq

namespace Currency

def code : Currency → String
  | USD => "USD"
  | EUR => "EUR"
  | GBP => "GBP"
  | JPY => "JPY"
  | INR => "INR"
  | CAD => "CAD"
  | AUD => "AUD"
  | CHF => "CHF"
  | CNY => "CNY"
  | KRW => "KRW"

def minorUnitExponent : Currency → Nat
  | JPY | KRW => 0
  | _ => 2

def all : List Currency := [USD, EUR, GBP, JPY, INR, CAD, AUD, CHF, CNY, KRW]

def ofCode (code : String) : Option Currency := all.find? (fun c => c.code = code)

theorem ofCode_code (c : Currency) : ofCode c.code = some c := by
  cases c <;> rfl

end Currency

/-- Money in minor units of one currency. The units are a signed 64-bit value. -/
structure Amount where
  units : Int64
  currency : Currency
  deriving DecidableEq

inductive AmountError
  | overflow
  | crossCurrencyMismatch
  deriving DecidableEq

def AmountError.debug : AmountError → String
  | overflow => "Overflow"
  | crossCurrencyMismatch => "CrossCurrencyMismatch"

namespace Amount

def zero (currency : Currency) : Amount := ⟨0, currency⟩

def isNegative (a : Amount) : Bool := decide (a.units < 0)

def requireSameCurrency (a b : Amount) : Except AmountError Unit :=
  if a.currency = b.currency then .ok () else .error .crossCurrencyMismatch

def add (a b : Amount) : Except AmountError Amount := do
  requireSameCurrency a b
  match checkedAdd a.units b.units with
  | some units => .ok ⟨units, a.currency⟩
  | none => .error .overflow

def sub (a b : Amount) : Except AmountError Amount := do
  requireSameCurrency a b
  match checkedSub a.units b.units with
  | some units => .ok ⟨units, a.currency⟩
  | none => .error .overflow

/-- The product is taken at 128 bits and then narrowed. -/
def mulByQuantity (a : Amount) (quantity : UInt32) : Except AmountError Amount :=
  match (checkedMul128 a.units.toInt quantity.toNat).bind toI64 with
  | some units => .ok ⟨units, a.currency⟩
  | none => .error .overflow

theorem add_eq_ok {a b c : Amount} : a.add b = .ok c ↔
    a.currency = b.currency ∧ c.currency = a.currency ∧
      c.units.toInt = a.units.toInt + b.units.toInt := by
  simp only [add, requireSameCurrency, checkedAdd]
  split
  next h =>
    cases hx : toI64 (a.units.toInt + b.units.toInt) with
    | none =>
        have hn : ∀ c : Int64, c.toInt ≠ a.units.toInt + b.units.toInt := fun c hc => by
          simp [toI64_eq_some.mpr hc] at hx
        simp [bind, Except.bind, h, hn]
    | some u =>
        rw [toI64_eq_some] at hx
        obtain ⟨cu, cc⟩ := c
        simp only [bind, Except.bind, Except.ok.injEq, Amount.mk.injEq, h, true_and, ← hx,
          Int64.toInt_inj]
        rw [and_comm, eq_comm, eq_comm (a := u)]
  next h => simp [bind, Except.bind, h]

theorem mulByQuantity_eq_ok {a c : Amount} {q : UInt32} : a.mulByQuantity q = .ok c ↔
    c.currency = a.currency ∧ c.units.toInt = a.units.toInt * q.toNat := by
  simp only [mulByQuantity, checkedMul128_eq, Option.bind_some]
  cases hx : toI64 (a.units.toInt * q.toNat) with
  | none =>
      have hn : ∀ c : Int64, c.toInt ≠ a.units.toInt * q.toNat := fun c hc => by
        simp [toI64_eq_some.mpr hc] at hx
      simp [hn]
  | some u =>
      rw [toI64_eq_some] at hx
      obtain ⟨cu, cc⟩ := c
      simp only [Except.ok.injEq, Amount.mk.injEq, ← hx, Int64.toInt_inj]
      rw [and_comm, eq_comm, eq_comm (a := u)]

/-- Amounts of one currency can only fail to add up by leaving the 64 bits. -/
theorem add_error {a b : Amount} {e : AmountError} (hc : a.currency = b.currency)
    (h : a.add b = .error e) : e = .overflow := by
  rw [add, requireSameCurrency, if_pos hc] at h
  simp only [bind, Except.bind] at h
  split at h
  · cases h
  · exact (Except.error.inj h).symm

theorem mulByQuantity_error {a : Amount} {q : UInt32} {e : AmountError}
    (h : a.mulByQuantity q = .error e) : e = .overflow := by
  rw [mulByQuantity] at h
  split at h
  · cases h
  · exact (Except.error.inj h).symm

theorem isNegative_iff (a : Amount) : a.isNegative = true ↔ a.units.toInt < 0 := by
  simp [isNegative, Int64.lt_iff_toInt_lt]

end Amount

end AiterCommerce.Core

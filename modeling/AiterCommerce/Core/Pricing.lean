import AiterCommerce.Core.Cart
import Mathlib.Algebra.Order.BigOperators.Group.List
import Mathlib.Algebra.Order.Ring.Int

namespace AiterCommerce.Core

open Machine

inductive PricingError
  | amount (e : AmountError)
  | missingPrice (productId : String)
  deriving DecidableEq

def PricingError.debug (quoted : String → String) : PricingError → String
  | amount e => "Amount(" ++ e.debug ++ ")"
  | missingPrice productId => "MissingPrice(" ++ quoted productId ++ ")"

structure Totals where
  subtotal : Amount
  tax : Amount
  total : Amount
  deriving DecidableEq

abbrev TaxCalculator := Amount → Except PricingError Amount

def noTax : TaxCalculator := fun subtotal => .ok (Amount.zero subtotal.currency)

def liftAmount {α : Type} (x : Except AmountError α) : Except PricingError α :=
  x.mapError .amount

def lineTotal (quantity : UInt32) (unitPrice : Amount) : Except PricingError Amount :=
  liftAmount (unitPrice.mulByQuantity quantity)

def addLine (priceOf : String → Option Amount) (total : Amount) (item : LineItem) :
    Except PricingError Amount :=
  match priceOf item.productId with
  | none => .error (.missingPrice item.productId)
  | some price => do
      let line ← lineTotal item.quantity price
      liftAmount (total.add line)

def cartSubtotal (cart : Cart) (priceOf : String → Option Amount) : Except PricingError Amount :=
  cart.items.foldlM (addLine priceOf) (Amount.zero cart.currency)

def computeTotals (cart : Cart) (priceOf : String → Option Amount) (tax : TaxCalculator) :
    Except PricingError Totals := do
  let subtotal ← cartSubtotal cart priceOf
  let taxAmount ← tax subtotal
  let total ← liftAmount (subtotal.add taxAmount)
  return ⟨subtotal, taxAmount, total⟩

def exactSubtotal (priceOf : String → Option Amount) (items : List LineItem) : Int :=
  (items.map (fun li => ((priceOf li.productId).elim 0 (·.units.toInt)) * li.quantity.toNat)).sum

def exactLine (priceOf : String → Option Amount) (item : LineItem) : Int :=
  ((priceOf item.productId).elim 0 (·.units.toInt)) * item.quantity.toNat

def PricedIn (priceOf : String → Option Amount) (currency : Currency) (items : List LineItem) :
    Prop :=
  ∀ li ∈ items, ∃ price, priceOf li.productId = some price ∧ price.currency = currency

variable {priceOf : String → Option Amount}

theorem liftAmount_eq_ok {α : Type} {x : Except AmountError α} {a : α} :
    liftAmount x = .ok a ↔ x = .ok a := by
  cases x <;> simp [liftAmount, Except.mapError]

theorem exactSubtotal_cons (item : LineItem) (items : List LineItem) :
    exactSubtotal priceOf (item :: items) =
      exactLine priceOf item + exactSubtotal priceOf items := by
  rw [exactSubtotal, List.map_cons, List.sum_cons]
  rfl

theorem pricedIn_cons {currency : Currency} {item : LineItem} {items : List LineItem} :
    PricedIn priceOf currency (item :: items) ↔
      (∃ price, priceOf item.productId = some price ∧ price.currency = currency) ∧
        PricedIn priceOf currency items := List.forall_mem_cons

theorem addLine_eq_ok {total c : Amount} {item : LineItem} : addLine priceOf total item = .ok c ↔
    (∃ price, priceOf item.productId = some price ∧ price.currency = total.currency) ∧
      Fits (exactLine priceOf item) ∧ c.currency = total.currency ∧
        c.units.toInt = total.units.toInt + exactLine priceOf item := by
  rw [addLine, exactLine]
  cases hp : priceOf item.productId with
  | none => simp
  | some price =>
      simp only [lineTotal, bind_eq_ok, liftAmount_eq_ok, Amount.mulByQuantity_eq_ok,
        Amount.add_eq_ok, Option.elim_some, Option.some.injEq, exists_eq_left']
      constructor
      · rintro ⟨line, ⟨hlc, hlu⟩, hc, hcc, hcu⟩
        exact ⟨hlc.symm.trans hc.symm, hlu ▸ fits_toInt line.units, hcc, by rw [hcu, hlu]⟩
      · rintro ⟨hpc, hfits, hcc, hcu⟩
        have hline := toInt_ofInt_of_fits hfits
        exact ⟨⟨Int64.ofInt _, price.currency⟩, ⟨rfl, hline⟩, hpc.symm, hcc, by rw [hcu, hline]⟩

theorem addLine_ok {total c : Amount} {item : LineItem} (h : addLine priceOf total item = .ok c) :
    ∃ price, priceOf item.productId = some price ∧ price.currency = total.currency ∧
      c.currency = total.currency ∧
      c.units.toInt = total.units.toInt + price.units.toInt * item.quantity.toNat := by
  obtain ⟨⟨price, hp, hpc⟩, -, hc, hu⟩ := addLine_eq_ok.mp h
  rw [exactLine, hp] at hu
  exact ⟨price, hp, hpc, hc, hu⟩

/-- The loop adds up exactly, over lines priced in its currency, and comes through when
every line and every sum on the way has 64 bits. -/
theorem foldlM_addLine_eq_ok {items : List LineItem} {total c : Amount} :
    items.foldlM (addLine priceOf) total = .ok c ↔
      PricedIn priceOf total.currency items ∧ (∀ li ∈ items, Fits (exactLine priceOf li)) ∧
        (∀ n, Fits (total.units.toInt + exactSubtotal priceOf (items.take n))) ∧
        c.currency = total.currency ∧
          c.units.toInt = total.units.toInt + exactSubtotal priceOf items := by
  induction items generalizing total with
  | nil =>
      simp only [List.foldlM_nil, pure, Except.pure, Except.ok.injEq, List.take_nil]
      constructor
      · rintro rfl
        exact ⟨by simp [PricedIn], by simp, by simp [exactSubtotal, fits_toInt], rfl,
          by simp [exactSubtotal]⟩
      · rintro ⟨-, -, -, hc, hu⟩
        obtain ⟨cu, cc⟩ := c
        obtain ⟨tu, tc⟩ := total
        rw [exactSubtotal, List.map_nil, List.sum_nil, add_zero] at hu
        simp only at hc hu
        rw [hc, Int64.toInt_inj.mp hu]
  | cons item items ih =>
      rw [List.foldlM_cons, bind_eq_ok, pricedIn_cons, List.forall_mem_cons, exactSubtotal_cons]
      constructor
      · rintro ⟨next, ha, hrest⟩
        obtain ⟨hprice, hline, hnc, hnu⟩ := addLine_eq_ok.mp ha
        obtain ⟨hp, hl, hs, hc, hu⟩ := ih.mp hrest
        refine ⟨⟨hprice, hnc ▸ hp⟩, ⟨hline, hl⟩, ?_, hc.trans hnc, by rw [hu, hnu, add_assoc]⟩
        intro n
        cases n with
        | zero => simp [exactSubtotal, fits_toInt]
        | succ n =>
            rw [List.take_succ_cons, exactSubtotal_cons, ← add_assoc, ← hnu]
            exact hs n
      · rintro ⟨⟨hprice, hp⟩, ⟨hline, hl⟩, hs, hc, hu⟩
        have hnext : Fits (total.units.toInt + exactLine priceOf item) := by
          have h1 := hs 1
          rwa [List.take_succ_cons, List.take_zero, exactSubtotal_cons, exactSubtotal, List.map_nil,
            List.sum_nil, add_zero] at h1
        have hnu := toInt_ofInt_of_fits hnext
        refine ⟨⟨Int64.ofInt (total.units.toInt + exactLine priceOf item), total.currency⟩,
          addLine_eq_ok.mpr ⟨hprice, hline, rfl, hnu⟩, ih.mpr ⟨hp, hl, ?_, hc, ?_⟩⟩
        · intro n
          have hn := hs (n + 1)
          rwa [List.take_succ_cons, exactSubtotal_cons, ← add_assoc, ← hnu] at hn
        · rw [hu, hnu, add_assoc]

theorem foldlM_addLine_ok {items : List LineItem} {total c : Amount}
    (h : items.foldlM (addLine priceOf) total = .ok c) :
    PricedIn priceOf total.currency items ∧ c.currency = total.currency ∧
      c.units.toInt = total.units.toInt + exactSubtotal priceOf items := by
  obtain ⟨hp, -, -, hc, hu⟩ := foldlM_addLine_eq_ok.mp h
  exact ⟨hp, hc, hu⟩

theorem computeTotals_eq_ok {cart : Cart} {tax : TaxCalculator} {t : Totals} :
    computeTotals cart priceOf tax = .ok t ↔ cartSubtotal cart priceOf = .ok t.subtotal ∧
      tax t.subtotal = .ok t.tax ∧ t.subtotal.add t.tax = .ok t.total := by
  simp only [computeTotals, bind_eq_ok, liftAmount_eq_ok, pure, Except.pure, Except.ok.injEq]
  constructor
  · rintro ⟨subtotal, hs, taxAmount, ht, total, ha, rfl⟩
    exact ⟨hs, ht, ha⟩
  · rintro ⟨hs, ht, ha⟩
    exact ⟨t.subtotal, hs, t.tax, ht, t.total, ha, rfl⟩

/-- Without tax a priced cart costs exactly the integer sum of its lines. -/
theorem computeTotals_noTax_ok {cart : Cart} {t : Totals}
    (h : computeTotals cart priceOf noTax = .ok t) :
    PricedIn priceOf cart.currency cart.items ∧ t.tax = Amount.zero cart.currency ∧
      t.total.currency = cart.currency ∧ t.total = t.subtotal ∧
      t.total.units.toInt = exactSubtotal priceOf cart.items := by
  obtain ⟨hs, ht, ha⟩ := computeTotals_eq_ok.mp h
  obtain ⟨hp, hc, hu⟩ := foldlM_addLine_ok hs
  obtain ⟨-, htc, htu⟩ := Amount.add_eq_ok.mp ha
  have htax : t.tax = Amount.zero cart.currency := (hc ▸ Except.ok.inj ht).symm
  have hzero : t.tax.units.toInt = 0 := by
    rw [htax]
    rfl
  have hsub : t.subtotal.units.toInt = exactSubtotal priceOf cart.items := by
    rw [hu]
    exact zero_add _
  rw [hzero, add_zero] at htu
  refine ⟨hp, htax, htc.trans hc, ?_, htu.trans hsub⟩
  have hunits := Int64.toInt_inj.mp htu
  rcases t with ⟨⟨su, sc⟩, tax, ⟨tu, tc⟩⟩
  simp only at htc hunits
  rw [htc, hunits]

theorem liftAmount_error {α : Type} {x : Except AmountError α} {e : PricingError}
    (h : liftAmount x = .error e) : ∃ e', x = .error e' ∧ e = .amount e' := by
  cases x with
  | error e' => exact ⟨e', rfl, (Except.error.inj h).symm⟩
  | ok a => cases h

theorem addLine_error {total : Amount} {item : LineItem} {price : Amount} {e : PricingError}
    (hp : priceOf item.productId = some price) (hc : price.currency = total.currency)
    (h : addLine priceOf total item = .error e) : e = .amount .overflow := by
  rw [addLine, hp] at h
  simp only [lineTotal, bind, Except.bind] at h
  cases hl : liftAmount (price.mulByQuantity item.quantity) with
  | error e' =>
      rw [hl] at h
      obtain ⟨e₁, hm, rfl⟩ := liftAmount_error hl
      rw [Amount.mulByQuantity_error hm] at h
      exact (Except.error.inj h).symm
  | ok line =>
      rw [hl] at h
      obtain ⟨hlc, -⟩ := Amount.mulByQuantity_eq_ok.mp (liftAmount_eq_ok.mp hl)
      obtain ⟨e₁, ha, rfl⟩ := liftAmount_error h
      rw [Amount.add_error (hc.symm.trans hlc.symm) ha]

theorem foldlM_addLine_error {items : List LineItem} {total : Amount} {e : PricingError}
    (hp : PricedIn priceOf total.currency items)
    (h : items.foldlM (addLine priceOf) total = .error e) : e = .amount .overflow := by
  induction items generalizing total with
  | nil => cases h
  | cons item items ih =>
      obtain ⟨price, hprice, hc⟩ := hp item (List.mem_cons_self ..)
      rw [List.foldlM_cons] at h
      cases ha : addLine priceOf total item with
      | error e' =>
          rw [ha] at h
          obtain rfl := Except.error.inj h
          exact addLine_error hprice hc ha
      | ok next =>
          rw [ha] at h
          obtain ⟨-, -, -, hnc, -⟩ := addLine_ok ha
          exact ih (fun li hli => hnc ▸ hp li (List.mem_cons_of_mem _ hli)) h

/-- A cart whose lines are priced in its currency can only be too dear to price. -/
theorem computeTotals_error {cart : Cart} {e : PricingError}
    (hp : PricedIn priceOf cart.currency cart.items)
    (h : computeTotals cart priceOf noTax = .error e) : e = .amount .overflow := by
  simp only [computeTotals, noTax, bind, Except.bind] at h
  cases hs : cartSubtotal cart priceOf with
  | error e' =>
      rw [hs] at h
      obtain rfl := Except.error.inj h
      exact foldlM_addLine_error hp hs
  | ok sub =>
      simp only [hs] at h
      cases ha : liftAmount (sub.add (Amount.zero sub.currency)) with
      | error e' =>
          simp only [ha] at h
          obtain rfl := Except.error.inj h
          obtain ⟨e₁, hadd, rfl⟩ := liftAmount_error ha
          have hz : sub.currency = (Amount.zero sub.currency).currency := rfl
          rw [Amount.add_error hz hadd]
      | ok total =>
          simp only [ha] at h
          cases h

theorem exactSubtotal_of_perm {items items' : List LineItem} (h : items.Perm items') :
    exactSubtotal priceOf items = exactSubtotal priceOf items' := (h.map _).sum_eq

theorem exactSubtotal_perm {items items' : List LineItem}
    (h : items.Perm (items'.filter (fun li => li.quantity ≠ 0))) :
    exactSubtotal priceOf items = exactSubtotal priceOf items' := by
  rw [exactSubtotal_of_perm h, exactSubtotal, exactSubtotal]
  clear h
  induction items' with
  | nil => rfl
  | cons li items' ih =>
      rw [List.map_cons, List.sum_cons, List.filter_cons]
      by_cases hq : li.quantity = 0
      · rw [if_neg (by simp [hq]), ih, hq]
        simp
      · rw [if_pos (by simp [hq]), List.map_cons, List.sum_cons, ih]

def NonnegPrices (priceOf : String → Option Amount) (items : List LineItem) : Prop :=
  ∀ li ∈ items, ∀ price, priceOf li.productId = some price → 0 ≤ price.units.toInt

section Nonneg

variable {items : List LineItem} (hnn : NonnegPrices priceOf items)
include hnn

theorem exactLines_nonneg : ∀ x ∈ items.map (exactLine priceOf), 0 ≤ x := by
  intro x hx
  obtain ⟨li, hli, rfl⟩ := List.mem_map.mp hx
  rw [exactLine]
  cases hp : priceOf li.productId with
  | none => simp
  | some price => exact Int.mul_nonneg (hnn li hli price hp) (Int.natCast_nonneg _)

theorem exactSubtotal_nonneg : 0 ≤ exactSubtotal priceOf items :=
  List.sum_nonneg (exactLines_nonneg hnn)

theorem exactLine_le {li : LineItem} (hli : li ∈ items) :
    exactLine priceOf li ≤ exactSubtotal priceOf items :=
  List.single_le_sum (exactLines_nonneg hnn) _ (List.mem_map_of_mem hli)

theorem exactSubtotal_take_le (n : Nat) :
    exactSubtotal priceOf (items.take n) ≤ exactSubtotal priceOf items := by
  have hsplit : exactSubtotal priceOf (items.take n) + exactSubtotal priceOf (items.drop n) =
      exactSubtotal priceOf items := by
    rw [exactSubtotal, exactSubtotal, ← List.sum_append, ← List.map_append, List.take_append_drop]
    rfl
  have hrest : 0 ≤ exactSubtotal priceOf (items.drop n) :=
    exactSubtotal_nonneg (fun li hli => hnn li (List.mem_of_mem_drop hli))
  omega

/-- Where no price is negative, a sum that fits is never left on the way to it. -/
theorem sums_fit (hfits : Fits (exactSubtotal priceOf items)) :
    (∀ li ∈ items, Fits (exactLine priceOf li)) ∧
      ∀ n, Fits (exactSubtotal priceOf (items.take n)) := by
  constructor
  · intro li hli
    have hline := exactLines_nonneg hnn _ (List.mem_map_of_mem hli)
    have hle := exactLine_le hnn hli
    exact ⟨by omega, lt_of_le_of_lt hle hfits.2⟩
  · intro n
    have htake : 0 ≤ exactSubtotal priceOf (items.take n) :=
      exactSubtotal_nonneg (fun li hli => hnn li (List.mem_of_mem_take hli))
    exact ⟨by omega, lt_of_le_of_lt (exactSubtotal_take_le hnn n) hfits.2⟩

end Nonneg

theorem cartSubtotal_eq_ok {cart : Cart} {c : Amount} : cartSubtotal cart priceOf = .ok c ↔
    PricedIn priceOf cart.currency cart.items ∧
      (∀ li ∈ cart.items, Fits (exactLine priceOf li)) ∧
      (∀ n, Fits (exactSubtotal priceOf (cart.items.take n))) ∧
      c.currency = cart.currency ∧ c.units.toInt = exactSubtotal priceOf cart.items := by
  have hz : (Amount.zero cart.currency).units.toInt = 0 := rfl
  rw [cartSubtotal, foldlM_addLine_eq_ok]
  simp only [hz, zero_add]
  exact Iff.rfl

theorem cartSubtotal_isOk_iff {cart : Cart} (hnn : NonnegPrices priceOf cart.items) :
    (∃ c, cartSubtotal cart priceOf = .ok c) ↔
      PricedIn priceOf cart.currency cart.items ∧ Fits (exactSubtotal priceOf cart.items) := by
  constructor
  · rintro ⟨c, hc⟩
    obtain ⟨hp, -, -, -, hu⟩ := cartSubtotal_eq_ok.mp hc
    exact ⟨hp, hu ▸ fits_toInt c.units⟩
  · rintro ⟨hp, hfits⟩
    obtain ⟨hlines, hsums⟩ := sums_fit hnn hfits
    exact ⟨⟨Int64.ofInt _, cart.currency⟩,
      cartSubtotal_eq_ok.mpr ⟨hp, hlines, hsums, rfl, toInt_ofInt_of_fits hfits⟩⟩

theorem computeTotals_noTax_isOk_iff {cart : Cart} :
    (∃ totals, computeTotals cart priceOf noTax = .ok totals) ↔
      ∃ c, cartSubtotal cart priceOf = .ok c := by
  constructor
  · rintro ⟨totals, h⟩
    exact ⟨totals.subtotal, (computeTotals_eq_ok.mp h).1⟩
  · rintro ⟨c, hc⟩
    refine ⟨⟨c, Amount.zero c.currency, c⟩, computeTotals_eq_ok.mpr ⟨hc, rfl, ?_⟩⟩
    exact Amount.add_eq_ok.mpr ⟨rfl, rfl, (add_zero _).symm⟩

theorem computeTotals_isOk_iff (hnn : ∀ id price, priceOf id = some price → 0 ≤ price.units.toInt)
    {cart : Cart} (hp : PricedIn priceOf cart.currency cart.items) :
    (∃ totals, computeTotals cart priceOf noTax = .ok totals) ↔
      exactSubtotal priceOf cart.items < 2 ^ 63 := by
  have hlines : NonnegPrices priceOf cart.items := fun li _ price => hnn li.productId price
  have hpos := exactSubtotal_nonneg hlines
  rw [computeTotals_noTax_isOk_iff, cartSubtotal_isOk_iff hlines]
  exact ⟨fun h => h.2.2, fun hlt => ⟨hp, by omega, hlt⟩⟩

end AiterCommerce.Core

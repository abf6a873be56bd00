import AiterCommerce.Core.Pricing

namespace AiterCommerce.Guarantees.Exact

open AiterCommerce.Core Machine

def subtotalOf (priceOf : String → Option Amount) (cart : Cart) : Amount :=
  ⟨Int64.ofInt (exactSubtotal priceOf cart.items), cart.currency⟩

/-- The hook taxes the exact subtotal in the currency of the cart, and the sum fits. -/
def Taxable (priceOf : String → Option Amount) (tax : TaxCalculator) (cart : Cart) : Prop :=
  ∃ taxAmount, tax (subtotalOf priceOf cart) = .ok taxAmount ∧
    taxAmount.currency = cart.currency ∧
      Fits (exactSubtotal priceOf cart.items + taxAmount.units.toInt)

/-- Each line is priced in the currency of the cart, and each line and each running sum
has 64 bits. -/
structure Summable (priceOf : String → Option Amount) (cart : Cart) : Prop where
  priced : PricedIn priceOf cart.currency cart.items
  lines : ∀ li ∈ cart.items, Fits (exactLine priceOf li)
  sums : ∀ n, Fits (exactSubtotal priceOf (cart.items.take n))

structure Adds (priceOf : String → Option Amount) (cart : Cart) (t : Totals) : Prop where
  subtotal : t.subtotal.units.toInt = exactSubtotal priceOf cart.items
  total : t.total.units.toInt = t.subtotal.units.toInt + t.tax.units.toInt
  subtotalCurrency : t.subtotal.currency = cart.currency
  taxCurrency : t.tax.currency = cart.currency
  totalCurrency : t.total.currency = cart.currency

variable {priceOf : String → Option Amount} {tax : TaxCalculator} {cart cart' : Cart} {t t' : Totals}

theorem cartSubtotal_ok {c : Amount} (h : cartSubtotal cart priceOf = .ok c) :
    Summable priceOf cart ∧ c = subtotalOf priceOf cart := by
  obtain ⟨hp, hl, hs, hc, hu⟩ := cartSubtotal_eq_ok.mp h
  refine ⟨⟨hp, hl, hs⟩, ?_⟩
  obtain ⟨cu, cc⟩ := c
  simp only at hc hu
  rw [subtotalOf, hc, ← hu, Int64.ofInt_toInt]

theorem Summable.fits (h : Summable priceOf cart) : Fits (exactSubtotal priceOf cart.items) := by
  have hall := h.sums cart.items.length
  rwa [List.take_length] at hall

theorem Summable.cartSubtotal (h : Summable priceOf cart) :
    cartSubtotal cart priceOf = .ok (subtotalOf priceOf cart) :=
  cartSubtotal_eq_ok.mpr ⟨h.priced, h.lines, h.sums, rfl, toInt_ofInt_of_fits h.fits⟩

theorem isOk_iff : (∃ t, computeTotals cart priceOf tax = .ok t) ↔
    Summable priceOf cart ∧ Taxable priceOf tax cart := by
  constructor
  · rintro ⟨t, h⟩
    obtain ⟨hs, ht, ha⟩ := computeTotals_eq_ok.mp h
    obtain ⟨hsum, hsub⟩ := cartSubtotal_ok hs
    obtain ⟨hcur, -, hu⟩ := Amount.add_eq_ok.mp ha
    refine ⟨hsum, t.tax, hsub ▸ ht, ?_, ?_⟩
    · rw [← hcur, hsub]
      rfl
    · have hsubu : t.subtotal.units.toInt = exactSubtotal priceOf cart.items := by
        rw [hsub]
        exact toInt_ofInt_of_fits hsum.fits
      rw [← hsubu, ← hu]
      exact fits_toInt _
  · rintro ⟨hsum, taxAmount, ht, hcur, hfits⟩
    have hsubu : (subtotalOf priceOf cart).units.toInt = exactSubtotal priceOf cart.items :=
      toInt_ofInt_of_fits hsum.fits
    have hadd : (subtotalOf priceOf cart).add taxAmount = .ok
        ⟨Int64.ofInt (exactSubtotal priceOf cart.items + taxAmount.units.toInt), cart.currency⟩ :=
      Amount.add_eq_ok.mpr ⟨hcur.symm, rfl, by rw [hsubu]; exact toInt_ofInt_of_fits hfits⟩
    exact ⟨⟨subtotalOf priceOf cart, taxAmount, _⟩,
      computeTotals_eq_ok.mpr ⟨hsum.cartSubtotal, ht, hadd⟩⟩

theorem adds_of_ok (h : computeTotals cart priceOf tax = .ok t) : Adds priceOf cart t := by
  obtain ⟨hs, -, ha⟩ := computeTotals_eq_ok.mp h
  obtain ⟨-, -, -, hsc, hsu⟩ := cartSubtotal_eq_ok.mp hs
  obtain ⟨hcur, htc, htu⟩ := Amount.add_eq_ok.mp ha
  exact ⟨hsu, htu, hsc, hcur.symm.trans hsc, htc.trans hsc⟩

section Permuted

variable (hc : cart.currency = cart'.currency) (hperm : cart.items.Perm cart'.items)
include hc hperm

theorem subtotalOf_perm : subtotalOf priceOf cart = subtotalOf priceOf cart' := by
  rw [subtotalOf, exactSubtotal_of_perm hperm, hc]
  rfl

theorem taxable_perm : Taxable priceOf tax cart ↔ Taxable priceOf tax cart' := by
  rw [Taxable, Taxable, subtotalOf_perm hc hperm, hc, exactSubtotal_of_perm hperm]

theorem pricedIn_perm :
    PricedIn priceOf cart.currency cart.items ↔ PricedIn priceOf cart'.currency cart'.items := by
  rw [hc]
  exact forall_congr' fun li => imp_congr_left hperm.mem_iff

theorem subtotal_perm (h : computeTotals cart priceOf tax = .ok t)
    (h' : computeTotals cart' priceOf tax = .ok t') : t.subtotal = t'.subtotal := by
  rw [(cartSubtotal_ok (computeTotals_eq_ok.mp h).1).2,
    (cartSubtotal_ok (computeTotals_eq_ok.mp h').1).2, subtotalOf_perm hc hperm]

end Permuted

theorem summable_iff_of_nonneg (hnn : NonnegPrices priceOf cart.items) :
    Summable priceOf cart ↔
      PricedIn priceOf cart.currency cart.items ∧ Fits (exactSubtotal priceOf cart.items) := by
  constructor
  · intro h
    exact ⟨h.priced, h.fits⟩
  · rintro ⟨hp, hfits⟩
    obtain ⟨hlines, hsums⟩ := sums_fit hnn hfits
    exact ⟨hp, hlines, hsums⟩

/-- Pricing comes through exactly when nothing leaves the currency or the 64 bits, and
then it is exact. The order of the lines has no say in the subtotal, nor, where no price
is negative, in whether there is one. -/
theorem pricing_exact (cart : Cart) (priceOf : String → Option Amount) (tax : TaxCalculator) :
    ((∃ t, computeTotals cart priceOf tax = .ok t) ↔
      Summable priceOf cart ∧ Taxable priceOf tax cart) ∧
    (∀ t, computeTotals cart priceOf tax = .ok t → Adds priceOf cart t) ∧
    (∀ cart' : Cart, cart.currency = cart'.currency → cart.items.Perm cart'.items →
      (∀ t t', computeTotals cart priceOf tax = .ok t → computeTotals cart' priceOf tax = .ok t' →
        t.subtotal = t'.subtotal) ∧
      (NonnegPrices priceOf cart.items →
        ((∃ t, computeTotals cart priceOf tax = .ok t) ↔
          ∃ t, computeTotals cart' priceOf tax = .ok t))) ∧
    (NonnegPrices priceOf cart.items →
      ((∃ t, computeTotals cart priceOf tax = .ok t) ↔
        PricedIn priceOf cart.currency cart.items ∧ Fits (exactSubtotal priceOf cart.items) ∧
          Taxable priceOf tax cart) ∧
      ((∃ t, computeTotals cart priceOf noTax = .ok t) ↔
        PricedIn priceOf cart.currency cart.items ∧
          Fits (exactSubtotal priceOf cart.items))) := by
  refine ⟨isOk_iff, fun t => adds_of_ok, fun cart' hc hperm => ⟨fun t t' => subtotal_perm hc hperm, ?_⟩,
    fun hnn => ⟨?_, ?_⟩⟩
  · intro hnn
    have hnn' : NonnegPrices priceOf cart'.items :=
      fun li hli => hnn li (hperm.mem_iff.mpr hli)
    rw [isOk_iff, isOk_iff, summable_iff_of_nonneg hnn, summable_iff_of_nonneg hnn',
      pricedIn_perm hc hperm, taxable_perm hc hperm, exactSubtotal_of_perm hperm]
  · rw [isOk_iff, summable_iff_of_nonneg hnn, and_assoc]
  · rw [computeTotals_noTax_isOk_iff, cartSubtotal_isOk_iff hnn]

end AiterCommerce.Guarantees.Exact

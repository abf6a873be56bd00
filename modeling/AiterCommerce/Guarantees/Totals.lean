import AiterCommerce.Server.System

namespace AiterCommerce.Guarantees.Totals

open AiterCommerce.Core Concurrent Server

/-- The answer shows totals, and as long as the cart is stored as it is and not
cancelled, no snapshot of it fails on its price. -/
def Priceable (st : AppState) (resp : CartResponse) (d : Data) : Prop :=
  resp.totals.isSome ∧ ∀ d' : Data, d'.carts.get resp.id = d.carts.get resp.id →
    resp.id ∉ d'.cancelledCarts → ∀ fulfillment now e,
      ((createCheckoutSession st ⟨resp.id, fulfillment⟩ now).run Op.exec d').1 ≠
        .error (.pricing e)

variable {st : AppState} {items : List LineItem} {resp : CartResponse} {d : Data}

theorem priceable_iff_of_accepted (hst : st.Valid) (h : Accepted st items resp d) :
    Priceable st resp d ↔ exactSubtotal st.priceOf (Cart.lastEntries items) < 2 ^ 63 := by
  rw [← h.settled.computeTotals_isOk_iff hst]
  constructor
  · rintro ⟨hsome, -⟩
    rw [h.totals] at hsome
    cases ht : computeTotals resp.cart st.priceOf noTax with
    | error e =>
        rw [ht] at hsome
        cases hsome
    | ok totals => exact ⟨totals, rfl⟩
  · rintro ⟨totals, ht⟩
    refine ⟨by rw [h.totals, ht]; rfl, fun d' hd hopen fulfillment now e herr => ?_⟩
    have hcart : d'.carts.get resp.id = some resp.cart := hd.trans h.stored
    have hnone : computeTotals resp.cart st.priceOf noTax = .error e :=
      (createCheckoutSession_run_pricing hcart hopen).mp herr
    rw [ht] at hnone
    cases hnone

/-- An accepted cart has totals and can be snapshotted exactly when the sum of
its last entries, at catalog prices, is below 2⁶³. -/
theorem priceable_iff_fits (hst : st.Valid) (d : Data) :
    (∀ body resp d', (createCart st body).run Op.exec d = (.ok resp, d') →
      (Priceable st resp d' ↔ exactSubtotal st.priceOf (Cart.lastEntries body.items) < 2 ^ 63)) ∧
    ∀ id items resp d', (updateCart st id items).run Op.exec d = (.ok resp, d') →
      (Priceable st resp d' ↔ exactSubtotal st.priceOf (Cart.lastEntries items) < 2 ^ 63) :=
  ⟨fun _ _ _ h => priceable_iff_of_accepted hst (createCart_run_ok h),
    fun _ _ _ _ h => priceable_iff_of_accepted hst (updateCart_run_ok h)⟩

def jetShop : AppState := ⟨[⟨"p-1", "Jet", ⟨Int64.maxValue, .USD⟩, "", [], none, 10, none⟩], none⟩

theorem jetShop_valid : jetShop.Valid := by
  intro p hp
  obtain rfl := List.mem_singleton.mp hp
  decide

/-- Two of them make a cart that is accepted without totals. -/
theorem jets_without_totals : ¬ ∀ (st : AppState) (d : Data), st.Valid → ∀ body resp d',
    (createCart st body).run Op.exec d = (.ok resp, d') → Priceable st resp d' := by
  intro h
  have hnull : ((createCart jetShop ⟨none, [⟨"p-1", 2⟩]⟩).run Op.exec
      (Data.new Platform.bare.crypto)).1.toOption.map CartResponse.totals = some none := by
    decide +kernel
  obtain ⟨resp, hresp, htotals⟩ := Option.map_eq_some_iff.mp hnull
  cases hrun : (createCart jetShop ⟨none, [⟨"p-1", 2⟩]⟩).run Op.exec (Data.new Platform.bare.crypto) with
  | mk r d' =>
      rw [hrun] at hresp
      cases r with
      | error e => cases hresp
      | ok resp' =>
          obtain rfl := Option.some.inj hresp
          have hsome := (h jetShop _ jetShop_valid _ _ _ hrun).1
          rw [htotals] at hsome
          cases hsome

/-- One of them has a price. -/
theorem priceable_iff_fits_one : ∃ resp d', (createCart jetShop ⟨none, [⟨"p-1", 2⟩, ⟨"p-1", 1⟩]⟩).run
    Op.exec (Data.new Platform.bare.crypto) = (.ok resp, d') ∧ Priceable jetShop resp d' := by
  have hok : ((createCart jetShop ⟨none, [⟨"p-1", 2⟩, ⟨"p-1", 1⟩]⟩).run Op.exec
      (Data.new Platform.bare.crypto)).1.toOption.isSome = true := by
    decide +kernel
  cases hrun : (createCart jetShop ⟨none, [⟨"p-1", 2⟩, ⟨"p-1", 1⟩]⟩).run Op.exec
      (Data.new Platform.bare.crypto) with
  | mk r d' =>
      rw [hrun] at hok
      cases r with
      | error e => cases hok
      | ok resp =>
          refine ⟨resp, d', rfl, ?_⟩
          exact ((priceable_iff_fits jetShop_valid _).1 _ _ _ hrun).mpr (by decide +kernel)

end AiterCommerce.Guarantees.Totals

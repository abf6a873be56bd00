import AiterCommerce.Core.Serde

namespace AiterCommerce.Guarantees.Wire

open AiterCommerce.Core Encoding.Json

inductive Kind
  | currency | amount | totals
  | options | variant | product | catalog
  | lineItem | cart
  | checkoutStatus | fulfillment | session
  | orderStatus | timelineEntry | order | receipt
  | consentStatus | consent
  | signature | payTo | merchant | role | actor
  deriving DecidableEq

def Kind.Carrier : Kind → Type
  | currency => Currency
  | amount => Amount
  | totals => Totals
  | options => VariantOptions
  | variant => ProductVariant
  | product => Product
  | catalog => List Product
  | lineItem => LineItem
  | cart => Cart
  | checkoutStatus => CheckoutStatus
  | fulfillment => Fulfillment
  | session => CheckoutSession
  | orderStatus => OrderStatus
  | timelineEntry => TimelineEntry
  | order => Order
  | receipt => Receipt
  | consentStatus => ConsentStatus
  | consent => Consent
  | signature => RequestSignature
  | payTo => PayToDestination
  | merchant => MerchantProfile
  | role => ActorRole
  | actor => Actor

def Kind.format : (kind : Kind) → Format kind.Carrier
  | currency => Currency.format
  | amount => Amount.format
  | totals => Totals.format
  | options => VariantOptions.format
  | variant => ProductVariant.format
  | product => Product.format
  | catalog => Catalog.format
  | lineItem => LineItem.format
  | cart => Cart.format
  | checkoutStatus => CheckoutStatus.format
  | fulfillment => Fulfillment.format
  | session => CheckoutSession.format
  | orderStatus => OrderStatus.format
  | timelineEntry => TimelineEntry.format
  | order => Order.format
  | receipt => Receipt.format
  | consentStatus => ConsentStatus.format
  | consent => Consent.format
  | signature => RequestSignature.format
  | payTo => PayToDestination.format
  | merchant => MerchantProfile.format
  | role => ActorRole.format
  | actor => Actor.format

/-- What is written shows the value, and from whatever shows a value it is read back: the members
of objects in any order, members that are no fields among them, each default and each absent
option written or left out. No two values are ever shown in the same text. -/
theorem read_back (kind : Kind) :
    (∀ w a, kind.format.Shows a (kind.format.write w a)) ∧
      ∀ a v, kind.format.Shows a v → kind.format.read v = some a ∧
        ∀ b v', kind.format.Shows b v' → v'.text = v.text → b = a := by
  refine ⟨kind.format.shows_write, fun a v h => ⟨kind.format.read_of_shows h, ?_⟩⟩
  exact fun b v' h' ht => kind.format.eq_of_text h h' ht

def large : ProductVariant := ⟨"Large", ⟨[("milk", "oat"), ("size", "L")], by decide⟩, none⟩

def largeOptions : Value := .object [("size", .string "L"), ("milk", .string "oat")]

def largeFields : List (String × Value) :=
  [("name", .string "Large"), ("options", largeOptions), ("price_adjustment", .null)]

/-- A large one from the last member to the first, with a member that is no field. -/
def largeShown : Value := .object (largeFields ++ [("sku", Value.int 7)]).reverse

theorem large_shows : ProductVariant.format.Shows large largeShown := by
  have hname : (Layout.field "name" .text ProductVariant.name).Shows large
      [("name", .string "Large")] := ⟨_, rfl, _, rfl, rfl⟩
  have hoptions : VariantOptions.format.Shows large.options largeOptions :=
    ⟨[("milk", .string "oat"), ("size", .string "L")], _, rfl, .swap _ _ _,
      .cons ⟨rfl, rfl⟩ (.cons ⟨rfl, rfl⟩ .nil)⟩
  have hfields : ProductVariant.layout.Shows large largeFields :=
    ⟨_, _, rfl, ⟨_, _, rfl, ⟨_, _, rfl, rfl, hname⟩, some largeOptions, rfl, .inr ⟨_, rfl, hoptions⟩⟩,
      some .null, rfl, .inr ⟨_, rfl, rfl⟩⟩
  exact ⟨_, _, [("sku", .int 7)], rfl, hfields, List.reverse_perm _, by decide⟩

theorem read_back_large : ProductVariant.format.read largeShown = some large ∧
    ∀ b v', ProductVariant.format.Shows b v' → v'.text = largeShown.text → b = large :=
  (read_back .variant).2 large largeShown large_shows

end AiterCommerce.Guarantees.Wire

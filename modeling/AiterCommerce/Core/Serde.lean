import AiterCommerce.Core.Catalog
import AiterCommerce.Core.Checkout
import AiterCommerce.Core.Merchant
import AiterCommerce.Core.Order
import AiterCommerce.Core.Receipt
import AiterCommerce.Core.Reserve
import AiterCommerce.Core.Signing
import AiterCommerce.Encoding.Format

namespace AiterCommerce.Core

open Encoding.Json

section Money

def Currency.format : Format Currency := .named code ofCode ofCode_code

def Amount.layout : Layout Amount Amount :=
  Layout.done Amount.mk
    |>.and (.field "units" .i64 Amount.units)
    |>.and (.field "currency" Currency.format Amount.currency)

def Amount.format : Format Amount := .record layout (fun _ => rfl)

def Totals.layout : Layout Totals Totals :=
  Layout.done Totals.mk
    |>.and (.field "subtotal" Amount.format Totals.subtotal)
    |>.and (.field "tax" Amount.format Totals.tax)
    |>.and (.field "total" Amount.format Totals.total)

def Totals.format : Format Totals := .record layout (fun _ => rfl)

end Money

section Catalog

def VariantOptions.format : Format VariantOptions :=
  (Format.sortedMap .text).map (fun es => ⟨es.val, es.property⟩)
    (fun options => ⟨options.entries, options.ordered⟩) (fun _ => rfl)

def VariantOptions.empty : VariantOptions := ⟨[], List.Pairwise.nil⟩

def ProductVariant.layout : Layout ProductVariant ProductVariant :=
  Layout.done ProductVariant.mk
    |>.and (.field "name" .text ProductVariant.name)
    |>.and (.fieldOr "options" VariantOptions.format .empty ProductVariant.options)
    |>.and (.optional "price_adjustment" Amount.format (Format.record_ne_null _ _)
      ProductVariant.priceAdjustment)

def ProductVariant.format : Format ProductVariant := .record layout (fun _ => rfl)

def Product.layout : Layout Product Product :=
  Layout.done Product.mk
    |>.and (.field "id" .text Product.id)
    |>.and (.field "title" .text Product.title)
    |>.and (.field "price" Amount.format Product.price)
    |>.and (.fieldOr "description" .text "" Product.description)
    |>.and (.fieldOr "tags" (.list .text) [] Product.tags)
    |>.and (.optional "image_url" .text Format.text_ne_null Product.imageUrl)
    |>.and (.field "available_qty" .u32 Product.availableQty)
    |>.and (.optional "variant" ProductVariant.format (Format.record_ne_null _ _) Product.variant)

def Product.format : Format Product := .record layout (fun _ => rfl)

/-- A catalog is an object of its products. -/
def Catalog.format : Format (List Product) :=
  .record (Layout.done id |>.and (.field "products" (.list Product.format) id)) (fun _ => rfl)

end Catalog

section Carts

def LineItem.layout : Layout LineItem LineItem :=
  Layout.done LineItem.mk
    |>.and (.field "product_id" .text LineItem.productId)
    |>.and (.field "quantity" .u32 LineItem.quantity)

def LineItem.format : Format LineItem := .record layout (fun _ => rfl)

def Cart.layout : Layout Cart Cart :=
  Layout.done Cart.mk
    |>.and (.field "currency" Currency.format Cart.currency)
    |>.and (.field "items" (.list LineItem.format) Cart.items)

def Cart.format : Format Cart := .record layout (fun _ => rfl)

end Carts

section Sessions

def CheckoutStatus.ofName (name : String) : Option CheckoutStatus :=
  [pending, ready, paid, cancelled, failed].find? (fun s => s.name = name)

theorem CheckoutStatus.ofName_name (s : CheckoutStatus) : ofName s.name = some s := by
  cases s <;> rfl

def CheckoutStatus.format : Format CheckoutStatus := .named name ofName ofName_name

namespace Fulfillment

def shippingFormat : Format String :=
  .record (Layout.done id |>.and (.field "address" .text id)) (fun _ => rfl)

def plain (name : String) : Option Fulfillment :=
  if name = "Pickup" then some pickup else if name = "Digital" then some digital else none

def carrying (name : String) (v : Value) : Option Fulfillment :=
  if name = "Shipping" then (shippingFormat.read v).map shipping else none

def write (w : Writer) : Fulfillment → Value
  | shipping address => .object [("Shipping", shippingFormat.write w address)]
  | pickup => .string "Pickup"
  | digital => .string "Digital"

inductive Shows : Fulfillment → Value → Prop
  | shipping {address : String} {v : Value} (h : shippingFormat.Shows address v) :
      Shows (.shipping address) (.object [("Shipping", v)])
  | pickup : Shows .pickup (.string "Pickup")
  | digital : Shows .digital (.string "Digital")

theorem shows_write (w : Writer) (f : Fulfillment) : Shows f (write w f) := by
  cases f with
  | shipping address => exact .shipping (shippingFormat.shows_write w address)
  | pickup => exact .pickup
  | digital => exact .digital

theorem read_of_shows {f : Fulfillment} {v : Value} (h : Shows f v) :
    Format.readVariant plain carrying v = some f := by
  cases h with
  | @shipping address v h =>
      have hread : carrying "Shipping" v = some (.shipping address) :=
        congrArg (Option.map Fulfillment.shipping) (shippingFormat.read_of_shows h)
      refine Format.readVariant_carrying ?_ hread
      rintro rfl
      exact Format.record_ne_null _ _ _ h
  | pickup => rfl
  | digital => rfl

def format : Format Fulfillment :=
  ⟨Shows, write, Format.readVariant plain carrying, shows_write, read_of_shows⟩

end Fulfillment

def CheckoutSession.layout : Layout CheckoutSession CheckoutSession :=
  Layout.done CheckoutSession.mk
    |>.and (.field "id" .text CheckoutSession.id)
    |>.and (.field "cart" Cart.format CheckoutSession.cart)
    |>.and (.field "currency" Currency.format CheckoutSession.currency)
    |>.and (.field "fulfillment" Fulfillment.format CheckoutSession.fulfillment)
    |>.and (.field "status" CheckoutStatus.format CheckoutSession.status)
    |>.and (.field "expires_at" .i64 CheckoutSession.expiresAt)
    |>.and (.field "totals" Totals.format CheckoutSession.totals)

def CheckoutSession.format : Format CheckoutSession := .record layout (fun _ => rfl)

end Sessions

section Orders

def OrderStatus.ofName (name : String) : Option OrderStatus :=
  [placed, confirmed, shipped, delivered, cancelled].find? (fun s => s.name = name)

theorem OrderStatus.ofName_name (s : OrderStatus) : ofName s.name = some s := by
  cases s <;> rfl

def OrderStatus.format : Format OrderStatus := .named name ofName ofName_name

def TimelineEntry.layout : Layout TimelineEntry TimelineEntry :=
  Layout.done TimelineEntry.mk
    |>.and (.field "to" OrderStatus.format TimelineEntry.toStatus)
    |>.and (.field "at" .i64 TimelineEntry.atTime)

def TimelineEntry.format : Format TimelineEntry := .record layout (fun _ => rfl)

def Order.layout : Layout Order Order :=
  Layout.done Order.mk
    |>.and (.field "id" .text Order.id)
    |>.and (.field "checkout_session_id" .text Order.checkoutSessionId)
    |>.and (.field "totals" Totals.format Order.totals)
    |>.and (.field "status" OrderStatus.format Order.status)
    |>.and (.field "timeline" (.list TimelineEntry.format) Order.timeline)
    |>.and (.optional "payment_reference" .text Format.text_ne_null Order.paymentReference)

def Order.format : Format Order := .record layout (fun _ => rfl)

def Receipt.layout : Layout Receipt Receipt :=
  Layout.done Receipt.mk
    |>.and (.field "id" .text Receipt.id)
    |>.and (.field "agent_id" .text Receipt.agentId)
    |>.and (.field "order_id" .text Receipt.orderId)
    |>.and (.field "amount" Amount.format Receipt.amount)
    |>.and (.field "issued_at" .i64 Receipt.issuedAt)

def Receipt.format : Format Receipt := .record layout (fun _ => rfl)

end Orders

section Mandates

def ConsentStatus.name : ConsentStatus → String
  | active => "Active"
  | revoked => "Revoked"

def ConsentStatus.ofName (name : String) : Option ConsentStatus :=
  [active, revoked].find? (fun s => s.name = name)

theorem ConsentStatus.ofName_name (s : ConsentStatus) : ofName s.name = some s := by
  cases s <;> rfl

def ConsentStatus.format : Format ConsentStatus := .named name ofName ofName_name

def Consent.layout : Layout Consent Consent :=
  Layout.done Consent.mk
    |>.and (.field "consent_id" .text Consent.consentId)
    |>.and (.field "user_id" .text Consent.userId)
    |>.and (.field "agent_id" .text Consent.agentId)
    |>.and (.field "spend_limit" Amount.format Consent.spendLimit)
    |>.and (.field "total_spent" Amount.format Consent.totalSpent)
    |>.and (.field "device" .text Consent.device)
    |>.and (.field "status" ConsentStatus.format Consent.status)
    |>.and (.field "created_at" .i64 Consent.createdAt)

def Consent.format : Format Consent := .record layout (fun _ => rfl)

end Mandates

section Parties

def RequestSignature.layout : Layout RequestSignature RequestSignature :=
  Layout.done RequestSignature.mk
    |>.and (.field "agent_id" .text RequestSignature.agentId)
    |>.and (.field "method" .text RequestSignature.method)
    |>.and (.field "target_uri" .text RequestSignature.targetUri)
    |>.and (.field "content_digest" .text RequestSignature.contentDigest)
    |>.and (.field "timestamp" .u64 RequestSignature.timestamp)
    |>.and (.field "signature" .text RequestSignature.signature)

def RequestSignature.format : Format RequestSignature := .record layout (fun _ => rfl)

namespace PayToDestination

def bankFormat : Format (String × String) :=
  .record (Layout.done Prod.mk
    |>.and (.field "account" .text Prod.fst)
    |>.and (.field "routing" .text Prod.snd)) (fun _ => rfl)

def carrying (name : String) (v : Value) : Option PayToDestination :=
  if name = "Wallet" then v.asStr.map wallet
  else if name = "Bank" then (bankFormat.read v).map (fun b => bank b.1 b.2)
  else none

def write (w : Writer) : PayToDestination → Value
  | wallet address => .object [("Wallet", .string address)]
  | bank account routing => .object [("Bank", bankFormat.write w (account, routing))]

inductive Shows : PayToDestination → Value → Prop
  | wallet (address : String) : Shows (.wallet address) (.object [("Wallet", .string address)])
  | bank {account routing : String} {v : Value} (h : bankFormat.Shows (account, routing) v) :
      Shows (.bank account routing) (.object [("Bank", v)])

theorem shows_write (w : Writer) (p : PayToDestination) : Shows p (write w p) := by
  cases p with
  | wallet address => exact .wallet address
  | bank account routing => exact .bank (bankFormat.shows_write w (account, routing))

theorem read_of_shows {p : PayToDestination} {v : Value} (h : Shows p v) :
    Format.readVariant (fun _ => none) carrying v = some p := by
  cases h with
  | wallet address => rfl
  | @bank account routing v h =>
      have hread : carrying "Bank" v = some (.bank account routing) :=
        congrArg (Option.map (fun b : String × String => PayToDestination.bank b.1 b.2))
          (bankFormat.read_of_shows h)
      refine Format.readVariant_carrying ?_ hread
      rintro rfl
      exact Format.record_ne_null _ _ _ h

def format : Format PayToDestination :=
  ⟨Shows, write, Format.readVariant (fun _ => none) carrying, shows_write, read_of_shows⟩

end PayToDestination

def MerchantProfile.layout : Layout MerchantProfile MerchantProfile :=
  Layout.done MerchantProfile.mk
    |>.and (.field "id" .text MerchantProfile.id)
    |>.and (.field "name" .text MerchantProfile.name)
    |>.and (.field "pay_to" PayToDestination.format MerchantProfile.payTo)
    |>.and (.optional "public_key" .text Format.text_ne_null MerchantProfile.publicKey)
    |>.and (.optional "payout_url" .text Format.text_ne_null MerchantProfile.payoutUrl)

def MerchantProfile.format : Format MerchantProfile := .record layout (fun _ => rfl)

def ActorRole.name : ActorRole → String
  | merchant => "Merchant"
  | agent => "Agent"
  | processor => "Processor"

def ActorRole.ofName (name : String) : Option ActorRole :=
  [merchant, agent, processor].find? (fun r => r.name = name)

theorem ActorRole.ofName_name (r : ActorRole) : ofName r.name = some r := by
  cases r <;> rfl

def ActorRole.format : Format ActorRole := .named name ofName ofName_name

def Actor.layout : Layout Actor Actor :=
  Layout.done Actor.mk
    |>.and (.field "id" .text Actor.id)
    |>.and (.field "role" ActorRole.format Actor.role)

def Actor.format : Format Actor := .record layout (fun _ => rfl)

end Parties

end AiterCommerce.Core

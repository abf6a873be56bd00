import AiterCommerce.Server.State

namespace AiterCommerce.Server

open AiterCommerce.Core Concurrent
open Fallible (locked mapErr okOr)

structure CreateCartRequest where
  currency : Option Currency
  items : List LineItem
  deriving DecidableEq

structure CartResponse where
  id : String
  cancelled : Bool
  cart : Cart
  totals : Option Totals
  deriving DecidableEq

/-- Totals are derived from the catalog, never stored on a cart. -/
def cartResponse (st : AppState) (id : String) (cart : Cart) (cancelled : Bool) : CartResponse :=
  ⟨id, cancelled, cart, (computeTotals cart st.priceOf noTax).toOption⟩

def validateCatalogItems (st : AppState) (currency : Currency) : List LineItem → Except ApiError Unit
  | [] => .ok ()
  | item :: items =>
      match st.priceOf item.productId with
      | none => .error (.unknownProduct item.productId)
      | some price =>
          if price.currency ≠ currency then
            .error (.currencyMismatch item.productId currency price.currency)
          else validateCatalogItems st currency items

def fillCart (currency : Currency) (items : List LineItem) : Cart :=
  items.foldl (fun cart item => cart.update item.productId item.quantity) (Cart.new currency)

def createCart (st : AppState) (body : CreateCartRequest) : Handler ApiError CartResponse := do
  let currency := body.currency.getD .USD
  mapErr (fun e => e) (validateCatalogItems st currency body.items)
  let cart := fillCart currency body.items
  let id ← genId "cart"
  mapErr .store (← locked .carts (perform (.carts (.create id cart))))
  return cartResponse st id cart false

def getCart (st : AppState) (id : String) : Handler ApiError CartResponse := do
  let cart ← okOr .notFound (← locked .carts (perform (.carts (.get id))))
  let cancelled ← locked .cancelledCarts (perform (.cartCancelled id))
  return cartResponse st id cart cancelled

/-- The store stays locked to the end, the set of cancelled carts only while it
is read. -/
def updateCart (st : AppState) (id : String) (items : List LineItem) :
    Handler ApiError CartResponse :=
  locked .carts do
    let cart ← okOr .notFound (← perform (.carts (.get id)))
    if ← locked .cancelledCarts (perform (.cartCancelled id)) then
      throw (.conflict "cart is cancelled")
    mapErr (fun e => e) (validateCatalogItems st cart.currency items)
    let updated := fillCart cart.currency items
    mapErr .store (← perform (.carts (.update id updated)))
    let cancelled ← locked .cancelledCarts (perform (.cartCancelled id))
    return cartResponse st id updated cancelled

def cancelCart (st : AppState) (id : String) : Handler ApiError CartResponse := do
  let cart ← okOr .notFound (← locked .carts (perform (.carts (.get id))))
  locked .cancelledCarts (perform (.cancelCart id))
  return cartResponse st id cart true

section Lines

variable {st : AppState} {currency : Currency} {items : List LineItem}

theorem validateCatalogItems_ok :
    validateCatalogItems st currency items = .ok () ↔ PricedIn st.priceOf currency items := by
  induction items with
  | nil => simp [validateCatalogItems, PricedIn]
  | cons item items ih =>
      rw [validateCatalogItems]
      cases hp : st.priceOf item.productId with
      | none => simp [PricedIn, hp]
      | some price =>
          dsimp only
          by_cases hc : price.currency = currency
          · rw [if_neg (not_not.mpr hc), ih]
            simp [PricedIn, hp, hc]
          · rw [if_pos hc]
            simp [PricedIn, hp, hc]

theorem fillCart_concat (item : LineItem) : fillCart currency (items ++ [item]) =
    (fillCart currency items).update item.productId item.quantity := by
  rw [fillCart, List.foldl_append]
  rfl

theorem fillCart_currency (currency : Currency) (items : List LineItem) :
    (fillCart currency items).currency = currency := by
  induction items using List.reverseRecOn with
  | nil => rfl
  | append_singleton items item ih => rw [fillCart_concat, Cart.update_currency, ih]

theorem fillCart_wellFormed (currency : Currency) (items : List LineItem) :
    (fillCart currency items).WellFormed := by
  induction items using List.reverseRecOn with
  | nil => exact Cart.wellFormed_new currency
  | append_singleton items item ih =>
      rw [fillCart_concat]
      exact ih.update _ _

theorem find_fillCart (currency : Currency) (items : List LineItem) (id : String) :
    Cart.find id (fillCart currency items).items =
      (Cart.lastEntry id items).filter (fun li => li.quantity ≠ 0) := by
  induction items using List.reverseRecOn with
  | nil => rfl
  | append_singleton items item ih =>
      rw [fillCart_concat, Cart.find_update, Cart.lastEntry_concat, ih]
      by_cases hid : id = item.productId
      · subst hid
        rw [if_pos rfl, if_pos rfl]
        by_cases hq : item.quantity = 0 <;> simp [hq, Option.filter_some]
      · rw [if_neg hid, if_neg (Ne.symm hid)]

/-- What a cart holds is what the entries of a request say last, of products
that are priced in its currency. -/
structure Settled (st : AppState) (items : List LineItem) (cart : Cart) : Prop where
  wellFormed : cart.WellFormed
  priced : PricedIn st.priceOf cart.currency cart.items
  last : ∀ li, li ∈ cart.items ↔
    Cart.lastEntry li.productId items = some li ∧ li.quantity ≠ 0

theorem settled_fillCart (h : validateCatalogItems st currency items = .ok ()) :
    Settled st items (fillCart currency items) := by
  have hwf := fillCart_wellFormed currency items
  have hlast (li : LineItem) : li ∈ (fillCart currency items).items ↔
      Cart.lastEntry li.productId items = some li ∧ li.quantity ≠ 0 := by
    rw [hwf.mem_iff, find_fillCart, Option.filter_eq_some_iff, decide_eq_true_eq]
  refine ⟨hwf, fun li hli => ?_, hlast⟩
  obtain ⟨hentry, -⟩ := (hlast li).mp hli
  rw [fillCart_currency]
  exact validateCatalogItems_ok.mp h li
    (List.mem_reverse.mp (List.mem_of_find?_eq_some hentry))

theorem Settled.perm {cart : Cart} (h : Settled st items cart) :
    cart.items.Perm ((Cart.lastEntries items).filter (fun li => li.quantity ≠ 0)) := by
  refine (List.perm_ext_iff_of_nodup h.wellFormed.distinct.of_map
    (Cart.nodup_lastEntries.filter _)).mpr (fun li => ?_)
  rw [h.last, List.mem_filter, Cart.mem_lastEntries, decide_eq_true_eq]

theorem Settled.exactSubtotal_eq {cart : Cart} (h : Settled st items cart) :
    exactSubtotal st.priceOf cart.items = exactSubtotal st.priceOf (Cart.lastEntries items) :=
  exactSubtotal_perm h.perm

theorem Settled.computeTotals_isOk_iff {cart : Cart} (h : Settled st items cart) (hst : st.Valid) :
    (∃ totals, computeTotals cart st.priceOf noTax = .ok totals) ↔
      exactSubtotal st.priceOf (Cart.lastEntries items) < 2 ^ 63 := by
  rw [← h.exactSubtotal_eq]
  exact Core.computeTotals_isOk_iff (fun _ _ hp => AppState.priceOf_nonneg hst hp) h.priced

end Lines

section Run

variable {st : AppState} {d d' : Data} {resp : CartResponse}

structure Accepted (st : AppState) (items : List LineItem) (resp : CartResponse) (d' : Data) :
    Prop where
  settled : Settled st items resp.cart
  stored : d'.carts.get resp.id = some resp.cart
  totals : resp.totals = (computeTotals resp.cart st.priceOf noTax).toOption

theorem createCart_run {body : CreateCartRequest}
    (hv : validateCatalogItems st (body.currency.getD .USD) body.items = .ok ())
    (hid : d.carts.get ("cart-" ++ toString d.nextId.toNat) = none) :
    let id := "cart-" ++ toString d.nextId.toNat
    let cart := fillCart (body.currency.getD .USD) body.items
    (createCart st body).run Op.exec d = (.ok (cartResponse st id cart false),
      { d with nextId := d.nextId + 1, carts := d.carts.insert id cart }) := by
  rw [createCart, run_mapErr_bind, hv]
  dsimp only
  rw [genId, bind_assoc, run_perform_bind, pure_bind, run_locked_perform_bind]
  have hdash : "cart" ++ "-" = "cart-" := by decide
  simp only [Op.exec, StoreOp.exec, hdash, InMemoryStore.create_of_none hid, StoreOp.written]
  rfl

theorem createCart_run_refused {body : CreateCartRequest} {e : ApiError}
    (hv : validateCatalogItems st (body.currency.getD .USD) body.items = .error e) :
    (createCart st body).run Op.exec d = (.error e, d) := by
  rw [createCart, run_mapErr_bind, hv]

theorem createCart_run_ok {body : CreateCartRequest}
    (h : (createCart st body).run Op.exec d = (.ok resp, d')) :
    Accepted st body.items resp d' := by
  obtain ⟨_, hv, h⟩ := Fallible.run_mapErr_bind_eq_ok.mp h
  rw [genId, bind_assoc, run_perform_bind, pure_bind, run_locked_perform_bind,
    Fallible.run_mapErr_bind_eq_ok] at h
  generalize "cart" ++ "-" ++ toString (UInt64.toNat (Op.fetchId.exec d).1) = id at h
  obtain ⟨_, hw, h⟩ := h
  cases h
  simp only [Op.exec, StoreOp.exec] at hw ⊢
  cases hk : d.carts.get id with
  | some old =>
      simp only [InMemoryStore.create_of_some hk, StoreOp.written] at hw
      cases hw
  | none =>
      simp only [InMemoryStore.create_of_none hk, StoreOp.written]
      exact ⟨settled_fillCart hv, InMemoryStore.get_insert_self _ _ _, rfl⟩

theorem updateCart_run_ok {id : String} {items : List LineItem}
    (h : (updateCart st id items).run Op.exec d = (.ok resp, d')) :
    Accepted st items resp d' := by
  rw [updateCart, Fallible.run_locked, run_perform_bind, Fallible.run_okOr_bind_eq_ok] at h
  obtain ⟨cart, hcart, h⟩ := h
  rw [run_locked_perform_bind] at h
  split at h
  · cases h
  · obtain ⟨_, hv, h⟩ := Fallible.run_mapErr_bind_eq_ok.mp h
    rw [run_perform_bind, Fallible.run_mapErr_bind_eq_ok] at h
    obtain ⟨_, -, h⟩ := h
    cases h
    simp only [Op.exec, StoreOp.exec, InMemoryStore.update_of_some hcart, StoreOp.written]
    exact ⟨settled_fillCart hv, InMemoryStore.get_insert_self _ _ _, rfl⟩

end Run

end AiterCommerce.Server

import AiterCommerce.Core.Amount
import Mathlib.Data.List.Nodup

namespace AiterCommerce.Core

structure LineItem where
  productId : String
  quantity : UInt32
  deriving DecidableEq

structure Cart where
  currency : Currency
  items : List LineItem
  deriving DecidableEq

inductive CartError
  | invalidQuantity
  | quantityOverflow
  deriving DecidableEq

namespace Cart

def new (currency : Currency) : Cart := ⟨currency, []⟩

def find (productId : String) (items : List LineItem) : Option LineItem :=
  items.find? (fun li => li.productId = productId)

/-- Overwrite the quantity of the first line of a product, in place. -/
def setFirst (productId : String) (quantity : UInt32) : List LineItem → List LineItem
  | [] => []
  | li :: items =>
      if li.productId = productId then { li with quantity } :: items
      else li :: setFirst productId quantity items

def add (cart : Cart) (productId : String) (quantity : UInt32) : Except CartError Cart :=
  if quantity = 0 then .error .invalidQuantity
  else match find productId cart.items with
    | some item =>
        let next := item.quantity.toNat + quantity.toNat
        if next < UInt32.size then
          .ok { cart with items := setFirst productId (UInt32.ofNat next) cart.items }
        else .error .quantityOverflow
    | none => .ok { cart with items := cart.items ++ [⟨productId, quantity⟩] }

def remove (cart : Cart) (productId : String) : Cart :=
  { cart with items := cart.items.filter (fun li => li.productId ≠ productId) }

def update (cart : Cart) (productId : String) (quantity : UInt32) : Cart :=
  if quantity = 0 then
    { cart with items := cart.items.filter (fun li => li.productId ≠ productId) }
  else match find productId cart.items with
    | some _ => { cart with items := setFirst productId quantity cart.items }
    | none => { cart with items := cart.items ++ [⟨productId, quantity⟩] }

def quantityOf (cart : Cart) (productId : String) : UInt32 :=
  ((find productId cart.items).map LineItem.quantity).getD 0

def isEmpty (cart : Cart) : Bool := cart.items.isEmpty

theorem update_currency (cart : Cart) (productId : String) (quantity : UInt32) :
    (cart.update productId quantity).currency = cart.currency := by
  rw [update]
  split
  · rfl
  · split <;> rfl

/-- Each product has one line, with a quantity. -/
structure WellFormed (cart : Cart) : Prop where
  distinct : (cart.items.map LineItem.productId).Nodup
  positive : ∀ li ∈ cart.items, li.quantity ≠ 0

def lastEntry (productId : String) (entries : List LineItem) : Option LineItem :=
  find productId entries.reverse

/-- The entries of a request that no later one overrides. -/
def lastEntries : List LineItem → List LineItem
  | [] => []
  | li :: entries =>
      if li.productId ∈ entries.map LineItem.productId then lastEntries entries
      else li :: lastEntries entries

section Lines

variable {cart : Cart} {items : List LineItem} {productId id : String} {quantity : UInt32}
  {li : LineItem}

theorem find_cons : find productId (li :: items) =
    if li.productId = productId then some li else find productId items := by
  rw [find, List.find?_cons]
  by_cases h : li.productId = productId <;> simp [h, find]

theorem productId_of_find (h : find productId items = some li) : li.productId = productId := by
  simpa using List.find?_some h

theorem map_productId_setFirst :
    (setFirst productId quantity items).map LineItem.productId = items.map LineItem.productId := by
  induction items with
  | nil => rfl
  | cons li items ih =>
      rw [setFirst]
      split
      · rfl
      · rw [List.map_cons, List.map_cons, ih]

theorem find_setFirst_ne (h : id ≠ productId) :
    find id (setFirst productId quantity items) = find id items := by
  induction items with
  | nil => rfl
  | cons li items ih =>
      rw [setFirst]
      split
      next hli => rw [find_cons, find_cons, if_neg (hli ▸ Ne.symm h), if_neg (hli ▸ Ne.symm h)]
      next => rw [find_cons, find_cons, ih]

theorem find_setFirst_self : find productId (setFirst productId quantity items) =
    (find productId items).map (fun _ => ⟨productId, quantity⟩) := by
  induction items with
  | nil => rfl
  | cons li items ih =>
      rw [setFirst, find_cons]
      split
      next hli => simp [find_cons, hli]
      next hli => rw [find_cons, if_neg hli, ih]

theorem find_remove (cart : Cart) (productId id : String) :
    find id (cart.remove productId).items = if id = productId then none else find id cart.items := by
  rw [remove, find, List.find?_filter, find]
  split
  next h => simp [h]
  next h =>
    congr 1
    funext li
    by_cases hli : li.productId = id <;> simp [hli, h]

theorem find_append_singleton : find id (items ++ [li]) =
    (find id items).or (if li.productId = id then some li else none) := by
  rw [find, List.find?_append, find]
  congr 1
  by_cases h : li.productId = id <;> simp [h]

theorem find_update (cart : Cart) (productId : String) (quantity : UInt32) (id : String) :
    find id (cart.update productId quantity).items =
      if id = productId then (if quantity = 0 then none else some ⟨productId, quantity⟩)
      else find id cart.items := by
  rw [update]
  split
  next hq => exact find_remove cart productId id
  next hq =>
    by_cases hid : id = productId
    · subst hid
      rw [if_pos rfl]
      split
      next hf => rw [find_setFirst_self, hf, Option.map_some]
      next hf => rw [find_append_singleton, hf, if_pos rfl, Option.none_or]
    · rw [if_neg hid]
      split
      · exact find_setFirst_ne hid
      · rw [find_append_singleton, if_neg (Ne.symm hid), Option.or_none]

theorem wellFormed_new (currency : Currency) : (new currency).WellFormed :=
  ⟨List.nodup_nil, by simp [new]⟩

theorem mem_setFirst (h : li ∈ setFirst productId quantity items) :
    li ∈ items ∨ li.quantity = quantity := by
  induction items with
  | nil => cases h
  | cons first items ih =>
      rw [setFirst] at h
      split at h
      · rcases List.mem_cons.mp h with rfl | h
        · exact .inr rfl
        · exact .inl (List.mem_cons_of_mem _ h)
      · rcases List.mem_cons.mp h with rfl | h
        · exact .inl (List.mem_cons_self ..)
        · exact (ih h).imp_left (List.mem_cons_of_mem _)

theorem WellFormed.remove (h : cart.WellFormed) (productId : String) :
    (cart.remove productId).WellFormed :=
  ⟨h.distinct.sublist (List.filter_sublist.map _),
    fun li hli => h.positive li (List.mem_of_mem_filter hli)⟩

theorem WellFormed.update (h : cart.WellFormed) (productId : String) (quantity : UInt32) :
    (cart.update productId quantity).WellFormed := by
  rw [Cart.update]
  split
  · exact h.remove productId
  next hq =>
    split
    · refine ⟨by rw [map_productId_setFirst]; exact h.distinct, fun li hli => ?_⟩
      rcases mem_setFirst hli with hli | hli
      · exact h.positive li hli
      · exact hli ▸ hq
    next hf =>
      refine ⟨?_, fun li hli => ?_⟩
      · rw [List.map_append, List.map_singleton]
        refine h.distinct.append (List.nodup_singleton _) (fun id hid hid' => ?_)
        obtain ⟨li, hli, rfl⟩ := List.mem_map.mp hid
        have hnone := List.find?_eq_none.mp hf li hli
        exact hnone (by simpa using hid')
      · rcases List.mem_append.mp hli with hli | hli
        · exact h.positive li hli
        · rw [List.mem_singleton.mp hli]
          exact hq

theorem remove_eq (cart : Cart) (productId : String) :
    cart.remove productId = cart.update productId 0 := rfl

theorem update_of_find_some (hq : quantity ≠ 0) (hf : find productId cart.items = some li) :
    cart.update productId quantity =
      { cart with items := setFirst productId quantity cart.items } := by
  rw [update, if_neg hq, hf]

theorem update_of_find_none (hq : quantity ≠ 0) (hf : find productId cart.items = none) :
    cart.update productId quantity =
      { cart with items := cart.items ++ [⟨productId, quantity⟩] } := by
  rw [update, if_neg hq, hf]

/-- Adding is setting the quantity to the sum, where there is one of 32 bits. -/
theorem add_eq (cart : Cart) (productId : String) (quantity : UInt32) :
    cart.add productId quantity =
      if quantity = 0 then .error .invalidQuantity
      else
        let next := (cart.quantityOf productId).toNat + quantity.toNat
        if next < UInt32.size then .ok (cart.update productId (UInt32.ofNat next))
        else .error .quantityOverflow := by
  rw [add]
  by_cases hq : quantity = 0
  · rw [if_pos hq, if_pos hq]
  rw [if_neg hq, if_neg hq]
  cases hf : find productId cart.items with
  | none =>
      have hzero : cart.quantityOf productId = 0 := by
        rw [quantityOf, hf]
        rfl
      have hsum : (0 : UInt32).toNat + quantity.toNat = quantity.toNat := Nat.zero_add _
      simp only [hzero, hsum, UInt32.ofNat_toNat, update_of_find_none hq hf]
      exact (if_pos quantity.toNat_lt).symm
  | some item =>
      have hitem : cart.quantityOf productId = item.quantity := by
        rw [quantityOf, hf]
        rfl
      simp only [hitem]
      split
      next hlt =>
        have hpos : quantity.toNat ≠ 0 := fun h => hq (UInt32.toNat_inj.mp h)
        have hne : UInt32.ofNat (item.quantity.toNat + quantity.toNat) ≠ 0 := by
          intro hz
          have hnat := congrArg UInt32.toNat hz
          rw [UInt32.toNat_ofNat_of_lt' hlt, UInt32.toNat_zero] at hnat
          omega
        rw [update_of_find_some hne hf]
      next => rfl

theorem quantityOf_update (cart : Cart) (productId : String) (quantity : UInt32) (id : String) :
    (cart.update productId quantity).quantityOf id =
      if id = productId then quantity else cart.quantityOf id := by
  rw [quantityOf, find_update]
  by_cases hid : id = productId
  · rw [if_pos hid, if_pos hid]
    split
    next hq => rw [hq]; rfl
    next => rfl
  · rw [if_neg hid, if_neg hid, quantityOf]

theorem WellFormed.mem_iff (h : cart.WellFormed) :
    li ∈ cart.items ↔ find li.productId cart.items = some li := by
  refine ⟨fun hli => ?_, List.mem_of_find?_eq_some⟩
  cases hf : find li.productId cart.items with
  | none =>
      have hne := List.find?_eq_none.mp hf li hli
      simp at hne
  | some li' =>
      have heq := List.inj_on_of_nodup_map h.distinct (List.mem_of_find?_eq_some hf) hli
        (productId_of_find hf)
      rw [heq]

theorem WellFormed.mem_productId_iff (h : cart.WellFormed) :
    id ∈ cart.items.map LineItem.productId ↔ cart.quantityOf id ≠ 0 := by
  rw [quantityOf]
  cases hf : find id cart.items with
  | none =>
      refine iff_of_false (fun hid => ?_) (fun hne => hne rfl)
      obtain ⟨li, hli, rfl⟩ := List.mem_map.mp hid
      rw [h.mem_iff.mp hli] at hf
      cases hf
  | some li =>
      have hli := List.mem_of_find?_eq_some hf
      exact iff_of_true (List.mem_map.mpr ⟨li, hli, productId_of_find hf⟩) (h.positive li hli)

theorem lastEntry_concat : lastEntry id (items ++ [li]) =
    if li.productId = id then some li else lastEntry id items := by
  rw [lastEntry, List.reverse_append, List.reverse_singleton, List.singleton_append, find_cons]
  rfl

theorem lastEntry_cons : lastEntry id (li :: items) =
    (lastEntry id items).or (if li.productId = id then some li else none) := by
  rw [lastEntry, List.reverse_cons, find_append_singleton]
  rfl

theorem lastEntry_isSome : (lastEntry id items).isSome ↔ id ∈ items.map LineItem.productId := by
  rw [lastEntry, find, List.find?_isSome]
  simp

theorem mem_lastEntries : li ∈ lastEntries items ↔ lastEntry li.productId items = some li := by
  induction items with
  | nil => simp [lastEntries, lastEntry, find]
  | cons first items ih =>
      rw [lastEntries, lastEntry_cons]
      split
      next hmem =>
        rw [ih]
        by_cases hid : first.productId = li.productId
        · obtain ⟨last, hlast⟩ := Option.isSome_iff_exists.mp (lastEntry_isSome.mpr (hid ▸ hmem))
          rw [hlast, Option.some_or]
        · rw [if_neg hid, Option.or_none]
      next hmem =>
        by_cases hid : first.productId = li.productId
        · have hnone : lastEntry li.productId items = none := by
            rw [← Option.not_isSome_iff_eq_none, lastEntry_isSome, ← hid]
            exact hmem
          rw [List.mem_cons, ih, hnone, Option.none_or, if_pos hid]
          simp [eq_comm]
        · rw [List.mem_cons, ih, if_neg hid, Option.or_none]
          refine or_iff_right (fun h => hid (by rw [h]))

theorem nodup_lastEntries : (lastEntries items).Nodup := by
  induction items with
  | nil => exact List.nodup_nil
  | cons li items ih =>
      rw [lastEntries]
      split
      · exact ih
      next hmem =>
        refine List.nodup_cons.mpr ⟨fun hli => hmem ?_, ih⟩
        rw [← lastEntry_isSome, mem_lastEntries.mp hli]
        rfl

end Lines

end Cart

end AiterCommerce.Core

import AiterCommerce.Core.Cart
import AiterCommerce.Machine.History
import Mathlib.Algebra.Ring.Nat
import Mathlib.Data.Finsupp.Single

namespace AiterCommerce.Guarantees.CartMap

open AiterCommerce.Core Machine

inductive CartOp
  | add (productId : String) (quantity : UInt32)
  | update (productId : String) (quantity : UInt32)
  | remove (productId : String)

def CartOp.productId : CartOp → String
  | add productId _ | update productId _ | remove productId => productId

def apply (cart : Cart) : CartOp → Except CartError Cart
  | .add productId quantity => cart.add productId quantity
  | .update productId quantity => .ok (cart.update productId quantity)
  | .remove productId => .ok (cart.remove productId)

/-- What a cart stands for: so many of each product, of all but finitely many none. -/
abbrev Quantities := String →₀ ℕ

noncomputable def Quantities.apply (m : Quantities) : CartOp → Except CartError Quantities
  | .add productId quantity =>
      if quantity = 0 then .error .invalidQuantity
      else if UInt32.size ≤ m productId + quantity.toNat then .error .quantityOverflow
      else .ok (m.update productId (m productId + quantity.toNat))
  | .update productId quantity => .ok (m.update productId quantity.toNat)
  | .remove productId => .ok (m.erase productId)

structure Represents (cart : Cart) (m : Quantities) : Prop where
  wellFormed : cart.WellFormed
  quantities : ∀ id, (cart.quantityOf id).toNat = m id

variable {cart : Cart} {m : Quantities}

theorem represents_new (currency : Currency) : Represents (Cart.new currency) 0 :=
  ⟨Cart.wellFormed_new currency, fun _ => rfl⟩

theorem Represents.update (h : Represents cart m) (productId : String) (quantity : UInt32) :
    Represents (cart.update productId quantity) (m.update productId quantity.toNat) where
  wellFormed := h.wellFormed.update productId quantity
  quantities id := by
    rw [Cart.quantityOf_update, Finsupp.update_apply]
    split
    · rfl
    · exact h.quantities id

theorem Represents.remove (h : Represents cart m) (productId : String) :
    Represents (cart.remove productId) (m.erase productId) := by
  rw [Cart.remove_eq, Finsupp.erase_eq_update_zero]
  exact h.update productId 0

/-- Both sides take an operation the same way, or refuse it with the same error. -/
theorem Represents.apply (h : Represents cart m) (op : CartOp) :
    (∃ e, apply cart op = .error e ∧ m.apply op = .error e) ∨
      ∃ cart' m', CartMap.apply cart op = .ok cart' ∧ m.apply op = .ok m' ∧
        Represents cart' m' := by
  cases op with
  | add productId quantity =>
      rw [CartMap.apply, Cart.add_eq, Quantities.apply]
      simp only [h.quantities productId]
      by_cases hq : quantity = 0
      · left
        rw [if_pos hq, if_pos hq]
        exact ⟨_, rfl, rfl⟩
      rw [if_neg hq, if_neg hq]
      by_cases hlt : m productId + quantity.toNat < UInt32.size
      · right
        rw [if_pos hlt, if_neg (Nat.not_le.mpr hlt)]
        refine ⟨_, _, rfl, rfl, ?_⟩
        have hsum := h.update productId (UInt32.ofNat (m productId + quantity.toNat))
        rwa [UInt32.toNat_ofNat_of_lt' hlt] at hsum
      · left
        rw [if_neg hlt, if_pos (Nat.not_lt.mp hlt)]
        exact ⟨_, rfl, rfl⟩
  | update productId quantity => exact .inr ⟨_, _, rfl, rfl, h.update productId quantity⟩
  | remove productId => exact .inr ⟨_, _, rfl, rfl, h.remove productId⟩

theorem Represents.attempt (h : Represents cart m) (op : CartOp) :
    Represents (attempt CartMap.apply cart op) (attempt Quantities.apply m op) := by
  rcases h.apply op with ⟨e, hc, hm⟩ | ⟨cart', m', hc, hm, h'⟩
  · rw [attempt_error hc, attempt_error hm]
    exact h
  · rw [attempt_ok hc, attempt_ok hm]
    exact h'

theorem represents_history (currency : Currency) (ops : List CartOp) :
    Represents (history apply (Cart.new currency) ops) (history Quantities.apply 0 ops) :=
  history_rel (represents_new currency) (fun _ _ op h => h.attempt op) ops

theorem Represents.support_eq (h : Represents cart m) :
    m.support = (cart.items.map LineItem.productId).toFinset := by
  ext id
  rw [Finsupp.mem_support_iff, List.mem_toFinset, h.wellFormed.mem_productId_iff,
    ← h.quantities id, ← UInt32.toNat_zero, UInt32.toNat_inj.ne]

theorem Represents.add_error_iff (h : Represents cart m) (productId : String) (quantity : UInt32) :
    (∃ e, cart.add productId quantity = .error e) ↔
      quantity = 0 ∨ UInt32.size ≤ m productId + quantity.toNat := by
  rw [Cart.add_eq]
  simp only [h.quantities productId]
  split
  next hq => exact iff_of_true ⟨_, rfl⟩ (.inl hq)
  next hq =>
    split
    next hlt =>
      refine iff_of_false ?_ (not_or.mpr ⟨hq, Nat.not_le.mpr hlt⟩)
      rintro ⟨e, he⟩
      cases he
    next hlt => exact iff_of_true ⟨_, rfl⟩ (.inr (Nat.not_lt.mp hlt))

theorem apply_eq_update {op : CartOp} {next : Cart} (h : apply cart op = .ok next) :
    ∃ quantity, next = cart.update op.productId quantity := by
  cases op with
  | add productId quantity =>
      rw [apply, Cart.add_eq] at h
      simp only at h
      split at h
      · cases h
      split at h
      · cases h
        exact ⟨_, rfl⟩
      · cases h
  | update productId quantity =>
      cases h
      exact ⟨quantity, rfl⟩
  | remove productId =>
      cases h
      exact ⟨0, Cart.remove_eq cart productId⟩

theorem quantityOf_attempt_of_ne (cart : Cart) (op : CartOp) {id : String} (h : op.productId ≠ id) :
    (attempt apply cart op).quantityOf id = cart.quantityOf id := by
  cases hop : apply cart op with
  | error e => rw [attempt_error hop]
  | ok next =>
      obtain ⟨quantity, rfl⟩ := apply_eq_update hop
      rw [attempt_ok hop, Cart.quantityOf_update, if_neg (Ne.symm h)]

/-- After any operations a cart has one line, not empty, for each product of the map it
stands for; adding fails exactly on nothing and on more than 32 bits can say, and no
operation touches a product it does not name. -/
theorem cart_is_map (currency : Currency) (ops : List CartOp) :
    let cart := history apply (Cart.new currency) ops
    let m := history Quantities.apply 0 ops
    (cart.items.map LineItem.productId).Nodup ∧ (∀ li ∈ cart.items, 1 ≤ li.quantity.toNat) ∧
      (∀ id, (cart.quantityOf id).toNat = m id) ∧
      m.support = (cart.items.map LineItem.productId).toFinset ∧
      (∀ id quantity, (∃ e, cart.add id quantity = .error e) ↔
        quantity = 0 ∨ UInt32.size ≤ m id + quantity.toNat) ∧
      (∀ id quantity e, cart.add id quantity = .error e →
        attempt apply cart (.add id quantity) = cart) ∧
      ∀ op id, op.productId ≠ id →
        (attempt apply cart op).quantityOf id = cart.quantityOf id := by
  intro cart m
  have h : Represents cart m := represents_history currency ops
  refine ⟨h.wellFormed.distinct, ?_, h.quantities, h.support_eq, h.add_error_iff, ?_, ?_⟩
  · intro li hli
    have hpos := h.wellFormed.positive li hli
    rw [Nat.one_le_iff_ne_zero, ← UInt32.toNat_zero, UInt32.toNat_inj.ne]
    exact hpos
  · intro id quantity e he
    exact attempt_error he
  · intro op id hid
    exact quantityOf_attempt_of_ne cart op hid

end AiterCommerce.Guarantees.CartMap

import AiterCommerce.Core.Amount

namespace AiterCommerce.Core

/-- The options of a variant with their choices, in the order of their names. -/
structure VariantOptions where
  entries : List (String × String)
  ordered : (entries.map Prod.fst).Pairwise (· < ·)
  deriving DecidableEq

structure ProductVariant where
  name : String
  options : VariantOptions
  priceAdjustment : Option Amount
  deriving DecidableEq

structure Product where
  id : String
  title : String
  price : Amount
  description : String
  tags : List String
  imageUrl : Option String
  availableQty : UInt32
  variant : Option ProductVariant
  deriving DecidableEq

inductive ProductError
  | missingId
  | negativePrice
  deriving DecidableEq

def Product.validate (p : Product) : Except ProductError Unit :=
  if p.id.isEmpty then .error .missingId
  else if p.price.isNegative then .error .negativePrice
  else .ok ()

theorem Product.price_nonneg {p : Product} (h : p.validate = .ok ()) : 0 ≤ p.price.units.toInt := by
  rw [validate] at h
  split at h
  · cases h
  · split at h
    · cases h
    next hn => rw [Amount.isNegative_iff] at hn; omega

end AiterCommerce.Core

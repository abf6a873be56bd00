import AiterCommerce.Core.Amount

namespace AiterCommerce.Core

inductive ConsentStatus
  | active | revoked
  deriving DecidableEq

/-- A mandate: the agent may draw against the limit while it is active. -/
structure Consent where
  consentId : String
  userId : String
  agentId : String
  spendLimit : Amount
  totalSpent : Amount
  device : String
  status : ConsentStatus
  createdAt : Int64
  deriving DecidableEq

namespace Consent

def new (consentId userId agentId : String) (spendLimit : Amount) (device : String)
    (createdAt : Int64) : Consent where
  consentId := consentId
  userId := userId
  agentId := agentId
  spendLimit := spendLimit
  totalSpent := Amount.zero spendLimit.currency
  device := device
  status := .active
  createdAt := createdAt

/-- A plain subtraction of 64-bit values. -/
def remaining (consent : Consent) : Int64 := consent.spendLimit.units - consent.totalSpent.units

@[simp] theorem new_consentId (consentId userId agentId : String) (spendLimit : Amount)
    (device : String) (createdAt : Int64) :
    (new consentId userId agentId spendLimit device createdAt).consentId = consentId := rfl

end Consent

end AiterCommerce.Core

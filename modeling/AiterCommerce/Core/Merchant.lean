namespace AiterCommerce.Core

/-- How a merchant is paid. -/
inductive PayToDestination
  | wallet (address : String)
  | bank (account routing : String)
  deriving DecidableEq

structure MerchantProfile where
  id : String
  name : String
  payTo : PayToDestination
  publicKey : Option String
  payoutUrl : Option String
  deriving DecidableEq

inductive ActorRole
  | merchant | agent | processor
  deriving DecidableEq

structure Actor where
  id : String
  role : ActorRole
  deriving DecidableEq

end AiterCommerce.Core

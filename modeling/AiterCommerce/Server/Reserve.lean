import AiterCommerce.Server.State

namespace AiterCommerce.Server

open AiterCommerce.Core Concurrent
open Fallible (locked mapErr okOr)

structure ConsentRequest where
  userId : String
  agentId : String
  spendLimitMinor : Int64
  currency : Option Currency
  device : String
  deriving DecidableEq

structure DebitRequest where
  consentId : String
  amountMinor : Int64
  currency : Currency
  device : String
  deriving DecidableEq

structure DebitResponse where
  consentId : String
  remaining : Int64
  deriving DecidableEq

def validatePositiveMinor (units : Int64) (field : String) : Except ApiError Unit :=
  if units ≤ 0 then
    .error (.reserve (.invalidAmount (field ++
      " must be a positive integer number of minor units, got " ++ toString units.toInt)))
  else .ok ()

def createConsent (body : ConsentRequest) (now : Int64) : Handler ApiError Consent := do
  mapErr (fun e => e) (validatePositiveMinor body.spendLimitMinor "spend_limit_minor")
  let spendLimit : Amount := ⟨body.spendLimitMinor, body.currency.getD .USD⟩
  let id ← genId "cons"
  let consent := Consent.new id body.userId body.agentId spendLimit body.device now
  mapErr .store (← locked .consents (perform (.consents (.create consent.consentId consent))))
  return consent

/-- The checks of a debit against its consent, in the order they are made. The
answer is what remains of the limit before the debit. -/
def checkDebit (consent : Consent) (confirm : Bool) (body : DebitRequest) :
    Except ApiError Int64 :=
  if consent.status ≠ .active then .error (.reserve .notActive)
  else if consent.spendLimit.currency ≠ body.currency then
    .error (.reserve (.currencyMismatch consent.spendLimit.currency))
  else if consent.remaining < body.amountMinor then
    .error (.reserve (.limitExceeded consent.remaining))
  else if body.device ≠ consent.device ∧ ¬ confirm then .error (.reserve .deviceMismatch)
  else .ok consent.remaining

def debited (consent : Consent) (amountMinor : Int64) : Consent :=
  { consent with
    totalSpent := ⟨consent.totalSpent.units + amountMinor, consent.totalSpent.currency⟩ }

def debit (confirm : Bool) (body : DebitRequest) : Handler ApiError DebitResponse := do
  mapErr (fun e => e) (validatePositiveMinor body.amountMinor "amount_minor")
  locked .consents do
    let consent ← okOr .consentNotFound (← perform (.consents (.get body.consentId)))
    let remaining ← mapErr (fun e => e) (checkDebit consent confirm body)
    let updated := debited consent body.amountMinor
    mapErr (fun _ => .consentNotFound) (← perform (.consents (.update body.consentId updated)))
    perform .reserveDebited
    return ⟨body.consentId, remaining - body.amountMinor⟩

end AiterCommerce.Server

import AiterCommerce.Server.Api
import AiterCommerce.Server.Auth
import AiterCommerce.Server.Cart
import AiterCommerce.Server.Reserve
import AiterCommerce.Server.Session

namespace AiterCommerce.Server

open AiterCommerce.Core Concurrent
open Fallible (locked Respects)

/-- What a request asks for. The readings of the clock and the answer of the
payment gateway come with it. -/
inductive Call
  | createCart (body : CreateCartRequest)
  | getCart (id : String)
  | updateCart (id : String) (items : List LineItem)
  | cancelCart (id : String)
  | createCheckoutSession (body : CreateSessionRequest) (now : Int64)
  | completeCheckout (id : String) (now issuedAt : Int64)
  | cancelCheckout (id : String)
  | createConsent (body : ConsentRequest) (now : Int64)
  | debit (confirm : Bool) (body : DebitRequest)
  | orderPaymentLink (id : String) (answer : Except RazorpayError String)
  | razorpayWebhook (signature : Option String) (body : Bytes) (now : Int64)
  | registerAgent (identity : AgentIdentity) (spendLimit : Amount)
  deriving DecidableEq

structure Request where
  agent : Option String
  call : Call
  deriving DecidableEq

inductive Reply
  | cart (r : Except ApiError CartResponse)
  | session (r : Except ApiError CheckoutSession)
  | order (r : Except ApiError Order)
  | consent (r : Except ApiError Consent)
  | debit (r : Except ApiError DebitResponse)
  | paymentLink (r : Except ApiError PaymentLinkResponse)
  | webhook (r : Except HttpError WebhookResponse)
  | registered
  deriving DecidableEq

variable {Q R : Type}

def replyTo {ε α : Type} (f : Except ε α → Reply) (m : Handler ε α) : Prog appSignature Reply :=
  Prog.bind (ExceptT.run m) (fun r => .ret (f r))

theorem run_replyTo {ε α : Type} (f : Except ε α → Reply) (m : Handler ε α) (d : Data) :
    (replyTo f m).run Op.exec d = (f (m.run Op.exec d).1, (m.run Op.exec d).2) :=
  Prog.run_bind _ _ _ _

theorem holds_replyTo {sys : System appSignature Data Q R} [DecidableEq Q] {P : Spec sys}
    {i : Name Q} {ε α : Type} {post : Reply → Shared appSignature Data Q → Prop}
    {f : Except ε α → Reply} {m : Handler ε α} {s : Shared appSignature Data Q} :
    P.Holds i post (replyTo f m) s ↔ P.Ensures i (fun r u => post (f r) u) m s := by
  rw [replyTo, Spec.holds_bind]
  rfl

def handler (ext : Platform) (st : AppState) (q : Request) : Prog appSignature Reply :=
  match q.call with
  | .createCart body => replyTo .cart (createCart st body)
  | .getCart id => replyTo .cart (getCart st id)
  | .updateCart id items => replyTo .cart (updateCart st id items)
  | .cancelCart id => replyTo .cart (cancelCart st id)
  | .createCheckoutSession body now => replyTo .session (createCheckoutSession st body now)
  | .completeCheckout id now issuedAt => replyTo .order (completeCheckout q.agent id now issuedAt)
  | .cancelCheckout id => replyTo .session (cancelCheckout id)
  | .createConsent body now => replyTo .consent (createConsent body now)
  | .debit confirm body => replyTo .debit (debit confirm body)
  | .orderPaymentLink id answer => replyTo .paymentLink (orderPaymentLink ext st id answer)
  | .razorpayWebhook signature body now =>
      replyTo .webhook (razorpayWebhook ext st signature body now)
  | .registerAgent identity spendLimit =>
      Prog.locked .agents (.op (.registerAgent identity spendLimit) (fun _ => .ret .registered))

def app (ext : Platform) (st : AppState) : System appSignature Data Request Reply :=
  ⟨Op.exec, handler ext st⟩

/-- A process with an empty environment, whose libraries accept nothing. -/
def Platform.bare : Platform where
  crypto :=
    { sha256 := id
      verifyingKey := fun key => ⟨key.seed⟩
      sign := fun _ _ => .zeros
      verify := fun _ _ _ => false
      hmacSha256 := fun _ body => body }
  readEnvelope := fun _ => .error "no JSON library"
  env := fun _ => .error .notPresent
  buildRequest := fun _ => .error "no HTTP client"

/-- One product at five dollars, and no payment settings. -/
def AppState.shop : AppState := ⟨[⟨"p-1", "Mug", ⟨500, .USD⟩, "", [], none, 10, none⟩], none⟩

def discipline (ext : Platform) (st : AppState) : Discipline (app ext st) where
  need := Op.need
  same := Lock.same
  same_refl := Lock.same_refl
  same_trans l := Lock.same_trans l
  frame := Op.frame

abbrev State := Shared appSignature Data Request

abbrev Configuration := World appSignature Data Request Reply

def Request.performs (q : Request) (o : Op) : Prop :=
  match q.call with
  | .createCart _ => o = .fetchId ∨ ∃ id cart, o = .carts (.create id cart)
  | .getCart id => o = .carts (.get id) ∨ o = .cartCancelled id
  | .updateCart id _ =>
      o = .carts (.get id) ∨ o = .cartCancelled id ∨ ∃ cart, o = .carts (.update id cart)
  | .cancelCart id => o = .carts (.get id) ∨ o = .cancelCart id
  | .createCheckoutSession body _ =>
      o = .carts (.get body.cartId) ∨ o = .cartCancelled body.cartId ∨ o = .fetchId ∨
        ∃ id session, o = .sessions (.create id session)
  | .completeCheckout id _ _ =>
      o = .orders (.get (orderKey id)) ∨ o = .sessions (.get id) ∨
        (∃ a amount, q.agent = some a ∧ o = .chargeAgent a amount) ∨
        (∃ order, o = .orders (.create (orderKey id) order)) ∨
        (∃ session, o = .sessions (.update id session)) ∨ o = .checkoutCompleted ∨
        ∃ receipt, q.agent.isSome ∧ o = .pushReceipt receipt
  | .cancelCheckout id =>
      o = .sessions (.get id) ∨ ∃ session, o = .sessions (.update id session)
  | .createConsent _ _ => o = .fetchId ∨ ∃ id consent, o = .consents (.create id consent)
  | .debit _ body =>
      o = .consents (.get body.consentId) ∨ o = .reserveDebited ∨
        ∃ consent, o = .consents (.update body.consentId consent)
  | .orderPaymentLink id _ => o = .orders (.get id) ∨ ∃ request, o = .postPaymentLink request
  | .razorpayWebhook _ _ _ =>
      o = .webhookVerified ∨ (∃ id, o = .orders (.get id)) ∨ ∃ id order, o = .orders (.update id order)
  | .registerAgent identity spendLimit => o = .registerAgent identity spendLimit

def Request.may (q : Request) (H : Set Lock) (o : Op) : Prop :=
  q.performs o ∧ ∀ l, o.need l → l ∈ H

end AiterCommerce.Server

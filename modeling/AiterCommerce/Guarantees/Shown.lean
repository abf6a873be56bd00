import AiterCommerce.Concurrent.Shell
import AiterCommerce.Guarantees.Deadlock
import AiterCommerce.Guarantees.Mediation

namespace AiterCommerce.Guarantees.Shown

open AiterCommerce.Core Concurrent Server
open Mediation (acts Signs)

variable {lib : Libraries} {st : AppState}

/-- The handlers a request calls, and for which agent: none but one whose signature of the
request verifies, where the route is a signed one, and nobody elsewhere. -/
def Calls (lib : Libraries) : Arrival → Request → Prop
  | .http request _ r, q => route lib request r = .handler q.call ∧
      (q.call.tier = .signed ∧
          (∃ agentId identity, q.agent = some agentId ∧ Signs lib request r agentId identity) ∨
        q.call.tier ≠ .signed ∧ q.agent = none)
  | .tool call, q => q = ⟨none, call⟩
  | .toolCheckout cartId now completedAt issuedAt, q =>
      q = ⟨none, .createCheckoutSession ⟨cartId, none⟩ now⟩ ∨
        ∃ id, q = ⟨none, .completeCheckout id completedAt issuedAt⟩
  | .registerAgent identity spendLimit, q => q = ⟨none, .registerAgent identity spendLimit⟩
  | .order _, _ | .auditEntries, _ => False

/-- How an answer comes from those of the handlers called, the last one first. -/
def Answers : Arrival → List (Request × Reply) → Response → Prop
  | .http _ _ _, past, .reply r => ∃ q, past = [(q, r)]
  | .http _ _ _, past, _ => past = []
  | .tool call, past, response => ∃ r, response = .reply r ∧ past = [(⟨none, call⟩, r)]
  | .toolCheckout cartId now completedAt issuedAt, past, response =>
      (∃ e, response = .checkout (.error e) ∧
        past = [(⟨none, .createCheckoutSession ⟨cartId, none⟩ now⟩, .session (.error e))]) ∨
      ∃ session r, response = .checkout r ∧
        past = [(⟨none, .completeCheckout session.id completedAt issuedAt⟩, .order r),
          (⟨none, .createCheckoutSession ⟨cartId, none⟩ now⟩, .session (.ok session))]
  | .registerAgent identity spendLimit, past, response =>
      ∃ r, response = .reply r ∧ past = [(⟨none, .registerAgent identity spendLimit⟩, r)]
  | .order _, past, _ | .auditEntries, past, _ => past = []

abbrev Around (lib : Libraries) (st : AppState) (a : Arrival) :
    List (Request × Reply) → Set Lock → Service → Prop :=
  Outside (app lib.toPlatform st) acts (Calls lib a) (Answers a)

theorem replyTo_yields {ε α : Type} {ok : Reply → Prop} (f : Except ε α → Reply)
    (m : Handler ε α) (h : ∀ x, ok (f x)) : (replyTo f m).Yields ok :=
  (Prog.yields_bind _ _).mpr (Prog.yields_of_forall h _)

theorem around_handler {a : Arrival} (agent : Option String) (call : Call)
    (hcalls : Calls lib a ⟨agent, call⟩)
    (hanswers : ∀ r, Answers a [(⟨agent, call⟩, r)] (.reply r)) :
    Around lib st a [] ∅ (answer lib st agent (.handler call)) := by
  have hyields : ((app lib.toPlatform st).handler ⟨agent, call⟩).Yields (fun _ => True) :=
    Prog.yields_of_forall (fun _ => trivial) _
  exact .call _ _ hcalls hyields (fun r _ => .ret (hanswers r))

section Http

variable {request : HttpRequest} {peer : Option String} {r : Readings}

theorem around_answer {agent : Option String}
    (hagent : ∀ call, route lib request r = .handler call →
      Calls lib (.http request peer r) ⟨agent, call⟩) :
    Around lib st (.http request peer r) [] ∅ (answer lib st agent (route lib request r)) := by
  cases hroute : route lib request r with
  | page tier | refusal tier e | listProducts params => exact .ret rfl
  | handler call => exact around_handler agent call (hagent call hroute) (fun r => ⟨_, rfl⟩)

theorem around_limited {quota : Quota} {key : String} {now : UInt64} {next : Service}
    (h : Around lib st (.http request peer r) [] ∅ next) :
    Around lib st (.http request peer r) [] ∅ (do
      if ← check quota key now then next
      else return .refused rateLimited : Service) := by
  apply Outside.lockEdge
  apply Outside.edge
  intro admitted
  apply Outside.unlockEdge
  cases admitted with
  | true => exact h
  | false => exact .ret rfl

theorem around_serveHttp (lib : Libraries) (st : AppState) (request : HttpRequest)
    (peer : Option String) (r : Readings) :
    Around lib st (.http request peer r) [] ∅ (serveHttp lib st request peer r) := by
  rw [serveHttp]
  cases htier : (route lib request r).tier with
  | signed =>
      refine Outside.inl_bind (?_ : Prog.Always _ _ [] _) (Deadlock.requireSigned_ordered r.signedAt request)
      apply (Mediation.requireSigned_always lib request r).mono
      · exact fun _ _ ho => ho
      · intro past x hgated
        cases x with
        | error e => exact .ret rfl
        | ok agentId =>
            obtain ⟨identity, -, hsigns⟩ := hgated.signed agentId rfl
            apply around_limited
            apply around_answer
            intro call hroute
            rw [hroute] at htier
            exact ⟨hroute, .inl ⟨htier, agentId, identity, rfl, hsigns⟩⟩
  | limited =>
      apply around_limited
      apply around_answer
      intro call hroute
      rw [hroute] at htier
      exact ⟨hroute, .inr ⟨(fun hs => by cases htier.symm.trans hs), rfl⟩⟩
  | unguarded =>
      apply around_answer
      intro call hroute
      rw [hroute] at htier
      exact ⟨hroute, .inr ⟨(fun hs => by cases htier.symm.trans hs), rfl⟩⟩

end Http

def afterSession (lib : Libraries) (st : AppState) (completedAt issuedAt : Int64) :
    Reply → Service
  | .session (.ok session) => Prog.bind
      (handler lib.toPlatform st ⟨none, .completeCheckout session.id completedAt issuedAt⟩).inl
      (fun reply => match reply with
        | .order r => .ret (.checkout r)
        | other => .ret (.reply other))
  | .session (.error e) => .ret (.checkout (.error e))
  | other => .ret (.reply other)

theorem inl_bind {Sg Sg' : Interface} {R T : Type} (t : Prog Sg R) (f : R → Prog Sg T) :
    ((t.bind f).inl : Prog (Sg.sum Sg') T) = t.inl.bind (fun r => (f r).inl) := by
  induction t with
  | ret r => rfl
  | op o k ih => exact congrArg _ (funext ih)
  | lock l k ih | unlock l k ih => exact congrArg _ ih

theorem toolCheckout_eq (cartId : String) (now completedAt issuedAt : Int64) :
    serve lib st (.toolCheckout cartId now completedAt issuedAt) =
      (handler lib.toPlatform st ⟨none, .createCheckoutSession ⟨cartId, none⟩ now⟩).inl.bind
        (afterSession lib st completedAt issuedAt) := by
  change Prog.bind (Prog.inl (Prog.bind (ExceptT.run (createCheckoutSession st ⟨cartId, none⟩ now))
    _)) _ = Prog.bind (Prog.inl (Prog.bind (ExceptT.run (createCheckoutSession st ⟨cartId, none⟩
      now)) _)) _
  rw [inl_bind, inl_bind, Prog.bind_assoc, Prog.bind_assoc]
  congr 1
  funext x
  cases x with
  | error e => rfl
  | ok session =>
      change Prog.bind (Prog.inl (ExceptT.run (completeCheckout none session.id completedAt
        issuedAt))) _ = Prog.bind (Prog.inl (Prog.bind (ExceptT.run (completeCheckout none session.id
          completedAt issuedAt)) _)) _
      rw [inl_bind, Prog.bind_assoc]
      rfl

theorem around_toolCheckout (cartId : String) (now completedAt issuedAt : Int64) :
    Around lib st (.toolCheckout cartId now completedAt issuedAt) [] ∅
      (serve lib st (.toolCheckout cartId now completedAt issuedAt)) := by
  have hsession : ((app lib.toPlatform st).handler
      ⟨none, .createCheckoutSession ⟨cartId, none⟩ now⟩).Yields (fun r => ∃ x, r = .session x) :=
    replyTo_yields _ _ (fun x => ⟨x, rfl⟩)
  rw [toolCheckout_eq]
  apply Outside.call _ _ (.inl rfl) hsession
  rintro reply ⟨x, rfl⟩
  cases x with
  | error e => exact .ret (.inl ⟨e, rfl, rfl⟩)
  | ok session =>
      have horder : ((app lib.toPlatform st).handler
          ⟨none, .completeCheckout session.id completedAt issuedAt⟩).Yields
            (fun r => ∃ x, r = .order x) :=
        replyTo_yields _ _ (fun x => ⟨x, rfl⟩)
      apply Outside.call _ _ (.inr ⟨session.id, rfl⟩) horder
      rintro reply ⟨x, rfl⟩
      exact .ret (.inr ⟨session, x, rfl, rfl⟩)

theorem around_serve (a : Arrival) : Around lib st a [] ∅ (serve lib st a) := by
  cases a with
  | http request peer r => exact around_serveHttp lib st request peer r
  | tool call => exact around_handler none call rfl (fun r => ⟨r, rfl, rfl⟩)
  | toolCheckout cartId now completedAt issuedAt =>
      exact around_toolCheckout cartId now completedAt issuedAt
  | registerAgent identity spendLimit =>
      exact around_handler none (.registerAgent identity spendLimit) rfl (fun r => ⟨r, rfl, rfl⟩)
  | order id =>
      have hordered : (order id).Ordered Deadlock.rank ∅ ∅ :=
        Prog.Ordered.locked (by simp) (fun _ => rfl)
      refine Outside.inl_bind (?_ : Prog.Always _ _ [] _) hordered
      exact ⟨rfl, fun _ => .ret rfl⟩
  | auditEntries =>
      change Around lib st .auditEntries [] ∅ (.lock (.inl Lock.audit)
        (.op (.inr .auditEntries) (fun x => .unlock (.inl Lock.audit) (.ret (.audit x)))))
      apply Outside.lock
      apply Outside.edge
      intro x
      apply Outside.unlock
      rw [Set.insert_sdiff_self_of_notMem (Set.notMem_empty _)]
      exact .ret rfl

def shell (lib : Libraries) (st : AppState) : Shell (app lib.toPlatform st) (server lib st) where
  data := ServerData.data
  acts := acts
  calls := Calls lib
  post := Answers
  exec_resp _ _ := rfl
  exec_data _ _ := rfl
  exec_edge o d := by
    cases o with
    | hit quota key now => cases quota <;> rfl
    | auditEntries => rfl
  exec_read _ d ho := Mediation.exec_of_not_acts ho d
  outside := around_serve

theorem shown_run {A : World serverSignature ServerData Arrival Response → Action Arrival → Prop}
    {d : ServerData} {c : World serverSignature ServerData Arrival Response}
    (h : (server lib st).Runs A (.start d) c) :
    ∃ w place, (app lib.toPlatform st).Runs (Shell.Called (shell lib st) c) (.start d.data) w ∧
      (shell lib st).Shows c w place :=
  Shell.shows_run Deadlock.handler_ordered Deadlock.serve_ordered h

end AiterCommerce.Guarantees.Shown

import AiterCommerce.Server.Footprint

namespace AiterCommerce.Guarantees.Consents

open AiterCommerce.Core Concurrent Server Machine
open Spec (Ensures Harmless)

abbrev History := List (Event appSignature Data Request)

def drawn (id : String) : Event appSignature Data Request → Int
  | ⟨⟨_, _, .debit _ body⟩, .consents (.update key _), .ok (), _⟩ =>
      if key = id then body.amountMinor.toInt else 0
  | _ => 0

def drawnSum (id : String) : History → Int
  | [] => 0
  | e :: h => drawn id e + drawnSum id h

structure Kept (x : Consent) (sum : Int) : Prop where
  currency : x.totalSpent.currency = x.spendLimit.currency
  spent : x.totalSpent.units.toInt = sum
  nonneg : 0 ≤ x.totalSpent.units.toInt
  within : x.totalSpent.units.toInt ≤ x.spendLimit.units.toInt

/-- What a debit that succeeds has checked of the consent it found, and that none
of its sums and differences leaves the 64 bits. -/
structure Permitted (confirm : Bool) (body : DebitRequest) (old : Consent) : Prop where
  amount : 0 < body.amountMinor.toInt
  active : old.status = .active
  currency : old.spendLimit.currency = body.currency
  device : body.device = old.device ∨ confirm = true
  within : body.amountMinor.toInt ≤ old.remaining.toInt
  remaining : old.remaining.toInt = old.spendLimit.units.toInt - old.totalSpent.units.toInt
  answer : (old.remaining - body.amountMinor).toInt = old.remaining.toInt - body.amountMinor.toInt
  sum : (old.totalSpent.units + body.amountMinor).toInt =
    old.totalSpent.units.toInt + body.amountMinor.toInt

def Confined (e : Event appSignature Data Request) : Prop :=
  ∀ confirm body, e.actor.request.call = .debit confirm body →
    (e.op.exec e.before).2.consents = e.before.consents ∨
      ∃ old, e.before.consents.get body.consentId = some old ∧ Permitted confirm body old ∧
        (e.op.exec e.before).2.consents = e.before.consents.insert body.consentId
          { old with totalSpent :=
            ⟨old.totalSpent.units + body.amountMinor, old.totalSpent.currency⟩ }

def rewritten : Event appSignature Data Request → Option (String × Consent)
  | ⟨_, .consents (.update key x), .ok (), _⟩ => some (key, x)
  | _ => none

def updatesOf (i : Name Request) (h : History) : List (String × Consent) :=
  h.filterMap (fun e => if e.actor = i then rewritten e else none)

/-- A debit that is refused has rewritten nothing, and one that succeeds has
rewritten its consent once and answers what is left of it. -/
def Answered (i : Name Request) (body : DebitRequest) (r : Except ApiError DebitResponse)
    (h : History) : Prop :=
  match r with
  | .error _ => updatesOf i h = []
  | .ok resp => ∃ new, updatesOf i h = [(body.consentId, new)] ∧ resp.consentId = body.consentId ∧
      resp.remaining.toInt = new.spendLimit.units.toInt - new.totalSpent.units.toInt

structure Ledger (s : State) : Prop where
  stored : ∀ id x, s.data.consents.get id = some x → Kept x (drawnSum id s.history)
  absent : ∀ id, s.data.consents.get id = none → drawnSum id s.history = 0
  confined : ∀ e ∈ s.history, Confined e

section Step

variable {s : State} {i : Name Request} {o : Op} {confirm : Bool} {body : DebitRequest}
  {x old : Consent} {sum : Int}

theorem Kept.remaining (h : Kept x sum) :
    x.remaining.toInt = x.spendLimit.units.toInt - x.totalSpent.units.toInt := by
  have hn := h.nonneg
  have hw := h.within
  have hl := x.spendLimit.units.toInt_lt
  exact toInt_sub_of_le (by omega) (by omega)

theorem kept_new {id userId agentId device : String} {limit : Amount} {now : Int64}
    (h : 0 < limit.units.toInt) : Kept (Consent.new id userId agentId limit device now) 0 where
  currency := rfl
  spent := rfl
  nonneg := le_refl 0
  within := h.le

theorem pos_of_validate {units : Int64} {field : String}
    (h : validatePositiveMinor units field = .ok ()) : 0 < units.toInt := by
  rw [validatePositiveMinor] at h
  split at h
  · cases h
  next hn =>
    rw [Int64.le_iff_toInt_le] at hn
    exact not_le.mp hn

/-- The guards of a debit leave no sum or difference of it that overflows. -/
theorem Kept.permitted {remaining : Int64} (h : Kept old sum)
    (hv : validatePositiveMinor body.amountMinor "amount_minor" = .ok ())
    (hc : checkDebit old confirm body = .ok remaining) : Permitted confirm body old := by
  have hpos := pos_of_validate hv
  have hrem := h.remaining
  have hn := h.nonneg
  have hlt := old.spendLimit.units.toInt_lt
  simp only [checkDebit] at hc
  split at hc
  · cases hc
  next hactive =>
    split at hc
    · cases hc
    next hcurrency =>
      split at hc
      · cases hc
      next hlimit =>
        split at hc
        · cases hc
        next hdevice =>
          rw [Int64.lt_iff_toInt_lt] at hlimit
          exact {
            amount := hpos
            active := not_not.mp hactive
            currency := not_not.mp hcurrency
            device := by simpa [or_iff_not_imp_left] using hdevice
            within := not_lt.mp hlimit
            remaining := hrem
            answer := toInt_sub_of_le (by omega) (by omega)
            sum := toInt_add_of_lt (by omega) (by omega) }

theorem Kept.debited (h : Kept old sum) (hp : Permitted confirm body old) :
    Kept (debited old body.amountMinor) (body.amountMinor.toInt + sum) := by
  have hsum : (Server.debited old body.amountMinor).totalSpent.units.toInt = _ := hp.sum
  have hpos := hp.amount
  have hle := hp.within
  have hn := h.nonneg
  rw [hp.remaining] at hle
  refine ⟨h.currency, ?_, ?_, ?_⟩
  · rw [hsum, ← h.spent, Int.add_comm]
  · omega
  · change _ ≤ old.spendLimit.units.toInt
    omega

theorem consents_of_read (hc : ∀ key x, o ≠ .consents (.create key x))
    (hu : ∀ key x, o ≠ .consents (.update key x)) (d : Data) :
    (o.exec d).2.consents = d.consents := by
  cases o with
  | consents o =>
      exact StoreOp.exec_of_read (fun key x ho => hc key x (congrArg _ ho))
        (fun key x ho => hu key x (congrArg _ ho)) d.consents
  | _ => rfl

theorem drawn_of_not_update (hu : ∀ key x, o ≠ .consents (.update key x)) (id : String)
    (r : o.Resp) (d : Data) : drawn id ⟨i, o, r, d⟩ = 0 := by
  obtain ⟨n, agent, call⟩ := i
  unfold drawn
  split
  next heq =>
    obtain ⟨-, rfl, -⟩ := by simpa using heq
    exact absurd rfl (hu _ _)
  · rfl

theorem Ledger.perform_of_read (h : Ledger s) (hc : ∀ key x, o ≠ .consents (.create key x))
    (hu : ∀ key x, o ≠ .consents (.update key x)) : Ledger (s.perform Op.exec i o) := by
  have hsame := consents_of_read hc hu s.data
  have hsum (id : String) : drawnSum id (s.perform Op.exec i o).history = drawnSum id s.history := by
    rw [Shared.perform_history, drawnSum, drawn_of_not_update hu, zero_add]
  refine ⟨fun id x hx => ?_, fun id hx => ?_, fun e he => ?_⟩
  · rw [hsum]
    exact h.stored id x (by rwa [Shared.perform_data, hsame] at hx)
  · rw [hsum]
    exact h.absent id (by rwa [Shared.perform_data, hsame] at hx)
  · rcases List.mem_cons.mp he with rfl | he
    · exact fun _ _ _ => .inl hsame
    · exact h.confined e he

theorem Ledger.perform_create {key : String} (h : Ledger s) (hx : Kept x 0)
    (hq : ∀ confirm body, i.request.call ≠ .debit confirm body) :
    Ledger (s.perform Op.exec i (.consents (.create key x))) := by
  have hsum (id : String) : drawnSum id (s.perform Op.exec i (Op.consents (.create key x))).history =
      drawnSum id s.history := by
    rw [Shared.perform_history, drawnSum, drawn_of_not_update (by simp), zero_add]
  refine ⟨fun id y hy => ?_, fun id hy => ?_, fun e he => ?_⟩
  · rw [hsum]
    rcases StoreOp.get_exec hy with hy | ⟨heq, hnone⟩ | ⟨heq, -⟩
    · exact h.stored id y hy
    · cases heq
      exact (h.absent _ hnone).symm ▸ hx
    · cases heq
  · rw [hsum]
    exact h.absent id (StoreOp.get_exec_eq_none hy)
  · rcases List.mem_cons.mp he with rfl | he
    · exact fun confirm body hcall => absurd hcall (hq confirm body)
    · exact h.confined e he

theorem update_exec (hold : s.data.consents.get body.consentId = some old) (new : Consent) :
    (Op.consents (.update body.consentId new)).exec s.data =
      (.ok (), { s.data with consents := s.data.consents.insert body.consentId new }) := by
  simp only [Op.exec, StoreOp.exec, InMemoryStore.update_of_some hold, StoreOp.written]

theorem Ledger.perform_debit (h : Ledger s) (hq : i.request.call = .debit confirm body)
    (hold : s.data.consents.get body.consentId = some old) (hp : Permitted confirm body old) :
    Ledger (s.perform Op.exec i
      (.consents (.update body.consentId (Server.debited old body.amountMinor)))) := by
  obtain ⟨n, agent, call⟩ := i
  obtain rfl : call = .debit confirm body := hq
  have hexec := update_exec hold (Server.debited old body.amountMinor)
  have hsum (id : String) : drawnSum id (s.perform Op.exec ⟨n, agent, .debit confirm body⟩
      (Op.consents (.update body.consentId (Server.debited old body.amountMinor)))).history =
      (if body.consentId = id then body.amountMinor.toInt else 0) + drawnSum id s.history := by
    rw [Shared.perform_history, drawnSum, hexec]
    rfl
  refine ⟨fun id x hx => ?_, fun id hx => ?_, fun e he => ?_⟩
  · rw [hsum]
    rw [Shared.perform_data, hexec, InMemoryStore.get_insert] at hx
    split at hx
    next hid =>
      subst hid
      cases hx
      rw [if_pos rfl]
      exact (h.stored _ old hold).debited hp
    next hid =>
      rw [if_neg (Ne.symm hid), zero_add]
      exact h.stored id x hx
  · rw [hsum]
    rw [Shared.perform_data, hexec, InMemoryStore.get_insert] at hx
    split at hx
    · cases hx
    next hid =>
      rw [if_neg (Ne.symm hid), zero_add]
      exact h.absent id hx
  · rcases List.mem_cons.mp he with rfl | he
    · rintro confirm' body' hcall
      cases hcall
      exact .inr ⟨old, hold, hp, congrArg (fun r => r.2.consents) hexec⟩
    · exact h.confined e he

end Step

variable (ext : Platform) (st : AppState)

def spec : Spec (app ext st) where
  locks := discipline ext st
  inv := Ledger
  drop_inv _ _ _ h _ _ := ⟨h.stored, h.absent, h.confined⟩
  post i r s := ∀ confirm body x, i.request.call = .debit confirm body → r = .debit x →
    Answered i body x s.history

def May (q : Request) (H : Set Lock) (o : Op) : Prop :=
  (∀ l, o.need l → l ∈ H) ∧ (∀ key x, o ≠ .consents (.update key x)) ∧
    ∀ key x, o = .consents (.create key x) →
      Kept x 0 ∧ ∀ confirm body, q.call ≠ .debit confirm body

variable {ext st} {s s' : State} {i : Name Request} {confirm : Bool} {body : DebitRequest}

theorem Ledger.perform_of_may {H : Set Lock} {o : Op} (h : Ledger s) (hm : May i.request H o) :
    Ledger (s.perform Op.exec i o) := by
  by_cases hc : ∃ key x, o = .consents (.create key x)
  · obtain ⟨key, x, rfl⟩ := hc
    obtain ⟨hx, hq⟩ := hm.2.2 key x rfl
    exact h.perform_create hx hq
  · exact h.perform_of_read (fun key x ho => hc ⟨key, x, ho⟩) hm.2.1

theorem updatesOf_perform_of_not_update {o : Op} (hu : ∀ key x, o ≠ .consents (.update key x)) :
    updatesOf i (s.perform Op.exec i o).history = updatesOf i s.history := by
  rw [updatesOf, Shared.perform_history, List.filterMap_cons_none]
  · rfl
  · rw [if_pos rfl, rewritten]
    intro actor key x before heq
    obtain ⟨-, rfl, -⟩ := by simpa using heq
    exact hu key x rfl

theorem updatesOf_rely (h : (spec ext st).Rely i s s') :
    updatesOf i s'.history = updatesOf i s.history :=
  h.filterMap (fun _ he => if_neg he.1)

theorem harmless (U : List (String × Consent) → Prop) :
    (spec ext st).Harmless i (fun s => U (updatesOf i s.history)) (May i.request) where
  stable s s' hr h := by rwa [updatesOf_rely hr]
  perform _ o s hm hH hi h _ := by
    refine ⟨fun l hl => hH l (hm.1 l hl), ⟨hi.perform_of_may hm, trivial⟩, ?_⟩
    rwa [show (app ext st).exec = Op.exec from rfl, updatesOf_perform_of_not_update hm.2.1]
  waiting _ _ _ _ := trivial
  acquire _ _ hi h _ := ⟨⟨hi.stored, hi.absent, hi.confined⟩, h⟩
  release _ _ hi h _ := ⟨⟨hi.stored, hi.absent, hi.confined⟩, h⟩

theorem updatesOf_newcomer (h : s.Newcomer i) : updatesOf i s.history = [] :=
  List.filterMap_eq_nil_iff.mpr (fun e he => if_neg (h.history e he))

theorem remaining_of_checkDebit {consent : Consent} {remaining : Int64}
    (h : checkDebit consent confirm body = .ok remaining) : remaining = consent.remaining := by
  simp only [checkDebit] at h
  split at h
  · cases h
  · split at h
    · cases h
    · split at h
      · cases h
      · split at h
        · cases h
        · exact (Except.ok.inj h).symm

theorem Permitted.answered {consent : Consent} {remaining : Int64} {h : History}
    (hp : Permitted confirm body consent) (hc : checkDebit consent confirm body = .ok remaining)
    (hu : updatesOf i h = [(body.consentId, debited consent body.amountMinor)]) :
    Answered i body (.ok ⟨body.consentId, remaining - body.amountMinor⟩) h := by
  refine ⟨_, hu, rfl, ?_⟩
  have hsum : (debited consent body.amountMinor).totalSpent.units.toInt = _ := hp.sum
  rw [remaining_of_checkDebit hc, hp.answer, hp.remaining, hsum, Int.sub_sub]
  rfl

theorem debit_holds (hq : i.request.call = .debit confirm body) (h : s.Newcomer i) :
    (spec ext st).Ensures i (fun r u => Answered i body r u.history) (debit confirm body) s := by
  refine debit_ensures (P := spec ext st) (K := fun s => updatesOf i s.history = [])
    (L := fun consent s => Permitted confirm body consent ∧
      updatesOf i s.history = [(body.consentId, debited consent body.amountMinor)]) rfl
    (harmless (fun l => l = []))
    (fun consent => harmless (fun l => Permitted confirm body consent ∧
      l = [(body.consentId, debited consent body.amountMinor)]))
    (by simp [May, Op.need]) (by simp [May, Op.need]) ?_ (fun _ _ hu => hu)
    (fun _ _ _ hc hl => hl.1.answered hc hl.2) (updatesOf_newcomer h)
  intro _ s' consent remaining hv _ _ hc hi hk hget
  have hp := (hi.stored _ consent hget).permitted hv hc
  refine ⟨⟨hi.perform_debit hq hget hp, trivial⟩, hp, ?_⟩
  simp only [updatesOf, Shared.perform_history, update_exec hget, List.filterMap_cons, if_true]
  exact congrArg _ hk

theorem handler_holds (h : s.Newcomer i) :
    (spec ext st).Holds i ((spec ext st).post i) (handler ext st i.request) s := by
  obtain ⟨n, agent, call⟩ := i
  have rest {m : Prog appSignature Reply} (hq : ∀ confirm body, call ≠ .debit confirm body)
      (hm : m.Respects (May ⟨agent, call⟩) ∅ ∅) :
      (spec ext st).Holds ⟨n, agent, call⟩ ((spec ext st).post ⟨n, agent, call⟩) m s :=
    (Spec.Holds.of_respects (harmless (fun _ => True)) hm trivial (by simp)).mono
      (fun _ _ _ confirm body _ hcall => absurd hcall (hq confirm body))
  cases call with
  | debit confirm body =>
      refine holds_replyTo.mpr ((debit_holds rfl h).mono (fun x u hx confirm' body' x' hcall hxx => ?_))
      cases hcall
      cases hxx
      exact hx
  | createConsent body now =>
      refine rest (by simp) (replyTo_respects (createConsent_respects ?_ ?_))
      · simp [May, Op.need]
      · intro hv id
        refine ⟨by simp [Op.need], by simp, fun key x ho => ⟨?_, by simp⟩⟩
        cases ho
        exact kept_new (pos_of_validate hv)
  | _ =>
      refine rest (by simp) ((handler_respects ext st ⟨agent, _⟩).mono (fun H o ho => ⟨ho.2, ?_, ?_⟩))
      · rintro key x rfl
        simp [Request.performs, Request.may] at ho
      · rintro key x rfl
        simp [Request.performs, Request.may] at ho

theorem admits : (spec ext st).Admits (fun _ _ => True) where
  spawn _ _ _ _ h := handler_holds h
  step _ _ _ _ _ _ _ _ := trivial
  drop _ _ _ _ _ _ _ _ := trivial
  stable n r s s' hr h confirm body x hcall hx := by
    have hx' := h confirm body x hcall hx
    cases x with
    | error e => exact (updatesOf_rely hr).trans hx'
    | ok resp =>
        obtain ⟨new, hu, hresp⟩ := hx'
        exact ⟨new, (updatesOf_rely hr).trans hu, hresp⟩

section Runs

end Runs

end AiterCommerce.Guarantees.Consents

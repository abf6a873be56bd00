import AiterCommerce.Server.Footprint

namespace AiterCommerce.Guarantees.Authority

open AiterCommerce.Core Concurrent Server
open Spec (Ensures Harmless)

/-- What the operation changes of a consent, it changes for the agent the
consent was granted to. -/
def Authorised (e : Event appSignature Data Request) : Prop :=
  ∀ id x, e.before.consents.get id = some x →
    (e.op.exec e.before).2.consents.get id = some x ∨ e.actor.request.agent = some x.agentId

/-- The checks of a debit refuse the consent, unless it was granted to the agent
that signed. -/
def entitled (agent : Option String) (confirm : Bool) (body : DebitRequest) (d : Data) : Bool :=
  (d.consents.get body.consentId).all
    (fun x => !(checkDebit x confirm body).isOk || agent = some x.agentId)

def OwnConsents (c : Configuration) : Action Request → Bool
  | .step n =>
      match c.procs[n]? with
      | some ⟨⟨agent, .debit confirm body⟩, some (.op (.consents (.get _)) _)⟩ =>
          entitled agent confirm body c.shared.data
      | _ => true
  | _ => true

def Later (a b : Data) : Prop :=
  ∀ id x, a.consents.get id = some x → ∃ y, b.consents.get id = some y ∧ y.agentId = x.agentId

variable {ext : Platform} {st : AppState} {s s' : State} {i : Name Request}

theorem keeps_of_not_update {o : Op} (ho : ∀ id x, o ≠ .consents (.update id x)) :
    Authorised ⟨i, o, (o.exec s.data).1, s.data⟩ ∧ Later s.data (o.exec s.data).2 := by
  have hsame (id : String) (x : Consent) (hx : s.data.consents.get id = some x) :
      (o.exec s.data).2.consents.get id = some x := by
    cases o with
    | consents o =>
        rcases StoreOp.get_exec_of_some o hx with hx | ⟨y, rfl, -⟩
        · exact hx
        · exact absurd rfl (ho id y)
    | _ => exact hx
  exact ⟨fun id x hx => .inl (hsame id x hx), fun id x hx => ⟨x, hsame id x hx, rfl⟩⟩

theorem keeps_of_update {key : String} {old : Consent} (new : Consent)
    (hold : s.data.consents.get key = some old) (hnew : new.agentId = old.agentId)
    (ha : i.request.agent = some old.agentId) :
    Authorised ⟨i, .consents (.update key new), ((Op.consents (.update key new)).exec s.data).1,
      s.data⟩ ∧ Later s.data ((Op.consents (.update key new)).exec s.data).2 := by
  have hget (id : String) : ((Op.consents (.update key new)).exec s.data).2.consents.get id =
      if id = key then some new else s.data.consents.get id := by
    simp only [Op.exec, StoreOp.exec, InMemoryStore.update_of_some hold, StoreOp.written,
      InMemoryStore.get_insert]
  refine ⟨fun id x hx => ?_, fun id x hx => ?_⟩
  · change s.data.consents.get id = some x at hx
    by_cases hid : id = key
    · subst hid
      obtain rfl := Option.some.inj (hold.symm.trans hx)
      exact .inr ha
    · exact .inl (by rw [hget, if_neg hid, hx])
  · by_cases hid : id = key
    · subst hid
      obtain rfl := Option.some.inj (hold.symm.trans hx)
      exact ⟨new, by rw [hget, if_pos rfl], hnew⟩
    · exact ⟨x, by rw [hget, if_neg hid, hx], rfl⟩

def Answered (agent : Option String) (x : Except ApiError DebitResponse) (s : State) : Prop :=
  ∀ resp, x = .ok resp →
    ∃ consent, s.data.consents.get resp.consentId = some consent ∧ agent = some consent.agentId

variable (ext st)

def spec : Spec (app ext st) where
  locks := discipline ext st
  inv s := ∀ e ∈ s.history, Authorised e
  evolves := Later
  evolves_refl _ _ x hx := ⟨x, hx, rfl⟩
  evolves_trans h h' id x hx := by
    obtain ⟨y, hy, hyx⟩ := h id x hx
    obtain ⟨z, hz, hzy⟩ := h' id y hy
    exact ⟨z, hz, hzy.trans hyx⟩
  allow i o s := ∀ confirm body id, i.request.call = .debit confirm body → o = .consents (.get id) →
    entitled i.request.agent confirm body s.data = true
  drop_inv _ _ _ h _ _ := h
  post i r s := ∀ confirm body x, i.request.call = .debit confirm body → r = .debit x →
    Answered i.request.agent x s

def May (H : Set Lock) (o : Op) : Prop :=
  (∀ l, o.need l → l ∈ H) ∧ ∀ id x, o ≠ .consents (.update id x)

variable {ext st}

theorem harmless {K : State → Prop} (hK : ∀ s s' : State, Later s.data s'.data → K s → K s') :
    (spec ext st).Harmless i K May := by
  refine .of_lasting (fun _ _ h => h) (fun s s' hl _ => hK s s' hl) (fun _ _ => trivial)
    (fun H o s hm hi _ _ => ?_)
  obtain ⟨ha, hl⟩ := keeps_of_not_update (s := s) (i := i) hm.2
  exact ⟨hm.1, List.forall_mem_cons.mpr ⟨ha, hi⟩, hl⟩

theorem Answered.later {agent : Option String} {x : Except ApiError DebitResponse}
    (h : Answered agent x s) (hl : Later s.data s'.data) : Answered agent x s' := by
  intro resp hx
  obtain ⟨consent, hc, ha⟩ := h resp hx
  obtain ⟨y, hy, hyc⟩ := hl _ consent hc
  exact ⟨y, hy, hyc ▸ ha⟩

theorem agent_of_entitled {agent : Option String} {confirm : Bool} {body : DebitRequest} {d : Data}
    {consent : Consent} {remaining : Int64} (h : entitled agent confirm body d = true)
    (hc : d.consents.get body.consentId = some consent)
    (hok : checkDebit consent confirm body = .ok remaining) : agent = some consent.agentId := by
  simpa [entitled, hc, hok, Except.isOk, Except.toBool] using h

theorem debit_ensures {agent : Option String} {confirm : Bool} {body : DebitRequest}
    (hreq : i.request = ⟨agent, .debit confirm body⟩) :
    (spec ext st).Ensures i (fun x u => Answered agent x u) (debit confirm body) s := by
  refine Server.debit_ensures (P := spec ext st) (K := fun _ => True)
    (L := fun _ u => ∃ y, u.data.consents.get body.consentId = some y ∧ agent = some y.agentId) rfl
    (harmless (fun _ _ _ _ => trivial)) (fun _ => harmless ?_) (by simp [May, Op.need])
    (by simp [May, Op.need]) ?_ (fun _ _ _ _ h => by cases h)
    (fun _ _ _ _ hl _ hx => by cases hx; exact hl) trivial
  · rintro s s' hl ⟨y, hy, ha⟩
    obtain ⟨z, hz, hzy⟩ := hl _ y hy
    exact ⟨z, hz, hzy ▸ ha⟩
  · intro s1 s2 consent remaining _ hallow hget hc hi _ hget2
    have hent := hallow confirm body _ (by rw [hreq]) rfl
    rw [hreq] at hent
    have hagent := agent_of_entitled hent hget hc
    obtain ⟨ha, hl⟩ := keeps_of_update (i := i) (debited consent body.amountMinor) hget2 rfl
      (by rw [hreq]; exact hagent)
    obtain ⟨y, hy, hyc⟩ := hl body.consentId consent hget2
    exact ⟨⟨List.forall_mem_cons.mpr ⟨ha, hi⟩, hl⟩, y, hy, hyc ▸ hagent⟩

theorem handler_holds : (spec ext st).Holds i ((spec ext st).post i) (handler ext st i.request) s := by
  obtain ⟨n, agent, call⟩ := i
  have rest (hp : ∀ o, Request.performs ⟨agent, call⟩ o → ∀ id x, o ≠ .consents (.update id x)) :
      (spec ext st).Holds ⟨n, agent, call⟩ (fun _ _ => True) (handler ext st ⟨agent, call⟩) s :=
    (Spec.Holds.of_respects (harmless (fun _ _ _ _ => trivial)) ((handler_respects ext st ⟨agent, call⟩).mono
      (fun H o ho => ⟨ho.2, hp o ho.1⟩)) trivial (by simp)).mono (fun _ _ _ => trivial)
  cases call with
  | debit confirm body =>
      refine holds_replyTo.mpr ((debit_ensures rfl).mono (fun x u hx _ _ x' _ hxx => ?_))
      cases hxx
      exact hx
  | _ =>
      refine (rest (fun o ho id x hox => ?_)).mono (fun _ _ _ _ _ _ hcall => by cases hcall)
      subst hox
      simp [Request.performs] at ho

theorem admits : (spec ext st).Admits (fun c a => OwnConsents c a = true) where
  spawn _ _ _ _ _ := handler_holds
  step c n q o k ha hn _ confirm body id hcall ho := by
    obtain ⟨agent, call⟩ := q
    obtain rfl : call = .debit confirm body := hcall
    subst ho
    simpa [OwnConsents, hn] using ha
  drop _ _ _ _ _ _ _ _ := trivial
  stable n r s s' hr h confirm body x hcall hx := (h confirm body x hcall hx).later hr.evolves

/-- Consents are only ever debited for their own agents: every change of one was
made by a request its agent signed, and so was every debit that succeeded. -/
structure Respected (c : Configuration) : Prop where
  changes : ∀ e ∈ c.shared.history, Authorised e
  debits : ∀ n agent confirm body resp, c.returned n = some (⟨agent, .debit confirm body⟩,
    .debit (.ok resp)) → ∃ consent, c.shared.data.consents.get resp.consentId = some consent ∧
      agent = some consent.agentId

theorem respected_of_ownConsents (ext : Platform) (st : AppState) {c : Configuration}
    (h : (app ext st).Runs (fun c a => OwnConsents c a = true) (.start (Data.new ext.crypto)) c) :
    Respected c := by
  have hstart : (spec ext st).inv (.start (Data.new ext.crypto)) := fun e he => by
    simp [Shared.start] at he
  have hc := Spec.Sound.runs admits (Spec.sound_start hstart) h
  exact ⟨hc.inv, fun n agent confirm body resp hr =>
    hc.returned hr confirm body (.ok resp) rfl rfl resp rfl⟩

section Runs

def granted : List (Action Request) :=
  System.enter 0 ⟨none, .registerAgent ⟨"agent-2", ⟨[]⟩⟩ ⟨1000, .USD⟩⟩ 3 ++
  System.enter 1 ⟨some demoAgentId, .createConsent ⟨"user-1", demoAgentId, 1000, none, "phone"⟩ 0⟩ 4

def debitBy (agent : String) : Request :=
  ⟨some agent, .debit false ⟨"cons-0", 300, .USD, "phone"⟩⟩

/-- Another registered agent draws on the consent of the demo agent. -/
theorem other_agent_debits : ¬ ∀ (ext : Platform) (st : AppState) (c : Configuration),
    (app ext st).Runs (fun _ _ => True) (.start (Data.new ext.crypto)) c → Respected c := by
  intro h
  have hplay : (((app .bare ⟨[], none⟩).play (fun _ _ => True)
      (.start (Data.new Platform.bare.crypto)) (granted ++ System.enter 2 (debitBy "agent-2") 5)).map
        (fun c => decide ((c.shared.data.agents.get "agent-2").isSome = true ∧
          c.returned 2 = some (debitBy "agent-2", .debit (.ok ⟨"cons-0", 700⟩)) ∧
          (c.shared.data.consents.get "cons-0").map Consent.agentId = some demoAgentId))) =
      some true := by
    decide +kernel
  obtain ⟨c, hc, heq⟩ := Option.map_eq_some_iff.mp hplay
  obtain ⟨-, hret, hagent⟩ := of_decide_eq_true heq
  obtain ⟨consent, hget, ha⟩ :=
    (h .bare ⟨[], none⟩ c (System.play_runs hc)).debits 2 _ _ _ _ hret
  rw [hget] at hagent
  exact absurd (ha.trans hagent) (by decide)

theorem respected_of_ownConsents_demo : ∃ c : Configuration,
    c.returned 2 = some (debitBy demoAgentId, .debit (.ok ⟨"cons-0", 700⟩)) ∧ Respected c := by
  have hplay : (((app .bare ⟨[], none⟩).play (fun c a => OwnConsents c a = true)
      (.start (Data.new Platform.bare.crypto)) (granted ++ System.enter 2 (debitBy demoAgentId) 5)).map
        (fun c => decide (c.returned 2 = some (debitBy demoAgentId, .debit (.ok ⟨"cons-0", 700⟩))))) =
      some true := by
    decide +kernel
  obtain ⟨c, hc, heq⟩ := Option.map_eq_some_iff.mp hplay
  exact ⟨c, of_decide_eq_true heq, respected_of_ownConsents .bare ⟨[], none⟩ (System.play_runs hc)⟩

end Runs

end AiterCommerce.Guarantees.Authority

import AiterCommerce.Encoding.Record
import AiterCommerce.Server.Webhook

namespace AiterCommerce.Server

open AiterCommerce.Core Encoding.Json
open Encoding.Json.Record (field fieldOr)

/-- The JSON library: the value it sees in a text, and what it says of a text
that it cannot read as what it is asked for. -/
structure JsonLibrary where
  parse : Bytes → Option Value
  message : Bytes → String

def WebhookPaymentEntity.record : Record WebhookPaymentEntity :=
  pure WebhookPaymentEntity.mk <*> field "id" Value.asStr <*> field "amount" int64 <*>
    fieldOr "currency" (nullable Value.asStr) none <*> fieldOr "notes" (mapOf Value.asStr) ∅

def WebhookPayment.record : Record WebhookPayment :=
  pure WebhookPayment.mk <*> field "entity" WebhookPaymentEntity.record.read

def WebhookPayload.record : Record WebhookPayload :=
  pure WebhookPayload.mk <*> field "payment" WebhookPayment.record.read

def WebhookEnvelope.record : Record WebhookEnvelope :=
  pure WebhookEnvelope.mk <*> field "event" Value.asStr <*>
    field "payload" WebhookPayload.record.read

/-- The whole envelope is read before anything of it is looked at. -/
def JsonLibrary.readEnvelope (lib : JsonLibrary) : EnvelopeReader := fun body =>
  match (lib.parse body).bind WebhookEnvelope.record.read with
  | some envelope => .ok envelope
  | none => .error (lib.message body)

section Shape

def IsText (v : Value) : Prop := ∃ s, v = .string s

def IsAmount (v : Value) : Prop := ∃ n, v = .int n ∧ Machine.Fits n

def IsCurrency (v : Value) : Prop := v = .null ∨ IsText v

/-- An object of texts; an empty array is none. -/
def IsNotes (v : Value) : Prop := ∃ ms, v = .object ms ∧ ∀ m ∈ ms, IsText m.2

def IsEntity (v : Value) : Prop :=
  (∃ ms, v = .object ms ∧ Once "id" IsText ms ∧ Once "amount" IsAmount ms ∧
    AtMostOnce "currency" IsCurrency ms ∧ AtMostOnce "notes" IsNotes ms) ∨
  ∃ id amount rest, v = .array (id :: amount :: rest) ∧ IsText id ∧ IsAmount amount ∧
    (rest = [] ∨ (∃ currency, rest = [currency] ∧ IsCurrency currency) ∨
      ∃ currency notes, rest = [currency, notes] ∧ IsCurrency currency ∧ IsNotes notes)

/-- An object with the member, or an array of its value alone. -/
def Wraps (name : String) (P : Value → Prop) (v : Value) : Prop :=
  (∃ ms, v = .object ms ∧ Once name P ms) ∨ ∃ w, v = .array [w] ∧ P w

def IsPayload (v : Value) : Prop := Wraps "payment" (Wraps "entity" IsEntity) v

def IsEnvelope (ms : List (String × Value)) : Prop := Once "event" IsText ms ∧ Once "payload" IsPayload ms

theorem isText_iff {v : Value} : v.asStr.isSome = true ↔ IsText v := asStr_isSome

theorem isAmount_iff {v : Value} : (int64 v).isSome = true ↔ IsAmount v := int64_isSome

theorem isCurrency_iff {v : Value} : (nullable Value.asStr v).isSome = true ↔ IsCurrency v := by
  rw [nullable_isSome, IsCurrency, isText_iff]

theorem isNotes_iff {v : Value} : (mapOf Value.asStr v).isSome = true ↔ IsNotes v := by
  simp only [mapOf_isSome, IsNotes, isText_iff]

theorem read_wraps {α β : Type} {name : String} {make : α → β} {read : Value → Option α} {v : Value} :
    ((pure make <*> field name read : Record β).read v).isSome = true ↔
      Wraps name (fun w => (read w).isSome = true) v := by
  cases v with
  | object ms => simp [Wraps, read_object, ofMembers_seq, ofMembers_pure, ofMembers_field]
  | array vs => simp [Wraps, read_array, takes_seq, takes_pure, takes_field]
  | _ => simp [Wraps, Record.read]

theorem takes_entity {vs : List Value} : Takes WebhookPaymentEntity.record vs [] ↔
    ∃ id amount rest, vs = id :: amount :: rest ∧ IsText id ∧ IsAmount amount ∧
      (rest = [] ∨ (∃ currency, rest = [currency] ∧ IsCurrency currency) ∨
        ∃ currency notes, rest = [currency, notes] ∧ IsCurrency currency ∧ IsNotes notes) := by
  simp only [WebhookPaymentEntity.record, takes_seq, takes_pure, takes_field, takes_fieldOr,
    isText_iff, isAmount_iff, isCurrency_iff, isNotes_iff, and_true]
  constructor
  · rintro ⟨left, ⟨rest, ⟨items, ⟨start, rfl, id, rfl, hid⟩, amount, rfl, hamount⟩, hcurrency⟩, hnotes⟩
    refine ⟨id, amount, rest, rfl, hid, hamount, ?_⟩
    rcases hcurrency with ⟨rfl, rfl⟩ | ⟨currency, rfl, hcurrency⟩
    · exact .inl rfl
    · rcases hnotes with rfl | ⟨notes, rfl, hnotes⟩
      · exact .inr (.inl ⟨currency, rfl, hcurrency⟩)
      · exact .inr (.inr ⟨currency, notes, rfl, hcurrency, hnotes⟩)
  · rintro ⟨id, amount, rest, rfl, hid, hamount, hrest⟩
    have htaken : ∃ left, ((rest = [] ∧ left = []) ∨ ∃ v, rest = v :: left ∧ IsCurrency v) ∧
        (left = [] ∨ ∃ v, left = [v] ∧ IsNotes v) := by
      rcases hrest with rfl | ⟨currency, rfl, hcurrency⟩ | ⟨currency, notes, rfl, hcurrency, hnotes⟩
      · exact ⟨[], .inl ⟨rfl, rfl⟩, .inl rfl⟩
      · exact ⟨[], .inr ⟨currency, rfl, hcurrency⟩, .inl rfl⟩
      · exact ⟨[notes], .inr ⟨currency, rfl, hcurrency⟩, .inr ⟨notes, rfl, hnotes⟩⟩
    obtain ⟨left, hcurrency, hnotes⟩ := htaken
    exact ⟨left, ⟨rest, ⟨amount :: rest, ⟨id :: amount :: rest, rfl, id, rfl, hid⟩, amount, rfl,
      hamount⟩, hcurrency⟩, hnotes⟩

theorem entity_iff {v : Value} :
    (WebhookPaymentEntity.record.read v).isSome = true ↔ IsEntity v := by
  cases v with
  | object ms =>
      simp [IsEntity, WebhookPaymentEntity.record, read_object, ofMembers_seq, ofMembers_pure,
        ofMembers_field, ofMembers_fieldOr, isText_iff, isAmount_iff, isCurrency_iff, isNotes_iff,
        and_assoc]
  | array vs =>
      rw [read_array, takes_entity]
      simp [IsEntity]
  | _ => simp [IsEntity, Record.read]

theorem payload_iff {v : Value} : (WebhookPayload.record.read v).isSome = true ↔ IsPayload v := by
  have hpayment {w : Value} :
      (WebhookPayment.record.read w).isSome = true ↔ Wraps "entity" IsEntity w := by
    rw [WebhookPayment.record, read_wraps]
    simp only [entity_iff]
  rw [WebhookPayload.record, read_wraps, IsPayload]
  simp only [hpayment]

theorem envelope_iff {ms : List (String × Value)} :
    (WebhookEnvelope.record.read (.object ms)).isSome = true ↔ IsEnvelope ms := by
  rw [read_object, WebhookEnvelope.record, ofMembers_seq, ofMembers_seq, ofMembers_field,
    ofMembers_field]
  simp only [ofMembers_pure, true_and, isText_iff, payload_iff, IsEnvelope]

/-- The event of an envelope is its only member of that name. -/
theorem envelope_event {ms : List (String × Value)} {envelope : WebhookEnvelope} {event : String}
    (h : WebhookEnvelope.record.read (.object ms) = some envelope)
    (hevent : ("event", .string event) ∈ ms) : envelope.event = event := by
  obtain ⟨g, payload, hg, -, rfl⟩ := ofMembers_seq_eq_some.mp h
  obtain ⟨make, read, hmake, hread, rfl⟩ := ofMembers_seq_eq_some.mp hg
  obtain rfl := Option.some.inj hmake
  have hevent' := ofMembers_field_of_mem hread hevent
  exact (Option.some.inj hevent').symm

end Shape

end AiterCommerce.Server

import AiterCommerce.Guarantees.Durable
import AiterCommerce.Guarantees.Wire
import AiterCommerce.Server.Envelope

namespace AiterCommerce.Guarantees.Versions

open AiterCommerce.Core Encoding.Json Refinement Server
open Durable (Call Step Reply inMemory durable view opened Rel)

/-- A call of the store, or its closing by the version of the program that runs and its opening
by another. -/
inductive Act (K V SledError Version : Type)
  | call (step : Step K V SledError)
  | upgrade (version : Version)

section Running

variable {K V SledError SerdeError Version : Type} [DecidableEq K] (kc : Codec SerdeError K)
  (codec : Version → Codec SerdeError V)

/-- The version that runs, and its store. -/
def running (r : Version × SledStore K V) : Act K V SledError Version →
    Reply V (SledStoreError SledError SerdeError) × Version × SledStore K V
  | .call step =>
      let (reply, s) := durable kc (codec r.1) r.2 step
      (reply, r.1, s)
  | .upgrade version =>
      let (reply, s) := durable kc (codec version) r.2 .reopen
      (reply, version, s)

def shown : Act K V SledError Version × Reply V (SledStoreError SledError SerdeError) →
    Option (Call K V × Reply V StoreError)
  | (.call step, reply) => view (step, reply)
  | (.upgrade _, _) => none

variable {kc codec} {decode : Bytes → Except SerdeError V}

theorem simulation (hcodec : ∀ version, (codec version).decode = decode) :
    Simulation (running kc codec : Version × SledStore K V → Act K V SledError Version → _)
      inMemory shown (fun r t => Rel kc decode r.2 t) := by
  have hsim : ∀ version, Simulation
      (durable kc (codec version) : SledStore K V → Step K V SledError → _) inMemory view
        (Rel kc decode) := fun version => hcodec version ▸ Durable.simulation kc (codec version)
  constructor
  · rintro ⟨version, s⟩ t act hr hview
    cases act with
    | call step => exact (hsim version).hidden s t step hr hview
    | upgrade version' => exact (hsim version').hidden s t .reopen hr rfl
  · rintro ⟨version, s⟩ t act call reply hr hview
    cases act with
    | call step => exact (hsim version).visible s t step call reply hr hview
    | upgrade version' => cases hview

end Running

section Texts

variable {α : Type} {json : JsonLibrary} {f : Format α}

/-- A version of the program: the form in which it writes each value, as a text that the library
reads. -/
structure JsonVersion (json : JsonLibrary) (f : Format α) where
  form : α → Value
  shows : ∀ a, f.Shows a (form a)
  reads : ∀ a, json.parse (utf8 (form a).text) = some (form a)

def decodeText (json : JsonLibrary) (f : Format α) (bytes : Bytes) : Except String α :=
  match (json.parse bytes).bind f.read with
  | some a => .ok a
  | none => .error (json.message bytes)

namespace JsonVersion

def encode (version : JsonVersion json f) (a : α) : Bytes := utf8 (version.form a).text

def codec (version : JsonVersion json f) : Codec String α where
  encode a := .ok (version.encode a)
  decode := decodeText json f
  roundTrip a bytes h := by
    obtain rfl := Except.ok.inj h
    rw [decodeText, encode, version.reads, Option.bind_some, f.read_of_shows (version.shows a)]

end JsonVersion

def onDisk (keys : JsonVersion json .text) (f : Format α) (s : SledStore String α) (key : String) :
    Option α :=
  (s.db.get (keys.encode key)).bind (fun bytes => (decodeText json f bytes).toOption)

theorem onDisk_eq {keys : JsonVersion json .text} {s : SledStore String α}
    (h : s.Mirrors keys.codec (decodeText json f)) (key : String) :
    onDisk keys f s key = s.cache.get key := by
  rw [onDisk]
  cases hc : s.cache.get key with
  | some a =>
      obtain ⟨kb, vb, hk, hv, hdb⟩ := h.stored key a hc
      obtain rfl := Except.ok.inj hk
      rw [hdb, Option.bind_some, hv]
      rfl
  | none =>
      cases hdb : s.db.get (keys.encode key) with
      | none => rfl
      | some vb =>
          obtain ⟨k, a, hk, -, hg⟩ := h.written _ vb hdb
          have hkey : k = key := keys.codec.encode_inj hk rfl
          rw [hkey, hc] at hg
          cases hg

/-- Versions of the program that write their JSON differently follow each other on one store:
whatever is called between, with writes that are lost, the answers are those of a store in
memory, every version opens what the others left, and the database says what is in memory. -/
theorem upgrades_unnoticed (SledError : Type) (kind : Wire.Kind) (json : JsonLibrary)
    (keys : JsonVersion json .text) (first : JsonVersion json kind.format)
    (acts : List (Act String kind.Carrier SledError (JsonVersion json kind.format))) :
    let calls := (trace (running keys.codec JsonVersion.codec) (first, opened) acts).filterMap shown
    let last := final (running keys.codec JsonVersion.codec) (first, opened) acts
    trace inMemory .new (calls.map Prod.fst) = calls ∧
      last.2.cache = final inMemory .new (calls.map Prod.fst) ∧
      (∀ version, running keys.codec JsonVersion.codec last
          (.upgrade version : Act String kind.Carrier SledError _) =
        (.reopened (.ok ()), version, last.2)) ∧
      ∀ key, onDisk keys kind.format last.2 key = last.2.cache.get key := by
  have hfirst : Rel keys.codec (decodeText json kind.format) opened .new :=
    ⟨rfl, SledStore.mirrors_empty _ _⟩
  have hsim : Simulation (running keys.codec JsonVersion.codec :
      JsonVersion json kind.format × SledStore String kind.Carrier →
        Act String kind.Carrier SledError (JsonVersion json kind.format) → _)
      inMemory shown (fun r t => Rel keys.codec (decodeText json kind.format) r.2 t) :=
    simulation (fun _ => rfl)
  obtain ⟨hcache, hm⟩ := hsim.rel_final (s := (first, opened)) hfirst acts
  refine ⟨hsim.trace_eq (s := (first, opened)) hfirst acts, hcache, fun version => ?_, onDisk_eq hm⟩
  rw [running, Durable.reopen_eq keys.codec version.codec hm]

noncomputable def exact : JsonLibrary where
  parse bytes := Function.extend (fun v : Value => utf8 v.text) some (fun _ => none) bytes
  message _ := "expected value at line 1 column 1"

theorem exact_parse (v : Value) : exact.parse (utf8 v.text) = some v :=
  (utf8_injective.comp text_injective).extend_apply some (fun _ => none) v

def writing (f : Format α) (w : Writer) : JsonVersion exact f :=
  ⟨f.write w, f.shows_write w, fun _ => exact_parse _⟩

/-- Members stand from the last to the first. -/
def lastFirst : Writer := ⟨List.reverse, List.reverse_perm⟩

def keys : JsonVersion exact .text := writing .text .declared

def older : JsonVersion exact Cart.format := writing Cart.format .declared

def newer : JsonVersion exact Cart.format := writing Cart.format lastFirst

def stored : Act String Cart String (JsonVersion exact Cart.format) :=
  .call (.create "cart-0" (.new .USD) none)

def changed : Act String Cart String (JsonVersion exact Cart.format) :=
  .call (.update "cart-0" (.new .EUR) none)

/-- A cart is stored by one version and changed by the next, to which the first goes back. -/
def upgraded : List (Act String Cart String (JsonVersion exact Cart.format)) :=
  [stored, .upgrade newer, changed, .upgrade older]

noncomputable def after (acts : List (Act String Cart String (JsonVersion exact Cart.format))) :
    JsonVersion exact Cart.format × SledStore String Cart :=
  final (running keys.codec JsonVersion.codec) (older, opened) acts

theorem upgrades_unnoticed_cart :
    (after upgraded).2.db.get (utf8 "\"cart-0\"") =
        some (utf8 "\x7b\"items\":[],\"currency\":\"EUR\"\x7d") ∧
      onDisk keys Cart.format (after upgraded).2 "cart-0" = some (.new .EUR) := by
  have hnewer : running keys.codec JsonVersion.codec (after [stored])
      (.upgrade newer : Act String Cart String _) = (.reopened (.ok ()), newer, (after [stored]).2) :=
    (upgrades_unnoticed String .cart exact keys older [stored]).2.2.1 newer
  have holder : running keys.codec JsonVersion.codec (after [stored, .upgrade newer, changed])
      (.upgrade older : Act String Cart String _) =
        (.reopened (.ok ()), older, (after [stored, .upgrade newer, changed]).2) :=
    (upgrades_unnoticed String .cart exact keys older [stored, .upgrade newer, changed]).2.2.1 older
  have hdisk : onDisk keys Cart.format (after upgraded).2 "cart-0" =
      (after upgraded).2.cache.get "cart-0" :=
    (upgrades_unnoticed String .cart exact keys older upgraded).2.2.2 "cart-0"
  have hstored : (after [stored]).2 = ⟨⟨Db.empty.map.insert (keys.encode "cart-0")
      (older.encode (.new .USD))⟩, .insert .new "cart-0" (.new .USD)⟩ := rfl
  have hchanged : (after [stored, .upgrade newer, changed]).2 =
      ⟨⟨(after [stored]).2.db.map.insert (keys.encode "cart-0") (newer.encode (.new .EUR))⟩,
        (after [stored]).2.cache.insert "cart-0" (.new .EUR)⟩ := by
    change (running keys.codec JsonVersion.codec (running keys.codec JsonVersion.codec
      (after [stored]) (.upgrade newer)).2 changed).2.2 = _
    rw [hnewer]
    dsimp only [running, changed, durable]
    rw [SledStore.update, hstored, InMemoryStore.get_insert_self]
    rfl
  have hlast : (after upgraded).2 = (after [stored, .upgrade newer, changed]).2 := by
    change (running keys.codec JsonVersion.codec (after [stored, .upgrade newer, changed])
      (.upgrade older)).2.2 = _
    rw [holder]
  have hkey : utf8 "\"cart-0\"" = keys.encode "cart-0" := by decide
  have htext : newer.encode (.new .EUR) = utf8 "\x7b\"items\":[],\"currency\":\"EUR\"\x7d" := by
    decide
  rw [hdisk, hlast, hchanged]
  refine ⟨?_, InMemoryStore.get_insert_self _ _ _⟩
  rw [Db.get_insert, if_pos hkey, htext]

end Texts

end AiterCommerce.Guarantees.Versions

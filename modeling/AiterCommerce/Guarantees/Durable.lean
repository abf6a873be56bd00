import AiterCommerce.Core.SledStore
import AiterCommerce.Refinement.Simulation

namespace AiterCommerce.Guarantees.Durable

open AiterCommerce.Core Refinement

inductive Call (K V : Type)
  | create (key : K) (item : V)
  | update (key : K) (item : V)
  | get (key : K)
  deriving DecidableEq

inductive Step (K V SledError : Type)
  | create (key : K) (item : V) (fault : Option SledError)
  | update (key : K) (item : V) (fault : Option SledError)
  | get (key : K)
  | reopen

inductive Reply (V Error : Type)
  | wrote (result : Except Error Unit)
  | found (item : Option V)
  | reopened (result : Except Error Unit)

section Machines

variable {K V SledError SerdeError : Type} [DecidableEq K]
  (kc : Codec SerdeError K) (vc : Codec SerdeError V)

def inMemory (s : InMemoryStore K V) : Call K V → Reply V StoreError × InMemoryStore K V
  | .create key item => settle (s.create key item)
  | .update key item => settle (s.update key item)
  | .get key => (.found (s.get key), s)
where
  settle : Except StoreError (InMemoryStore K V) → Reply V StoreError × InMemoryStore K V
    | .ok s' => (.wrote (.ok ()), s')
    | .error e => (.wrote (.error e), s)

/-- A store that cannot be opened again is left as it was closed. -/
def durable (s : SledStore K V) : Step K V SledError →
    Reply V (SledStoreError SledError SerdeError) × SledStore K V
  | .create key item fault =>
      let (result, s') := s.create kc vc key item fault
      (.wrote result, s')
  | .update key item fault =>
      let (result, s') := s.update kc vc key item fault
      (.wrote result, s')
  | .get key => (.found (s.get key), s)
  | .reopen =>
      match (s.close.mapError .sled).bind (SledStore.new kc vc) with
      | .ok s' => (.reopened (.ok ()), s')
      | .error e => (.reopened (.error e), s)

def view : Step K V SledError × Reply V (SledStoreError SledError SerdeError) →
    Option (Call K V × Reply V StoreError)
  | (.create key item _, .wrote result) => (outcome result).map (fun r => (.create key item, .wrote r))
  | (.update key item _, .wrote result) => (outcome result).map (fun r => (.update key item, .wrote r))
  | (.get key, .found item) => some (.get key, .found item)
  | _ => none
where
  outcome : Except (SledStoreError SledError SerdeError) Unit → Option (Except StoreError Unit)
    | .ok () => some (.ok ())
    | .error (.store e) => some (.error e)
    | .error (.sled _) => none
    | .error (.serde _) => none

def opened : SledStore K V := ⟨.empty, .new⟩

theorem write_shows {s : SledStore K V} (hm : s.Mirrors kc vc.decode) (key : K) (item : V)
    (fault : Option SledError) :
    (view.outcome (s.write kc vc key item fault).1 = none ∧
      (s.write kc vc key item fault).2 = s) ∨
    (view.outcome (s.write kc vc key item fault).1 = some (.ok ()) ∧
      (s.write kc vc key item fault).2.cache = s.cache.insert key item ∧
      (s.write kc vc key item fault).2.Mirrors kc vc.decode) := by
  rcases SledStore.write_cases kc vc s key item fault with ⟨e, hw, hne⟩ | ⟨kb, vb, hk, hv, hw⟩
  · left
    rw [hw]
    constructor
    · cases e with
      | store r => exact absurd rfl (hne r)
      | sled e => rfl
      | serde e => rfl
    · rfl
  · right
    rw [hw]
    exact ⟨rfl, rfl, SledStore.mirrors_insert hm hk (vc.roundTrip item vb hv)⟩

theorem reopen_eq {s : SledStore K V} (hm : s.Mirrors kc vc.decode) :
    durable kc vc s (.reopen : Step K V SledError) = (.reopened (.ok ()), s) := by
  have hn : (s.close.mapError .sled).bind (SledStore.new kc vc) =
      (.ok s : Except (SledStoreError SledError SerdeError) (SledStore K V)) :=
    SledStore.new_eq hm
  rw [durable, hn]

def Shows (s : SledStore K V) (step : Step K V SledError) : Prop :=
  (view (step, (durable kc vc s step).1) = none ∧ (durable kc vc s step).2 = s) ∨
  ∃ call, view (step, (durable kc vc s step).1) = some (call, (inMemory s.cache call).1) ∧
    (durable kc vc s step).2.cache = (inMemory s.cache call).2 ∧
    (durable kc vc s step).2.Mirrors kc vc.decode

theorem create_shows {s : SledStore K V} (hm : s.Mirrors kc vc.decode) (key : K) (item : V)
    (fault : Option SledError) : Shows kc vc s (.create key item fault) := by
  cases hg : s.cache.get key with
  | some x =>
      right
      refine ⟨.create key item, ?_⟩
      simp only [durable, SledStore.create, inMemory, hg, Option.isSome_some, if_true,
        InMemoryStore.create_of_some hg]
      exact ⟨rfl, rfl, hm⟩
  | none =>
      simp only [Shows, durable, SledStore.create, hg, Option.isSome_none, Bool.false_eq_true,
        if_false]
      rcases write_shows kc vc hm key item fault with ⟨hv, hs⟩ | ⟨hv, hc, hm'⟩
      · left
        simp only [view, hv, hs]
        exact ⟨rfl, trivial⟩
      · right
        refine ⟨.create key item, ?_⟩
        simp only [view, hv, hc, hm', inMemory, InMemoryStore.create_of_none hg]
        exact ⟨rfl, rfl, trivial⟩

theorem update_shows {s : SledStore K V} (hm : s.Mirrors kc vc.decode) (key : K) (item : V)
    (fault : Option SledError) : Shows kc vc s (.update key item fault) := by
  cases hg : s.cache.get key with
  | none =>
      right
      refine ⟨.update key item, ?_⟩
      simp only [durable, SledStore.update, inMemory, hg, Option.isSome_none, Bool.not_false,
        if_true, InMemoryStore.update_of_none hg]
      exact ⟨rfl, rfl, hm⟩
  | some x =>
      simp only [Shows, durable, SledStore.update, hg, Option.isSome_some, Bool.not_true,
        Bool.false_eq_true, if_false]
      rcases write_shows kc vc hm key item fault with ⟨hv, hs⟩ | ⟨hv, hc, hm'⟩
      · left
        simp only [view, hv, hs]
        exact ⟨rfl, trivial⟩
      · right
        refine ⟨.update key item, ?_⟩
        simp only [view, hv, hc, hm', inMemory, InMemoryStore.update_of_some hg]
        exact ⟨rfl, rfl, trivial⟩

theorem step_shows {s : SledStore K V} (hm : s.Mirrors kc vc.decode) (step : Step K V SledError) :
    Shows kc vc s step := by
  cases step with
  | create key item fault => exact create_shows kc vc hm key item fault
  | update key item fault => exact update_shows kc vc hm key item fault
  | get key => exact .inr ⟨.get key, rfl, rfl, hm⟩
  | reopen =>
      left
      rw [reopen_eq kc vc hm]
      exact ⟨rfl, rfl⟩

/-- The cache of the durable store is the store in memory, and its database mirrors it. -/
def Rel (decode : Bytes → Except SerdeError V) (s : SledStore K V) (t : InMemoryStore K V) : Prop :=
  s.cache = t ∧ s.Mirrors kc decode

theorem simulation :
    Simulation (durable kc vc : SledStore K V → Step K V SledError → _) inMemory view
      (Rel kc vc.decode) := by
  constructor
  · rintro s t step ⟨rfl, hm⟩ hview
    rcases step_shows kc vc hm step with ⟨_, hs⟩ | ⟨call, hv, _, _⟩
    · rw [hs]
      exact ⟨rfl, hm⟩
    · rw [hview] at hv
      cases hv
  · rintro s t step call reply ⟨rfl, hm⟩ hview
    rcases step_shows kc vc hm step with ⟨hv, _⟩ | ⟨call', hv, hc, hm'⟩
    · rw [hview] at hv
      cases hv
    · rw [hview] at hv
      cases hv
      exact ⟨rfl, hc, hm'⟩

theorem failed_unchanged (s : SledStore K V) (step : Step K V SledError)
    (e : SledStoreError SledError SerdeError)
    (h : (durable kc vc s step).1 = .wrote (.error e)) : (durable kc vc s step).2 = s := by
  cases step with
  | create key item fault => exact SledStore.create_failed (Reply.wrote.inj h)
  | update key item fault => exact SledStore.update_failed (Reply.wrote.inj h)
  | get key => rfl
  | reopen =>
      rw [durable] at h
      split at h <;> cases h

/-- After any run from a fresh path: the answers the durable store gave, less those of its
lost writes and restarts, are the ones the store in memory gives to the same calls, and both
hold the same entries; the cache is what the database decodes to; a failed write changes
nothing; and a restart gives the same store back. -/
theorem sled_refines_memory (steps : List (Step K V SledError)) :
    let calls := (trace (durable kc vc) opened steps).filterMap view
    let s : SledStore K V := final (durable kc vc) opened steps
    SledStore.new kc vc .empty =
        (.ok opened : Except (SledStoreError SledError SerdeError) (SledStore K V)) ∧
      trace inMemory .new (calls.map Prod.fst) = calls ∧
      s.cache = final inMemory .new (calls.map Prod.fst) ∧
      SledStore.load kc vc .new s.db.iter =
        (.ok s.cache : Except (SledStoreError SledError SerdeError) (InMemoryStore K V)) ∧
      (∀ (step : Step K V SledError) (e : SledStoreError SledError SerdeError),
        (durable kc vc s step).1 = .wrote (.error e) → (durable kc vc s step).2 = s) ∧
      durable kc vc s (.reopen : Step K V SledError) = (.reopened (.ok ()), s) := by
  have hfirst : Rel kc vc.decode opened (.new : InMemoryStore K V) :=
    ⟨rfl, SledStore.mirrors_empty kc vc.decode⟩
  have hsim : Simulation (durable kc vc : SledStore K V → Step K V SledError → _) inMemory view
      (Rel kc vc.decode) := simulation kc vc
  obtain ⟨hcache, hm⟩ := hsim.rel_final hfirst steps
  exact ⟨SledStore.new_eq (SledStore.mirrors_empty kc vc.decode), hsim.trace_eq hfirst steps, hcache,
    SledStore.load_iter hm, failed_unchanged kc vc _, reopen_eq kc vc hm⟩

end Machines

def flag : Codec Unit Bool where
  encode
    | true => .ok [116, 114, 117, 101]
    | false => .ok [102, 97, 108, 115, 101]
  decode bytes :=
    if bytes = [116, 114, 117, 101] then .ok true
    else if bytes = [102, 97, 108, 115, 101] then .ok false
    else .error ()
  roundTrip a bytes h := by
    cases a <;> cases h <;> decide

theorem sled_refines_memory_flag :
    trace inMemory .new [.create true false, .create true true, .get true] =
      [(.create true false, .wrote (.ok ())),
        (.create true true, .wrote (.error .alreadyExists)),
        (.get true, .found (some false))] :=
  (sled_refines_memory flag flag
    [.create true false none, .create false true (some ()), .create true true none,
      .update true true (some ()), .reopen, .get true]).2.1

end AiterCommerce.Guarantees.Durable

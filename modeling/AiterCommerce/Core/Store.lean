import Mathlib.Data.Finmap
import Mathlib.Data.Finset.Card

namespace AiterCommerce.Core

inductive StoreError
  | alreadyExists
  | notFound
  deriving DecidableEq

def StoreError.debug : StoreError → String
  | alreadyExists => "AlreadyExists"
  | notFound => "NotFound"

/-- The hash map behind a store, as a finite map. -/
structure InMemoryStore (K V : Type) where
  map : Finmap (fun _ : K => V)

namespace InMemoryStore

variable {K V : Type} [DecidableEq K]

def new : InMemoryStore K V := ⟨∅⟩

omit [DecidableEq K] in
def len (s : InMemoryStore K V) : Nat := s.map.keys.card

def get (s : InMemoryStore K V) (key : K) : Option V := s.map.lookup key

def insert (s : InMemoryStore K V) (key : K) (item : V) : InMemoryStore K V :=
  ⟨s.map.insert key item⟩

def create (s : InMemoryStore K V) (key : K) (item : V) :
    Except StoreError (InMemoryStore K V) :=
  if (s.get key).isSome then .error .alreadyExists else .ok (s.insert key item)

def update (s : InMemoryStore K V) (key : K) (item : V) :
    Except StoreError (InMemoryStore K V) :=
  if (s.get key).isSome then .ok (s.insert key item) else .error .notFound

@[simp] theorem get_new (key : K) : (new : InMemoryStore K V).get key = none := rfl

omit [DecidableEq K] in
@[simp] theorem len_new : (new : InMemoryStore K V).len = 0 := rfl

@[simp] theorem get_insert_self (s : InMemoryStore K V) (key : K) (item : V) :
    (s.insert key item).get key = some item :=
  Finmap.lookup_insert s.map

theorem get_insert_ne (s : InMemoryStore K V) {key k : K} (h : k ≠ key) (item : V) :
    (s.insert key item).get k = s.get k :=
  Finmap.lookup_insert_of_ne s.map h

theorem get_insert (s : InMemoryStore K V) (key k : K) (item : V) :
    (s.insert key item).get k = if k = key then some item else s.get k := by
  split
  next h => rw [h, get_insert_self]
  next h => rw [get_insert_ne s h]

theorem ext {s t : InMemoryStore K V} (h : ∀ k, s.get k = t.get k) : s = t := by
  obtain ⟨m⟩ := s
  obtain ⟨n⟩ := t
  exact congrArg mk (Finmap.ext_lookup h)

theorem insert_comm (s : InMemoryStore K V) {key key' : K} (h : key ≠ key') (item item' : V) :
    (s.insert key item).insert key' item' = (s.insert key' item').insert key item := by
  refine ext (fun k => ?_)
  simp only [get_insert]
  by_cases hk : k = key
  · rw [if_neg (hk ▸ h), if_pos hk, if_pos hk]
  · rw [if_neg hk, if_neg hk]

omit [DecidableEq K] in
private theorem mem_map_keys (m : Finmap (fun _ : K => V)) (k : K) : k ∈ m.keys ↔ k ∈ m :=
  Finmap.mem_keys

theorem mem_keys (s : InMemoryStore K V) (k : K) : k ∈ s.map.keys ↔ (s.get k).isSome := by
  rw [mem_map_keys, get, Finmap.lookup_isSome]

theorem keys_insert (s : InMemoryStore K V) (key : K) (item : V) :
    (s.insert key item).map.keys = Insert.insert key s.map.keys := by
  ext k
  rw [Finset.mem_insert, mem_keys, mem_keys, get_insert]
  split <;> simp_all

theorem len_insert_of_none {s : InMemoryStore K V} {key : K} (h : s.get key = none) (item : V) :
    (s.insert key item).len = s.len + 1 := by
  rw [len, keys_insert, Finset.card_insert_of_notMem, len]
  simp [mem_keys, h]

theorem len_insert_of_some {s : InMemoryStore K V} {key : K} (h : (s.get key).isSome) (item : V) :
    (s.insert key item).len = s.len := by
  rw [len, keys_insert, Finset.insert_eq_of_mem ((mem_keys s key).mpr h), len]

theorem create_of_none {s : InMemoryStore K V} {key : K} (h : s.get key = none) (item : V) :
    s.create key item = .ok (s.insert key item) := by
  simp [create, h]

theorem create_of_some {s : InMemoryStore K V} {key : K} {x : V} (h : s.get key = some x)
    (item : V) : s.create key item = .error .alreadyExists := by
  simp [create, h]

theorem update_of_some {s : InMemoryStore K V} {key : K} {x : V} (h : s.get key = some x)
    (item : V) : s.update key item = .ok (s.insert key item) := by
  simp [update, h]

theorem update_of_none {s : InMemoryStore K V} {key : K} (h : s.get key = none) (item : V) :
    s.update key item = .error .notFound := by
  simp [update, h]

end InMemoryStore

end AiterCommerce.Core

import AiterCommerce.Core.Signing
import AiterCommerce.Core.Store

namespace AiterCommerce.Core

open Std (ExtTreeMap)

/-- A type's `serde_json` encoding: what it writes, it reads back. -/
structure Codec (SerdeError α : Type) where
  encode : α → Except SerdeError Bytes
  decode : Bytes → Except SerdeError α
  roundTrip : ∀ a bytes, encode a = .ok bytes → decode bytes = .ok a

theorem Codec.encode_inj {SerdeError α : Type} (c : Codec SerdeError α) {a a' : α}
    {bytes : Bytes} (h : c.encode a = .ok bytes) (h' : c.encode a' = .ok bytes) : a = a' :=
  Except.ok.inj ((c.roundTrip a bytes h).symm.trans (c.roundTrip a' bytes h'))

/-- A sled database: a map on bytes, iterated in the order of its keys. -/
structure Db where
  map : ExtTreeMap Bytes Bytes compare

namespace Db

variable {SledError : Type}

def empty : Db := ⟨∅⟩

def get (db : Db) (key : Bytes) : Option Bytes := db.map[key]?

def insert (db : Db) (fault : Option SledError) (key value : Bytes) : Except SledError Unit × Db :=
  match fault with
  | some e => (.error e, db)
  | none => (.ok (), ⟨db.map.insert key value⟩)

def iter (db : Db) : List (Except SledError (Bytes × Bytes)) := db.map.toList.map .ok

def flush (db : Db) : Except SledError Db := .ok db

theorem get_insert (db : Db) (key value k : Bytes) :
    get ⟨db.map.insert key value⟩ k = if k = key then some value else db.get k := by
  rw [get, get, Std.ExtTreeMap.getElem?_insert]
  by_cases h : k = key
  · rw [if_pos h, if_pos (Std.compare_eq_iff_eq.mpr h.symm)]
  · rw [if_neg h, if_neg (fun hc => h (Std.compare_eq_iff_eq.mp hc).symm)]

theorem mem_toList (db : Db) (key value : Bytes) :
    (key, value) ∈ db.map.toList ↔ db.get key = some value :=
  Std.ExtTreeMap.mem_toList_iff_getElem?_eq_some

end Db

inductive SledStoreError (SledError SerdeError : Type)
  | store (e : StoreError)
  | sled (e : SledError)
  | serde (e : SerdeError)
  deriving DecidableEq

/-- The database and the write-through cache in front of it. -/
structure SledStore (K V : Type) where
  db : Db
  cache : InMemoryStore K V

namespace SledStore

variable {K V SledError SerdeError : Type} [DecidableEq K]
  (kc : Codec SerdeError K) (vc : Codec SerdeError V)

def load (cache : InMemoryStore K V) : List (Except SledError (Bytes × Bytes)) →
    Except (SledStoreError SledError SerdeError) (InMemoryStore K V)
  | [] => .ok cache
  | entry :: entries => do
      let (key, value) ← entry.mapError .sled
      let key ← (kc.decode key).mapError .serde
      let value ← (vc.decode value).mapError .serde
      load (cache.insert key value) entries

def new (db : Db) : Except (SledStoreError SledError SerdeError) (SledStore K V) := do
  let cache ← load kc vc .new db.iter
  return ⟨db, cache⟩

def close (s : SledStore K V) : Except SledError Db := s.db.flush

def get (s : SledStore K V) (key : K) : Option V := s.cache.get key

def write (s : SledStore K V) (key : K) (item : V) (fault : Option SledError) :
    Except (SledStoreError SledError SerdeError) Unit × SledStore K V :=
  match kc.encode key with
  | .error e => (.error (.serde e), s)
  | .ok keyBytes =>
      match vc.encode item with
      | .error e => (.error (.serde e), s)
      | .ok itemBytes =>
          match s.db.insert fault keyBytes itemBytes with
          | (.error e, db) => (.error (.sled e), ⟨db, s.cache⟩)
          | (.ok (), db) => (.ok (), ⟨db, s.cache.insert key item⟩)

def create (s : SledStore K V) (key : K) (item : V) (fault : Option SledError) :
    Except (SledStoreError SledError SerdeError) Unit × SledStore K V :=
  if (s.cache.get key).isSome then (.error (.store .alreadyExists), s)
  else s.write kc vc key item fault

def update (s : SledStore K V) (key : K) (item : V) (fault : Option SledError) :
    Except (SledStoreError SledError SerdeError) Unit × SledStore K V :=
  if !(s.cache.get key).isSome then (.error (.store .notFound), s)
  else s.write kc vc key item fault

/-- The database decodes to the entries of the cache and to no others, whoever encoded them. -/
structure Mirrors (decode : Bytes → Except SerdeError V) (s : SledStore K V) : Prop where
  stored : ∀ k v, s.cache.get k = some v →
    ∃ kb vb, kc.encode k = .ok kb ∧ decode vb = .ok v ∧ s.db.get kb = some vb
  written : ∀ kb vb, s.db.get kb = some vb →
    ∃ k v, kc.encode k = .ok kb ∧ decode vb = .ok v ∧ s.cache.get k = some v

theorem mirrors_empty (decode : Bytes → Except SerdeError V) :
    Mirrors kc decode (⟨.empty, .new⟩ : SledStore K V) := by
  constructor
  · intro k v h
    cases h
  · intro kb vb h
    simp [Db.get, Db.empty] at h

theorem write_cases (s : SledStore K V) (key : K) (item : V) (fault : Option SledError) :
    (∃ e, s.write kc vc key item fault = (.error e, s) ∧ ∀ r, e ≠ .store r) ∨
    ∃ kb vb, kc.encode key = .ok kb ∧ vc.encode item = .ok vb ∧
      s.write kc vc key item fault =
        (.ok (), ⟨⟨s.db.map.insert kb vb⟩, s.cache.insert key item⟩) := by
  cases hk : kc.encode key with
  | error e => exact .inl ⟨.serde e, by simp only [write, hk], by simp⟩
  | ok kb =>
      cases hv : vc.encode item with
      | error e => exact .inl ⟨.serde e, by simp only [write, hk, hv], by simp⟩
      | ok vb =>
          cases fault with
          | some e => exact .inl ⟨.sled e, by simp only [write, hk, hv, Db.insert], by simp⟩
          | none => exact .inr ⟨kb, vb, rfl, rfl, by simp only [write, hk, hv, Db.insert]⟩

variable {kc vc}

/-- An entry is written over that of its key, and leaves the others to those who wrote them. -/
theorem mirrors_insert {decode : Bytes → Except SerdeError V} {s : SledStore K V}
    (hm : Mirrors kc decode s) {key : K} {item : V} {kb vb : Bytes} (hk : kc.encode key = .ok kb)
    (hv : decode vb = .ok item) :
    Mirrors kc decode ⟨⟨s.db.map.insert kb vb⟩, s.cache.insert key item⟩ := by
  constructor
  · intro k v hget
    rw [InMemoryStore.get_insert] at hget
    by_cases hkey : k = key
    · rw [if_pos hkey] at hget
      cases hget
      exact ⟨kb, vb, hkey ▸ hk, hv, by rw [Db.get_insert, if_pos rfl]⟩
    · rw [if_neg hkey] at hget
      obtain ⟨kb', vb', hk', hv', hdb⟩ := hm.stored k v hget
      have hne : kb' ≠ kb := fun he => hkey (kc.encode_inj (he ▸ hk') hk)
      exact ⟨kb', vb', hk', hv', by rw [Db.get_insert, if_neg hne, hdb]⟩
  · intro kb' vb' hdb
    rw [Db.get_insert] at hdb
    by_cases hkey : kb' = kb
    · rw [if_pos hkey] at hdb
      cases hdb
      exact ⟨key, item, hkey ▸ hk, hv, InMemoryStore.get_insert_self s.cache key item⟩
    · rw [if_neg hkey] at hdb
      obtain ⟨k, v, hk', hv', hget⟩ := hm.written kb' vb' hdb
      have hne : k ≠ key := fun he => hkey (Except.ok.inj (hk'.symm.trans (he ▸ hk)))
      exact ⟨k, v, hk', hv', by rw [InMemoryStore.get_insert_ne s.cache hne, hget]⟩

theorem load_cons (cache : InMemoryStore K V) {e : Bytes × Bytes} {k : K} {v : V}
    {entries : List (Except SledError (Bytes × Bytes))} (hk : kc.decode e.1 = .ok k)
    (hv : vc.decode e.2 = .ok v) :
    load kc vc cache (.ok e :: entries) = load kc vc (cache.insert k v) entries := by
  obtain ⟨kb, vb⟩ := e
  dsimp only at hk hv
  rw [load, Except.mapError]
  dsimp only [bind, Except.bind]
  rw [hk, hv]
  rfl

theorem load_mirrored (whole : InMemoryStore K V) (entries : List (Bytes × Bytes))
    (cache : InMemoryStore K V)
    (h : ∀ e ∈ entries, ∃ k v, kc.encode k = .ok e.1 ∧ vc.decode e.2 = .ok v ∧
      whole.get k = some v) :
    ∃ out, (load kc vc cache (entries.map .ok) :
        Except (SledStoreError SledError SerdeError) (InMemoryStore K V)) = .ok out ∧
      ∀ k, out.get k = whole.get k ∨
        (out.get k = cache.get k ∧ ∀ e ∈ entries, kc.encode k ≠ .ok e.1) := by
  induction entries generalizing cache with
  | nil => exact ⟨cache, rfl, fun k => .inr ⟨rfl, fun e he => absurd he List.not_mem_nil⟩⟩
  | cons e entries ih =>
      obtain ⟨k, v, hk, hv, hw⟩ := h e List.mem_cons_self
      obtain ⟨out, hout, hget⟩ := ih (cache.insert k v) (fun e he => h e (List.mem_cons_of_mem _ he))
      refine ⟨out, ?_, fun k' => ?_⟩
      · rw [List.map_cons, load_cons cache (kc.roundTrip k e.1 hk) hv, hout]
      · rcases hget k' with hg | ⟨hg, hn⟩
        · exact .inl hg
        · by_cases hkk : k' = k
          · left
            rw [hg, hkk, InMemoryStore.get_insert_self, hw]
          · right
            constructor
            · rw [hg, InMemoryStore.get_insert_ne cache hkk]
            · intro e' he' henc
              rcases List.mem_cons.mp he' with rfl | he'
              · exact hkk (kc.encode_inj henc hk)
              · exact hn e' he' henc

theorem load_iter {s : SledStore K V} (hm : Mirrors kc vc.decode s) :
    (load kc vc .new s.db.iter :
      Except (SledStoreError SledError SerdeError) (InMemoryStore K V)) = .ok s.cache := by
  have hentries : ∀ e ∈ s.db.map.toList, ∃ k v, kc.encode k = .ok e.1 ∧ vc.decode e.2 = .ok v ∧
      s.cache.get k = some v :=
    fun e he => hm.written e.1 e.2 ((Db.mem_toList s.db e.1 e.2).mp he)
  obtain ⟨out, hout, hget⟩ := load_mirrored s.cache s.db.map.toList .new hentries
  rw [Db.iter, hout]
  congr 1
  apply InMemoryStore.ext
  intro k
  rcases hget k with hg | ⟨hg, hn⟩
  · exact hg
  · cases hc : s.cache.get k with
    | none => exact hg
    | some v =>
        obtain ⟨kb, vb, hk, _, hdb⟩ := hm.stored k v hc
        exact absurd hk (hn (kb, vb) ((Db.mem_toList s.db kb vb).mpr hdb))

theorem write_failed {s : SledStore K V} {key : K} {item : V} {fault : Option SledError}
    {e : SledStoreError SledError SerdeError}
    (h : (s.write kc vc key item fault).1 = .error e) :
    (s.write kc vc key item fault).2 = s := by
  rcases write_cases kc vc s key item fault with ⟨_, hw, _⟩ | ⟨kb, vb, _, _, hw⟩
  · rw [hw]
  · rw [hw] at h
    cases h

theorem create_failed {s : SledStore K V} {key : K} {item : V} {fault : Option SledError}
    {e : SledStoreError SledError SerdeError}
    (h : (s.create kc vc key item fault).1 = .error e) :
    (s.create kc vc key item fault).2 = s := by
  rw [create] at h ⊢
  split at h
  next hk => rw [if_pos hk]
  next hk =>
    rw [if_neg hk]
    exact write_failed h

theorem update_failed {s : SledStore K V} {key : K} {item : V} {fault : Option SledError}
    {e : SledStoreError SledError SerdeError}
    (h : (s.update kc vc key item fault).1 = .error e) :
    (s.update kc vc key item fault).2 = s := by
  rw [update] at h ⊢
  split at h
  next hk => rw [if_pos hk]
  next hk =>
    rw [if_neg hk]
    exact write_failed h

/-- A store opened at the path of a closed one is that store. -/
theorem new_eq {s : SledStore K V} (hm : Mirrors kc vc.decode s) :
    (new kc vc s.db : Except (SledStoreError SledError SerdeError) (SledStore K V)) = .ok s := by
  rw [new, load_iter hm]
  rfl

end SledStore

end AiterCommerce.Core

import AiterCommerce.Encoding.Value
import AiterCommerce.Machine.Checked
import Mathlib.Data.Finmap

namespace AiterCommerce.Encoding.Json

variable {α β : Type}

/-- How a record is read: off the members of an object, or off the items of an
array in the order of its fields, with the items that are left over. -/
structure Record (α : Type) where
  ofMembers : List (String × Value) → Option α
  ofItems : List Value → Option (α × List Value)

namespace Record

instance : Applicative Record where
  pure a := ⟨fun _ => some a, fun vs => some (a, vs)⟩
  seq f x :=
    { ofMembers := fun ms => (f.ofMembers ms).bind (fun g => ((x ()).ofMembers ms).map g)
      ofItems := fun vs => (f.ofItems vs).bind (fun (g, rest) =>
        ((x ()).ofItems rest).map (fun (a, left) => (g a, left))) }

def field (name : String) (read : Value → Option α) : Record α where
  ofMembers ms :=
    match ms.filter (fun m => m.1 = name) with
    | [m] => read m.2
    | _ => none
  ofItems
    | [] => none
    | v :: vs => (read v).map (fun a => (a, vs))

def fieldOr (name : String) (read : Value → Option α) (default : α) : Record α where
  ofMembers ms :=
    match ms.filter (fun m => m.1 = name) with
    | [] => some default
    | [m] => read m.2
    | _ => none
  ofItems
    | [] => some (default, [])
    | v :: vs => (read v).map (fun a => (a, vs))

/-- Members that are no fields are passed over; an array may not go on after the fields. -/
def read (r : Record α) : Value → Option α
  | .object ms => r.ofMembers ms
  | .array vs =>
      match r.ofItems vs with
      | some (a, []) => some a
      | _ => none
  | _ => none

end Record

def nullable (read : Value → Option α) : Value → Option (Option α)
  | .null => some none
  | v => (read v).map some

def int64 : Value → Option Int64
  | .int n => Machine.toI64 n
  | _ => none

def uint32 : Value → Option UInt32
  | .int n => if 0 ≤ n ∧ n < 2 ^ 32 then some (UInt32.ofNat n.toNat) else none
  | _ => none

def listOf (read : Value → Option α) : Value → Option (List α)
  | .array vs => vs.mapM read
  | _ => none

def mapOf (read : Value → Option α) : Value → Option (Finmap (fun _ : String => α))
  | .object ms => (ms.mapM (fun m => (read m.2).map (Prod.mk m.1))).map (fun entries =>
      entries.foldl (fun map e => map.insert e.1 e.2) ∅)
  | _ => none

section Accepts

def Once (name : String) (P : Value → Prop) (ms : List (String × Value)) : Prop :=
  ∃ v, ms.filter (fun m => m.1 = name) = [(name, v)] ∧ P v

def AtMostOnce (name : String) (P : Value → Prop) (ms : List (String × Value)) : Prop :=
  (∀ m ∈ ms, m.1 ≠ name) ∨ Once name P ms

def Takes (r : Record α) (vs rest : List Value) : Prop := ∃ a, r.ofItems vs = some (a, rest)

variable {r : Record α} {f : Record (α → β)} {x : Record α} {name : String}
  {readField : Value → Option α} {default a : α} {ms : List (String × Value)}
  {vs rest : List Value}

theorem filter_name_eq_singleton {m : String × Value}
    (h : ms.filter (fun m => m.1 = name) = [m]) : m = (name, m.2) := by
  have hmem : m ∈ ms.filter (fun m => m.1 = name) := h ▸ List.mem_singleton_self m
  obtain ⟨-, hname⟩ := List.mem_filter.mp hmem
  rw [← of_decide_eq_true hname]

theorem ofMembers_pure : ((pure a : Record α).ofMembers ms).isSome := rfl

theorem ofMembers_field : ((Record.field name readField).ofMembers ms).isSome ↔
    Once name (fun v => (readField v).isSome) ms := by
  rw [Record.field, Once]
  dsimp only
  split
  next m h =>
    rw [h, filter_name_eq_singleton h]
    simp
  next h => exact iff_of_false (by simp) (fun ⟨v, hv, _⟩ => h _ hv)

/-- A field is read off any member of its name, since there is only one. -/
theorem ofMembers_field_of_mem {v : Value} (h : (Record.field name readField).ofMembers ms = some a)
    (hv : (name, v) ∈ ms) : readField v = some a := by
  have hmem : (name, v) ∈ ms.filter (fun m => m.1 = name) := List.mem_filter.mpr ⟨hv, by simp⟩
  rw [Record.field] at h
  dsimp only at h
  split at h
  next m hm =>
    rw [hm] at hmem
    obtain rfl := List.mem_singleton.mp hmem
    exact h
  next => cases h

theorem ofMembers_seq_eq_some {b : β} : (f <*> x).ofMembers ms = some b ↔
    ∃ g a, f.ofMembers ms = some g ∧ x.ofMembers ms = some a ∧ g a = b := by
  change ((f.ofMembers ms).bind (fun g => (x.ofMembers ms).map g)) = some b ↔ _
  simp only [Option.bind_eq_some_iff, Option.map_eq_some_iff]
  constructor
  · rintro ⟨g, hf, a, hx, hb⟩
    exact ⟨g, a, hf, hx, hb⟩
  · rintro ⟨g, a, hf, hx, hb⟩
    exact ⟨g, hf, a, hx, hb⟩

theorem ofMembers_seq : ((f <*> x).ofMembers ms).isSome ↔
    (f.ofMembers ms).isSome ∧ (x.ofMembers ms).isSome := by
  simp only [Option.isSome_iff_exists, ofMembers_seq_eq_some]
  constructor
  · rintro ⟨b, g, a, hf, hx, -⟩
    exact ⟨⟨g, hf⟩, a, hx⟩
  · rintro ⟨⟨g, hf⟩, a, hx⟩
    exact ⟨g a, g, a, hf, hx, rfl⟩

theorem ofMembers_fieldOr : ((Record.fieldOr name readField default).ofMembers ms).isSome ↔
    AtMostOnce name (fun v => (readField v).isSome) ms := by
  have habsent : ms.filter (fun m => m.1 = name) = [] ↔ ∀ m ∈ ms, m.1 ≠ name := by
    simp [List.filter_eq_nil_iff]
  rw [AtMostOnce, ← habsent, ← @ofMembers_field _ _ readField, Record.fieldOr,
    Record.field]
  dsimp only
  cases ms.filter (fun m => m.1 = name) with
  | nil => simp
  | cons m rest => cases rest <;> simp

theorem takes_pure : Takes (pure a : Record α) vs rest ↔ rest = vs := by
  change (∃ b, some (a, vs) = some (b, rest)) ↔ _
  simp [eq_comm]

theorem takes_seq : Takes (f <*> x) vs rest ↔ ∃ between, Takes f vs between ∧ Takes x between rest := by
  change (∃ b, (f.ofItems vs).bind (fun p =>
    (x.ofItems p.2).map (fun q => (p.1 q.1, q.2))) = some (b, rest)) ↔ _
  simp only [Takes]
  constructor
  · rintro ⟨b, hb⟩
    obtain ⟨⟨g, between⟩, hg, hx⟩ := Option.bind_eq_some_iff.mp hb
    obtain ⟨⟨c, left⟩, hc, heq⟩ := Option.map_eq_some_iff.mp hx
    obtain ⟨-, rfl⟩ := Prod.mk.inj heq
    exact ⟨between, ⟨g, hg⟩, c, hc⟩
  · rintro ⟨between, ⟨g, hg⟩, c, hc⟩
    exact ⟨g c, by rw [hg, Option.bind_some, hc, Option.map_some]⟩

theorem takes_field : Takes (Record.field name readField) vs rest ↔
    ∃ v, vs = v :: rest ∧ (readField v).isSome := by
  cases vs with
  | nil => simp [Takes, Record.field]
  | cons v vs =>
      simp only [Takes, Record.field, Option.map_eq_some_iff, Prod.mk.injEq, List.cons.injEq]
      constructor
      · rintro ⟨a, b, hb, rfl, rfl⟩
        exact ⟨v, ⟨rfl, rfl⟩, by rw [hb]; rfl⟩
      · rintro ⟨w, ⟨rfl, rfl⟩, hw⟩
        obtain ⟨b, hb⟩ := Option.isSome_iff_exists.mp hw
        exact ⟨b, b, hb, rfl, rfl⟩

theorem takes_fieldOr : Takes (Record.fieldOr name readField default) vs rest ↔
    (vs = [] ∧ rest = []) ∨ ∃ v, vs = v :: rest ∧ (readField v).isSome := by
  cases vs with
  | nil =>
      constructor
      · rintro ⟨a, h⟩
        obtain ⟨-, rfl⟩ := Prod.mk.inj (Option.some.inj h)
        exact .inl ⟨rfl, rfl⟩
      · rintro (⟨-, rfl⟩ | ⟨v, hv, -⟩)
        · exact ⟨default, rfl⟩
        · cases hv
  | cons v vs =>
      have hfield : Takes (Record.fieldOr name readField default) (v :: vs) rest ↔
          Takes (Record.field name readField) (v :: vs) rest := Iff.rfl
      rw [hfield, takes_field]
      simp

theorem read_object : (r.read (.object ms)).isSome ↔ (r.ofMembers ms).isSome := Iff.rfl

theorem read_array : (r.read (.array vs)).isSome ↔ Takes r vs [] := by
  simp only [Record.read, Takes]
  split
  next b h => exact iff_of_true rfl ⟨b, h⟩
  next h => exact iff_of_false (by simp) (fun ⟨b, hb⟩ => h b hb)

theorem nullable_isSome {v : Value} :
    (nullable readField v).isSome ↔ v = .null ∨ (readField v).isSome := by
  cases v <;> simp [nullable]

theorem asStr_isSome {v : Value} : v.asStr.isSome ↔ ∃ s, v = .string s := by
  cases v <;> simp [Value.asStr]

theorem int64_isSome {v : Value} : (int64 v).isSome ↔ ∃ n, v = .int n ∧ Machine.Fits n := by
  cases v <;> simp [int64, Machine.toI64_isSome, Machine.Fits]

theorem mapM_isSome {γ : Type} {read : γ → Option β} {xs : List γ} :
    (xs.mapM read).isSome ↔ ∀ y ∈ xs, (read y).isSome := by
  induction xs with
  | nil => simp
  | cons y ys ih =>
      rw [List.mapM_cons, List.forall_mem_cons, ← ih]
      cases read y <;> cases ys.mapM read <;> simp

theorem mapOf_isSome {v : Value} : (mapOf readField v).isSome ↔
    ∃ ms, v = .object ms ∧ ∀ m ∈ ms, (readField m.2).isSome := by
  cases v with
  | object ms => simp [mapOf, mapM_isSome]
  | _ => simp [mapOf]

end Accepts

end AiterCommerce.Encoding.Json

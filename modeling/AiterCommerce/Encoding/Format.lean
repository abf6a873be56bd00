import AiterCommerce.Encoding.Record
import Mathlib.Data.List.Nodup
import Mathlib.Data.List.Perm.Basic
import Mathlib.Data.String.Basic

namespace AiterCommerce.Encoding.Json

variable {α β σ : Type}

/-- How the members of an object are put in order where they are written. -/
structure Writer where
  arrange : List (String × Value) → List (String × Value)
  perm : ∀ ms, (arrange ms).Perm ms

namespace Writer

def object (w : Writer) (ms : List (String × Value)) : Value := .object (w.arrange ms)

/-- Members stand where they are declared. -/
def declared : Writer := ⟨fun ms => ms, .refl⟩

def byName : Writer :=
  ⟨fun ms => ms.mergeSort (fun a b => decide (a.1 ≤ b.1)), fun ms => List.mergeSort_perm ms _⟩

end Writer

/-- A type as it is written and read. A value may be shown in many forms, of which a writer
takes one, and it is read back from each. -/
structure Format (α : Type) where
  Shows : α → Value → Prop
  write : Writer → α → Value
  read : Value → Option α
  shows_write : ∀ w a, Shows a (write w a)
  read_of_shows : ∀ {a v}, Shows a v → read v = some a

section Entries

def Sorted (es : List (String × α)) : Prop := (es.map Prod.fst).Pairwise (· < ·)

/-- An entry takes its place among the others, or that of the entry under its key. -/
def put (key : String) (a : α) : List (String × α) → List (String × α)
  | [] => [(key, a)]
  | e :: es =>
      if key < e.1 then (key, a) :: e :: es
      else if key = e.1 then (key, a) :: es
      else e :: put key a es

def collect (es : List (String × α)) : List (String × α) :=
  es.foldl (fun map e => put e.1 e.2 map) []

variable {es : List (String × α)} {key : String} {a : α}

theorem keys_put {k : String} (h : k ∈ (put key a es).map Prod.fst) :
    k = key ∨ k ∈ es.map Prod.fst := by
  induction es with
  | nil => exact .inl (List.mem_singleton.mp h)
  | cons e es ih =>
      rw [put] at h
      split at h
      · exact List.mem_cons.mp h
      · split at h
        · rcases List.mem_cons.mp h with h | h
          · exact .inl h
          · exact .inr (List.mem_cons_of_mem _ h)
        · rcases List.mem_cons.mp h with h | h
          · exact .inr (List.mem_cons.mpr (.inl h))
          · exact (ih h).imp id (List.mem_cons_of_mem _)

theorem sorted_put (h : Sorted es) (key : String) (a : α) : Sorted (put key a es) := by
  induction es with
  | nil => exact List.pairwise_singleton _ _
  | cons e es ih =>
      obtain ⟨he, hes⟩ := List.pairwise_cons.mp h
      rw [put]
      split
      next hlt =>
        refine List.pairwise_cons.mpr ⟨fun k hk => ?_, h⟩
        rcases List.mem_cons.mp hk with rfl | hk
        · exact hlt
        · exact hlt.trans (he k hk)
      next hlt =>
        split
        next heq => exact List.pairwise_cons.mpr ⟨heq ▸ he, hes⟩
        next hne =>
          refine List.pairwise_cons.mpr ⟨fun k hk => ?_, ih hes⟩
          rcases keys_put hk with rfl | hk
          · exact lt_of_le_of_ne (not_lt.mp hlt) (Ne.symm hne)
          · exact he k hk

theorem perm_put (h : key ∉ es.map Prod.fst) : (put key a es).Perm ((key, a) :: es) := by
  induction es with
  | nil => exact .refl _
  | cons e es ih =>
      obtain ⟨hne, hkey⟩ := not_or.mp (List.mem_cons.not.mp h)
      rw [put]
      split
      · exact .refl _
      · exact ((ih hkey).cons e).trans (.swap _ _ _)

theorem sorted_foldl_put (h : Sorted es) (more : List (String × α)) :
    Sorted (more.foldl (fun map e => put e.1 e.2 map) es) := by
  induction more generalizing es with
  | nil => exact h
  | cons e more ih => exact ih (sorted_put h e.1 e.2)

theorem sorted_collect (es : List (String × α)) : Sorted (collect es) := by
  have hnil : Sorted ([] : List (String × α)) := List.Pairwise.nil
  exact sorted_foldl_put hnil es

theorem perm_foldl_put {more : List (String × α)} (h : ((more ++ es).map Prod.fst).Nodup) :
    (more.foldl (fun map e => put e.1 e.2 map) es).Perm (more ++ es) := by
  induction more generalizing es with
  | nil => exact .refl _
  | cons e more ih =>
      obtain ⟨hkey, hnodup⟩ := List.nodup_cons.mp h
      have hes : e.1 ∉ es.map Prod.fst := by
        intro hmem
        refine hkey ?_
        change e.1 ∈ (more ++ es).map Prod.fst
        rw [List.map_append]
        exact List.mem_append_right _ hmem
      have hput : (more ++ put e.1 e.2 es).Perm (e :: (more ++ es)) :=
        ((perm_put hes).append_left more).trans List.perm_middle
      refine (ih ?_).trans hput
      exact (hput.map Prod.fst).nodup_iff.mpr h

theorem collect_of_perm {es' : List (String × α)} (hs : Sorted es) (hp : es'.Perm es) :
    collect es' = es := by
  have hnodup : (es.map Prod.fst).Nodup := hs.imp (fun h => h.ne)
  have hperm : (collect es').Perm es := by
    have h : (collect es').Perm (es' ++ []) := perm_foldl_put (by
      rw [List.append_nil]
      exact (hp.map Prod.fst).nodup_iff.mpr hnodup)
    rw [List.append_nil] at h
    exact h.trans hp
  have hcollected : (collect es').Pairwise (fun x y => x.1 < y.1) :=
    List.pairwise_map.mp (sorted_collect es')
  have hsorted : es.Pairwise (fun x y => x.1 < y.1) := List.pairwise_map.mp hs
  refine hperm.eq_of_pairwise ?_ hcollected hsorted
  intro x y _ _ hxy hyx
  exact absurd (hxy.trans hyx) (lt_irrefl _)

end Entries

namespace Format

/-- Nobody shows two values in the same text. -/
theorem eq_of_text (f : Format α) {a b : α} {v v' : Value} (h : f.Shows a v) (h' : f.Shows b v')
    (ht : v'.text = v.text) : b = a := by
  obtain rfl : v' = v := text_injective ht
  exact Option.some.inj ((f.read_of_shows h').symm.trans (f.read_of_shows h))

def one (write : α → Value) (read : Value → Option α) (h : ∀ a, read (write a) = some a) :
    Format α where
  Shows a v := v = write a
  write _ := write
  read := read
  shows_write _ _ := rfl
  read_of_shows := by
    rintro a v rfl
    exact h a

def text : Format String := .one .string Value.asStr (fun _ => rfl)

theorem text_ne_null (s : String) : ¬ text.Shows s .null := Value.noConfusion

def bool : Format Bool :=
  .one .bool (fun | .bool b => some b | _ => none) (fun _ => rfl)

def i64 : Format Int64 :=
  .one (fun n => .int n.toInt) int64 (fun _ => Machine.toI64_eq_some.mpr rfl)

def u32 : Format UInt32 :=
  .one (fun n => .int n.toNat) uint32 (fun n => by
    have hlt : (n.toNat : Int) < 2 ^ 32 := by exact_mod_cast n.toNat_lt
    rw [uint32, if_pos ⟨Int.natCast_nonneg _, hlt⟩, Int.toNat_natCast, UInt32.ofNat_toNat])

def uint64 : Value → Option UInt64
  | .int n => if 0 ≤ n ∧ n < 2 ^ 64 then some (UInt64.ofNat n.toNat) else none
  | _ => none

def u64 : Format UInt64 :=
  .one (fun n => .int n.toNat) uint64 (fun n => by
    have hlt : (n.toNat : Int) < 2 ^ 64 := by exact_mod_cast n.toNat_lt
    rw [uint64, if_pos ⟨Int.natCast_nonneg _, hlt⟩, Int.toNat_natCast, UInt64.ofNat_toNat])

/-- A variant without content is a name; one with content is the only member of an object. -/
def readVariant (plain : String → Option α) (carrying : String → Value → Option α) :
    Value → Option α
  | .string name | .object [(name, .null)] => plain name
  | .object [(name, v)] => carrying name v
  | _ => none

theorem readVariant_carrying {plain : String → Option α} {carrying : String → Value → Option α}
    {name : String} {v : Value} (hv : v ≠ .null) {a : α} (h : carrying name v = some a) :
    readVariant plain carrying (.object [(name, v)]) = some a := by
  cases v with
  | null => exact absurd rfl hv
  | _ => exact h

def named (name : α → String) (ofName : String → Option α) (h : ∀ a, ofName (name a) = some a) :
    Format α :=
  .one (fun a => .string (name a)) (readVariant ofName (fun _ _ => none)) h

theorem named_ne_null {name : α → String} {ofName : String → Option α}
    {h : ∀ a, ofName (name a) = some a} (a : α) : ¬ (named name ofName h).Shows a .null :=
  Value.noConfusion

def map (f : Format α) (make : α → β) (of : β → α) (h : ∀ b, make (of b) = b) : Format β where
  Shows b v := f.Shows (of b) v
  write w b := f.write w (of b)
  read v := (f.read v).map make
  shows_write w b := f.shows_write w (of b)
  read_of_shows hv := by rw [f.read_of_shows hv, Option.map_some, h]

def orNull (f : Format α) (hf : ∀ a, ¬ f.Shows a .null) : Format (Option α) where
  Shows
    | none, v => v = .null
    | some a, v => f.Shows a v
  write w a := (a.map (f.write w)).getD .null
  read := nullable f.read
  shows_write w a := by
    cases a with
    | none => rfl
    | some a => exact f.shows_write w a
  read_of_shows {a v} h := by
    cases a with
    | none =>
        obtain rfl : v = .null := h
        rfl
    | some a =>
        have hread : f.read v = some a := f.read_of_shows h
        cases v with
        | null => exact absurd h (hf a)
        | _ => exact congrArg (Option.map some) hread

theorem mapM_of_forall₂ {γ : Type} {g : γ → Option β} {bs : List β} {xs : List γ}
    (h : List.Forall₂ (fun b x => g x = some b) bs xs) : xs.mapM g = some bs := by
  induction h with
  | nil => rfl
  | cons hx _ ih =>
      rw [List.mapM_cons, hx, ih]
      rfl

def list (f : Format α) : Format (List α) where
  Shows as v := ∃ vs, v = .array vs ∧ List.Forall₂ f.Shows as vs
  write w as := .array (as.map (f.write w))
  read := listOf f.read
  shows_write w as := by
    refine ⟨_, rfl, List.forall₂_map_right_iff.mpr (List.forall₂_same.mpr ?_)⟩
    exact fun a _ => f.shows_write w a
  read_of_shows := by
    rintro as v ⟨vs, rfl, h⟩
    exact mapM_of_forall₂ (h.imp (fun _ _ => f.read_of_shows))

def entry (f : Format α) (m : String × Value) : Option (String × α) :=
  (f.read m.2).map (Prod.mk m.1)

def ShowsEntry (f : Format α) (e : String × α) (m : String × Value) : Prop :=
  m.1 = e.1 ∧ f.Shows e.2 m.2

theorem entry_of_shows {f : Format α} {e : String × α} {m : String × Value}
    (h : f.ShowsEntry e m) : f.entry m = some e := by
  rw [entry, f.read_of_shows h.2, Option.map_some, h.1]

/-- A map with text keys, whose entries come in any order. -/
def sortedMap (f : Format α) : Format { es : List (String × α) // Sorted es } where
  Shows es v := ∃ shown ms, v = .object ms ∧ ms.Perm shown ∧ List.Forall₂ f.ShowsEntry es.val shown
  write w es := w.object (es.val.map (fun e => (e.1, f.write w e.2)))
  read
    | .object ms => (ms.mapM f.entry).map (fun es => ⟨collect es, sorted_collect es⟩)
    | _ => none
  shows_write w es := by
    refine ⟨_, _, rfl, w.perm _, List.forall₂_map_right_iff.mpr (List.forall₂_same.mpr ?_)⟩
    exact fun e _ => ⟨rfl, f.shows_write w e.2⟩
  read_of_shows := by
    rintro ⟨es, hes⟩ v ⟨shown, ms, rfl, hp, h⟩
    obtain ⟨es', h', hperm⟩ := List.perm_comp_forall₂ hp h.flip
    have hread : ms.mapM f.entry = some es' := mapM_of_forall₂ (h'.flip.imp (fun _ _ => entry_of_shows))
    dsimp only
    rw [hread]
    exact congrArg some (Subtype.ext (collect_of_perm hes hperm))

end Format

section Layout

/-- The fields of a record, as they are shown of values of `σ` and read to the part of the
record they make up. Reading looks at the members of these names and at no others. -/
structure Layout (σ α : Type) where
  record : Record α
  Shows : σ → List (String × Value) → Prop
  members : Writer → σ → List (String × Value)
  value : σ → α
  names : List String
  shows_members : ∀ w s, Shows s (members w s)
  within : ∀ {s ms}, Shows s ms → ∀ m ∈ ms, m.1 ∈ names
  distinct : ∀ {s ms}, Shows s ms → (ms.map Prod.fst).Nodup
  byName : ∀ {ms ms'}, (∀ n ∈ names, ms.filter (fun m => m.1 = n) = ms'.filter (fun m => m.1 = n)) →
    record.ofMembers ms = record.ofMembers ms'
  reads : ∀ {s ms}, Shows s ms → record.ofMembers ms = some (value s)

namespace Layout

variable {ms shown others : List (String × Value)}

theorem filter_name_eq_nil {n : String} (h : ∀ m ∈ ms, m.1 ≠ n) :
    ms.filter (fun m => m.1 = n) = [] := by
  rw [List.filter_eq_nil_iff]
  exact fun m hm hn => h m hm (of_decide_eq_true hn)

theorem length_filter_name_le (hd : (ms.map Prod.fst).Nodup) (n : String) :
    (ms.filter (fun m => m.1 = n)).length ≤ 1 := by
  have hnodup : ((ms.filter (fun m => m.1 = n)).map Prod.fst).Nodup :=
    (List.filter_sublist.map Prod.fst).nodup hd
  have hsame : (ms.filter (fun m => m.1 = n)).map Prod.fst =
      List.replicate (ms.filter (fun m => m.1 = n)).length n := by
    rw [List.eq_replicate_iff, List.length_map]
    refine ⟨rfl, fun k hk => ?_⟩
    obtain ⟨m, hm, rfl⟩ := List.mem_map.mp hk
    exact of_decide_eq_true (List.mem_filter.mp hm).2
  rw [hsame] at hnodup
  exact List.nodup_replicate.mp hnodup

theorem eq_of_perm_of_short {γ : Type} {xs ys : List γ} (h : xs.Perm ys) (hlen : ys.length ≤ 1) :
    xs = ys := by
  cases ys with
  | nil => exact h.eq_nil
  | cons y ys =>
      rw [List.length_cons] at hlen
      obtain rfl : ys = [] := List.length_eq_zero_iff.mp (by omega)
      exact List.perm_singleton.mp h

/-- The fields are found among members in any order, and among others that are no fields. -/
theorem ofMembers_of_perm (l : Layout σ α) {s : σ} (h : l.Shows s shown)
    (hp : ms.Perm (shown ++ others)) (ho : ∀ m ∈ others, m.1 ∉ l.names) :
    l.record.ofMembers ms = some (l.value s) := by
  rw [← l.reads h]
  apply l.byName
  intro n hn
  have hnone : others.filter (fun m => m.1 = n) = [] :=
    filter_name_eq_nil (fun m hm heq => ho m hm (heq ▸ hn))
  have hkept : (shown ++ others).filter (fun m => m.1 = n) = shown.filter (fun m => m.1 = n) := by
    rw [List.filter_append, hnone, List.append_nil]
  have hfilter := hp.filter (fun m => decide (m.1 = n))
  rw [hkept] at hfilter
  exact eq_of_perm_of_short hfilter (length_filter_name_le (l.distinct h) n)

def done (a : α) : Layout σ α where
  record := pure a
  Shows _ ms := ms = []
  members _ _ := []
  value _ := a
  names := []
  shows_members _ _ := rfl
  within := by
    rintro s ms rfl
    simp
  distinct := by
    rintro s ms rfl
    exact List.nodup_nil
  byName _ := rfl
  reads _ := rfl

/-- A field is the member of its name, or no member. -/
def member (name : String) (record : Record α) (Shows : σ → Option Value → Prop)
    (write : Writer → σ → Option Value) (value : σ → α) (shows_write : ∀ w s, Shows s (write w s))
    (byName : ∀ {ms ms'}, ms.filter (fun m => m.1 = name) = ms'.filter (fun m => m.1 = name) →
      record.ofMembers ms = record.ofMembers ms')
    (reads : ∀ {s v}, Shows s v → record.ofMembers (v.map (Prod.mk name)).toList = some (value s)) :
    Layout σ α where
  record := record
  Shows s ms := ∃ v, ms = (v.map (Prod.mk name)).toList ∧ Shows s v
  members w s := ((write w s).map (Prod.mk name)).toList
  value := value
  names := [name]
  shows_members w s := ⟨_, rfl, shows_write w s⟩
  within := by
    rintro s ms ⟨v, rfl, -⟩ m hm
    obtain ⟨v, -, rfl⟩ := Option.map_eq_some_iff.mp (Option.mem_toList.mp hm)
    exact List.mem_singleton.mpr rfl
  distinct := by
    rintro s ms ⟨v, rfl, -⟩
    cases v <;> simp
  byName h := byName (h name (List.mem_singleton.mpr rfl))
  reads := by
    rintro s ms ⟨v, rfl, hv⟩
    exact reads hv

def field (name : String) (f : Format α) (get : σ → α) : Layout σ α :=
  member name (Record.field name f.read) (fun s v => ∃ x, v = some x ∧ f.Shows (get s) x)
    (fun w s => some (f.write w (get s))) get (fun w s => ⟨_, rfl, f.shows_write w (get s)⟩)
    (fun h => by simp only [Record.field, h])
    (by
      rintro s v ⟨x, rfl, hx⟩
      simp [Record.field, f.read_of_shows hx])

/-- A field that anybody may leave out where it is the default, and the program does when it
says so. -/
def defaulted (name : String) (f : Format α) (default : α) (get : σ → α) (omits : σ → Bool)
    (h : ∀ s, omits s = true → get s = default) : Layout σ α :=
  member name (Record.fieldOr name f.read default)
    (fun s v => (v = none ∧ get s = default) ∨ ∃ x, v = some x ∧ f.Shows (get s) x)
    (fun w s => if omits s then none else some (f.write w (get s))) get
    (fun w s => by
      split
      next ho => exact .inl ⟨rfl, h s ho⟩
      next => exact .inr ⟨_, rfl, f.shows_write w (get s)⟩)
    (fun h => by simp only [Record.fieldOr, h])
    (by
      rintro s v (⟨rfl, hd⟩ | ⟨x, rfl, hx⟩)
      · simp [Record.fieldOr, hd]
      · simp [Record.fieldOr, f.read_of_shows hx])

def fieldOr (name : String) (f : Format α) (default : α) (get : σ → α) : Layout σ α :=
  defaulted name f default get (fun _ => false) (fun _ h => Bool.noConfusion h)

/-- A field that is left out, or null, when there is nothing to show. -/
def optional (name : String) (f : Format α) (hf : ∀ a, ¬ f.Shows a .null) (get : σ → Option α) :
    Layout σ (Option α) :=
  defaulted name (f.orNull hf) none get (fun s => (get s).isNone) (fun _ => Option.isNone_iff_eq_none.mp)

/-- A field that is always there, and null when there is nothing to show. -/
def nullable (name : String) (f : Format α) (hf : ∀ a, ¬ f.Shows a .null) (get : σ → Option α) :
    Layout σ (Option α) :=
  field name (f.orNull hf) get

def and (l : Layout σ (α → β)) (r : Layout σ α) (h : ∀ n ∈ l.names, n ∉ r.names := by decide) :
    Layout σ β where
  record := l.record <*> r.record
  Shows s ms := ∃ xs ys, ms = xs ++ ys ∧ l.Shows s xs ∧ r.Shows s ys
  members w s := l.members w s ++ r.members w s
  value s := l.value s (r.value s)
  names := l.names ++ r.names
  shows_members w s := ⟨_, _, rfl, l.shows_members w s, r.shows_members w s⟩
  within := by
    rintro s ms ⟨xs, ys, rfl, hx, hy⟩ m hm
    rcases List.mem_append.mp hm with hm | hm
    · exact List.mem_append_left _ (l.within hx m hm)
    · exact List.mem_append_right _ (r.within hy m hm)
  distinct := by
    rintro s ms ⟨xs, ys, rfl, hx, hy⟩
    rw [List.map_append]
    refine List.nodup_append'.mpr ⟨l.distinct hx, r.distinct hy, ?_⟩
    intro n hl hr
    obtain ⟨m, hm, rfl⟩ := List.mem_map.mp hl
    obtain ⟨m', hm', heq⟩ := List.mem_map.mp hr
    exact h _ (l.within hx m hm) (heq ▸ r.within hy m' hm')
  byName {ms ms'} hms := by
    have hl := l.byName (fun n hn => hms n (List.mem_append_left _ hn))
    have hr := r.byName (fun n hn => hms n (List.mem_append_right _ hn))
    change (l.record.ofMembers ms).bind (fun g => (r.record.ofMembers ms).map g) =
      (l.record.ofMembers ms').bind (fun g => (r.record.ofMembers ms').map g)
    rw [hl, hr]
  reads := by
    rintro s ms ⟨xs, ys, rfl, hx, hy⟩
    rw [ofMembers_seq_eq_some]
    refine ⟨_, _, l.ofMembers_of_perm hx (.refl _) ?_, r.ofMembers_of_perm hy
      List.perm_append_comm ?_, rfl⟩
    · exact fun m hm hl => h _ hl (r.within hy m hm)
    · exact fun m hm hr => h _ (l.within hx m hm) hr

end Layout

/-- A record that is read to the value it shows. Its members come in any order, and others that
are no fields may be among them. -/
def Format.record (l : Layout σ σ) (h : ∀ s, l.value s = s) : Format σ where
  Shows s v := ∃ ms shown others, v = .object ms ∧ l.Shows s shown ∧ ms.Perm (shown ++ others) ∧
    ∀ m ∈ others, m.1 ∉ l.names
  write w s := w.object (l.members w s)
  read := l.record.read
  shows_write w s := by
    refine ⟨_, _, [], rfl, l.shows_members w s, ?_, by simp⟩
    rw [List.append_nil]
    exact w.perm _
  read_of_shows := by
    rintro s v ⟨ms, shown, others, rfl, hs, hp, ho⟩
    have hread := l.ofMembers_of_perm hs hp ho
    rw [h] at hread
    exact hread

theorem Format.record_ne_null (l : Layout σ σ) (h : ∀ s, l.value s = s) (s : σ) :
    ¬ (Format.record l h).Shows s .null := by
  rintro ⟨ms, shown, others, hv, -⟩
  cases hv

end Layout

end AiterCommerce.Encoding.Json

import AiterCommerce.Server.Feed
import AiterCommerce.Sorting.Stable
import Mathlib.Data.String.Basic

namespace AiterCommerce.Guarantees.Ranking

open AiterCommerce.Core Server Sorting

/-- Where a product matches: in its title, from a byte on, or else in a tag, or else in
its description only. -/
inductive Match
  | title (pos : Nat)
  | tag
  | description

section Query

variable (toLowercase : String → String) (q : String)

def Contains (s : String) : Prop := q.toList <:+: (toLowercase s).toList

def Matches (p : Product) : Prop :=
  Contains toLowercase q p.title ∨ (∃ t ∈ p.tags, Contains toLowercase q t) ∨
    Contains toLowercase q p.description

def matchOf (p : Product) : Option Match :=
  match findBytes q.toList (toLowercase p.title).toList with
  | some pos => some (.title pos)
  | none =>
      if p.tags.any (fun t => (findBytes q.toList (toLowercase t).toList).isSome) then some .tag
      else if (findBytes q.toList (toLowercase p.description).toList).isSome then some .description
      else none

end Query

/-- A better kind of match, or an earlier place in the title. -/
def Match.Outranks : Match → Match → Prop
  | title pos, title pos' => pos < pos'
  | title _, _ => True
  | tag, description => True
  | _, _ => False

section Claim

variable (toLowercase : String → String) (q : String)

/-- The better match first, and of matches as good the smaller id. -/
def Precedes (a b : Product) : Prop :=
  ∀ m m', matchOf toLowercase q a = some m → matchOf toLowercase q b = some m' →
    m.Outranks m' ∨ (¬ m'.Outranks m ∧ a.id ≤ b.id)

theorem findBytes_isSome {needle hay : List Char} :
    (findBytes needle hay).isSome ↔ needle <:+: hay := by
  induction hay with
  | nil =>
      rw [findBytes, List.infix_nil]
      split <;> simp_all
  | cons c rest ih =>
      rw [findBytes, List.infix_cons_iff, ← ih, ← List.isPrefixOf_iff_prefix]
      split
      next h => simp [h]
      next h => simp [h]

theorem matchOf_isSome {p : Product} :
    (matchOf toLowercase q p).isSome ↔ Matches toLowercase q p := by
  simp only [Matches, Contains, ← findBytes_isSome, matchOf]
  cases findBytes q.toList (toLowercase p.title).toList with
  | some pos => simp
  | none =>
      simp only [Option.isSome_none, Bool.false_eq_true, false_or, List.any_eq_true]
      split
      next h => simp [h]
      next h =>
        split
        next hd => simp [hd]
        next hd => simp [h, hd]

instance (p : Product) : Decidable (Matches toLowercase q p) :=
  decidable_of_iff _ (matchOf_isSome toLowercase q)

/-- No title match is so far in that the subtraction wraps. -/
def Fits (items : List Product) : Prop :=
  ∀ p ∈ items, ∀ pos, matchOf toLowercase q p = some (.title pos) → pos ≤ 100000

/-- The result has the matching products, each as often as the catalog, the better ones
first, and no position was too great to be subtracted. -/
structure Ranked (items result : List Product) : Prop where
  members : result.Perm (items.filter (fun p => Matches toLowercase q p))
  order : result.Pairwise (Precedes toLowercase q)
  fits : Fits toLowercase q items

end Claim

def Match.weight : Match → Nat
  | title pos => 100000 - pos
  | tag => 1000
  | description => 100

def Match.isTitle : Match → Bool
  | title _ => true
  | _ => false

/-- Titles match so early that their rank stays above that of every other match; at the
same rank the product comes first in the catalog. -/
def Separated (toLowercase : String → String) (q : String) (items : List Product) : Prop :=
  ∀ p ∈ items, ∀ pos, matchOf toLowercase q p = some (.title pos) → pos < 100000 ∧
    ∀ a ∈ items, ∀ m, matchOf toLowercase q a = some m → m.isTitle = false →
      pos + m.weight < 100000 ∨ (pos + m.weight = 100000 ∧ ¬ List.Sublist [a, p] items)

section Rank

variable {toLowercase : String → String} {q : String} {items : List Product} {a b p : Product}
  {m m' : Match} {pos : Nat}

def Match.rank : Match → UInt64
  | title pos => 100000 - UInt64.ofNat pos
  | tag => 1000
  | description => 100

theorem searchRank_eq : searchRank toLowercase p q = (matchOf toLowercase q p).elim 0 Match.rank := by
  rw [searchRank, matchOf]
  cases findBytes q.toList (toLowercase p.title).toList with
  | some pos => rfl
  | none =>
      dsimp only
      split
      · rfl
      · split <;> rfl

theorem toNat_rank_title (hpos : pos ≤ 100000) : (Match.title pos).rank.toNat = 100000 - pos := by
  have hsize : UInt64.size = 2 ^ 64 := rfl
  have hn : (UInt64.ofNat pos).toNat = pos := UInt64.toNat_ofNat_of_lt' (by omega)
  have hle : UInt64.ofNat pos ≤ 100000 := by
    rw [UInt64.le_iff_toNat_le, hn]
    exact hpos
  rw [Match.rank, UInt64.toNat_sub_of_le _ _ hle, hn]
  rfl

theorem Fits.toNat_searchRank (h : Fits toLowercase q items) (hp : p ∈ items)
    (hm : matchOf toLowercase q p = some m) : (searchRank toLowercase p q).toNat = m.weight := by
  rw [searchRank_eq, hm, Option.elim_some]
  cases m with
  | title pos => exact toNat_rank_title (h p hp pos hm)
  | tag => rfl
  | description => rfl

def rankLe (toLowercase : String → String) (q : String) (a b : Product) : Bool :=
  decide (searchRank toLowercase b q < searchRank toLowercase a q ∨
    (searchRank toLowercase a q = searchRank toLowercase b q ∧ a.id ≤ b.id))

theorem searched_eq (toLowercase : String → String) (q : String) (items : List Product) :
    searched toLowercase (some q) items =
      (items.filter (fun p => 0 < searchRank toLowercase p (toLowercase q))).mergeSort
        (rankLe toLowercase (toLowercase q)) := rfl

theorem rankLe_iff : rankLe toLowercase q a b = true ↔
    (searchRank toLowercase b q).toNat < (searchRank toLowercase a q).toNat ∨
      ((searchRank toLowercase a q).toNat = (searchRank toLowercase b q).toNat ∧ a.id ≤ b.id) := by
  rw [rankLe, decide_eq_true_iff, UInt64.lt_iff_toNat_lt, UInt64.toNat_inj]

theorem rankLe_trans (a b c : Product) (hab : rankLe toLowercase q a b = true)
    (hbc : rankLe toLowercase q b c = true) : rankLe toLowercase q a c = true := by
  rw [rankLe_iff] at hab hbc ⊢
  rcases hab with hab | ⟨hab, hid⟩
  · left
    omega
  · rcases hbc with hbc | ⟨hbc, hid'⟩
    · left
      omega
    · exact .inr ⟨hab.trans hbc, le_trans hid hid'⟩

theorem rankLe_total (a b : Product) :
    (rankLe toLowercase q a b || rankLe toLowercase q b a) = true := by
  rw [Bool.or_eq_true, rankLe_iff, rankLe_iff]
  rcases Nat.lt_trichotomy (searchRank toLowercase a q).toNat (searchRank toLowercase b q).toNat
    with h | h | h
  · exact .inr (.inl h)
  · rcases le_total a.id b.id with hid | hid
    · exact .inl (.inr ⟨h, hid⟩)
    · exact .inr (.inr ⟨h.symm, hid⟩)
  · exact .inl (.inl h)

end Rank

section Order

variable {toLowercase : String → String} {q : String} {items : List Product} {a b p : Product}
  {m m' : Match} {pos : Nat}

theorem not_precedes_title (ha : matchOf toLowercase q a = some m) (hm : m.isTitle = false)
    (hp : matchOf toLowercase q p = some (.title pos)) : ¬ Precedes toLowercase q a p := by
  intro h
  rcases h m _ ha hp with hout | ⟨hout, -⟩ <;> cases m <;> simp_all [Match.Outranks, Match.isTitle]

theorem precedes_of_weight (ha : matchOf toLowercase q a = some m)
    (hb : matchOf toLowercase q b = some m') (hpos : ∀ pos, m' = .title pos → pos < 100000)
    (htitle : m'.isTitle = true → m.isTitle = true)
    (h : m'.weight < m.weight ∨ (m.weight = m'.weight ∧ a.id ≤ b.id)) :
    Precedes toLowercase q a b := by
  intro n n' hn hn'
  obtain rfl := Option.some.inj (ha.symm.trans hn)
  obtain rfl := Option.some.inj (hb.symm.trans hn')
  cases m with
  | title pos =>
      cases m' with
      | title pos' =>
          have hlt := hpos pos' rfl
          change 100000 - pos' < 100000 - pos ∨ (100000 - pos = 100000 - pos' ∧ _) at h
          rcases h with h | ⟨h, hid⟩
          · left
            change pos < pos'
            omega
          · by_cases hfirst : pos < pos'
            · exact .inl hfirst
            · refine .inr ⟨?_, hid⟩
              change ¬ pos' < pos
              omega
      | tag => exact .inl trivial
      | description => exact .inl trivial
  | tag =>
      cases m' with
      | title pos' => cases htitle rfl
      | tag => exact .inr ⟨fun h => h, (h.resolve_left (lt_irrefl _)).2⟩
      | description => exact .inl trivial
  | description =>
      cases m' with
      | title pos' => cases htitle rfl
      | tag =>
          change 1000 < 100 ∨ (100 = 1000 ∧ _) at h
          omega
      | description => exact .inr ⟨fun h => h, (h.resolve_left (lt_irrefl _)).2⟩

theorem filter_rank_eq (h : ∀ p ∈ items, ∀ pos, matchOf toLowercase q p = some (.title pos) →
      pos < 100000) :
    items.filter (fun p => 0 < searchRank toLowercase p q) =
      items.filter (fun p => Matches toLowercase q p) := by
  apply List.filter_congr
  intro p hp
  rw [decide_eq_decide, ← matchOf_isSome, UInt64.lt_iff_toNat_lt]
  cases hm : matchOf toLowercase q p with
  | none =>
      rw [searchRank_eq, hm]
      simp
  | some m =>
      have hfits : Fits toLowercase q items := fun p hp pos hm => Nat.le_of_lt (h p hp pos hm)
      rw [hfits.toNat_searchRank hp hm]
      refine iff_of_true ?_ rfl
      cases m with
      | title pos =>
          have hpos := h p hp pos hm
          change 0 < 100000 - pos
          omega
      | tag => decide
      | description => decide

section Sorted

variable (hsorted : items.Pairwise (fun a b => a.id ≤ b.id))
include hsorted

theorem pair_sublist_of_rank_eq
    (h : List.Sublist [a, b] ((items.filter (fun p => 0 < searchRank toLowercase p q)).mergeSort
      (rankLe toLowercase q)))
    (hrank : (searchRank toLowercase a q).toNat = (searchRank toLowercase b q).toNat) :
    List.Sublist [a, b] items := by
  by_cases hle : rankLe toLowercase q b a = true
  · exact (pair_sublist_of_tie rankLe_trans rankLe_total h hle).trans List.filter_sublist
  · have hid : ¬ b.id ≤ a.id := fun hid => hle (rankLe_iff.mpr (.inr ⟨hrank.symm, hid⟩))
    have hmem : ∀ c ∈ [a, b], c ∈ items := fun c hc =>
      List.mem_of_mem_filter (List.mem_mergeSort.mp (h.subset hc))
    have hne : a ≠ b := by
      rintro rfl
      exact hid le_rfl
    rcases pair_sublist_or (hmem a (by simp)) (hmem b (by simp)) hne with hab | hba
    · exact hab
    · exact absurd (List.pairwise_iff_forall_sublist.mp hsorted hba) hid

theorem ranked_of_separated (h : Separated toLowercase q items) :
    Ranked toLowercase q items
      ((items.filter (fun p => 0 < searchRank toLowercase p q)).mergeSort
        (rankLe toLowercase q)) := by
  have hlt : ∀ p ∈ items, ∀ pos, matchOf toLowercase q p = some (.title pos) → pos < 100000 :=
    fun p hp pos hm => (h p hp pos hm).1
  have hfits : Fits toLowercase q items := fun p hp pos hm => Nat.le_of_lt (hlt p hp pos hm)
  refine ⟨?_, ?_, hfits⟩
  · rw [filter_rank_eq hlt]
    exact List.mergeSort_perm _ _
  · apply List.pairwise_iff_forall_sublist.mpr
    intro a b hab
    have hmem : ∀ c ∈ [a, b], c ∈ items := fun c hc =>
      List.mem_of_mem_filter (List.mem_mergeSort.mp (hab.subset hc))
    have ha := hmem a (by simp)
    have hb := hmem b (by simp)
    have hle := rankLe_iff.mp (le_of_pair_sublist rankLe_trans rankLe_total hab)
    intro m m' hm hm'
    have hwa := hfits.toNat_searchRank ha hm
    have hwb := hfits.toNat_searchRank hb hm'
    refine precedes_of_weight hm hm' ?_ ?_ (hwa ▸ hwb ▸ hle) m m' hm hm'
    · rintro pos rfl
      exact hlt b hb pos hm'
    · intro htitle
      cases m' with
      | title pos =>
          by_contra hnot
          have hw : (Match.title pos).weight = 100000 - pos := rfl
          have hpos := hlt b hb pos hm'
          rcases (h b hb pos hm').2 a ha m hm (by simpa using hnot) with hgap | ⟨htie, hlater⟩
          · omega
          · exact hlater (pair_sublist_of_rank_eq hsorted hab (by omega))
      | tag => cases htitle
      | description => cases htitle

theorem separated_of_ranked (h : Ranked toLowercase q items
      ((items.filter (fun p => 0 < searchRank toLowercase p q)).mergeSort
        (rankLe toLowercase q))) :
    Separated toLowercase q items := by
  have hpositive : ∀ p ∈ items, ∀ m, matchOf toLowercase q p = some m →
      0 < searchRank toLowercase p q := by
    intro p hp m hm
    have hmatch : p ∈ items.filter (fun p => Matches toLowercase q p) := by
      rw [List.mem_filter, decide_eq_true_iff, ← matchOf_isSome, hm]
      exact ⟨hp, rfl⟩
    have hmem := List.mem_mergeSort.mp (h.members.mem_iff.mpr hmatch)
    simpa using List.of_mem_filter hmem
  intro p hp pos hm
  have hw := h.fits.toNat_searchRank hp hm
  have hlt : pos < 100000 := by
    have hpos := UInt64.lt_iff_toNat_lt.mp (hpositive p hp _ hm)
    rw [hw] at hpos
    change 0 < 100000 - pos at hpos
    omega
  refine ⟨hlt, ?_⟩
  intro a ha m hma hnot
  have hwa := h.fits.toNat_searchRank ha hma
  have hwp : (searchRank toLowercase p q).toNat = 100000 - pos := hw
  have hbad : ¬ List.Sublist [a, p] ((items.filter (fun p =>
      0 < searchRank toLowercase p q)).mergeSort (rankLe toLowercase q)) := by
    intro hab
    exact not_precedes_title hma hnot hm (List.pairwise_iff_forall_sublist.mp h.order hab)
  rcases Nat.lt_trichotomy (pos + m.weight) 100000 with hgap | htie | hover
  · exact .inl hgap
  · right
    refine ⟨htie, fun hab => hbad ?_⟩
    have hle : rankLe toLowercase q a p = true :=
      rankLe_iff.mpr (.inr ⟨by omega, List.pairwise_iff_forall_sublist.mp hsorted hab⟩)
    apply List.pair_sublist_mergeSort rankLe_trans rankLe_total hle
    have hfilter := hab.filter (fun p => 0 < searchRank toLowercase p q)
    rwa [List.filter_cons_of_pos (by simpa using hpositive a ha m hma),
      List.filter_cons_of_pos (by simpa using hpositive p hp _ hm), List.filter_nil] at hfilter
  · refine absurd ?_ hbad
    apply pair_sublist_of_lt rankLe_trans rankLe_total
    · exact List.mem_filter.mpr ⟨ha, by simpa using hpositive a ha m hma⟩
    · exact List.mem_filter.mpr ⟨hp, by simpa using hpositive p hp _ hm⟩
    · rw [rankLe_iff]
      omega

end Sorted

end Order

theorem filterTag_sorted (products : List Product) (razorpay : Option RazorpaySettings)
    (tag : Option String) :
    (filterTag tag (AppState.new products razorpay).products).Pairwise
      (fun a b => a.id ≤ b.id) := by
  have hsorted := AppState.new_sorted products razorpay
  cases tag with
  | none => exact hsorted
  | some tag => exact hsorted.sublist List.filter_sublist

/-- A search finds what matches, the better matches first, exactly when every title match
is early enough to rank above the other kinds. -/
theorem ranked_iff_separated (toLowercase : String → String) (products : List Product)
    (razorpay : Option RazorpaySettings) (tag : Option String) (q : String) :
    Ranked toLowercase (toLowercase q) (filterTag tag (AppState.new products razorpay).products)
      (searched toLowercase (some q) (filterTag tag (AppState.new products razorpay).products)) ↔
    Separated toLowercase (toLowercase q)
      (filterTag tag (AppState.new products razorpay).products) := by
  rw [searched_eq]
  constructor
  · exact separated_of_ranked (filterTag_sorted products razorpay tag)
  · exact ranked_of_separated (filterTag_sorted products razorpay tag)

def asciiLowercase (s : String) : String := String.ofList (s.toList.map Char.toLower)

def farProduct (n : Nat) : Product :=
  ⟨"p-1", String.ofList (List.replicate n 'a' ++ ['b']), ⟨300, .USD⟩, "", [], none, 10, none⟩

theorem findBytes_far (n : Nat) : findBytes ['b'] (List.replicate n 'a' ++ ['b']) = some n := by
  induction n with
  | zero => rfl
  | succ n ih =>
      rw [List.replicate_succ, List.cons_append, findBytes, ih]
      rfl

theorem matchOf_farProduct (n : Nat) :
    matchOf asciiLowercase (asciiLowercase "b") (farProduct n) = some (.title n) := by
  have hq : (asciiLowercase "b").toList = ['b'] := by decide
  have htitle : (asciiLowercase (farProduct n).title).toList = List.replicate n 'a' ++ ['b'] := by
    rw [asciiLowercase, farProduct, String.toList_ofList, String.toList_ofList, List.map_append,
      List.map_replicate]
    rfl
  rw [matchOf, hq, htitle, findBytes_far]

/-- A match further than the first hundred thousand bytes of a title underflows. -/
theorem far_match_underflows : ¬ ∀ (toLowercase : String → String) (products : List Product)
    (razorpay : Option RazorpaySettings) (tag : Option String) (q : String),
    Ranked toLowercase (toLowercase q) (filterTag tag (AppState.new products razorpay).products)
      (searched toLowercase (some q)
        (filterTag tag (AppState.new products razorpay).products)) := by
  intro h
  have hmem : farProduct 100001 ∈ filterTag none (AppState.new [farProduct 100001] none).products :=
    List.mem_mergeSort.mpr (List.mem_singleton_self _)
  have hfits := (h asciiLowercase [farProduct 100001] none none "b").fits _ hmem 100001
    (matchOf_farProduct 100001)
  omega

end AiterCommerce.Guarantees.Ranking

import AiterCommerce.Server.Feed

namespace AiterCommerce.Guarantees.Paging

open AiterCommerce.Core Server

section Walk

variable (toLowercase : String → String) (st : AppState) (limit : Option UInt64)
  (tag search : Option String)

/-- A client that asks for the next page as long as there is more, each time from where
the last page ended. The fuel bounds the number of its requests. -/
def walk : Nat → UInt64 → Option (List Feed)
  | 0, _ => none
  | fuel + 1, offset =>
      let feed := listProducts toLowercase st ⟨limit, some offset, tag, search⟩
      if feed.hasMore then
        (walk fuel (offset + UInt64.ofNat feed.items.length)).map (feed :: ·)
      else some [feed]

def Truthful (feed : Feed) : Prop :=
  feed.total.toNat = (listed toLowercase st tag search).length ∧
    (feed.hasMore = true ↔
      (listed toLowercase st tag search).drop (feed.offset.toNat + feed.items.length) ≠ [])

/-- The walk from the first page ends, and its pages are the whole list. -/
def Visits : Prop :=
  ∃ fuel feeds, walk toLowercase st limit tag search fuel 0 = some feeds ∧
    feeds.flatMap Feed.items = listed toLowercase st tag search ∧
      ∀ feed ∈ feeds, Truthful toLowercase st tag search feed

def Selected (p : Product) : Prop :=
  (∀ t, tag = some t →
      p.tags.any (fun t' => eqIgnoreAsciiCase t' (String.ofList (trim t.toList))) = true) ∧
    ∀ q, search = some q → 0 < searchRank toLowercase p (toLowercase q)

end Walk

variable {toLowercase : String → String} {st : AppState} {limit : Option UInt64}
  {tag search : Option String}

section Turn

variable {fuel : Nat} {offset : UInt64}

theorem walk_more (h : (listProducts toLowercase st ⟨limit, some offset, tag, search⟩).hasMore = true) :
    walk toLowercase st limit tag search (fuel + 1) offset =
      (walk toLowercase st limit tag search fuel (offset + UInt64.ofNat
        (listProducts toLowercase st ⟨limit, some offset, tag, search⟩).items.length)).map
          (listProducts toLowercase st ⟨limit, some offset, tag, search⟩ :: ·) := if_pos h

theorem walk_last (h : ¬ (listProducts toLowercase st ⟨limit, some offset, tag, search⟩).hasMore = true) :
    walk toLowercase st limit tag search (fuel + 1) offset =
      some [listProducts toLowercase st ⟨limit, some offset, tag, search⟩] := if_neg h

end Turn

theorem mem_listed {p : Product} :
    p ∈ listed toLowercase st tag search ↔ p ∈ st.products ∧ Selected toLowercase tag search p := by
  have htag : p ∈ filterTag tag st.products ↔ p ∈ st.products ∧ ∀ t, tag = some t →
      p.tags.any (fun t' => eqIgnoreAsciiCase t' (String.ofList (trim t.toList))) = true := by
    cases tag with
    | none => simp [filterTag]
    | some t => simp [filterTag]
  rw [listed, Selected, ← and_assoc, ← htag]
  cases search with
  | none => simp [searched]
  | some q => simp [searched]

/-- With no page size there is no next page either: a client of a list that is not
empty asks for the same page again and again. -/
theorem walk_zero (hne : listed toLowercase st tag search ≠ [])
    (hlen : (listed toLowercase st tag search).length < UInt64.size) (fuel : Nat) :
    walk toLowercase st (some 0) tag search fuel 0 = none := by
  induction fuel with
  | zero => rfl
  | succ fuel ih =>
      have hnil : (listProducts toLowercase st ⟨some 0, some 0, tag, search⟩).items = [] := by
        rw [listProducts_items]
        exact List.take_zero
      have hmore : (listProducts toLowercase st ⟨some 0, some 0, tag, search⟩).hasMore = true := by
        rw [listProducts_hasMore hlen, hnil]
        exact List.length_pos_iff.mpr hne
      have hstay : (0 : UInt64) + UInt64.ofNat ([] : List Product).length = 0 := rfl
      rw [walk_more hmore, hnil, hstay, ih, Option.map_none]

theorem truthful_listProducts (offset : UInt64)
    (hlen : (listed toLowercase st tag search).length < UInt64.size) :
    Truthful toLowercase st tag search
      (listProducts toLowercase st ⟨limit, some offset, tag, search⟩) := by
  refine ⟨listProducts_total hlen, ?_⟩
  rw [listProducts_hasMore hlen, ne_eq, List.drop_eq_nil_iff, Nat.not_le]
  rfl

theorem toNat_min (a b : UInt64) : (min a b).toNat = min a.toNat b.toNat := by
  change (if a ≤ b then a else b).toNat = _
  split
  next h => exact (Nat.min_eq_left (UInt64.le_iff_toNat_le.mp h)).symm
  next h => exact (Nat.min_eq_right (Nat.le_of_not_le (UInt64.le_iff_toNat_le.not.mp h))).symm

theorem one_le_pageLimit (hlimit : limit ≠ some 0) :
    1 ≤ (min (limit.getD defaultPageLimit) maxPageLimit).toNat := by
  rw [toNat_min]
  apply Nat.le_min.mpr
  refine ⟨?_, by decide⟩
  cases limit with
  | none => decide
  | some n =>
      rw [Option.getD_some, Nat.one_le_iff_ne_zero]
      intro hzero
      apply hlimit
      rw [← UInt64.toNat_inj.mp (hzero.trans UInt64.toNat_zero.symm)]

/-- Every page but the last has at least one product, so the walk comes to an end, and
what it has seen is what it has passed. -/
theorem walk_from (hlimit : limit ≠ some 0)
    (hlen : (listed toLowercase st tag search).length < UInt64.size) (offset : UInt64) :
    ∃ fuel feeds, walk toLowercase st limit tag search fuel offset = some feeds ∧
      feeds.flatMap Feed.items = (listed toLowercase st tag search).drop offset.toNat ∧
        ∀ feed ∈ feeds, Truthful toLowercase st tag search feed := by
  induction hleft : (listed toLowercase st tag search).length - offset.toNat
      using Nat.strong_induction_on generalizing offset with
  | _ left ih =>
  let params : ListParams := ⟨limit, some offset, tag, search⟩
  have htrue : Truthful toLowercase st tag search (listProducts toLowercase st params) :=
    truthful_listProducts offset hlen
  have hitems : (listProducts toLowercase st params).items =
      ((listed toLowercase st tag search).drop offset.toNat).take
        (min (limit.getD defaultPageLimit) maxPageLimit).toNat := rfl
  have hmore : (listProducts toLowercase st params).hasMore = true ↔
      offset.toNat + (listProducts toLowercase st params).items.length <
        (listed toLowercase st tag search).length := @listProducts_hasMore _ _ params hlen
  have hpage : (listProducts toLowercase st params).items.length =
      min (min (limit.getD defaultPageLimit) maxPageLimit).toNat
        ((listed toLowercase st tag search).length - offset.toNat) := by
    rw [hitems, List.length_take, List.length_drop]
  by_cases h : (listProducts toLowercase st params).hasMore = true
  · have hend := hmore.mp h
    have hsize := one_le_pageLimit hlimit
    have hnext : (offset + UInt64.ofNat (listProducts toLowercase st params).items.length).toNat =
        offset.toNat + (listProducts toLowercase st params).items.length :=
      @toNat_offset_add_length _ _ params hlen
    obtain ⟨fuel, feeds, hwalk, hflat, hall⟩ := ih _ (by omega)
      (offset + UInt64.ofNat (listProducts toLowercase st params).items.length) rfl
    refine ⟨fuel + 1, listProducts toLowercase st params :: feeds, ?_, ?_,
      List.forall_mem_cons.mpr ⟨htrue, hall⟩⟩
    · rw [walk_more h, hwalk, Option.map_some]
    · rw [List.flatMap_cons, hflat, hnext, ← List.drop_drop, hitems]
      exact List.prefix_iff_eq_append.mp (List.take_prefix _ _)
  · have hend := hmore.not.mp h
    refine ⟨1, [listProducts toLowercase st params], walk_last h, ?_,
      List.forall_mem_singleton.mpr htrue⟩
    rw [List.flatMap_singleton, hitems]
    apply List.take_of_length_le
    rw [List.length_drop]
    omega

theorem visits_of_nil (hnil : listed toLowercase st tag search = [])
    (hlen : (listed toLowercase st tag search).length < UInt64.size) :
    Visits toLowercase st limit tag search := by
  let params : ListParams := ⟨limit, some 0, tag, search⟩
  have hitems : (listProducts toLowercase st params).items = [] := by
    rw [listProducts_items]
    change ((listed toLowercase st tag search).drop _).take _ = []
    rw [hnil, List.drop_nil, List.take_nil]
  have hmore : ¬ (listProducts toLowercase st params).hasMore = true := by
    rw [@listProducts_hasMore _ _ params hlen]
    change ¬ _ < (listed toLowercase st tag search).length
    rw [hnil]
    exact Nat.not_lt_zero _
  refine ⟨1, [listProducts toLowercase st params], walk_last hmore, ?_,
    List.forall_mem_singleton.mpr (truthful_listProducts 0 hlen)⟩
  rw [List.flatMap_singleton, hitems, hnil]

/-- A walk ends, and has then seen everything once and in order, exactly when the client
asks for pages of at least one product or there is nothing to see. -/
theorem visits_iff (toLowercase : String → String) (catalog : Catalog)
    (razorpay : Option RazorpaySettings) (limit : Option UInt64) (tag search : Option String) :
    Visits toLowercase (.new catalog.products razorpay) limit tag search ↔
      limit ≠ some 0 ∨ ∀ p ∈ catalog.products, ¬ Selected toLowercase tag search p := by
  have hlen := length_listed_lt toLowercase catalog razorpay tag search
  have hnil : listed toLowercase (.new catalog.products razorpay) tag search = [] ↔
      ∀ p ∈ catalog.products, ¬ Selected toLowercase tag search p := by
    rw [List.eq_nil_iff_forall_not_mem]
    apply forall_congr'
    intro p
    rw [mem_listed, not_and]
    exact imp_congr_left List.mem_mergeSort
  rw [← hnil]
  constructor
  · rintro ⟨fuel, feeds, hwalk, -⟩
    by_contra h
    rw [not_or, not_not] at h
    rw [h.1, walk_zero h.2 hlen] at hwalk
    cases hwalk
  · rintro (hlimit | hnil)
    · exact walk_from hlimit hlen 0
    · exact visits_of_nil hnil hlen

def teaShop : Catalog := ⟨[⟨"p-1", "Tea", ⟨300, .USD⟩, "", [], none, 10, none⟩], by decide⟩

/-- Pages of no products never end. -/
theorem empty_pages_never_end : ¬ ∀ (toLowercase : String → String) (catalog : Catalog)
    (razorpay : Option RazorpaySettings) (limit : Option UInt64) (tag search : Option String),
    Visits toLowercase (.new catalog.products razorpay) limit tag search := by
  intro h
  obtain ⟨fuel, feeds, hwalk, -⟩ := h id teaShop none (some 0) none none
  have hne : listed id (.new teaShop.products none) none none ≠ [] := by
    simp [listed, searched, filterTag, AppState.new, teaShop]
  rw [walk_zero hne (length_listed_lt id teaShop none none none)] at hwalk
  cases hwalk

end AiterCommerce.Guarantees.Paging

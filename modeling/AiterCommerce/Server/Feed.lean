import AiterCommerce.Server.Webhook

namespace AiterCommerce.Server

open AiterCommerce.Core

def defaultPageLimit : UInt64 := 25

def maxPageLimit : UInt64 := 100

structure ListParams where
  limit : Option UInt64
  offset : Option UInt64
  tag : Option String
  search : Option String
  deriving DecidableEq

structure Feed where
  items : List Product
  total : UInt64
  limit : UInt64
  offset : UInt64
  hasMore : Bool
  deriving DecidableEq

def findBytes (needle : List Char) : List Char → Option Nat
  | [] => if needle = [] then some 0 else none
  | c :: rest =>
      if needle.isPrefixOf (c :: rest) then some 0
      else (findBytes needle rest).map (· + c.utf8Size)

section Search

variable (toLowercase : String → String)

/-- How relevant a product is; zero when it does not match. The subtraction is the plain
one of 64-bit values. -/
def searchRank (product : Product) (q : String) : UInt64 :=
  match findBytes q.toList (toLowercase product.title).toList with
  | some pos => 100000 - UInt64.ofNat pos
  | none =>
      if product.tags.any (fun t => (findBytes q.toList (toLowercase t).toList).isSome) then 1000
      else if (findBytes q.toList (toLowercase product.description).toList).isSome then 100
      else 0

def filterTag (tag : Option String) (items : List Product) : List Product :=
  match tag with
  | none => items
  | some tag =>
      let tag := String.ofList (trim tag.toList)
      items.filter (fun p => p.tags.any (fun t => eqIgnoreAsciiCase t tag))

def searched (search : Option String) (items : List Product) : List Product :=
  match search with
  | none => items
  | some q =>
      let q := toLowercase q
      (items.filter (fun p => 0 < searchRank toLowercase p q)).mergeSort (fun a b =>
        decide (searchRank toLowercase b q < searchRank toLowercase a q ∨
          (searchRank toLowercase a q = searchRank toLowercase b q ∧ a.id ≤ b.id)))

def listProducts (st : AppState) (params : ListParams) : Feed :=
  let items := searched toLowercase params.search (filterTag params.tag st.products)
  let total := UInt64.ofNat items.length
  let offset := params.offset.getD 0
  let limit := min (params.limit.getD defaultPageLimit) maxPageLimit
  let page := (items.drop offset.toNat).take limit.toNat
  ⟨page, total, limit, offset, offset + UInt64.ofNat page.length < total⟩

end Search

/-- A vector of products. The length of a vector is a 64-bit value. -/
structure Catalog where
  products : List Product
  length_lt : products.length < UInt64.size

section Listed

variable (toLowercase : String → String)

/-- All that a query selects, before it is cut into pages. -/
def listed (st : AppState) (tag search : Option String) : List Product :=
  searched toLowercase search (filterTag tag st.products)

theorem length_filterTag_le (tag : Option String) (items : List Product) :
    (filterTag tag items).length ≤ items.length := by
  cases tag with
  | none => exact le_rfl
  | some tag => exact List.length_filter_le _ _

theorem length_searched_le (search : Option String) (items : List Product) :
    (searched toLowercase search items).length ≤ items.length := by
  cases search with
  | none => exact le_rfl
  | some q =>
      rw [searched, List.length_mergeSort]
      exact List.length_filter_le _ _

theorem length_listed_lt (catalog : Catalog) (razorpay : Option RazorpaySettings)
    (tag search : Option String) :
    (listed toLowercase (.new catalog.products razorpay) tag search).length < UInt64.size := by
  have hsearched := length_searched_le toLowercase search
    (filterTag tag (AppState.new catalog.products razorpay).products)
  have hfiltered := length_filterTag_le tag (AppState.new catalog.products razorpay).products
  have hsorted : (AppState.new catalog.products razorpay).products.length =
      catalog.products.length := List.length_mergeSort _
  have hlt := catalog.length_lt
  rw [listed]
  omega

variable {toLowercase} {st : AppState} {params : ListParams}

theorem listProducts_items : (listProducts toLowercase st params).items =
    ((listed toLowercase st params.tag params.search).drop (params.offset.getD 0).toNat).take
      (min (params.limit.getD defaultPageLimit) maxPageLimit).toNat := rfl

section Fits

variable (hlen : (listed toLowercase st params.tag params.search).length < UInt64.size)
include hlen

theorem listProducts_total : (listProducts toLowercase st params).total.toNat =
    (listed toLowercase st params.tag params.search).length := UInt64.toNat_ofNat_of_lt' hlen

theorem toNat_offset_add_length :
    (params.offset.getD 0 + UInt64.ofNat (listProducts toLowercase st params).items.length).toNat =
      (params.offset.getD 0).toNat + (listProducts toLowercase st params).items.length := by
  have hpage : (listProducts toLowercase st params).items.length =
      min (min (params.limit.getD defaultPageLimit) maxPageLimit).toNat
        ((listed toLowercase st params.tag params.search).length -
          (params.offset.getD 0).toNat) := by
    rw [listProducts_items, List.length_take, List.length_drop]
  have hoffset := (params.offset.getD 0).toNat_lt
  have hsize : UInt64.size = 2 ^ 64 := rfl
  rw [UInt64.toNat_add, UInt64.toNat_ofNat_of_lt' (by omega)]
  exact Nat.mod_eq_of_lt (by omega)

theorem listProducts_hasMore : (listProducts toLowercase st params).hasMore = true ↔
    (params.offset.getD 0).toNat + (listProducts toLowercase st params).items.length <
      (listed toLowercase st params.tag params.search).length := by
  rw [← toNat_offset_add_length hlen, ← listProducts_total hlen]
  exact decide_eq_true_iff.trans UInt64.lt_iff_toNat_lt

end Fits

end Listed

def ListParams.none : ListParams := ⟨.none, .none, .none, .none⟩

/-- Asked for nothing in particular, the feed shows the first products by id. -/
theorem listProducts_none (toLowercase : String → String) (st : AppState) :
    (listProducts toLowercase st .none).items = st.products.take 25 := rfl

end AiterCommerce.Server

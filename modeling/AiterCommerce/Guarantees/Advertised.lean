import AiterCommerce.Server.Mcp

namespace AiterCommerce.Guarantees.Advertised

open AiterCommerce.Core AiterCommerce.Server Encoding.Json
open Mcp (feedJson feedJson_items)

def toolText (response : Value) : Option String :=
  ((response.get "result").bind (Value.get "content")).bind (fun
    | .array (first :: _) => (first.get "text").bind Value.asStr
    | _ => none)

structure Calls (tool : String) (request : Value) : Prop where
  id : (request.get "id").isSome
  method : (request.get "method").bind Value.asStr = some "tools/call"
  name : ((request.get "params").bind (Value.get "name")).bind Value.asStr = some tool

/-- The response shows every one of the products exactly once. -/
def Shows (products : List Product) (response : Value) : Prop :=
  ∃ (body : Value) (items : List Value), toolText response = some body.text ∧
    body.get "items" = some (.array items) ∧
      items.Perm (products.map (Product.format.write .byName))

def ShowsAll (lib : Mcp.Library) (products : List Product) (razorpay : Option RazorpaySettings)
    (request : Value) (created completed : Int64) : Prop :=
  ∃ response, Mcp.handleRequest lib (.new products razorpay) request created completed =
    pure (some response) ∧ Shows products response

theorem toolText_success (id : Option Value) (text : String) :
    toolText (Mcp.success id (Mcp.content text)) = some text := by
  have hresult : (Mcp.success id (Mcp.content text)).get "result" = some (Mcp.content text) := by
    apply get_sortedObject
    · change ["jsonrpc", "id", "result"].Nodup
      decide
    · simp
  have hcontent : (Mcp.content text).get "content" =
      some (.array [sortedObject [("type", .string "text"), ("text", .string text)]]) := by
    apply get_sortedObject
    · change ["content"].Nodup
      decide
    · exact List.mem_cons_self
  have htext : (sortedObject [("type", .string "text"), ("text", .string text)]).get "text" =
      some (.string text) := by
    apply get_sortedObject
    · change ["type", "text"].Nodup
      decide
    · simp
  rw [toolText, hresult, Option.bind_some, hcontent, Option.bind_some]
  dsimp only
  rw [htext]
  rfl

section Shown

variable {products : List Product} {feed : Feed} {id : Option Value}

theorem shows_iff : Shows products (Mcp.success id (Mcp.content (feedJson feed).text)) ↔
    (feed.items.map (Product.format.write .byName)).Perm (products.map (Product.format.write .byName)) := by
  rw [Shows, toolText_success]
  constructor
  · rintro ⟨body, items, htext, hitems, hperm⟩
    obtain rfl := text_injective (Option.some.inj htext)
    rw [feedJson_items] at hitems
    cases hitems
    exact hperm
  · intro hperm
    exact ⟨feedJson feed, _, rfl, feedJson_items feed, hperm⟩

theorem take_perm_iff {α : Type} {n : ℕ} {xs ys : List α} (h : xs.Perm ys) :
    (xs.take n).Perm ys ↔ ys.length ≤ n := by
  constructor
  · intro hperm
    have hlen := hperm.length_eq
    rw [List.length_take, h.length_eq] at hlen
    omega
  · intro hlen
    rw [List.take_of_length_le (h.length_eq ▸ hlen)]
    exact h

end Shown

variable {lib : Mcp.Library} {products : List Product} {razorpay : Option RazorpaySettings}
  {request response : Value} {created completed : Int64}

theorem answer_iff (h : Calls "list_products" request) :
    Mcp.handleRequest lib (.new products razorpay) request created completed =
      pure (some response) ↔ Mcp.success (request.get "id") (Mcp.content
        (feedJson (listProducts lib.toLowercase (.new products razorpay) .none)).text) =
          response := by
  obtain ⟨id, hid⟩ := Option.isSome_iff_exists.mp h.id
  rw [Mcp.handleRequest_list hid h.method h.name, hid]
  constructor
  · intro heq
    exact Option.some.inj (Concurrent.Prog.ret.inj heq)
  · rintro rfl
    rfl

theorem shows_firstPage_iff {toLowercase : String → String} {id : Option Value} :
    Shows products (Mcp.success id (Mcp.content
      (feedJson (listProducts toLowercase (.new products razorpay) .none)).text)) ↔
        products.length ≤ 25 := by
  have hsorted : ((AppState.new products razorpay).products.map (Product.format.write .byName)).Perm
      (products.map (Product.format.write .byName)) := (List.mergeSort_perm _ _).map _
  rw [shows_iff, listProducts_none, List.map_take, take_perm_iff hsorted, List.length_map]

/-- Called with any arguments, the tool shows every product of the catalog exactly once when
the catalog fits on a page of the feed, and never else. -/
theorem whole_catalog_iff_one_page (lib : Mcp.Library) (products : List Product)
    (razorpay : Option RazorpaySettings) (request : Value) (created completed : Int64)
    (h : Calls "list_products" request) :
    ShowsAll lib products razorpay request created completed ↔ products.length ≤ 25 := by
  rw [ShowsAll]
  constructor
  · rintro ⟨response, hanswer, hshows⟩
    obtain rfl := (answer_iff h).mp hanswer
    exact shows_firstPage_iff.mp hshows
  · intro hlen
    exact ⟨_, (answer_iff h).mpr rfl, shows_firstPage_iff.mpr hlen⟩

def listCall : Value :=
  .object [("jsonrpc", .string "2.0"), ("id", .int 3), ("method", .string "tools/call"),
    ("params", .object [("name", .string "list_products"), ("arguments", .object [])])]

theorem calls_listCall : Calls "list_products" listCall := ⟨by decide, by decide, by decide⟩

def mugs (n : ℕ) : List Product :=
  (List.range n).map (fun k => ⟨"p-" ++ toString k, "Mug", ⟨500, .USD⟩, "", [], none, 10, none⟩)

theorem whole_catalog_iff_one_page_mugs :
    ShowsAll .bare (mugs 25) none listCall 0 0 ∧
      ¬ ShowsAll .bare (mugs 26) none listCall 0 0 := by
  constructor
  · apply (whole_catalog_iff_one_page .bare (mugs 25) none listCall 0 0 calls_listCall).mpr
    simp [mugs]
  · intro h
    have hlen :=
      (whole_catalog_iff_one_page .bare (mugs 26) none listCall 0 0 calls_listCall).mp h
    simp [mugs] at hlen

/-- The tool leaves out the last of twenty-six products. -/
theorem second_page_not_shown : ¬ ∀ (lib : Mcp.Library) (products : List Product)
    (razorpay : Option RazorpaySettings) (request : Value) (created completed : Int64),
    Calls "list_products" request → ShowsAll lib products razorpay request created completed := by
  intro h
  obtain ⟨response, hanswer, hshows⟩ := h .bare (mugs 26) none listCall 0 0 calls_listCall
  obtain rfl := (answer_iff calls_listCall).mp hanswer
  have hlen := shows_firstPage_iff.mp hshows
  simp [mugs] at hlen

end AiterCommerce.Guarantees.Advertised

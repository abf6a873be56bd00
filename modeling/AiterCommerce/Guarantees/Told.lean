import AiterCommerce.Guarantees.Lifecycle
import AiterCommerce.Guarantees.Stdio

namespace AiterCommerce.Guarantees.Told

open AiterCommerce.Core Concurrent Server Encoding.Json
open AiterCommerce.Server.Mcp
open Books (orderKey_injective)
open Money (Priced Same)
open Stdio (byTool Served started readCalls filling buying)

variable {R : Type}

section Since

/-- Carts and orders are never written again. -/
structure Keeps (a b : Data) : Prop where
  carts : ∀ k cart, a.carts.get k = some cart → b.carts.get k = some cart
  orders : ∀ key o, a.orders.get key = some o → b.orders.get key = some o

theorem Keeps.refl (d : Data) : Keeps d d := ⟨fun _ _ h => h, fun _ _ h => h⟩

theorem Keeps.trans {a b c : Data} (h : Keeps a b) (h' : Keeps b c) : Keeps a c :=
  ⟨fun k cart hk => h'.carts k cart (h.carts k cart hk),
    fun key o hk => h'.orders key o (h.orders key o hk)⟩

theorem keeps_exec {o : Op} (hcarts : ∀ k cart, o ≠ .carts (.update k cart))
    (horders : ∀ key order, o ≠ .orders (.update key order)) (d : Data) :
    Keeps d (o.exec d).2 := by
  constructor
  · intro k cart hk
    cases o with
    | carts o =>
        rcases StoreOp.get_exec_of_some o hk with h | ⟨y, rfl, -⟩
        · exact h
        · exact absurd rfl (hcarts k y)
    | _ => exact hk
  · intro key order hk
    cases o with
    | orders o =>
        rcases StoreOp.get_exec_of_some o hk with h | ⟨y, rfl, -⟩
        · exact h
        · exact absurd rfl (horders key y)
    | _ => exact hk

variable {ext : Platform} {st : AppState}

theorem byTool_stores {q : Request} (h : byTool q = true) {o : Op} (ho : q.performs o) :
    (∀ k cart, o ≠ .carts (.update k cart)) ∧ ∀ key order, o ≠ .orders (.update key order) := by
  unfold byTool at h
  split at h
  · rcases ho with rfl | ⟨id, cart, rfl⟩ <;> simp
  · rcases ho with rfl | rfl | rfl | ⟨id, session, rfl⟩ <;> simp
  · rcases ho with rfl | rfl | ⟨a, amount, hnone, -⟩ | ⟨order, rfl⟩ | ⟨session, rfl⟩ | rfl |
      ⟨receipt, hnone, -⟩ <;> simp_all
  · cases h

theorem keeps_served {t : Prog appSignature R} (h : Served ext st t) (d : Data) :
    Keeps d (t.run Op.exec d).2 := by
  obtain ⟨qs, hqs, hd⟩ := h d
  rw [hd]
  apply System.serveAll_related Keeps.refl (fun _ _ _ => Keeps.trans)
  intro q hq s
  apply Prog.run_related Keeps.refl (fun _ _ _ => Keeps.trans) _ (handler_all ext st q)
  intro o ho s
  obtain ⟨hcarts, horders⟩ := byTool_stores (hqs q hq) ho
  exact keeps_exec hcarts horders s

/-- A state of a run in which requests are served one after another. -/
structure Serial (ext : Platform) (st : AppState) (c : Configuration) : Prop where
  run : (app ext st).Runs (fun _ _ => True) (.start (Data.new ext.crypto)) c
  orderly : System.Orderly Deadlock.rank c
  rest : System.AtRest c

theorem serial_start : Serial ext st (.start (Data.new ext.crypto)) :=
  ⟨.refl, System.orderly_start _, System.atRest_start _⟩

/-- What follows in a session: money keeps to itself, and carts and orders stay. -/
structure Since (a b : Data) : Prop where
  later : Money.Later a b
  keeps : Keeps a b

theorem Since.trans {a b c : Data} (h : Since a b) (h' : Since b c) : Since a c :=
  ⟨h.later.trans h'.later, h.keeps.trans h'.keeps⟩

theorem Serial.served {c : Configuration} (h : Serial ext st c) {t : Prog appSignature R}
    (ht : Served ext st t) : ∃ c', Serial ext st c' ∧
      c'.shared.data = (t.run Op.exec c.shared.data).2 ∧ Since c.shared.data c'.shared.data := by
  have hordered : ∀ q, ((app ext st).handler q).Ordered Deadlock.rank ∅ ∅ := Deadlock.handler_ordered
  obtain ⟨qs, -, hd⟩ := ht c.shared.data
  obtain ⟨c', hr, hrest, hd'⟩ := h.orderly.serves_all hordered h.rest qs
  have hrun : (app ext st).Runs (fun _ _ => True) c c' := hr.mono (fun _ _ _ => trivial)
  have hc := Spec.Sound.runs Money.admits
    (Spec.sound_start (P := Money.spec ext st) (Money.kept_start _)) h.run
  refine ⟨c', ⟨h.run.trans hrun, hrun.orderly hordered h.orderly, hrest⟩, hd'.trans hd.symm,
    hc.evolves_runs Money.admits hrun, ?_⟩
  rw [hd', ← hd]
  exact keeps_served ht _

end Since

section Tools

variable {lib : Library} {ext : Platform} {st : AppState} {d d' d'' : Data}

theorem createCheckoutSession_run_ok {body : CreateSessionRequest} {now : Int64}
    {session : CheckoutSession}
    (h : (createCheckoutSession st body now).run Op.exec d = (.ok session, d')) :
    d.carts.get body.cartId = some session.cart ∧ d'.sessions.get session.id = some session := by
  rw [createCheckoutSession, run_locked_perform_bind, Fallible.run_okOr_bind_eq_ok] at h
  obtain ⟨cart, hcart, h⟩ := h
  rw [run_locked_perform_bind] at h
  split at h
  · cases h
  · obtain ⟨totals, -, h⟩ := Fallible.run_mapErr_bind_eq_ok.mp h
    rw [genId, bind_assoc, run_perform_bind, pure_bind, run_locked_perform_bind,
      Fallible.run_mapErr_bind_eq_ok] at h
    generalize "cs" ++ "-" ++ toString (UInt64.toNat (Op.fetchId.exec _).1) = id at h
    obtain ⟨_, hw, h⟩ := h
    cases h
    simp only [Op.exec, StoreOp.exec, CheckoutSession.new_id] at hw ⊢
    cases hk : d.sessions.get id with
    | some old =>
        simp only [InMemoryStore.create_of_some hk, StoreOp.written] at hw
        cases hw
    | none =>
        simp only [InMemoryStore.create_of_none hk, StoreOp.written]
        exact ⟨hcart, InMemoryStore.get_insert_self _ _ _⟩

theorem completeCheckout_run_ok {id : String} {now issuedAt : Int64} {o : Order}
    (h : (Server.completeCheckout none id now issuedAt).run Op.exec d = (.ok o, d')) :
    d'.orders.get (orderKey id) = some o := by
  rw [completeCheckout_run] at h
  cases ho : d.orders.get (orderKey id) with
  | some order =>
      rw [ho] at h
      cases h
      exact ho
  | none =>
      rw [ho] at h
      cases hs : d.sessions.get id with
      | none =>
          rw [hs] at h
          cases h
      | some session =>
          rw [hs] at h
          dsimp only at h
          split at h
          · cases h
          next hst =>
            rw [placeOrder_none, storeOrder_run ho (by rw [hs]; rfl) hst] at h
            cases h
            exact InMemoryStore.get_insert_self _ _ _

theorem Serial.order {c : Configuration} (h : Serial ext st c) {key : String} {o : Order}
    (ho : c.shared.data.orders.get key = some o) : o.id = key ∧ key = orderKey o.checkoutSessionId ∧
      ∃ x, c.shared.data.sessions.get o.checkoutSessionId = some x ∧ x.status = .paid ∧
        Priced st x ∧ o.totals = x.totals := by
  have hmoney := Spec.Sound.runs Money.admits
    (Spec.sound_start (P := Money.spec ext st) (Money.kept_start _)) h.run
  have hstages := Spec.Sound.runs (Lifecycle.admits ext st)
    (Spec.sound_start (Lifecycle.inv_start _)) h.run
  obtain ⟨x, hx⟩ := Money.Kept.agrees hmoney.inv ho
  refine ⟨hx.named.2, hx.named.1, x, hx.session, ?_, hx.priced, hx.totals⟩
  obtain ⟨y, hy, hpaid⟩ := hstages.inv.settled (h.rest.free _) o.checkoutSessionId (by
    rw [← hx.named.1, ho]
    rfl)
  rw [← Option.some.inj (hy.symm.trans hx.session)]
  exact hpaid

/-- What the text of an answer says, and what of it there is in the data. -/
inductive Says (lib : Library) (st : AppState) (arguments : Value) (said : String) (d : Data) :
    String → Prop
  | feed (v : Value) (page : List Product) (htext : said = v.text)
      (hitems : v.get "items" = some ((Format.list Product.format).write .byName page))
      (hpage : page = st.products.take 25) : Says lib st arguments said d "list_products"
  | product (p : Product) (hid : stringArg arguments "id" = .ok p.id) (hp : p ∈ st.products)
      (htext : said = (Product.format.write .declared p).text) :
      Says lib st arguments said d "get_product"
  | cart (request : CreateCartRequest) (r : CartResponse)
      (hread : CreateCartRequest.format.read arguments = some request)
      (htext : said = (CartResponse.format.write .declared r).text)
      (hr : Accepted st request.items r d) : Says lib st arguments said d "create_cart"
  | order (cartId : String) (o : Order) (x : CheckoutSession)
      (hcart : stringArg arguments "cart_id" = .ok cartId)
      (htext : said = (Order.format.write .declared o).text)
      (ho : d.orders.get o.id = some o)
      (hx : d.sessions.get o.checkoutSessionId = some x) (hpaid : x.status = .paid)
      (hbought : d.carts.get cartId = some x.cart) (hpriced : Priced st x)
      (htotals : o.totals = x.totals) : Says lib st arguments said d "complete_checkout"

theorem Says.cart_told {arguments : Value} {said tool : String}
    (h : Says lib st arguments said d tool) (ht : tool = "create_cart") :
    ∃ request r, CreateCartRequest.format.read arguments = some request ∧
      said = (CartResponse.format.write .declared r).text ∧ Accepted st request.items r d := by
  cases h with
  | cart request r hread htext hr => exact ⟨request, r, hread, htext, hr⟩
  | _ => exact absurd ht (by decide)

theorem Says.order_told {arguments : Value} {said tool : String}
    (h : Says lib st arguments said d tool) (ht : tool = "complete_checkout") :
    ∃ o, said = (Order.format.write .declared o).text ∧ d.orders.get o.id = some o := by
  cases h with
  | order cartId o x hcart htext ho => exact ⟨o, htext, ho⟩
  | _ => exact absurd ht (by decide)

theorem getProduct_says {arguments : Value} {said : String}
    (h : (Mcp.getProduct lib st arguments).run Op.exec d = (.ok said, d')) (d'' : Data) :
    Says lib st arguments said d'' "get_product" := by
  obtain ⟨id, hid, h⟩ := Fallible.run_mapErr_bind_eq_ok.mp h
  obtain ⟨p, hp, h⟩ := Fallible.run_okOr_bind_eq_ok.mp h
  dsimp only at h
  split at h
  · cases h
  · obtain ⟨rfl, rfl⟩ := Fallible.run_pure_eq_ok.mp h
    have hfound := List.find?_some hp
    obtain rfl : p.id = id := of_decide_eq_true hfound
    exact .product p hid (List.mem_of_find?_eq_some hp) rfl

theorem createCart_says {arguments : Value} {said : String}
    (h : (Mcp.createCart lib st arguments).run Op.exec d = (.ok said, d')) (hs : Keeps d' d'') :
    Says lib st arguments said d'' "create_cart" := by
  obtain ⟨request, hread, h⟩ := Fallible.run_okOr_bind_eq_ok.mp h
  obtain ⟨response, d₁, hr, h⟩ := Fallible.run_adaptErr_bind_eq_ok.mp h
  obtain ⟨rfl, rfl⟩ := Fallible.run_pure_eq_ok.mp h
  obtain ⟨hsettled, hstored, htotals⟩ := createCart_run_ok hr
  exact .cart request response hread rfl ⟨hsettled, hs.carts _ _ hstored, htotals⟩

theorem orderOf_says {arguments : Value} {cartId : String} {completed : Int64} {o : Order}
    {session : CheckoutSession} {c : Configuration} (hid : stringArg arguments "cart_id" = .ok cartId)
    (hc : Serial ext st c) (hcart : c.shared.data.carts.get cartId = some session.cart)
    (hsession : c.shared.data.sessions.get session.id = some session)
    (h : (Server.completeCheckout none session.id completed completed).run Op.exec c.shared.data =
      (.ok o, d'))
    {e : Configuration} (he : Serial ext st e) (hs : Since d' e.shared.data) :
    Says lib st arguments (Order.format.write .declared o).text e.shared.data "complete_checkout" := by
  have hserved : Served ext st
      (ExceptT.run (Server.completeCheckout none session.id completed completed)) :=
    Stdio.served_replyTo (q := ⟨none, .completeCheckout session.id completed completed⟩) rfl rfl
  obtain ⟨c₁, -, hd₁, hsince⟩ := hc.served hserved
  obtain rfl : c₁.shared.data = d' := hd₁.trans (congrArg Prod.snd h)
  have hlast : Since c.shared.data e.shared.data := hsince.trans hs
  have ho := hs.keeps.orders _ _ (completeCheckout_run_ok h)
  obtain ⟨hkey, hk, x, hx, hpaid, hpriced, htotals⟩ := he.order ho
  obtain ⟨y, hy, hsame⟩ := hlast.later.sessions _ _ hsession
  rw [orderKey_injective hk, hx] at hy
  obtain rfl := Option.some.inj hy
  refine .order cartId o x hid rfl (hkey ▸ ho) hx hpaid ?_ hpriced htotals
  rw [hsame.cart]
  exact hlast.keeps.carts _ _ hcart

/-- A checkout is told as it stands: at the end of the session, if not before. -/
theorem completeCheckout_says {arguments : Value} {created completed : Int64} {said : String}
    {c : Configuration} (hc : Serial ext st c)
    (h : (Mcp.completeCheckout lib st arguments created completed).run Op.exec c.shared.data =
      (.ok said, d')) {e : Configuration} (he : Serial ext st e) (hs : Since d' e.shared.data) :
    Says lib st arguments said e.shared.data "complete_checkout" := by
  obtain ⟨cartId, hid, -⟩ := Fallible.run_mapErr_bind_eq_ok.mp h
  rw [Mcp.completeCheckout_eq hid, Fallible.run_adaptErr_bind_eq_ok] at h
  obtain ⟨o, d₁, ho, h⟩ := h
  obtain ⟨session, d₂, hr, ho⟩ := Fallible.run_bind_eq_ok.mp ho
  obtain ⟨rfl, rfl⟩ := Fallible.run_pure_eq_ok.mp h
  have hserved : Served ext st (ExceptT.run (createCheckoutSession st ⟨cartId, none⟩ created)) :=
    Stdio.served_replyTo (q := ⟨none, .createCheckoutSession ⟨cartId, none⟩ created⟩) rfl rfl
  obtain ⟨c₁, hc₁, hd₁, hsince₁⟩ := hc.served hserved
  obtain rfl : c₁.shared.data = d₂ := hd₁.trans (congrArg Prod.snd hr)
  obtain ⟨hcart, hsession⟩ := createCheckoutSession_run_ok hr
  exact orderOf_says hid hc₁ (hsince₁.keeps.carts _ _ hcart) hsession ho he hs

theorem listProducts_says (arguments : Value) (d : Data) :
    Says lib st arguments (feedJson (Server.listProducts lib.toLowercase st .none)).text d
      "list_products" :=
  .feed _ _ rfl (feedJson_items _) (listProducts_none _ _)

theorem callTool_ok {tool : Handler String String} {result : Value}
    (h : (callTool tool).run Op.exec d = (.ok result, d')) :
    ∃ said, tool.run Op.exec d = (.ok said, d') ∧ result = content said := by
  obtain ⟨said, d₁, hr, h⟩ := Fallible.run_adaptErr_bind_eq_ok.mp h
  obtain ⟨rfl, rfl⟩ := Fallible.run_pure_eq_ok.mp h
  exact ⟨said, hr, rfl⟩

theorem dispatch_says {params result : Value} {created completed : Int64} {c : Configuration}
    (hc : Serial ext st c) (h : (dispatch lib st params created completed).run Op.exec
      c.shared.data = (.ok result, d')) : ∃ tool said,
      (params.get "name").bind Value.asStr = some tool ∧ result = content said ∧
        ∀ e, Serial ext st e → Since d' e.shared.data →
          Says lib st ((params.get "arguments").getD .null) said e.shared.data tool := by
  obtain ⟨tool, hname, h⟩ := Fallible.run_okOr_bind_eq_ok.mp h
  dsimp only at h
  split at h
  · obtain ⟨said, hsaid, rfl⟩ := callTool_ok h
    obtain rfl : _ = said := Except.ok.inj (Prod.mk.inj hsaid).1
    exact ⟨_, _, hname, rfl, fun e _ _ => listProducts_says _ _⟩
  · obtain ⟨said, hsaid, rfl⟩ := callTool_ok h
    exact ⟨_, _, hname, rfl, fun e _ _ => getProduct_says hsaid _⟩
  · obtain ⟨said, hsaid, rfl⟩ := callTool_ok h
    exact ⟨_, _, hname, rfl, fun e _ hs => createCart_says hsaid hs.keeps⟩
  · obtain ⟨said, hsaid, rfl⟩ := callTool_ok h
    exact ⟨_, _, hname, rfl, fun e he hs => completeCheckout_says hc hsaid he hs⟩
  · cases h

end Tools

section Session

variable {lib : Library} {ext : Platform} {st : AppState}
  {fromStr : List Char → Except String Value}

theorem handleLine_call (lib : Library) (st : AppState) {text : List Char} {request id : Value}
    (htext : trim text ≠ []) (hparse : fromStr text = .ok request)
    (hid : request.get "id" = some id)
    (hmethod : (request.get "method").bind Value.asStr = some "tools/call")
    (created completed : Int64) (d : Data) :
    let called := (dispatch lib st ((request.get "params").getD .null) created completed).run
      Op.exec d
    (handleLine lib st fromStr text created completed).run Op.exec d =
      (some (match called.1 with
        | .ok result => success (some id) result
        | .error e => error (some id) e.1 e.2), called.2) := by
  rw [handleLine, if_neg htext, hparse]
  simp only [handleRequest, hid, hmethod]
  rw [Prog.run_bind, Fallible.run]
  cases (Prog.run Op.exec (ExceptT.run (dispatch lib st ((request.get "params").getD .null)
    created completed)) d).1 <;> rfl

/-- In a session over standard input every call of a tool has its answer, between the answers to
the lines before it and to those after it, and what it says is so to the end of the session:
products are those of the catalog, a cart is stored as it is shown, and an order is stored as it
is shown, for the very cart that was named, with its session paid. -/
theorem told_is_so (lib : Library) (ext : Platform) (st : AppState)
    (fromStr : List Char → Except String Value) {reads reads' : List Read} {text : List Char}
    {created completed : Int64} {request id : Value} (hreads : .failed ∉ reads)
    (htext : trim text ≠ []) (hparse : fromStr text = .ok request)
    (hid : request.get "id" = some id)
    (hmethod : (request.get "method").bind Value.asStr = some "tools/call") :
    let before := (main lib st fromStr reads).run Op.exec (Data.new ext.crypto)
    ∃ response d, (handleLine lib st fromStr text created completed).run Op.exec before.2 =
        (some response, d) ∧
      let after := (main lib st fromStr reads').run Op.exec d
      (main lib st fromStr (reads ++ .line text created completed :: reads')).run Op.exec
          (Data.new ext.crypto) = (before.1 ++ response :: after.1, after.2) ∧
        ((∃ message, response = error (some id) (-32602) message) ∨
          ∃ tool said, (((request.get "params").getD .null).get "name").bind Value.asStr =
              some tool ∧ response = success (some id) (content said) ∧
            Says lib st ((((request.get "params").getD .null).get "arguments").getD .null) said
              after.2 tool) := by
  intro before
  have hbefore : Served ext st (main lib st fromStr reads) := Stdio.main_served reads
  have hat : Served ext st (handleLine lib st fromStr text created completed) :=
    Stdio.handleLine_served text created completed
  have hafter : Served ext st (main lib st fromStr reads') := Stdio.main_served reads'
  have hstart : Serial ext st (.start (Data.new ext.crypto)) := serial_start
  obtain ⟨c, hc, hd, -⟩ := hstart.served hbefore
  obtain ⟨c', hc', hd', -⟩ := hc.served hat
  obtain ⟨e, he, hlast, hsince⟩ := hc'.served hafter
  have hcalled := handleLine_call lib st htext hparse hid hmethod created completed c.shared.data
  have hdata : c'.shared.data = ((dispatch lib st ((request.get "params").getD .null) created
      completed).run Op.exec c.shared.data).2 := hd'.trans (congrArg Prod.snd hcalled)
  have hbegun : c.shared.data = before.2 := hd
  refine ⟨_, _, hbegun ▸ hcalled, ?_⟩
  intro after
  have hended : e.shared.data = after.2 := by
    rw [hlast, hdata, hbegun]
  refine ⟨?_, ?_⟩
  · rw [run_main_append hreads, run_main_line (hbegun ▸ hcalled)]
    rfl
  rw [← hended]
  cases hr : (dispatch lib st ((request.get "params").getD .null) created completed).run Op.exec
      c.shared.data with
  | mk r d' =>
      rw [hr] at hdata
      rw [← hbegun, hr]
      cases r with
      | error e =>
          have hcode : e.1 = -32602 := Stdio.dispatch_error (congrArg Prod.fst hr)
          exact .inl ⟨e.2, by rw [← hcode]⟩
      | ok result =>
          have hdata' : c'.shared.data = d' := hdata
          obtain ⟨tool, said, htool, rfl, hsays⟩ := dispatch_says hc hr
          exact .inr ⟨tool, said, htool, rfl, hsays e he (hdata' ▸ hsince)⟩

theorem success_ne_error (id id' : Value) (result : Value) (code : Int) (message : String) :
    success (some id) result ≠ error (some id') code message := by
  intro h
  have hnone : (success (some id) result).get "error" = none := get_sortedObject_none (by simp)
  have hsome : (error (some id') code message).get "error" =
      some (Stdio.errorMember code message) := get_sortedObject (by simp) (by simp [Stdio.errorMember])
  rw [h, hsome] at hnone
  cases hnone

theorem not_error {text : List Char} {created completed : Int64} {request id response : Value}
    {d d' : Data} (htext : trim text ≠ []) (hparse : fromStr text = .ok request)
    (hid : request.get "id" = some id)
    (hmethod : (request.get "method").bind Value.asStr = some "tools/call")
    (hrun : (handleLine lib st fromStr text created completed).run Op.exec d = (some response, d'))
    (hok : ((dispatch lib st ((request.get "params").getD .null) created completed).run
      Op.exec d).1.isOk = true) (message : String) : response ≠ error (some id) (-32602) message := by
  have hcalled := handleLine_call lib st htext hparse hid hmethod created completed d
  dsimp only at hcalled
  rw [hrun] at hcalled
  have hresponse := Option.some.inj (congrArg Prod.fst hcalled)
  rw [hresponse]
  cases hr : ((dispatch lib st ((request.get "params").getD .null) created completed).run
      Op.exec d).1 with
  | error e =>
      rw [hr] at hok
      cases hok
  | ok result => exact success_ne_error _ _ _ _ _

theorem told_is_so_bought : ∃ (r : CartResponse) (o : Order) (final : Data),
    (main .bare .shop readCalls
        ([.line filling.chars 0 0] ++ .line buying.chars 0 5 :: [])).run Op.exec started =
      ([success (some (.int 1)) (content (CartResponse.format.write .declared r).text),
        success (some (.int 2)) (content (Order.format.write .declared o).text)], final) ∧
      final.carts.get r.id = some r.cart ∧ final.orders.get o.id = some o ∧ final.orders.len = 1 := by
  have hfilling : readCalls filling.chars = .ok filling := by rw [readCalls, if_pos rfl]
  have hbuying : readCalls buying.chars = .ok buying := by
    rw [readCalls, if_neg (by decide), if_pos rfl]
  have hblank : trim filling.chars ≠ [] ∧ trim buying.chars ≠ [] := by decide
  obtain ⟨r₁, d₁, hrun₁, hwhole₁, hsaid₁⟩ := @told_is_so .bare .bare .shop readCalls []
    [.line buying.chars 0 5] _ 0 0 _ _ (by simp) hblank.1 hfilling rfl rfl
  obtain ⟨r₂, d₂, hrun₂, hwhole₂, hsaid₂⟩ := @told_is_so .bare .bare .shop readCalls
    [.line filling.chars 0 0] [] _ 0 5 _ _ (by simp) hblank.2 hbuying rfl rfl
  have hbefore : (main .bare .shop readCalls [.line filling.chars 0 0]).run Op.exec started =
      ([r₁], d₁) := run_main_line hrun₁
  have hname₁ : (((filling.get "params").getD .null).get "name").bind Value.asStr =
      some "create_cart" := rfl
  have hname₂ : (((buying.get "params").getD .null).get "name").bind Value.asStr =
      some "complete_checkout" := rfl
  have hrun₁' : (handleLine .bare .shop readCalls filling.chars 0 0).run Op.exec started =
      (some r₁, d₁) := hrun₁
  have hrun₂' : (handleLine .bare .shop readCalls buying.chars 0 5).run Op.exec
      ((main .bare .shop readCalls [.line filling.chars 0 0]).run Op.exec started).2 =
        (some r₂, d₂) := hrun₂
  have hfilled := not_error hblank.1 hfilling rfl rfl hrun₁' (by decide +kernel)
  have hbought := not_error hblank.2 hbuying rfl rfl hrun₂' (by decide +kernel)
  obtain ⟨tool₁, said₁, htool₁, rfl, hsays₁⟩ := hsaid₁.resolve_left (not_exists.mpr hfilled)
  obtain ⟨tool₂, said₂, htool₂, rfl, hsays₂⟩ := hsaid₂.resolve_left (not_exists.mpr hbought)
  rw [hname₁] at htool₁
  rw [hname₂] at htool₂
  obtain ⟨request, r, -, rfl, hr⟩ := hsays₁.cart_told (Option.some.inj htool₁).symm
  obtain ⟨o, rfl, ho⟩ := hsays₂.order_told (Option.some.inj htool₂).symm
  have hwhole : (main .bare .shop readCalls
      ([.line filling.chars 0 0] ++ .line buying.chars 0 5 :: [])).run Op.exec started =
        ([success (some (.int 1)) (content (CartResponse.format.write .declared r).text),
          success (some (.int 2)) (content (Order.format.write .declared o).text)], d₂) := by
    refine hwhole₂.trans ?_
    change (((main .bare .shop readCalls [.line filling.chars 0 0]).run Op.exec started).1 ++ _,
      _) = _
    rw [hbefore]
    rfl
  have hend : ((main .bare .shop readCalls [.line buying.chars 0 5]).run Op.exec d₁).2 = d₂ :=
    congrArg Prod.snd (hwhole₁.symm.trans hwhole)
  have hlen : ((main .bare .shop readCalls
      ([.line filling.chars 0 0] ++ .line buying.chars 0 5 :: [])).run Op.exec started).2.orders.len =
        1 := by
    decide +kernel
  rw [hwhole] at hlen
  exact ⟨r, o, d₂, hwhole, hend ▸ hr.stored, ho, hlen⟩

end Session

end AiterCommerce.Guarantees.Told

import AiterCommerce.Concurrent.Sequence
import AiterCommerce.Guarantees.Deadlock
import AiterCommerce.Server.Footprint
import AiterCommerce.Server.Stdio

namespace AiterCommerce.Guarantees.Stdio

open AiterCommerce.Core Concurrent Server Mcp Encoding.Json
open Encoding.Delimited (unlines splitOn_unlines_iff)
open Fallible (adaptErr mapErr okOr)

def heard : List Read → List (List Char)
  | [] | .failed :: _ => []
  | .line text _ _ :: reads => text :: heard reads

/-- The id that a line has its answer under, if it is to have one. -/
def expects (fromStr : List Char → Except String Value) (text : List Char) : Option Value :=
  if trim text = [] then none
  else
    match fromStr text with
    | .error _ => some .null
    | .ok request => request.get "id"

def codes : List Int := [-32700, -32602, -32601, -32600]

def errorMember (code : Int) (message : String) : Value :=
  sortedObject [("code", .int code), ("message", .string message)]

/-- A response under the id, with a result or an error, and never both. -/
structure Answers (id response : Value) : Prop where
  version : response.get "jsonrpc" = some (.string "2.0")
  id : response.get "id" = some id
  outcome : (∃ result, response.get "result" = some result ∧ response.get "error" = none) ∨
    ∃ code ∈ codes, ∃ message, response.get "error" = some (errorMember code message) ∧
      response.get "result" = none

theorem success_answers (id result : Value) : Answers id (success (some id) result) := by
  have hnodup : ([("jsonrpc", Value.string "2.0"), ("id", id), ("result", result)].map
      Prod.fst).Nodup := by
    simp
  constructor
  · exact get_sortedObject hnodup (by simp)
  · exact get_sortedObject hnodup (by simp)
  · left
    refine ⟨result, get_sortedObject hnodup (by simp), get_sortedObject_none ?_⟩
    simp

theorem error_answers {code : Int} (hcode : code ∈ codes) (id : Option Value) (message : String) :
    Answers (id.getD .null) (error id code message) := by
  have hnodup : ([("jsonrpc", Value.string "2.0"), ("id", id.getD .null),
      ("error", errorMember code message)].map Prod.fst).Nodup := by
    simp
  constructor
  · exact get_sortedObject hnodup (by simp)
  · exact get_sortedObject hnodup (by simp)
  · right
    refine ⟨code, hcode, message, get_sortedObject hnodup (by simp), get_sortedObject_none ?_⟩
    simp

variable {lib : Library} {st : AppState} {ext : Platform} {ε ε' α β R T : Type}

section Answered

theorem run_callTool (tool : Handler String String) (d : Data) :
    (callTool tool).run Op.exec d = (match (tool.run Op.exec d).1 with
      | .ok text => .ok (content text)
      | .error message => .error (-32602, message), (tool.run Op.exec d).2) := by
  rw [callTool, Fallible.run_bind, Fallible.run_adaptErr]
  cases (tool.run Op.exec d).1 <;> rfl

theorem callTool_error {tool : Handler String String} {d : Data} {e : Int × String}
    (h : ((callTool tool).run Op.exec d).1 = .error e) : e.1 = -32602 := by
  rw [run_callTool] at h
  split at h <;> cases h
  rfl

/-- A call that fails is always said to have been given wrong arguments. -/
theorem dispatch_error {params : Value} {created completed : Int64} {d : Data} {e : Int × String}
    (h : ((dispatch lib st params created completed).run Op.exec d).1 = .error e) :
    e.1 = -32602 := by
  rw [dispatch, Fallible.run_bind, Fallible.run_okOr] at h
  cases hname : (params.get "name").bind Value.asStr with
  | none =>
      rw [hname] at h
      cases h
      rfl
  | some name =>
      simp only [hname, Option.elim] at h
      split at h
      · exact callTool_error h
      · exact callTool_error h
      · exact callTool_error h
      · exact callTool_error h
      · cases h
        rfl

theorem handleRequest_silent {request : Value} (h : request.get "id" = none)
    (created completed : Int64) : handleRequest lib st request created completed = pure none := by
  rw [handleRequest, h]

theorem handleRequest_answers {request id : Value} (h : request.get "id" = some id)
    (created completed : Int64) (d : Data) :
    ∃ response, ((handleRequest lib st request created completed).run Op.exec d).1 =
      some response ∧ Answers id response := by
  simp only [handleRequest, h]
  split
  · exact ⟨_, rfl, success_answers _ _⟩
  · exact ⟨_, rfl, success_answers _ _⟩
  · rw [Prog.run_bind]
    cases hr : (Prog.run Op.exec (ExceptT.run (dispatch lib st
        ((request.get "params").getD .null) created completed)) d).1 with
    | ok result => exact ⟨_, rfl, success_answers _ _⟩
    | error e =>
        obtain ⟨code, message⟩ := e
        have hcode : code = -32602 := dispatch_error hr
        exact ⟨_, rfl, error_answers (by rw [hcode]; decide) (some id) message⟩
  · exact ⟨_, rfl, error_answers (by decide) (some id) _⟩
  · exact ⟨_, rfl, error_answers (by decide) (some id) _⟩

variable {fromStr : List Char → Except String Value}

theorem handleLine_answers (text : List Char) (created completed : Int64) (d : Data) :
    List.Forall₂ Answers (expects fromStr text).toList
      ((handleLine lib st fromStr text created completed).run Op.exec d).1.toList := by
  rw [expects, handleLine]
  split
  · exact .nil
  · cases hparse : fromStr text with
    | error err => exact .cons (error_answers (by decide) none _) .nil
    | ok request =>
        cases hid : request.get "id" with
        | none =>
            simp only [handleRequest_silent hid, hid]
            exact .nil
        | some id =>
            have hanswers : ∃ response,
                ((handleRequest lib st request created completed).run Op.exec d).1 =
                  some response ∧ Answers id response :=
              handleRequest_answers hid created completed d
            obtain ⟨response, hr, ha⟩ := hanswers
            simp only [hr, hid]
            exact .cons ha .nil

theorem main_answers (reads : List Read) (d : Data) :
    List.Forall₂ Answers ((heard reads).filterMap (expects fromStr))
      ((main lib st fromStr reads).run Op.exec d).1 := by
  induction reads generalizing d with
  | nil => exact .nil
  | cons read reads ih =>
      cases read with
      | failed => exact .nil
      | line text created completed =>
          rw [run_main_line rfl, heard, List.filterMap_eq_flatMap_toList, List.flatMap_cons,
            ← List.filterMap_eq_flatMap_toList]
          exact List.rel_append (handleLine_answers text created completed d) (ih _)

end Answered

section Framing

theorem linesFrom_append {line text rest : List Char} (h : ∀ c ∈ text, Printable c) :
    linesFrom line (text ++ '\n' :: rest) = stripReturn (line ++ text) :: linesFrom [] rest := by
  induction text generalizing line with
  | nil => rw [List.append_nil, List.nil_append, linesFrom, if_pos rfl]
  | cons c cs ih =>
      obtain ⟨hc, hcs⟩ := List.forall_mem_cons.mp h
      have hne : c ≠ '\n' := by
        rintro rfl
        exact absurd hc (by decide)
      rw [List.cons_append, linesFrom, if_neg hne, ih hcs, List.append_assoc]
      rfl

theorem stripReturn_of_printable {text : List Char} (h : ∀ c ∈ text, Printable c) :
    stripReturn text = text := by
  rw [stripReturn, if_neg]
  intro hlast
  exact absurd (h _ (List.mem_of_getLast? hlast)) (by decide)

theorem lines_unlines {texts : List (List Char)} (h : ∀ t ∈ texts, ∀ c ∈ t, Printable c) :
    lines (String.ofList (unlines '\n' texts)) = texts := by
  rw [lines, String.toList_ofList]
  induction texts with
  | nil => rfl
  | cons t ts ih =>
      obtain ⟨ht, hts⟩ := List.forall_mem_cons.mp h
      rw [unlines, List.flatMap_cons, List.append_assoc, List.singleton_append,
        linesFrom_append ht, List.nil_append, stripReturn_of_printable ht]
      exact congrArg (t :: ·) (ih hts)

theorem numeric_significant {c : Char} (h : numeric c = true) : isWhitespace c = false := by
  simp only [numeric, Bool.or_eq_true, decide_eq_true_eq] at h
  rcases h with ((((h | rfl) | rfl) | rfl) | rfl) | rfl
  · obtain ⟨hlow, hhigh⟩ := Char.isDigit_iff_toNat.mp h
    have hlow' : 48 ≤ c.toNat := hlow
    have hhigh' : c.toNat ≤ 57 := hhigh
    simp [isWhitespace]
    omega
  all_goals decide

theorem numeral_significant {text : List Char} (h : ∀ c ∈ text, numeric c = true)
    (hne : text ≠ []) : ∃ c ∈ text, isWhitespace c = false := by
  obtain ⟨c, hc⟩ := List.exists_mem_of_ne_nil text hne
  exact ⟨c, hc, numeric_significant (h c hc)⟩

theorem chars_significant (v : Value) : ∃ c ∈ v.chars, isWhitespace c = false := by
  cases v with
  | null => exact ⟨'n', by decide, by decide⟩
  | bool b =>
      cases b with
      | true => exact ⟨'t', by decide, by decide⟩
      | false => exact ⟨'f', by decide, by decide⟩
  | int n =>
      rw [Value.chars]
      exact numeral_significant numeric_of_mem_int (toString_int_ne_nil n)
  | float x =>
      rw [Value.chars]
      exact numeral_significant x.all_numeric x.text_ne_nil
  | string s =>
      rw [Value.chars, toList_quote]
      exact ⟨'"', List.mem_cons_self, by decide⟩
  | array items =>
      rw [Value.chars]
      exact ⟨'[', List.mem_cons_self, by decide⟩
  | object members =>
      rw [Value.chars]
      exact ⟨'\x7b', List.mem_cons_self, by decide⟩

theorem trim_ne_nil {text : List Char} (h : ∃ c ∈ text, isWhitespace c = false) :
    trim text ≠ [] := by
  rw [trim, ne_eq, List.rdropWhile_eq_nil_iff]
  intro hall
  obtain ⟨c, hc, hblank⟩ := h
  have hdropped : text.dropWhile isWhitespace = [] := by
    by_contra hne
    have hhead := List.head_dropWhile_not isWhitespace hne
    rw [hall _ (List.head_mem hne)] at hhead
    cases hhead
  have hspace := List.dropWhile_eq_nil_iff.mp hdropped c hc
  rw [hblank] at hspace
  cases hspace

variable {fromStr : List Char → Except String Value}

theorem expects_chars {v : Value} (h : fromStr v.chars = .ok v) :
    expects fromStr v.chars = v.get "id" := by
  rw [expects, if_neg (trim_ne_nil (chars_significant v)), h]

theorem expects_lines {sent : List Value} (h : ∀ v ∈ sent, fromStr v.chars = .ok v) :
    (lines (String.ofList (unlines '\n' (sent.map Value.chars)))).filterMap (expects fromStr) =
      sent.filterMap (Value.get "id") := by
  rw [lines_unlines]
  · rw [List.filterMap_map]
    exact List.filterMap_congr (fun v hv => expects_chars (h v hv))
  · intro t ht
    obtain ⟨v, -, rfl⟩ := List.mem_map.mp ht
    exact chars_printable v

end Framing

section Served

def byTool : Request → Bool
  | ⟨none, .createCart _⟩ | ⟨none, .createCheckoutSession ⟨_, none⟩ _⟩
  | ⟨none, .completeCheckout _ _ _⟩ => true
  | _ => false

/-- What the program does to the data is done by requests that are served in turn. -/
def Served (ext : Platform) (st : AppState) (t : Prog appSignature R) : Prop :=
  ∀ d, ∃ qs, (∀ q ∈ qs, byTool q = true) ∧ (t.run Op.exec d).2 = (app ext st).serveAll qs d

theorem served_ret (r : R) : Served ext st (.ret r) := fun _ => ⟨[], by simp, rfl⟩

theorem Served.bind {t : Prog appSignature R} {f : R → Prog appSignature T}
    (ht : Served ext st t) (hf : ∀ r, Served ext st (f r)) : Served ext st (t.bind f) := by
  intro d
  obtain ⟨qs, hqs, hd⟩ := ht d
  obtain ⟨qs', hqs', hd'⟩ := hf (t.run Op.exec d).1 (t.run Op.exec d).2
  refine ⟨qs ++ qs', List.forall_mem_append.mpr ⟨hqs, hqs'⟩, ?_⟩
  rw [Prog.run_bind, hd', hd, System.serveAll_append]

theorem Served.fallible {m : Handler ε α} {f : α → Handler ε β}
    (hm : Served ext st (ExceptT.run m)) (hf : ∀ a, Served ext st (ExceptT.run (f a))) :
    Served ext st (ExceptT.run (m >>= f)) := by
  apply Served.bind hm
  intro r
  cases r with
  | ok a => exact hf a
  | error e => exact served_ret _

theorem served_mapErr (g : ε' → ε) (x : Except ε' α) :
    Served ext st (ExceptT.run (mapErr g x : Handler ε α)) := by
  cases x <;> exact served_ret _

theorem served_okOr (e : ε) (x : Option α) :
    Served ext st (ExceptT.run (okOr e x : Handler ε α)) := by
  cases x <;> exact served_ret _

theorem Served.adaptErr {g : ε' → ε} {m : Handler ε' α} (h : Served ext st (ExceptT.run m)) :
    Served ext st (ExceptT.run (adaptErr g m)) :=
  h.bind (fun _ => served_ret _)

theorem served_replyTo {f : Except ε α → Reply} {m : Handler ε α} {q : Request}
    (hq : byTool q = true) (h : handler ext st q = replyTo f m) :
    Served ext st (ExceptT.run m) := by
  intro d
  refine ⟨[q], List.forall_mem_singleton.mpr hq, ?_⟩
  change _ = ((handler ext st q).run Op.exec d).2
  rw [h, run_replyTo]
  rfl

theorem createCart_served (arguments : Value) :
    Served ext st (ExceptT.run (Mcp.createCart lib st arguments)) := by
  apply Served.fallible (served_okOr _ _)
  intro request
  apply Served.fallible
  · exact Served.adaptErr (served_replyTo (q := ⟨none, .createCart request⟩) rfl rfl)
  · exact fun _ => served_ret _

theorem getProduct_served (arguments : Value) :
    Served ext st (ExceptT.run (Mcp.getProduct lib st arguments)) := by
  apply Served.fallible (served_mapErr _ _)
  intro id
  apply Served.fallible (served_okOr _ _)
  intro product
  dsimp only
  split
  · exact served_ret _
  · exact served_ret _

theorem completeCheckout_served (arguments : Value) (created completed : Int64) :
    Served ext st (ExceptT.run (Mcp.completeCheckout lib st arguments created completed)) := by
  apply Served.fallible (served_mapErr _ _)
  intro cartId
  apply Served.fallible
  · exact Served.adaptErr
      (served_replyTo (q := ⟨none, .createCheckoutSession ⟨cartId, none⟩ created⟩) rfl rfl)
  intro session
  apply Served.fallible
  · exact Served.adaptErr
      (served_replyTo (q := ⟨none, .completeCheckout session.id completed completed⟩) rfl rfl)
  · exact fun _ => served_ret _

theorem callTool_served {tool : Handler String String} (h : Served ext st (ExceptT.run tool)) :
    Served ext st (ExceptT.run (callTool tool)) :=
  Served.fallible h.adaptErr (fun _ => served_ret _)

theorem dispatch_served (params : Value) (created completed : Int64) :
    Served ext st (ExceptT.run (dispatch lib st params created completed)) := by
  apply Served.fallible (served_okOr _ _)
  intro name
  dsimp only
  split
  · exact callTool_served (served_ret _)
  · exact callTool_served (getProduct_served _)
  · exact callTool_served (createCart_served _)
  · exact callTool_served (completeCheckout_served _ _ _)
  · exact served_ret _

theorem handleRequest_served (request : Value) (created completed : Int64) :
    Served ext st (handleRequest lib st request created completed) := by
  rw [handleRequest]
  split
  · exact served_ret _
  · dsimp only
    split
    · exact served_ret _
    · exact served_ret _
    · apply Served.bind (dispatch_served _ _ _)
      intro r
      cases r with
      | ok result => exact served_ret _
      | error e => exact served_ret _
    · exact served_ret _
    · exact served_ret _

variable {fromStr : List Char → Except String Value}

theorem handleLine_served (text : List Char) (created completed : Int64) :
    Served ext st (handleLine lib st fromStr text created completed) := by
  rw [handleLine]
  split
  · exact served_ret _
  · split
    · exact served_ret _
    · exact handleRequest_served _ _ _

theorem main_served (reads : List Read) : Served ext st (main lib st fromStr reads) := by
  induction reads with
  | nil => exact served_ret _
  | cons read reads ih =>
      cases read with
      | failed => exact served_ret _
      | line text created completed =>
          exact (handleLine_served _ _ _).bind (fun _ => ih.bind (fun _ => served_ret _))

theorem serveAll_frame {qs : List Request} (h : ∀ q ∈ qs, byTool q = true) {γ : Type}
    {part : Data → γ} (hp : ∀ q, byTool q = true → ∀ o, q.performs o →
      ∀ d, part (o.exec d).2 = part d) (d : Data) : part ((app ext st).serveAll qs d) = part d := by
  induction qs generalizing d with
  | nil => rfl
  | cons q qs ih =>
      obtain ⟨hq, hqs⟩ := List.forall_mem_cons.mp h
      exact (ih hqs _).trans (handler_frame ext st q (hp q hq) d)

/-- What no tool touches: the agents, the log, the consents and what was cancelled. -/
def untouched (d : Data) :
    AgentRegistry × AppendOnlyLog Receipt × InMemoryStore String Consent × Finset String :=
  (d.agents, d.audit, d.consents, d.cancelledCarts)

theorem byTool_keeps {q : Request} (h : byTool q = true) (o : Op) (ho : q.performs o) (d : Data) :
    untouched (o.exec d).2 = untouched d := by
  unfold byTool at h
  split at h
  · rcases ho with rfl | ⟨id, cart, rfl⟩ <;> rfl
  · rcases ho with rfl | rfl | rfl | ⟨id, session, rfl⟩ <;> rfl
  · rcases ho with rfl | rfl | ⟨a, amount, hnone, -⟩ | ⟨order, rfl⟩ | ⟨session, rfl⟩ | rfl |
      ⟨receipt, hnone, -⟩
    · rfl
    · rfl
    · cases hnone
    · rfl
    · rfl
    · rfl
    · cases hnone
  · cases h

end Served

section Inert

def Changes (request : Value) : Prop :=
  (request.get "method").bind Value.asStr = some "tools/call" ∧
    (((request.get "params").getD .null).get "name").bind Value.asStr ∈
      [some "create_cart", some "complete_checkout"]

def Inert (t : Prog appSignature R) : Prop := ∃ r, t = .ret r

theorem inert_ret (r : R) : Inert (.ret r : Prog appSignature R) := ⟨r, rfl⟩

theorem Inert.bind {t : Prog appSignature R} {f : R → Prog appSignature T} (ht : Inert t)
    (hf : ∀ r, Inert (f r)) : Inert (t.bind f) := by
  obtain ⟨r, rfl⟩ := ht
  exact hf r

theorem Inert.fallible {m : Handler ε α} {f : α → Handler ε β} (hm : Inert (ExceptT.run m))
    (hf : ∀ a, Inert (ExceptT.run (f a))) : Inert (ExceptT.run (m >>= f)) := by
  apply Inert.bind hm
  intro r
  cases r with
  | ok a => exact hf a
  | error e => exact inert_ret _

theorem getProduct_inert (arguments : Value) :
    Inert (ExceptT.run (Mcp.getProduct lib st arguments)) := by
  apply Inert.fallible
  · cases stringArg arguments "id" <;> exact inert_ret _
  intro id
  apply Inert.fallible
  · cases st.products.find? (fun p => p.id = id) <;> exact inert_ret _
  intro product
  dsimp only
  split
  · exact inert_ret _
  · exact inert_ret _

theorem callTool_inert {tool : Handler String String} (h : Inert (ExceptT.run tool)) :
    Inert (ExceptT.run (callTool tool)) :=
  Inert.fallible (h.bind (fun _ => inert_ret _)) (fun _ => inert_ret _)

theorem dispatch_inert {params : Value}
    (h : (params.get "name").bind Value.asStr ∉ [some "create_cart", some "complete_checkout"])
    (created completed : Int64) :
    Inert (ExceptT.run (dispatch lib st params created completed)) := by
  rw [dispatch]
  cases hname : (params.get "name").bind Value.asStr with
  | none => exact inert_ret _
  | some name =>
      rw [hname] at h
      have hgo (f : String → Handler (Int × String) Value) :
          okOr (-32602, "missing tool name") (some name) >>= f = f name := rfl
      rw [hgo]
      dsimp only
      split
      · exact callTool_inert (inert_ret _)
      · exact callTool_inert (getProduct_inert _)
      · exact absurd (by simp) h
      · exact absurd (by simp) h
      · exact inert_ret _

theorem handleRequest_inert {request : Value} (h : ¬ Changes request)
    (created completed : Int64) :
    Inert (handleRequest lib st request created completed) := by
  rw [handleRequest]
  split
  · exact inert_ret _
  · dsimp only
    split
    · exact inert_ret _
    · exact inert_ret _
    next hmethod =>
      apply Inert.bind (dispatch_inert (fun hname => h ⟨hmethod, hname⟩) _ _)
      intro r
      cases r with
      | ok result => exact inert_ret _
      | error e => exact inert_ret _
    · exact inert_ret _
    · exact inert_ret _

variable {fromStr : List Char → Except String Value}

theorem handleLine_inert {text : List Char}
    (h : ∀ request, fromStr text = .ok request → ¬ Changes request) (created completed : Int64) :
    Inert (handleLine lib st fromStr text created completed) := by
  rw [handleLine]
  split
  · exact inert_ret _
  · split
    · exact inert_ret _
    next request hparse => exact handleRequest_inert (h request hparse) _ _

end Inert

section Example

def calling (id : Int) (tool : String) (arguments : Value) : Value :=
  .object [("jsonrpc", .string "2.0"), ("id", .int id), ("method", .string "tools/call"),
    ("params", .object [("name", .string tool), ("arguments", arguments)])]

def filling : Value := calling 1 "create_cart" (.object [("items",
  .array [.object [("product_id", .string "p-1"), ("quantity", .int 2)]])])

def buying : Value := calling 2 "complete_checkout" (.object [("cart_id", .string "cart-0")])

def listing : Value := calling 3 "list_products" (.object [])

def initialized : Value :=
  .object [("jsonrpc", .string "2.0"), ("method", .string "notifications/initialized")]

def readCalls (text : List Char) : Except String Value :=
  if text = filling.chars then .ok filling
  else if text = buying.chars then .ok buying
  else if text = listing.chars then .ok listing
  else if text = initialized.chars then .ok initialized
  else .error "expected value at line 1 column 1"

/-- A blank line, a notification, a call, a line that is not JSON, and a read that fails. -/
def mixed : List Read :=
  [.line [' '] 0 0, .line initialized.chars 0 0, .line filling.chars 0 0,
    .line ['h', 'e', 'l', 'l', 'o'] 0 0, .failed, .line buying.chars 0 5]

def started : Data := Data.new Platform.bare.crypto

theorem readCalls_listing : readCalls listing.chars = .ok listing := by
  rw [readCalls, if_neg (by decide), if_neg (by decide), if_pos rfl]

theorem heard_mixed : (heard mixed).filterMap (expects readCalls) = [.int 1, .null] := by
  have hblank : expects readCalls [' '] = none := by rw [expects, if_pos (by decide)]
  have hnotified : expects readCalls initialized.chars = none := by
    rw [expects, if_neg (by decide), readCalls, if_neg (by decide), if_neg (by decide),
      if_neg (by decide), if_pos rfl]
    rfl
  have hcalled : expects readCalls filling.chars = some (.int 1) := by
    rw [expects, if_neg (by decide), readCalls, if_pos rfl]
    rfl
  have hread : readCalls ['h', 'e', 'l', 'l', 'o'] = .error "expected value at line 1 column 1" := by
    rw [readCalls, if_neg (by decide), if_neg (by decide), if_neg (by decide), if_neg (by decide)]
  have hmalformed : expects readCalls ['h', 'e', 'l', 'l', 'o'] = some .null := by
    rw [expects, if_neg (by decide), hread]
  have hheard : heard mixed =
      [[' '], initialized.chars, filling.chars, ['h', 'e', 'l', 'l', 'o']] := rfl
  simp only [hheard, List.filterMap_cons, List.filterMap_nil, hblank, hnotified, hcalled, hmalformed]

end Example

/-- Standard input, however it goes on. Each line that is to have an answer has one, in turn:
a response under its id, or under no id where the line is not JSON, with a result or with an
error of the protocol. Nothing else is written, and each response is the line it stands in. A
client that writes its requests a line each is heard to say just these. -/
theorem session_answered (lib : Library) (st : AppState)
    (fromStr : List Char → Except String Value) :
    (∀ reads d, List.Forall₂ Answers ((heard reads).filterMap (expects fromStr))
        ((main lib st fromStr reads).run Op.exec d).1 ∧
      (stdout ((main lib st fromStr reads).run Op.exec d).1).splitOn '\n' =
        ((main lib st fromStr reads).run Op.exec d).1.map Value.chars ++ [[]]) ∧
      ∀ sent : List Value, (∀ v ∈ sent, fromStr v.chars = .ok v) →
        (lines (String.ofList (unlines '\n' (sent.map Value.chars)))).filterMap
          (expects fromStr) = sent.filterMap (Value.get "id") := by
  constructor
  · intro reads d
    refine ⟨main_answers reads d, splitOn_unlines_iff.mpr ?_⟩
    intro t ht hmark
    obtain ⟨v, -, rfl⟩ := List.mem_map.mp ht
    exact absurd (chars_printable v _ hmark) (by decide)
  · exact fun sent h => expects_lines h

theorem session_answered_mixed : ∃ called malformed,
    ((main .bare .shop readCalls mixed).run Op.exec started).1 = [called, malformed] ∧
      Answers (.int 1) called ∧ Answers .null malformed ∧
      (stdout [called, malformed]).splitOn '\n' = [called.chars, malformed.chars, []] := by
  obtain ⟨hanswers, hwritten⟩ := (session_answered .bare .shop readCalls).1 mixed started
  rw [heard_mixed] at hanswers
  obtain ⟨called, rest, hcalled, hrest, htold⟩ := List.forall₂_cons_left_iff.mp hanswers
  obtain ⟨malformed, none, hmalformed, hnone, rfl⟩ := List.forall₂_cons_left_iff.mp hrest
  obtain rfl := List.forall₂_nil_left_iff.mp hnone
  rw [htold] at hwritten
  exact ⟨called, malformed, htold, hcalled, hmalformed, hwritten⟩

/-- What is left in the data is what a run of the application leaves, in which carts, sessions
and completions were asked for on nobody's behalf, and all of them have their answer. A line
that calls no tool that stores can stand anywhere, or be left out: its answer is always the
same, the other lines have the same answers, and the data is the same. -/
theorem session_served (lib : Library) (ext : Platform) (st : AppState)
    (fromStr : List Char → Except String Value) :
    (∀ reads d, (∃ c, (app ext st).Runs
          (fun _ a => (∃ q, byTool q = true ∧ a = .spawn q) ∨ a.isStep = true) (.start d) c ∧
        System.AtRest c ∧ c.shared.data = ((main lib st fromStr reads).run Op.exec d).2) ∧
      ((main lib st fromStr reads).run Op.exec d).2.agents = d.agents ∧
      ((main lib st fromStr reads).run Op.exec d).2.audit = d.audit ∧
      ((main lib st fromStr reads).run Op.exec d).2.consents = d.consents ∧
      ((main lib st fromStr reads).run Op.exec d).2.cancelledCarts = d.cancelledCarts) ∧
    ∀ text created completed, (∀ request, fromStr text = .ok request → ¬ Changes request) →
      ∃ response : Option Value, ∀ reads reads' d, .failed ∉ reads →
        ∃ told told' d', (main lib st fromStr (reads ++ reads')).run Op.exec d =
            (told ++ told', d') ∧
          (main lib st fromStr (reads ++ .line text created completed :: reads')).run Op.exec d =
            (told ++ response.toList ++ told', d') := by
  constructor
  · intro reads d
    have hserved : Served ext st (main lib st fromStr reads) := main_served reads
    obtain ⟨qs, hqs, hd⟩ := hserved d
    have hordered : ∀ q, ((app ext st).handler q).Ordered Deadlock.rank ∅ ∅ :=
      Deadlock.handler_ordered
    obtain ⟨c, hr, hrest, hdata⟩ :=
      (System.orderly_start d).serves_all hordered (System.atRest_start d) qs
    have hkept : untouched ((app ext st).serveAll qs d) = untouched d :=
      serveAll_frame hqs (fun _ => byTool_keeps) d
    rw [hd]
    refine ⟨⟨c, hr.mono ?_, hrest, hdata⟩, ?_⟩
    · rintro _ _ (⟨q, hq, rfl⟩ | ha)
      · exact .inl ⟨q, hqs q hq, rfl⟩
      · exact .inr ha
    · simp only [untouched, Prod.mk.injEq] at hkept
      exact hkept
  · intro text created completed h
    have hinert : Inert (handleLine lib st fromStr text created completed) :=
      handleLine_inert h created completed
    obtain ⟨response, hline⟩ := hinert
    refine ⟨response, fun reads reads' d hreads => ?_⟩
    rw [run_main_append hreads, run_main_append hreads]
    refine ⟨_, _, _, rfl, ?_⟩
    rw [run_main_line (congrArg (fun t => Prog.run Op.exec t _) hline), List.append_assoc]

theorem session_served_mixed :
    ((main .bare .shop readCalls mixed).run Op.exec started).2.agents = started.agents ∧
      ∃ (response : Option Value) (told told' : List Value) (d' : Data),
        (main .bare .shop readCalls
            ([.line filling.chars 0 0] ++ [.line buying.chars 0 5])).run Op.exec started =
          (told ++ told', d') ∧
        (main .bare .shop readCalls ([.line filling.chars 0 0] ++
            .line listing.chars 0 0 :: [.line buying.chars 0 5])).run Op.exec started =
          (told ++ response.toList ++ told', d') := by
  obtain ⟨hserved, hinert⟩ := session_served .bare .bare .shop readCalls
  refine ⟨(hserved mixed started).2.1, ?_⟩
  have hlisting : ∀ request, readCalls listing.chars = .ok request → ¬ Changes request := by
    intro request hparse
    rw [readCalls_listing] at hparse
    obtain rfl := Except.ok.inj hparse
    rintro ⟨-, hname⟩
    exact absurd hname (by decide)
  obtain ⟨response, hsame⟩ := hinert listing.chars 0 0 hlisting
  exact ⟨response, hsame [.line filling.chars 0 0] [.line buying.chars 0 5] started (by simp)⟩

end AiterCommerce.Guarantees.Stdio

import AiterCommerce.Guarantees.Grammar
import AiterCommerce.Server.Pages
import Mathlib.Logic.Function.Basic

namespace AiterCommerce.Guarantees.BaseUrl

open AiterCommerce.Server Server.Pages Encoding.Json

section Hosts

def Between (low high c : Char) : Prop := low ≤ c ∧ c ≤ high

def NameChar (c : Char) : Prop :=
  Between 'A' 'Z' c ∨ Between 'a' 'z' c ∨ Between '0' '9' c ∨ c = '.' ∨ c = '-'

def AddressChar (c : Char) : Prop :=
  Between '0' '9' c ∨ Between 'a' 'f' c ∨ Between 'A' 'F' c ∨ c = ':'

def Word (kind : Char → Prop) (cs : List Char) : Prop := cs ≠ [] ∧ ∀ c ∈ cs, kind c

inductive IsHost : List Char → Prop
  | name {name : List Char} (hn : Word NameChar name) : IsHost name
  | port {name port : List Char} (hn : Word NameChar name) (hp : Word (Between '0' '9') port) :
      IsHost (name ++ ':' :: port)
  | address {inner : List Char} (hi : Word AddressChar inner) : IsHost ('[' :: (inner ++ [']']))

theorem between_iff {low high c : Char} :
    (decide (low ≤ c) && decide (c ≤ high)) = true ↔ Between low high c := by
  rw [Bool.and_eq_true, decide_eq_true_iff, decide_eq_true_iff, Between]

theorem isDigit_iff {c : Char} : c.isDigit = true ↔ Between '0' '9' c := between_iff

theorem nameChar_iff {c : Char} :
    (c.isAlphanum || c == '.' || c == '-') = true ↔ NameChar c := by
  have hupper : c.isUpper = true ↔ Between 'A' 'Z' c :=
    decide_eq_true_iff (p := 'A' ≤ c ∧ c ≤ 'Z')
  have hlower : c.isLower = true ↔ Between 'a' 'z' c := between_iff
  change (((c.isUpper || c.isLower) || c.isDigit) || c == '.' || c == '-') = true ↔ NameChar c
  simp only [Bool.or_eq_true, hupper, hlower, isDigit_iff, beq_iff_eq, NameChar, or_assoc]

theorem addressChar_iff {c : Char} : (isHexDigit c || c == ':') = true ↔ AddressChar c := by
  simp only [isHexDigit, Bool.or_eq_true, Bool.and_eq_true, decide_eq_true_eq, isDigit_iff,
    beq_iff_eq, AddressChar, Between, or_assoc]

theorem word_iff {kind : Char → Prop} {test : Char → Bool} (h : ∀ c, test c = true ↔ kind c)
    (cs : List Char) : (!cs.isEmpty && cs.all test) = true ↔ Word kind cs := by
  simp only [Bool.and_eq_true, Bool.not_eq_true', List.isEmpty_eq_false_iff, List.all_eq_true, h,
    Word]

theorem stripBrackets_eq_some {host inner : List Char} :
    stripBrackets host = some inner ↔ host = '[' :: (inner ++ [']']) := by
  constructor
  · intro h
    rw [stripBrackets.eq_def] at h
    split at h
    next rest =>
      split at h
      next hlast =>
        cases h
        rw [List.dropLast_append_getLast? _ hlast]
      next => cases h
    next => cases h
  · rintro rfl
    simp [stripBrackets]

theorem colon_not_name : ¬ NameChar ':' := by
  simp only [NameChar, Between]
  decide

theorem bracket_not_name : ¬ NameChar '[' := by
  simp only [NameChar, Between]
  decide

theorem cut_at_first {sep : Char} {cs : List Char} (h : sep ∈ cs) :
    cs = cs.takeWhile (· ≠ sep) ++ sep :: (cs.dropWhile (· ≠ sep)).tail := by
  induction cs with
  | nil => cases h
  | cons c cs ih =>
      by_cases hc : c = sep
      · subst hc
        simp
      · have hmem : sep ∈ cs := (List.mem_cons.mp h).resolve_left (Ne.symm hc)
        simpa [List.takeWhile_cons, List.dropWhile_cons, hc] using ih hmem

theorem takeWhile_word {name port : List Char} (hn : Word NameChar name) :
    (name ++ ':' :: port).takeWhile (· ≠ ':') = name ∧
      (name ++ ':' :: port).dropWhile (· ≠ ':') = ':' :: port := by
  have hcolon : ∀ c ∈ name, decide (c ≠ ':') = true := by
    intro c hc
    apply decide_eq_true
    rintro rfl
    exact colon_not_name (hn.2 _ hc)
  constructor
  · rw [List.takeWhile_append_of_pos hcolon]
    simp
  · rw [List.dropWhile_append_of_pos hcolon]
    simp

theorem isHost_bracketed {inner : List Char} :
    IsHost ('[' :: (inner ++ [']'])) ↔ Word AddressChar inner := by
  constructor
  · generalize hhost : '[' :: (inner ++ [']']) = host
    intro h
    cases h with
    | name hn =>
        subst hhost
        exact absurd (hn.2 _ List.mem_cons_self) bracket_not_name
    | @port name port hn hp =>
        cases name with
        | nil => exact absurd rfl hn.1
        | cons c name =>
            obtain ⟨rfl, -⟩ := List.cons.inj hhost
            exact absurd (hn.2 _ List.mem_cons_self) bracket_not_name
    | address hi =>
        obtain ⟨-, heq⟩ := List.cons.inj hhost
        rw [List.append_cancel_right heq]
        exact hi
  · exact .address

theorem isHost_of_colon {host : List Char} (hb : stripBrackets host = none) (hc : ':' ∈ host) :
    IsHost host ↔ Word NameChar (host.takeWhile (· ≠ ':')) ∧
      Word (Between '0' '9') (host.dropWhile (· ≠ ':')).tail := by
  constructor
  · intro h
    cases h with
    | name hn => exact absurd (hn.2 _ hc) colon_not_name
    | port hn hp =>
        obtain ⟨htake, hdrop⟩ := takeWhile_word hn
        rw [htake, hdrop]
        exact ⟨hn, hp⟩
    | address hi =>
        rw [stripBrackets_eq_some.mpr rfl] at hb
        cases hb
  · rintro ⟨hn, hp⟩
    rw [cut_at_first hc]
    exact .port hn hp

theorem isHost_of_plain {host : List Char} (hb : stripBrackets host = none) (hc : ':' ∉ host) :
    IsHost host ↔ Word NameChar host := by
  constructor
  · intro h
    cases h with
    | name hn => exact hn
    | port hn hp => exact absurd (List.mem_append_right _ List.mem_cons_self) hc
    | address hi =>
        rw [stripBrackets_eq_some.mpr rfl] at hb
        cases hb
  · exact .name

theorem validHost_iff {host : List Char} : validHost host = true ↔ IsHost host := by
  rw [validHost]
  cases hb : stripBrackets host with
  | some inner =>
      rw [stripBrackets_eq_some.mp hb, isHost_bracketed]
      exact word_iff (fun c => addressChar_iff) inner
  | none =>
      rw [Grammar.splitOnce_eq]
      by_cases hc : ':' ∈ host
      · rw [isHost_of_colon hb hc, ← word_iff (fun c => nameChar_iff),
          ← word_iff (fun c => isDigit_iff), if_pos hc]
        generalize (host.dropWhile (· ≠ ':')).tail = port
        change (if (port.isEmpty || !port.all Char.isDigit) = true then false else _) = true ↔ _
        by_cases hbad : (port.isEmpty || !port.all Char.isDigit) = true
        · rw [if_pos hbad]
          simp only [Bool.or_eq_true, Bool.not_eq_true'] at hbad
          rcases hbad with h | h <;> simp [h]
        · rw [if_neg hbad]
          simp only [Bool.or_eq_true, not_or, Bool.not_eq_true, Bool.not_eq_false'] at hbad
          simp [hbad]
      · rw [isHost_of_plain hb hc, ← word_iff (fun c => nameChar_iff), if_neg hc]
        simp

instance (host : List Char) : Decidable (IsHost host) := decidable_of_iff _ validHost_iff

end Hosts

section Headers

def text (headers : HeaderMap) (header : String) : Option String := (headers.get header).bind toStr

def firstEntry (value : String) : List Char := trim (value.toList.takeWhile (· ≠ ','))

def Secure (headers : HeaderMap) : Prop :=
  ∃ v, text headers "x-forwarded-proto" = some v ∧ v.toList.map Char.toLower = "https".toList

instance (headers : HeaderMap) : Decidable (Secure headers) :=
  decidable_of_iff
    ((text headers "x-forwarded-proto").any (fun v => v.toList.map Char.toLower = "https".toList))
    (by simp [Secure, Option.any_eq_true])

/-- The host that the headers give: the first forwarded one, else their own, else none. -/
inductive Gives (headers : HeaderMap) : List Char → Prop
  | forwarded {v : String} (hv : text headers "x-forwarded-host" = some v)
      (hh : IsHost (firstEntry v)) : Gives headers (firstEntry v)
  | own {v : String} (hno : ∀ f, text headers "x-forwarded-host" = some f → ¬ IsHost (firstEntry f))
      (hv : text headers "host" = some v) (hh : IsHost v.toList) : Gives headers v.toList
  | neither (hno : ∀ f, text headers "x-forwarded-host" = some f → ¬ IsHost (firstEntry f))
      (hno' : ∀ v, text headers "host" = some v → ¬ IsHost v.toList) :
      Gives headers "localhost:8080".toList

def upToComma (headers : HeaderMap) : Option String × Option (List Char) × Option String :=
  (text headers "x-forwarded-proto",
    (text headers "x-forwarded-host").map (fun v => v.toList.takeWhile (· ≠ ',')),
    text headers "host")

/-- All that the three headers say, with what is rejected counted as absent. -/
def accepted (headers : HeaderMap) : Bool × Option (List Char) × Option (List Char) :=
  (decide (Secure headers),
    ((text headers "x-forwarded-host").map firstEntry).filter (fun h => decide (IsHost h)),
    ((text headers "host").map String.toList).filter (fun h => decide (IsHost h)))

theorem filter_validHost (o : Option (List Char)) :
    (∃ h, o = some h ∧ IsHost h ∧ o.filter validHost = some h) ∨
      ((∀ h, o = some h → ¬ IsHost h) ∧ o.filter validHost = none) := by
  cases o with
  | none =>
      right
      constructor
      · intro h hsome
        cases hsome
      · rfl
  | some h =>
      by_cases hh : validHost h = true
      · exact .inl ⟨h, rfl, validHost_iff.mp hh, by rw [Option.filter_some, if_pos hh]⟩
      · refine .inr ⟨?_, by rw [Option.filter_some, if_neg hh]⟩
        rintro _ ⟨⟩ hhost
        exact hh (validHost_iff.mpr hhost)

theorem forwardedHost_gives (headers : HeaderMap) : Gives headers (forwardedHost headers).toList := by
  have hmap : ((headers.get "x-forwarded-host").bind toStr).map
      (fun v => trim (v.toList.takeWhile (· ≠ ','))) =
      (text headers "x-forwarded-host").map firstEntry := rfl
  have hown : (headers.get "host").bind toStr = text headers "host" := rfl
  rw [forwardedHost, String.toList_ofList, hmap, hown]
  rcases filter_validHost ((text headers "x-forwarded-host").map firstEntry) with
    ⟨h, hsome, hhost, hfilter⟩ | ⟨hno, hfilter⟩
  · obtain ⟨v, hv, rfl⟩ := Option.map_eq_some_iff.mp hsome
    rw [hfilter, Option.some_or, Option.getD_some]
    exact .forwarded hv hhost
  · have hnone : ∀ f, text headers "x-forwarded-host" = some f → ¬ IsHost (firstEntry f) :=
      fun f hf => hno _ (Option.map_eq_some_iff.mpr ⟨f, hf, rfl⟩)
    rw [hfilter, Option.none_or]
    rcases filter_validHost ((text headers "host").map String.toList) with
      ⟨h, hsome, hhost, hfilter⟩ | ⟨hno', hfilter⟩
    · obtain ⟨v, hv, rfl⟩ := Option.map_eq_some_iff.mp hsome
      rw [hfilter, Option.getD_some]
      exact .own hnone hv hhost
    · rw [hfilter, Option.getD_none]
      exact .neither hnone (fun v hv => hno' _ (Option.map_eq_some_iff.mpr ⟨v, hv, rfl⟩))

theorem Gives.isHost {headers : HeaderMap} {host : List Char} (h : Gives headers host) :
    IsHost host := by
  cases h with
  | forwarded hv hh => exact hh
  | own hno hv hh => exact hh
  | neither hno hno' => exact validHost_iff.mp (by decide)

theorem forwardedScheme_eq (headers : HeaderMap) :
    forwardedScheme headers = if Secure headers then "https" else "http" := by
  have htext : (headers.get "x-forwarded-proto").bind toStr = text headers "x-forwarded-proto" := rfl
  rw [forwardedScheme, htext]
  cases hv : text headers "x-forwarded-proto" with
  | none =>
      rw [if_neg]
      · rfl
      · rintro ⟨v, hsome, -⟩
        rw [hv] at hsome
        cases hsome
  | some v =>
      refine if_congr ⟨fun h => ⟨v, hv, h⟩, ?_⟩ rfl rfl
      rintro ⟨w, hsome, h⟩
      rw [hv] at hsome
      cases hsome
      exact h

end Headers

section Card

/-- The card gives the address as its service, and every endpoint under it. -/
structure Advertises (card : Value) (url : String) : Prop where
  service : card.get "service" = some (.string url)
  endpoints : ∃ paths : List (String × String), card.get "endpoints" =
    some (sortedObject (paths.map (fun p => (p.1, .string (url ++ p.2)))))

theorem agentCard_advertises (headers : HeaderMap) :
    Advertises (agentCard headers) (baseUrl headers) := by
  have hn : ["agent", "url", "service", "capabilities", "endpoints"].Nodup := by decide
  constructor
  · apply get_sortedObject
    · exact hn
    · simp
  · refine ⟨[("catalog", "/catalog/products"), ("product_lookup", "/catalog/products/\x7bid\x7d"),
      ("search", "/catalog/products?search=\x7bquery\x7d"),
      ("discovery", "/.well-known/agent-card.json"), ("llms", "/llms.txt"), ("carts", "/carts"),
      ("checkout_sessions", "/checkout_sessions"), ("seed", "/seed/catalog"),
      ("health", "/agentic/health")], ?_⟩
    apply get_sortedObject
    · exact hn
    · simp [endpoints]

/-- The three headers matter only through what is accepted of them. -/
theorem baseUrl_eq (headers : HeaderMap) : baseUrl headers =
    (if (accepted headers).1 then "https" else "http") ++ "://" ++
      String.ofList (((accepted headers).2.1.or (accepted headers).2.2).getD
        "localhost:8080".toList) := by
  have hvalid : validHost = fun h => decide (IsHost h) := by
    funext h
    rw [Bool.eq_iff_iff, validHost_iff, decide_eq_true_iff]
  have hmap : ((headers.get "x-forwarded-host").bind toStr).map
      (fun v => trim (v.toList.takeWhile (· ≠ ','))) =
      (text headers "x-forwarded-host").map firstEntry := rfl
  have hown : (headers.get "host").bind toStr = text headers "host" := rfl
  rw [baseUrl, forwardedScheme_eq, forwardedHost, hmap, hown, hvalid]
  simp only [accepted, decide_eq_true_iff]

theorem agentCard_accepted : Function.FactorsThrough agentCard accepted := by
  intro a b h
  have hurl : baseUrl a = baseUrl b := by rw [baseUrl_eq, baseUrl_eq, h]
  rw [agentCard, agentCard, hurl]

theorem accepted_upToComma : Function.FactorsThrough accepted upToComma := by
  intro a b h
  simp only [upToComma, Prod.mk.injEq] at h
  obtain ⟨hproto, hforwarded, hhost⟩ := h
  have hfirst (o : Option String) : o.map firstEntry =
      (o.map (fun v => v.toList.takeWhile (· ≠ ','))).map trim := by
    rw [Option.map_map]
    rfl
  have hsecure : Secure a ↔ Secure b := by rw [Secure, Secure, hproto]
  simp only [accepted, hfirst, hforwarded, hhost, hsecure]

/-- Whatever the three headers are, the card's address is a scheme and a host of
the grammar, the first acceptable one, and what follows a comma or is rejected
changes nothing. -/
theorem agentCard_baseUrl :
    (∀ headers, ∃ host, Gives headers host ∧ IsHost host ∧
      Advertises (agentCard headers)
        ((if Secure headers then "https://" else "http://") ++ String.ofList host)) ∧
    Function.FactorsThrough agentCard upToComma ∧
    Function.FactorsThrough agentCard accepted := by
  refine ⟨?_, ?_, agentCard_accepted⟩
  · intro headers
    have hgives := forwardedHost_gives headers
    refine ⟨(forwardedHost headers).toList, hgives, hgives.isHost, ?_⟩
    have hurl : baseUrl headers =
        (if Secure headers then "https://" else "http://") ++
          String.ofList (forwardedHost headers).toList := by
      rw [baseUrl, forwardedScheme_eq, String.ofList_toList]
      split <;> rfl
    rw [← hurl]
    exact agentCard_advertises headers
  · intro a b h
    exact agentCard_accepted (accepted_upToComma h)

end Card

end AiterCommerce.Guarantees.BaseUrl

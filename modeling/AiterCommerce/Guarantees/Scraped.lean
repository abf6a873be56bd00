import AiterCommerce.Concurrent.Moments
import AiterCommerce.Encoding.Decimal
import AiterCommerce.Encoding.Delimited
import AiterCommerce.Guarantees.Counted

namespace AiterCommerce.Guarantees.Scraped

open AiterCommerce.Core Concurrent Server
open Counted (Counting getPage scraped shopPages)
open Encoding Decimal Delimited

section Page

def readLine (cs : List Char) : Option (String × Nat) :=
  match cs.splitOn ' ' with
  | [name, value] => (natural value).map (fun n => (String.ofList name, n))
  | _ => none

def readPage (text : String) : Option (List (String × Nat)) :=
  (text.toList.splitOn '\n').dropLast.mapM readLine

def Plain (name : String) : Prop := ' ' ∉ name.toList ∧ '\n' ∉ name.toList

def lineOf (name : String) (value : UInt64) : List Char :=
  name.toList ++ ' ' :: Nat.toDigits 10 value.toNat

theorem notMem_toDigits {c : Char} (hc : c.isDigit = false) (n : Nat) : c ∉ Nat.toDigits 10 n := by
  intro h
  have hdigit : c.isDigit = true := isDigit_of_natural (natural_toDigits n) c h
  cases hc.symm.trans hdigit

theorem readLine_lineOf {name : String} (h : Plain name) (value : UInt64) :
    readLine (lineOf name value) = some (name, value.toNat) := by
  have hdigits : (Nat.toDigits 10 value.toNat).splitOn ' ' = [Nat.toDigits 10 value.toNat] :=
    List.splitOn_eq_singleton (notMem_toDigits rfl _)
  have hsplit : (lineOf name value).splitOn ' ' = [name.toList, Nat.toDigits 10 value.toNat] := by
    rw [lineOf, List.splitOn_append_cons_self_of_not_mem h.1, hdigits]
  rw [readLine, hsplit]
  simp only [natural_toDigits, Option.map_some, String.ofList_toList]

theorem toList_metricsLine (name : String) (value : UInt64) :
    (metricsLine name value).toList = lineOf name value ++ ['\n'] := by
  have hnumber : (toString value.toNat).toList = Nat.toDigits 10 value.toNat := Nat.toList_repr
  have hblank : " ".toList = [' '] := rfl
  have hend : "\n".toList = ['\n'] := rfl
  rw [metricsLine, String.toList_append, String.toList_append, String.toList_append, hnumber, hblank,
    hend, lineOf, List.append_assoc name.toList]
  rfl

theorem toList_lines (names : List String) (values : List UInt64) :
    ((List.zipWith metricsLine names values).foldr (· ++ ·) "").toList =
      unlines '\n' (List.zipWith lineOf names values) := by
  induction names generalizing values with
  | nil => rfl
  | cons name names ih =>
      cases values with
      | nil => rfl
      | cons value values =>
          rw [List.zipWith_cons_cons, List.zipWith_cons_cons, List.foldr_cons, String.toList_append,
            toList_metricsLine, ih]
          rfl

theorem mapM_readLine {names : List String} (h : ∀ name ∈ names, Plain name) (values : List UInt64) :
    (List.zipWith lineOf names values).mapM readLine =
      some (names.zip (values.map UInt64.toNat)) := by
  induction names generalizing values with
  | nil => rfl
  | cons name names ih =>
      cases values with
      | nil => rfl
      | cons value values =>
          rw [List.zipWith_cons_cons, List.mapM_cons, readLine_lineOf (h name List.mem_cons_self),
            ih (fun m hm => h m (List.mem_cons_of_mem name hm))]
          rfl

theorem newline_notMem_lines {names : List String} (h : ∀ name ∈ names, Plain name)
    (values : List UInt64) : ∀ l ∈ List.zipWith lineOf names values, '\n' ∉ l := by
  induction names generalizing values with
  | nil => simp
  | cons name names ih =>
      cases values with
      | nil => simp
      | cons value values =>
          intro l hl
          rw [List.zipWith_cons_cons] at hl
          rcases List.mem_cons.mp hl with rfl | hl
          · have hname : '\n' ∉ name.toList := (h name List.mem_cons_self).2
            have hvalue : '\n' ∉ Nat.toDigits 10 value.toNat := notMem_toDigits rfl _
            simp [lineOf, hname, hvalue]
          · exact ih (fun m hm => h m (List.mem_cons_of_mem name hm)) values l hl

theorem plain_names : ∀ name ∈ gauges.map Prod.fst, Plain name := by
  intro name hname
  simp only [gauges, List.map_cons, List.map_nil, List.mem_cons, List.not_mem_nil, or_false] at hname
  rcases hname with rfl | rfl | rfl | rfl | rfl | rfl <;> simp [Plain]

theorem readPage_metricsText (values : List UInt64) : readPage (metricsText values) =
    some ((gauges.map Prod.fst).zip (values.map UInt64.toNat)) := by
  have hlines := newline_notMem_lines plain_names values
  rw [readPage, metricsText, toList_lines, splitOn_unlines_iff.mpr hlines, List.dropLast_concat]
  exact mapM_readLine plain_names values

end Page

variable {lib : HttpLibraries} {st : AppState} {request : HttpRequest} {peer : Option String}
  {r : Readings}

structure Scrape (request : HttpRequest) : Prop where
  method : request.method = "GET"
  path : matchPath (segments request.uri) = some .metrics

def loaded (x : Gauge × UInt64) : Done monitoredSignature := ⟨.inr (.load x.1), x.2⟩

def pageOf (values : List UInt64) : Answer :=
  .http ⟨.page, ⟨200, [], .text (metricsText values)⟩⟩

/-- What a scrape has done when it answers, newest first: the counters are read in their order,
and then the request itself is counted. -/
def Did (past : List (Done monitoredSignature)) (answer : Answer) : Prop :=
  ∃ values, values.length = gauges.length ∧ answer = pageOf values ∧
    past = ⟨.inr (.fetchAdd .requestsTotal), ()⟩ ::
      (((gauges.map Prod.snd).zip values).map loaded).reverse

theorem loads_always {post : List (Done monitoredSignature) → List UInt64 → Prop} (gs : List Gauge)
    (past : List (Done monitoredSignature))
    (hpost : ∀ values, values.length = gs.length →
      post (((gs.zip values).map loaded).reverse ++ past) values) :
    (loads gs).Always (fun _ _ => True) post past := by
  induction gs generalizing past post with
  | nil => exact hpost [] rfl
  | cons g gs ih =>
      refine ⟨trivial, fun (value : UInt64) => ?_⟩
      change ((loads gs).bind (fun values => .ret (value :: values))).Always _ post
        (loaded (g, value) :: past)
      apply (Prog.always_bind _ _ _).mpr
      refine ih _ (fun values hlen => ?_)
      have hmore := hpost (value :: values) (congrArg Nat.succ hlen)
      rw [List.zip_cons_cons, List.map_cons, List.reverse_cons, List.append_assoc] at hmore
      exact hmore

theorem serve_scrape (h : Scrape request) :
    serve lib.toLibraries st (.http request peer r) = .ret .page := by
  have hroute : route lib.toLibraries request r = .page .unguarded := by
    rw [route_of_path h.path, h.method]
    exact MethodRouter.call_ofGet _
  change serveHttp lib.toLibraries st request peer r = _
  rw [serveHttp, hroute]
  rfl

theorem monitor_scrape (h : Scrape request) :
    (monitor lib st (.http request peer r)).Always (fun _ _ => True) Did [] := by
  rw [Monitored.monitor_http, serve_scrape h]
  change (Monitored.afterwards lib st request .page).Always (fun _ _ => True) Did []
  have hrespond : respondTo lib st request .page = (do
      let sent ← metricsHandler
      return ⟨.page, sent⟩) := by
    unfold respondTo
    rw [h.path]
  have hover (values : List UInt64) :
      Answer.http (Exchange.sentFor ⟨.page, ⟨200, [], .text (metricsText values)⟩⟩ request) =
        pageOf values := by
    rw [Exchange.sentFor, HttpResponse.sentFor, if_neg (by rw [h.method]; decide)]
    rfl
  rw [Monitored.afterwards, requestTrace, hrespond]
  apply (Prog.always_bind _ _ _).mpr
  apply (Prog.always_bind _ _ _).mpr
  apply (Prog.always_bind _ _ _).mpr
  apply (Prog.always_bind _ _ _).mpr
  refine loads_always _ _ (fun values hlen => ?_)
  refine ⟨trivial, fun _ => ?_⟩
  refine ⟨values, ?_, hover values, ?_⟩
  · rw [hlen, List.length_map]
  · rw [List.append_nil]
    rfl

def conduct : Conduct monitoredSignature Arrival Answer where
  may _ _ _ := True
  post a past answer := ∀ request peer r, a = .http request peer r → Scrape request → Did past answer

theorem monitor_conduct (a : Arrival) :
    (monitor lib st a).Always (conduct.may a) (conduct.post a) [] := by
  by_cases h : ∃ request peer r, a = .http request peer r ∧ Scrape request
  · obtain ⟨request, peer, r, rfl, hs⟩ := h
    refine (monitor_scrape hs).mono (fun _ _ h => h) (fun past answer hdid => ?_)
    intro _ _ _ _ _
    exact hdid
  · refine (Prog.all_of_forall (A := fun _ => True) (fun _ => trivial) _).always (fun _ _ h => h)
      (fun past answer request peer r ha hs => ?_) []
    exact absurd ⟨request, peer, r, ha, hs⟩ h

variable {c : World monitoredSignature MonitoredData Arrival Answer}

/-- At that moment the scrape was about to read the counter, which showed the value and with it
the number behind it. -/
structure Read (i : Name Arrival) (gauge : Gauge) (value : UInt64)
    (w : World monitoredSignature MonitoredData Arrival Answer) : Prop where
  pending : ∃ k, w.procs[i.index]? = some ⟨i.request, some (.op (.inr (.load gauge)) k)⟩
  shown : ∃ n, Counting w n ∧ value = UInt64.ofNat (n gauge)

/-- In every run, each page of the counters that is answered reads back as six numbers under
their names. Each was the true count, in 64 bits, at a moment while the page was made; the
moments are those of the run, in the order of the lines. -/
theorem page_true (lib : HttpLibraries) (st : AppState) (writes reads : UInt32)
    (h : (monitored lib st).Runs (fun _ _ => True) (.start (.new lib.crypto writes reads)) c) {n : Nat}
    {answer : Answer} (hs : Scrape request)
    (hr : c.returned n = some (.http request peer r, answer)) :
    ∃ values moments, answer = pageOf values ∧ values.length = gauges.length ∧
      readPage (metricsText values) = some ((gauges.map Prod.fst).zip (values.map UInt64.toNat)) ∧
      List.Forall₂ (fun (g : Gauge × UInt64) w => Read ⟨n, .http request peer r⟩ g.1 g.2 w)
        ((gauges.map Prod.snd).zip values) moments ∧
      (.start (.new lib.crypto writes reads) :: (moments ++ [c])).Pairwise
        ((monitored lib st).Runs (fun _ _ => True)) := by
  obtain ⟨values, hlen, rfl, hown⟩ := (h.along monitor_conduct).returned hr request peer r rfl hs
  obtain ⟨ws, hmoments, hordered⟩ := h.moments ⟨n, .http request peer r⟩
  rw [hown] at hmoments
  obtain ⟨w, ws, -, hloads, rfl⟩ := List.forall₂_cons_left_iff.mp hmoments
  have hread := List.forall₂_map_left_iff.mp (List.forall₂_reverse_iff.mp
    (List.reverse_reverse ws ▸ hloads))
  refine ⟨values, ws.reverse, rfl, hlen, readPage_metricsText values, ?_, ?_⟩
  · refine hread.imp (fun g u hu => ?_)
    obtain ⟨m, hm⟩ := Counted.exists_counting hu.reached
    refine ⟨hu.pending, m, hm, ?_⟩
    rw [← hm.shown]
    exact hu.resp
  · -- without the moment where the request itself was counted, and the oldest first
    rw [List.cons_append] at hordered
    have hpairs := List.pairwise_reverse.mpr (hordered.sublist (.cons_cons c (List.sublist_cons_self w _)))
    rw [List.reverse_cons, List.reverse_append] at hpairs
    exact hpairs

def scrapedText : String :=
  "aiter_requests_total 2\naiter_requests_4xx 1\naiter_requests_5xx 0\n" ++
    "aiter_checkouts_completed 1\naiter_webhooks_verified 1\naiter_reserve_debits 0\n"

def textOf : Answer → Option String
  | .http ⟨_, ⟨_, _, .text s⟩⟩ => some s
  | _ => none

theorem page_true_scraped :
    ∃ (c : World monitoredSignature MonitoredData Arrival Answer) (values : List UInt64)
      (moments : List (World monitoredSignature MonitoredData Arrival Answer)),
      metricsText values = scrapedText ∧
      List.Forall₂ (fun (g : Gauge × UInt64) w => Read ⟨4, getPage "/metrics"⟩ g.1 g.2 w)
        ((gauges.map Prod.snd).zip values) moments ∧
      (.start (.new shopPages.crypto 60 120) :: (moments ++ [c])).Pairwise
        ((monitored shopPages Money.payingShop).Runs (fun _ _ => True)) := by
  have hplay : (((monitored shopPages Money.payingShop).play (fun _ _ => True)
      (.start (.new shopPages.crypto 60 120)) scraped).map
        (fun c => (c.returned 4).map (fun x => (x.1, textOf x.2)))) =
          some (some (getPage "/metrics", some scrapedText)) := by
    decide +kernel
  obtain ⟨c, hc, hanswer⟩ := Option.map_eq_some_iff.mp hplay
  obtain ⟨⟨a, answer⟩, hr, hshown⟩ := Option.map_eq_some_iff.mp hanswer
  obtain ⟨rfl, htext⟩ := Prod.mk.inj hshown
  have hs : Scrape ⟨"GET", ⟨none, none, some "/metrics"⟩, [], []⟩ := ⟨rfl, by decide +kernel⟩
  obtain ⟨values, moments, rfl, -, -, hread, hordered⟩ :=
    page_true shopPages Money.payingShop 60 120 (System.play_runs hc) hs hr
  exact ⟨c, values, moments, Option.some.inj htext, hread, hordered⟩

end AiterCommerce.Guarantees.Scraped

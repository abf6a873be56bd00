import AiterCommerce.Guarantees.Shown
import AiterCommerce.Server.Metrics

namespace AiterCommerce.Guarantees.Monitored

open AiterCommerce.Core Concurrent Server

variable {lib : HttpLibraries} {st : AppState}

/-- What is left of a request over HTTP when the service has answered. -/
def afterwards (lib : HttpLibraries) (st : AppState) (request : HttpRequest) (inner : Response) :
    Monitored Answer :=
  (requestTrace (respondTo lib st request inner)).bind
    (fun exchange => .ret (.http (exchange.sentFor request)))

theorem monitor_http (request : HttpRequest) (peer : Option String) (r : Readings) :
    monitor lib st (.http request peer r) =
      (serve lib.toLibraries st (.http request peer r)).inl.bind (afterwards lib st request) := by
  change ((((serveHttp lib.toLibraries st request peer r).inl.bind _).bind _).bind _) = _
  rw [Prog.bind_assoc, Prog.bind_assoc]
  congr 1
  funext inner
  rw [← Prog.bind_assoc]
  rfl

section Order

/-- The counters have no locks, so there is nothing more to rank. -/
def monitoredRank : monitoredSignature.Lock → Fin 3
  | .inl l => Deadlock.serverRank l
  | .inr e => e.elim

theorem loads_ordered (gs : List Gauge) : (loads gs).Ordered monitoredRank ∅ ∅ := by
  induction gs with
  | nil => exact rfl
  | cons g gs ih => exact fun _ => ih.bind (fun _ => rfl)

theorem afterwards_ordered (request : HttpRequest) (inner : Response) :
    (afterwards lib st request inner).Ordered monitoredRank ∅ ∅ := by
  have htrace (exchange : Exchange) : (traceStatus exchange.sent).Ordered monitoredRank ∅ ∅ := by
    rw [traceStatus]
    split
    · exact fun _ => rfl
    · split
      · exact fun _ => rfl
      · exact rfl
  have hrespond : (respondTo lib st request inner).Ordered monitoredRank ∅ ∅ := by
    unfold respondTo
    split
    · exact Prog.Ordered.bind ((loads_ordered _).bind (fun _ => rfl)) (fun _ => rfl)
    · exact rfl
  refine Prog.Ordered.bind (Prog.Ordered.bind hrespond (fun exchange => ?_)) (fun _ => rfl)
  exact fun _ => (htrace exchange).bind (fun _ => rfl)

theorem monitor_ordered (a : Arrival) : (monitor lib st a).Ordered monitoredRank ∅ ∅ := by
  have hserve : ((serve lib.toLibraries st a).inl : Monitored Response).Ordered monitoredRank
      (Set.image Sum.inl ∅) (Set.image Sum.inl ∅) :=
    Prog.Ordered.inl (Deadlock.serve_ordered a)
  rw [Set.image_empty] at hserve
  cases a with
  | http request peer r =>
      rw [monitor_http]
      exact hserve.bind (afterwards_ordered request)
  | _ => exact hserve.bind (fun _ => rfl)

end Order

section Outside

abbrev Around (lib : HttpLibraries) (st : AppState) (a : Arrival) :
    List (Arrival × Response) → Set serverSignature.Lock → Monitored Answer → Prop :=
  Outside (server lib.toLibraries st) (fun _ => true) (fun q => q = a)
    (fun past answer => past = [(a, answer.inner)])

variable {a : Arrival} {past : List (Arrival × Response)}

theorem around_loads {gs : List Gauge} {f : List UInt64 → Monitored Answer}
    (h : ∀ values, Around lib st a past ∅ (f values)) :
    Around lib st a past ∅ ((loads gs).bind f) := by
  induction gs generalizing f with
  | nil => exact h []
  | cons g gs ih =>
      apply Outside.edge
      intro value
      change Around lib st a past ∅ (((loads gs).bind _).bind f)
      rw [Prog.bind_assoc]
      exact ih (fun values => h _)

theorem around_respondTo {request : HttpRequest} {inner : Response} {f : Exchange → Monitored Answer}
    (h : ∀ exchange, exchange.inner = inner → Around lib st a past ∅ (f exchange)) :
    Around lib st a past ∅ ((respondTo lib st request inner).bind f) := by
  unfold respondTo
  split
  · change Around lib st a past ∅ ((((loads _).bind _).bind _).bind f)
    rw [Prog.bind_assoc, Prog.bind_assoc]
    exact around_loads (fun values => h _ rfl)
  · exact h _ rfl

theorem around_afterwards {request : HttpRequest} {inner : Response} :
    Around lib st a [(a, inner)] ∅ (afterwards lib st request inner) := by
  rw [afterwards, requestTrace]
  change Around lib st a [(a, inner)] ∅ (((respondTo lib st request inner).bind _).bind _)
  rw [Prog.bind_assoc]
  refine around_respondTo (fun exchange hinner => ?_)
  apply Outside.edge
  intro x
  change Around lib st a [(a, inner)] ∅ (((traceStatus exchange.sent).bind _).bind _)
  rw [Prog.bind_assoc, traceStatus]
  have hend : Around lib st a [(a, inner)] ∅ (.ret (.http (exchange.sentFor request))) :=
    .ret (by rw [Answer.inner, Exchange.sentFor, hinner])
  split
  · exact .edge _ _ (fun _ => hend)
  · split
    · exact .edge _ _ (fun _ => hend)
    · exact hend

theorem around_call {k : Response → Monitored Answer}
    (h : ∀ inner, Around lib st a [(a, inner)] ∅ (k inner)) :
    Around lib st a [] ∅ ((serve lib.toLibraries st a).inl.bind k) := by
  have hyields : ((server lib.toLibraries st).handler a).Yields (fun _ => True) :=
    Prog.yields_of_forall (fun _ => trivial) _
  exact Outside.call a k rfl hyields (fun inner _ => h inner)

theorem around_monitor (a : Arrival) : Around lib st a [] ∅ (monitor lib st a) := by
  cases a with
  | http request peer r =>
      rw [monitor_http]
      exact around_call (fun inner => around_afterwards)
  | _ => exact around_call (fun inner => .ret rfl)

end Outside

def shell (lib : HttpLibraries) (st : AppState) :
    Shell (server lib.toLibraries st) (monitored lib st) where
  data := MonitoredData.server
  acts _ := true
  calls a q := q = a
  post a past answer := past = [(a, answer.inner)]
  exec_resp _ _ := rfl
  exec_data _ _ := rfl
  exec_edge o d := by cases o <;> rfl
  exec_read _ _ ho := by cases ho
  outside := around_monitor

theorem shown_run {d : MonitoredData}
    {c : World monitoredSignature MonitoredData Arrival Answer}
    (h : (monitored lib st).Runs (fun _ _ => True) (.start d) c) :
    ∃ w place, (server lib.toLibraries st).Runs (Shell.Called (shell lib st) c) (.start d.server) w ∧
      (shell lib st).Shows c w place := by
  have hinner (a : Arrival) :
      ((server lib.toLibraries st).handler a).Ordered Deadlock.serverRank ∅ ∅ :=
    Deadlock.serve_ordered a
  have houter (a : Arrival) : ((monitored lib st).handler a).Ordered monitoredRank ∅ ∅ :=
    monitor_ordered a
  exact (shell lib st).shows_run hinner houter h

section Wire

/-- What is sent is the answer of the server as it is written, without its body where only the
head was asked for, unless it is the page of the counters. -/
def Sent (lib : HttpLibraries) (st : AppState) : Arrival → Answer → Prop
  | .http request _ _, .http exchange =>
      exchange.sent = (exchange.inner.http lib st request).sentFor request ∨
        exchange.inner = .page ∧ matchPath (segments request.uri) = some .metrics ∧
          ∃ values, exchange.sent = HttpResponse.sentFor ⟨200, [], .text (metricsText values)⟩ request
  | .http _ _ _, .direct _ | _, .http _ => False
  | _, .direct _ => True

def sending (lib : HttpLibraries) (st : AppState) : Conduct monitoredSignature Arrival Answer :=
  ⟨fun _ _ _ => True, fun a _ answer => Sent lib st a answer⟩

abbrev Sends (lib : HttpLibraries) (st : AppState) (a : Arrival) (t : Monitored Answer)
    (past : List (Done monitoredSignature)) : Prop :=
  t.Always ((sending lib st).may a) ((sending lib st).post a) past

theorem sends_bind {α : Type} {a : Arrival} {t : Monitored α} {f : α → Monitored Answer}
    (h : ∀ x past, Sends lib st a (f x) past) (past : List (Done monitoredSignature)) :
    Sends lib st a (t.bind f) past := by
  apply (Prog.always_bind _ _ _).mpr
  have hall : t.All (fun _ => True) := Prog.all_of_forall (fun _ => trivial) t
  exact hall.always (fun _ _ h => h) (fun past x => h x past) past

theorem sends_afterwards {request : HttpRequest} {peer : Option String} {r : Readings}
    (inner : Response) (past : List (Done monitoredSignature)) :
    Sends lib st (.http request peer r) (afterwards lib st request inner) past := by
  have traced {exchange : Exchange}
      (h : Sent lib st (.http request peer r) (.http (exchange.sentFor request)))
      (past : List (Done monitoredSignature)) : Sends lib st (.http request peer r)
        (((fetchAdd .requestsTotal).bind (fun _ => (traceStatus exchange.sent).bind
          (fun _ => .ret exchange))).bind (fun exchange => .ret (.http (exchange.sentFor request))))
            past := by
    rw [Prog.bind_assoc]
    refine sends_bind (fun _ past => ?_) past
    rw [Prog.bind_assoc]
    refine sends_bind (fun _ _ => ?_) past
    exact h
  change Sends lib st _ (((respondTo lib st request inner).bind _).bind _) past
  rw [Prog.bind_assoc]
  unfold respondTo
  split
  next hpath =>
    change Sends lib st _ ((metricsHandler.bind _).bind _) past
    rw [Prog.bind_assoc, metricsHandler]
    change Sends lib st _ (((loads _).bind _).bind _) past
    rw [Prog.bind_assoc]
    exact sends_bind (fun values past => traced (.inr ⟨rfl, hpath, values, rfl⟩) past) past
  next => exact traced (.inl rfl) past

theorem sends_monitor (a : Arrival) : Sends lib st a (monitor lib st a) [] := by
  cases a with
  | http request peer r =>
      rw [monitor_http]
      exact sends_bind (fun inner past => sends_afterwards inner past) []
  | _ =>
      refine sends_bind (fun _ _ => ?_) []
      trivial

end Wire

/-- The counters go unnoticed. In every run, whatever arrives and however the tasks take turns,
the server under them is in a run of its own, of requests that have arrived, that leads to the
same data by the same operations with the same answers; and whoever has an answer has that of
the server, written as it is, unless it is the page of the counters. -/
theorem counters_unnoticed (lib : HttpLibraries) (st : AppState) (d : MonitoredData)
    (c : World monitoredSignature MonitoredData Arrival Answer)
    (h : (monitored lib st).Runs (fun _ _ => True) (.start d) c) :
    ∃ w, (server lib.toLibraries st).Runs
        (fun _ act => ∀ q, act = .spawn q → ∃ p ∈ c.procs, q = p.request) (.start d.server) w ∧
      w.shared.data = c.shared.data.server ∧
      (shell lib st).Alike w.shared.history c.shared.history ∧
      ∀ n a answer, c.returned n = some (a, answer) → Sent lib st a answer ∧
        Shell.Answered (server lib.toLibraries st) w (a, answer.inner) := by
  obtain ⟨w, place, hruns, hshows⟩ := shown_run h
  refine ⟨w, hruns, hshows.data, hshows.history, fun n a answer hr => ⟨?_, ?_⟩⟩
  · have halong : System.Along (sending lib st) c := h.along sends_monitor
    exact halong.returned hr
  · obtain ⟨past, rfl, hanswered⟩ := hshows.answers hr
    exact hanswered _ List.mem_cons_self

def plainLibraries : HttpLibraries :=
  { Libraries.bare with quoted := fun s => s }

def getHealth : Arrival :=
  .http ⟨"GET", ⟨none, none, some "/agentic/health"⟩, [], []⟩ none ⟨0, 0, 0, 0, .ok ""⟩

theorem counters_unnoticed_health :
    ∃ (c : World monitoredSignature MonitoredData Arrival Answer)
      (w : World serverSignature ServerData Arrival Response) (answer : Answer),
      c.returned 0 = some (getHealth, answer) ∧ w.shared.data = c.shared.data.server ∧
        Sent plainLibraries .shop getHealth answer ∧
          Shell.Answered (server plainLibraries.toLibraries .shop) w (getHealth, answer.inner) := by
  have hplay : ((monitored plainLibraries .shop).play (fun _ _ => True)
      (.start (.new plainLibraries.crypto 60 120)) (System.enter 0 getHealth 4)).map
        (fun c => (c.returned 0).map Prod.fst) = some (some getHealth) := by
    decide +kernel
  obtain ⟨c, hc, hreturned⟩ := Option.map_eq_some_iff.mp hplay
  obtain ⟨⟨a, answer⟩, hr, rfl⟩ := Option.map_eq_some_iff.mp hreturned
  obtain ⟨w, -, hdata, -, hanswers⟩ :=
    counters_unnoticed plainLibraries .shop _ c (System.play_runs hc)
  obtain ⟨hsent, hanswered⟩ := hanswers 0 _ answer hr
  exact ⟨c, w, answer, hr, hdata, hsent, hanswered⟩

end AiterCommerce.Guarantees.Monitored

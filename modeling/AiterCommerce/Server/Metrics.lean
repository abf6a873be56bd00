import AiterCommerce.Server.Http

namespace AiterCommerce.Server

open AiterCommerce.Core Concurrent

inductive Counter
  | requestsTotal | requests4xx | requests5xx
  deriving DecidableEq

/-- The counters that are read: those of the middleware and those the handlers raise. -/
inductive Gauge
  | requests (counter : Counter)
  | checkoutsCompleted | webhooksVerified | reserveDebits
  deriving DecidableEq

structure Metrics where
  requestsTotal : UInt64
  requests4xx : UInt64
  requests5xx : UInt64

namespace Metrics

def get (m : Metrics) : Counter → UInt64
  | .requestsTotal => m.requestsTotal
  | .requests4xx => m.requests4xx
  | .requests5xx => m.requests5xx

def raise (m : Metrics) : Counter → Metrics
  | .requestsTotal => { m with requestsTotal := m.requestsTotal + 1 }
  | .requests4xx => { m with requests4xx := m.requests4xx + 1 }
  | .requests5xx => { m with requests5xx := m.requests5xx + 1 }

theorem get_raise (m : Metrics) (counter other : Counter) :
    (m.raise counter).get other = if other = counter then m.get other + 1 else m.get other := by
  cases counter <;> cases other <;> rfl

end Metrics

inductive MetricsOp
  | fetchAdd (counter : Counter)
  | load (gauge : Gauge)

abbrev MetricsOp.Resp : MetricsOp → Type
  | fetchAdd _ => Unit
  | load _ => UInt64

abbrev metricsSignature : Interface := ⟨MetricsOp, MetricsOp.Resp, Empty⟩

abbrev monitoredSignature : Interface := serverSignature.sum metricsSignature

structure MonitoredData where
  server : ServerData
  metrics : Metrics

def MonitoredData.load (d : MonitoredData) : Gauge → UInt64
  | .requests counter => d.metrics.get counter
  | .checkoutsCompleted => UInt64.ofNat d.server.data.checkoutsCompleted
  | .webhooksVerified => d.server.data.webhooksVerified
  | .reserveDebits => d.server.data.reserveDebits

def MonitoredData.exec : (o : monitoredSignature.Op) → MonitoredData →
    monitoredSignature.Resp o × MonitoredData
  | .inl o, d => ((d.server.exec o).1, { d with server := (d.server.exec o).2 })
  | .inr (.fetchAdd counter), d => ((), { d with metrics := d.metrics.raise counter })
  | .inr (.load gauge), d => (d.load gauge, d)

abbrev Monitored (α : Type) := Prog monitoredSignature α

def fetchAdd (counter : Counter) : Monitored Unit := .op (.inr (.fetchAdd counter)) .ret

def loadGauge (gauge : Gauge) : Monitored UInt64 := .op (.inr (.load gauge)) .ret

def loads : List Gauge → Monitored (List UInt64)
  | [] => return []
  | gauge :: gauges => do
      let value ← loadGauge gauge
      let values ← loads gauges
      return value :: values

def gauges : List (String × Gauge) :=
  [("aiter_requests_total", .requests .requestsTotal), ("aiter_requests_4xx", .requests .requests4xx),
    ("aiter_requests_5xx", .requests .requests5xx),
    ("aiter_checkouts_completed", .checkoutsCompleted),
    ("aiter_webhooks_verified", .webhooksVerified), ("aiter_reserve_debits", .reserveDebits)]

def metricsLine (name : String) (value : UInt64) : String :=
  name ++ " " ++ toString value.toNat ++ "\n"

def metricsText (values : List UInt64) : String :=
  (List.zipWith metricsLine (gauges.map Prod.fst) values).foldr (· ++ ·) ""

/-- The counters are read one after another, while others go on raising them. -/
def metricsHandler : Monitored HttpResponse := do
  let values ← loads (gauges.map Prod.snd)
  return ⟨200, [], .text (metricsText values)⟩

/-- An answer as it was given, and what goes over the wire of it. -/
structure Exchange where
  inner : Response
  sent : HttpResponse

def Exchange.sentFor (exchange : Exchange) (request : HttpRequest) : Exchange :=
  { exchange with sent := exchange.sent.sentFor request }

def respondTo (lib : HttpLibraries) (st : AppState) (request : HttpRequest) (inner : Response) :
    Monitored Exchange :=
  match inner, matchPath (segments request.uri) with
  | .page, some .metrics => do
      let sent ← metricsHandler
      return ⟨inner, sent⟩
  | _, _ => return ⟨inner, inner.http lib st request⟩

def traceStatus (response : HttpResponse) : Monitored Unit :=
  if response.isClientError then fetchAdd .requests4xx
  else if response.isServerError then fetchAdd .requests5xx
  else return ()

/-- Around everything that comes over HTTP, refusals included; what is dropped on its way is
not counted. -/
def requestTrace (next : Monitored Exchange) : Monitored Exchange := do
  let response ← next
  fetchAdd .requestsTotal
  traceStatus response.sent
  return response

/-- The answers to requests over HTTP, and those of the process itself and its tools. -/
inductive Answer
  | http (exchange : Exchange)
  | direct (inner : Response)

def Answer.inner : Answer → Response
  | http exchange => exchange.inner
  | direct inner => inner

def monitor (lib : HttpLibraries) (st : AppState) : Arrival → Monitored Answer
  | .http request peer r => do
      let exchange ← requestTrace do
        let inner ← (serveHttp lib.toLibraries st request peer r).inl
        respondTo lib st request inner
      return .http (exchange.sentFor request)
  | a => do
      let inner ← (serve lib.toLibraries st a).inl
      return .direct inner

def monitored (lib : HttpLibraries) (st : AppState) :
    System monitoredSignature MonitoredData Arrival Answer :=
  ⟨MonitoredData.exec, monitor lib st⟩

def MonitoredData.new (crypto : Crypto) (writesPerMin readsPerMin : UInt32) : MonitoredData :=
  ⟨.new crypto writesPerMin readsPerMin, ⟨0, 0, 0⟩⟩

end AiterCommerce.Server

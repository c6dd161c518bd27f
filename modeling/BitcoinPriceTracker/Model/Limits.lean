import BitcoinPriceTracker.Model.Basic

namespace BitcoinPriceTracker

structure RuntimeConfig where
  maxViewers : ℕ
  requestsPerSecond : ℕ
  concurrency : ℕ

structure Bucket where
  tokens : ℚ
  updated : ℕ

structure Gate where
  bucket : Bucket
  rate : ℕ
  slots : ℕ

/-- `Duration::as_secs_f64`. -/
def asSecsF64 (duration : ℕ) : ℚ := duration / 1000000000

namespace Gate

def new (rate concurrency : ℕ) (now : ℕ) : Gate := ⟨⟨rate, now⟩, rate, concurrency⟩

/-- The tokens after the refill, before the request takes its own. -/
def refilled (gate : Gate) (now : ℕ) : ℚ :=
  min (gate.bucket.tokens + asSecsF64 (now - gate.bucket.updated) * gate.rate) gate.rate

/-- `Gate::allow`, with the bucket that it leaves behind. -/
def allow (gate : Gate) (now : ℕ) : Bool × Gate :=
  if gate.refilled now < 1 then (false, { gate with bucket := ⟨gate.refilled now, now⟩ })
  else (true, { gate with bucket := ⟨gate.refilled now - 1, now⟩ })

/-- The calls of `allow` in the order in which they obtain the bucket. -/
def calls (gate : Gate) : List ℕ → List Bool × Gate
  | [] => ([], gate)
  | now :: rest =>
    let (admitted, next) := gate.allow now
    let (answers, final) := next.calls rest
    (admitted :: answers, final)

def admitted (gate : Gate) (instants : List ℕ) : ℕ := (gate.calls instants).1.count true

end Gate

inductive Route
  | price
  | presence
  | health
  | news
  | assets
  deriving DecidableEq

def routeOf (path : String) : Route :=
  if path = "/api/price" then .price
  else if path = "/api/presence" then .presence
  else if path = "/health" then .health
  else if path = "/api/news" then .news
  else .assets

/-- `RequestLimits::new`. -/
def requestLimits (config : RuntimeConfig) (now : ℕ) : Route → Gate
  | .price => .new config.requestsPerSecond config.concurrency now
  | .presence => .new config.requestsPerSecond config.concurrency now
  | .health => .new 10 4 now
  | .news => .new config.requestsPerSecond (min config.concurrency 8) now
  | .assets => .new config.requestsPerSecond config.concurrency now

/-- What `limit_requests` answers itself: status, `retry-after` header and error text. -/
structure Refusal where
  status : ℕ
  retryAfter : String
  error : String
  deriving DecidableEq

/-- The admission part of `limit_requests`. An admitted request holds a slot until it ends. -/
def limitRequests (limits : Route → Gate) (path : String) (now : ℕ) :
    Except Refusal Unit × (Route → Gate) :=
  let route := routeOf path
  let (allowed, gate) := (limits route).allow now
  if !allowed then
    (.error ⟨429, "1", "Request rate limit reached; retry later."⟩, Function.update limits route gate)
  else if gate.slots = 0 then
    (.error ⟨503, "1", "Server busy; retry later."⟩, Function.update limits route gate)
  else
    (.ok (), Function.update limits route { gate with slots := gate.slots - 1 })

end BitcoinPriceTracker

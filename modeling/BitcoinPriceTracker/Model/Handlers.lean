import BitcoinPriceTracker.Model.Freshness
import BitcoinPriceTracker.Model.Presence
import BitcoinPriceTracker.Model.Storage

namespace BitcoinPriceTracker

structure PriceRefreshReport where
  succeeded : Bool
  errors : List String
  deriving DecidableEq

/-- `PriceRefreshReport::default()`. -/
def PriceRefreshReport.default : PriceRefreshReport := ⟨false, []⟩

structure PriceResponse where
  symbol : String
  currency : String
  sources : List SourceResponse
  providerHealth : List ProviderHealth
  averagePrice : Option F64
  spread : Option F64
  status : PriceStatus
  coverage : AggregateCoverage
  sourceMaxAgeSeconds : ℕ
  evaluatedAtUnix : ℤ
  fetchedAtUnix : ℤ
  fetchedAgeSeconds : Option ℤ
  warnings : List String
  refreshSucceeded : Bool
  refreshing : Bool
  stale : Bool
  activeViewers : ℕ
  refreshSkippedReason : Option String
  deriving DecidableEq

/-- What a read knows when it builds its response. -/
structure ReadContext where
  report : PriceRefreshReport
  activeViewers : ℕ
  refreshing : Bool
  refreshSkippedReason : Option String

/-- The state that a failed read continues with. -/
def StoredPriceState.unread : StoredPriceState := ⟨none, []⟩

/-- The stored state of a read, and whether the read failed. -/
def storedOf (loaded : Except String StoredPriceState) : StoredPriceState × Bool :=
  match loaded with
  | .ok stored => (stored, false)
  | .error _ => (.unread, true)

/-- The quotes to evaluate and the warnings to start from. -/
def quotesOf (snapshot : Option SnapshotRecord) : List StoredQuote × List String :=
  match snapshot with
  | some snapshot => (snapshot.sources, snapshot.warnings)
  | none => ([], ["No stored BTC price snapshot is available yet."])

/-- An error of the report as a warning. -/
def reportWarning (hadSnapshot : Bool) (error : String) : String :=
  if hadSnapshot then "Refresh failed; serving latest SQLite snapshot: " ++ error else error

/-- `cached_prices` from the loaded state to the response. -/
def priceResponse (loaded : Except String StoredPriceState) (context : ReadContext) (responseNow : ℤ) :
    ℕ × PriceResponse :=
  let (stored, readFailed) := storedOf loaded
  let (quotes, storedWarnings) := quotesOf stored.snapshot
  let evaluated := evaluateQuotes quotes stored.providerHealth responseNow
  let status :=
    if !context.report.errors.isEmpty && evaluated.status = .live then .degraded else evaluated.status
  let warnings := context.report.errors.map (reportWarning stored.snapshot.isSome) ++ storedWarnings
  ( if readFailed then 500 else if evaluated.sources.isEmpty then 503 else 200,
    { symbol := "BTC"
      currency := "USD"
      sources := evaluated.sources
      providerHealth := stored.providerHealth
      averagePrice := evaluated.averagePrice
      spread := evaluated.spread
      status
      coverage := evaluated.coverage
      sourceMaxAgeSeconds := SOURCE_MAX_AGE_SECONDS
      evaluatedAtUnix := responseNow
      fetchedAtUnix := stored.snapshot.elim 0 SnapshotRecord.fetchedAtUnix
      fetchedAgeSeconds := stored.snapshot.bind (snapshotAgeSeconds · responseNow)
      warnings := if readFailed then ["Failed to load stored price data."] else warnings
      refreshSucceeded := context.report.succeeded && !readFailed
      refreshing := context.refreshing
      stale := status ≠ .live
      activeViewers := context.activeViewers
      refreshSkippedReason := context.refreshSkippedReason } )

/-! ### Serialisation -/

/-- An integer of the body. -/
def Json.integer (n : ℤ) : Json := .number (.finite n)

/-- An optional field: `None` is null. -/
def Json.optional {α : Type} (encode : α → Json) : Option α → Json
  | some a => encode a
  | none => .null

/-- `serde_json` writes a number that is not finite as null. -/
def F64.toJson : F64 → Json
  | finite value => .number (.finite value)
  | _ => .null

def SourceFreshness.text : SourceFreshness → String
  | fresh => "fresh"
  | stale => "stale"
  | unknown => "unknown"
  | future => "future"

def PriceStatus.text : PriceStatus → String
  | live => "LIVE"
  | degraded => "DEGRADED"
  | stale => "STALE"
  | unavailable => "UNAVAILABLE"

/-- The quote is flattened into the response row. -/
def SourceResponse.toJson (source : SourceResponse) : Json :=
  .object
    [("source", .string source.quote.source), ("price_usd", source.quote.priceUsd.toJson),
      ("last_success_at_unix", .optional .integer source.quote.lastSuccessAtUnix),
      ("quote_kind", .string source.quote.quoteKind.text), ("age_seconds", .optional .integer source.ageSeconds),
      ("freshness", .string source.freshness.text)]

def SourceError.toJson (error : SourceError) : Json :=
  .object
    [("category", .string error.category.text), ("message", .string error.message),
      ("http_status", .optional (fun status : ℕ => .integer status) error.httpStatus)]

def LastAttempt.toJson : LastAttempt → Json
  | unknown => .object [("outcome", .string "unknown")]
  | success attemptedAtUnix =>
    .object [("outcome", .string "success"), ("attempted_at_unix", .integer attemptedAtUnix)]
  | failure attemptedAtUnix error =>
    .object
      [("outcome", .string "failure"), ("attempted_at_unix", .integer attemptedAtUnix), ("error", error.toJson)]

def ProviderHealth.toJson (health : ProviderHealth) : Json :=
  .object [("source", .string health.source), ("last_attempt", health.lastAttempt.toJson)]

def AggregateCoverage.toJson (coverage : AggregateCoverage) : Json :=
  .object
    [("configured_source_count", .integer coverage.configuredSourceCount),
      ("fresh_source_count", .integer coverage.freshSourceCount),
      ("contributing_sources", .array (coverage.contributingSources.map .string))]

def PriceResponse.toJson (response : PriceResponse) : Json :=
  .object
    [("symbol", .string response.symbol), ("currency", .string response.currency),
      ("sources", .array (response.sources.map SourceResponse.toJson)),
      ("provider_health", .array (response.providerHealth.map ProviderHealth.toJson)),
      ("average_price", .optional F64.toJson response.averagePrice),
      ("spread", .optional F64.toJson response.spread), ("status", .string response.status.text),
      ("coverage", response.coverage.toJson), ("source_max_age_seconds", .integer response.sourceMaxAgeSeconds),
      ("evaluated_at_unix", .integer response.evaluatedAtUnix),
      ("fetched_at_unix", .integer response.fetchedAtUnix),
      ("fetched_age_seconds", .optional .integer response.fetchedAgeSeconds),
      ("warnings", .array (response.warnings.map .string)), ("refresh_succeeded", .bool response.refreshSucceeded),
      ("refreshing", .bool response.refreshing), ("stale", .bool response.stale),
      ("active_viewers", .integer response.activeViewers),
      ("refresh_skipped_reason", .optional .string response.refreshSkippedReason)]

end BitcoinPriceTracker

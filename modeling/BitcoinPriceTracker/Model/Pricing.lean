import BitcoinPriceTracker.Lib.Keyed
import BitcoinPriceTracker.Model.Refresh

/-!
# Fetching and merging prices

`pricing.rs`: the bounded transfer, the four adapters, and the batch that a refresh hands to
the store. A provider request is represented by what it returns: an error of the client, or
a response with its chunks.
-/

namespace BitcoinPriceTracker

/-- A response; `interrupted` is the error that ends the transfer after the chunks. -/
structure Response where
  status : StatusCode
  retryAfter : Option (List UInt8)
  contentLength : Option ℕ
  chunks : List (List UInt8)
  interrupted : Option ReqwestError

/-- `Option::ok_or_else`. -/
def okOr {ε α : Type} (error : ε) : Option α → Except ε α
  | some a => .ok a
  | none => .error error

def oversized (provider : UpstreamSource) : ProviderError := .invalidPayload provider "response body too large"

/-- The loop over the chunks of a body. -/
def readChunks (provider : UpstreamSource) (interrupted : Option ReqwestError) :
    List UInt8 → List (List UInt8) → Except ProviderError (List UInt8)
  | body, [] =>
    match interrupted with
    | some error => .error (.fromReqwest provider error)
    | none => .ok body
  | body, chunk :: rest =>
    if UPSTREAM_BODY_LIMIT - body.length < chunk.length then .error (oversized provider)
    else readChunks provider interrupted (body ++ chunk) rest

def decodeResponse (P : Platform) (provider : UpstreamSource) (response : Response) :
    Except ProviderError Json :=
  if !response.status.isSuccess then
    .error (.fromStatus P provider response.status response.retryAfter)
  else if response.contentLength.any fun size => UPSTREAM_BODY_LIMIT < size then
    .error (oversized provider)
  else
    match readChunks provider response.interrupted [] response.chunks with
    | .error error => .error error
    | .ok body => (P.parseJson body).mapError (.invalidJson provider)

def fetchJson (P : Platform) (provider : UpstreamSource) (exchange : Except ReqwestError Response) :
    Except ProviderError Json :=
  match exchange with
  | .error error => .error (.fromReqwest provider error)
  | .ok response => decodeResponse P provider response

def checkedPrice (provider : UpstreamSource) (field : String) (price : F64) :
    Except ProviderError SourcePrice :=
  if !price.isFinite || price.nonPositive then
    .error (.invalidPrice provider field "expected a finite positive number")
  else .ok ⟨provider.name, price⟩

def parsePrice (P : Platform) (provider : UpstreamSource) (field amount : String) :
    Except ProviderError SourcePrice :=
  match P.parseF64 amount with
  | none => .error (.invalidPrice provider field "not a number")
  | some price => checkedPrice provider field price

/-- `str::eq_ignore_ascii_case`. -/
def eqIgnoreAsciiCase (a b : String) : Bool := a.toList.map Char.toLower = b.toList.map Char.toLower

def fetchCoingecko (P : Platform) (exchange : Except ReqwestError Response) :
    Except ProviderError SourcePrice := do
  let provider := UpstreamSource.coinGecko
  let value ← fetchJson P provider exchange
  let price ← okOr (.invalidPayload provider "missing numeric bitcoin.usd")
    ((value.get "bitcoin").bind fun entry => (entry.get "usd").bind Json.asF64)
  checkedPrice provider "bitcoin.usd" price

def fetchCoinbase (P : Platform) (exchange : Except ReqwestError Response) :
    Except ProviderError SourcePrice := do
  let provider := UpstreamSource.coinbase
  let value ← fetchJson P provider exchange
  let data ← okOr (.invalidPayload provider "missing data") (value.get "data")
  if (data.get "currency").bind Json.asStr ≠ some "USD" ∨
      (data.get "base").any fun base => base.asStr ≠ some "BTC" then
    .error (.invalidPayload provider "expected BTC/USD quote")
  else
    let amount ← okOr (.invalidPayload provider "missing string data.amount")
      ((value.get "data").bind fun entry => (entry.get "amount").bind Json.asStr)
    parsePrice P provider "data.amount" amount

def fetchKraken (P : Platform) (exchange : Except ReqwestError Response) :
    Except ProviderError SourcePrice := do
  let provider := UpstreamSource.kraken
  let value ← fetchJson P provider exchange
  let errors ← okOr (.invalidPayload provider "missing error array") ((value.get "error").bind Json.asArray)
  if !errors.isEmpty then .error (.invalidPayload provider "provider reported an API error")
  else
    let ticker ← okOr (.invalidPayload provider "missing BTC/USD result.XXBTZUSD")
      ((value.get "result").bind fun result => result.get "XXBTZUSD")
    let close ← okOr (.invalidPayload provider "missing string result.XXBTZUSD.c[0]")
      ((((ticker.get "c").bind Json.asArray).bind List.head?).bind Json.asStr)
    parsePrice P provider "result.XXBTZUSD.c[0]" close

def fetchGemini (P : Platform) (exchange : Except ReqwestError Response) :
    Except ProviderError SourcePrice := do
  let provider := UpstreamSource.gemini
  let value ← fetchJson P provider exchange
  if !((value.get "symbol").bind Json.asStr).any (eqIgnoreAsciiCase · "BTCUSD") then
    .error (.invalidPayload provider "expected BTCUSD symbol")
  else
    let bid ← okOr (.invalidPayload provider "missing string bid") ((value.get "bid").bind Json.asStr)
    parsePrice P provider "bid" bid

/-- `fetch_round_robin_source`. -/
def fetchRoundRobinSource (P : Platform) (source : UpstreamSource)
    (exchange : Except ReqwestError Response) : Except ProviderError SourcePrice :=
  match source with
  | .coinGecko => fetchCoingecko P exchange
  | .coinbase => fetchCoinbase P exchange
  | .kraken => fetchKraken P exchange
  | .gemini => fetchGemini P exchange

/-- One provider attempt: the wall clock before and after, and what the request returned. -/
structure Attempt where
  attemptedAtUnix : ℤ
  exchange : Except ReqwestError Response
  observedAtUnix : ℤ

/-- The observation of one attempt: its health record, and its quote or error. -/
def observeAttempt (P : Platform) (source : UpstreamSource) (attempt : Attempt) :
    ProviderHealth × Except ProviderError StoredQuote :=
  match fetchRoundRobinSource P source attempt.exchange with
  | .ok price =>
    (⟨source.name, .success attempt.attemptedAtUnix⟩,
      .ok ⟨price.source, price.priceUsd, some attempt.observedAtUnix, source.quoteKind⟩)
  | .error error =>
    (⟨source.name, .failure attempt.attemptedAtUnix (error.healthError P)⟩, .error error)

def fetchSelectedSources (P : Platform) (attempts : UpstreamSource → Attempt)
    (sources : List UpstreamSource) : List (ProviderHealth × Except ProviderError StoredQuote) :=
  UpstreamSource.all.filterMap fun source =>
    if source ∈ sources then some (observeAttempt P source (attempts source)) else none

/-- The hash map of `merge_snapshot_sources`, whose keys are the names in its quotes. -/
abbrev SourcePrices := Keyed StoredQuote StoredQuote.source

/-- The valid quotes of the stored snapshot. -/
def retainedQuotes (latest : Option SnapshotRecord) : SourcePrices :=
  match latest with
  | some snapshot =>
    snapshot.sources.foldl (fun prices quote => if quote.valid then prices.put quote else prices) .empty
  | none => .empty

/-- The loop of `ordered_sources` over the configured providers. -/
def takeConfigured : List UpstreamSource → SourcePrices → List StoredQuote × SourcePrices
  | [], prices => ([], prices)
  | source :: rest, prices =>
    match prices.get? source.name with
    | some quote =>
      let (quotes, extras) := takeConfigured rest (prices.remove source.name)
      (quote :: quotes, extras)
    | none => takeConfigured rest prices

/-- The order of strings is that of their characters, which is the order of their bytes. -/
def orderedSources (P : Platform) (prices : SourcePrices) : List StoredQuote :=
  let (configured, extras) := takeConfigured UpstreamSource.all prices
  configured ++ (P.intoValues extras.items).insertionSort fun left right => left.source ≤ right.source

def mergeSnapshotSources (P : Platform) (latest : Option SnapshotRecord) (refreshed : List StoredQuote) :
    List StoredQuote :=
  orderedSources P (refreshed.foldl Keyed.put (retainedQuotes latest))

def summarizePrices (sources : List StoredQuote) : Option F64 × Option F64 :=
  if sources = [] then (none, none)
  else
    let prices := sources.map StoredQuote.priceUsd
    let total := prices.foldl (fun total price => (F64.add total price).rounded) (F64.finite 0)
    let average := (total.divLen sources.length).rounded
    (some average, some ((prices.foldl F64.max .negInfinity).sub (prices.foldl F64.min .infinity)).rounded)

/-- What `refresh_snapshot` hands to the store, with the failures it reports. -/
structure Batch where
  failures : List ProviderError
  refreshed : List StoredQuote
  health : List ProviderHealth
  snapshot : Option SnapshotRecord

def refreshedSourceOf (refreshed : List StoredQuote) : String :=
  match refreshed with
  | [price] => price.source
  | prices => if prices.length = UpstreamSource.all.length then "all" else "partial"

/-- `refresh_snapshot` up to the call of `store_refresh`. -/
def refreshBatch (P : Platform) (latest : Option SnapshotRecord) (plan : RefreshPlan)
    (attempts : UpstreamSource → Attempt) (nowUnix : ℤ) : Batch :=
  let results := fetchSelectedSources P attempts plan.sources
  let refreshed := results.filterMap fun result => result.2.toOption
  let failures := results.filterMap fun result =>
    match result.2 with
    | .error error => some error
    | .ok _ => none
  let sources := mergeSnapshotSources P latest refreshed
  { failures
    refreshed
    health := results.map Prod.fst
    snapshot :=
      if refreshed = [] then none
      else
        some
          { fetchedAtUnix := nowUnix
            sources
            averagePrice := (summarizePrices sources).1
            spread := (summarizePrices sources).2
            warnings := failures.map (ProviderError.display P)
            refreshedSource := some (refreshedSourceOf refreshed) } }

end BitcoinPriceTracker

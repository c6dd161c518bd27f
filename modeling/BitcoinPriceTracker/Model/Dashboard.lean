import BitcoinPriceTracker.Model.Basic

/-!
# The dashboard

The price part of `dashboard.js`: what a response must look like, what the page keeps of it,
and what it shows as time passes. Numbers are exact. `none` stands for a thrown error, whose
text nobody reads.
-/

namespace BitcoinPriceTracker

/-- `typeof value === "number" && Number.isFinite(value)`, with the value. -/
def Json.finite : Json → Option ℚ
  | number (.finite value) => some value
  | _ => none

structure DashboardSource where
  source : String
  priceUsd : ℚ
  ageSeconds : Option ℚ
  freshness : String
  deriving DecidableEq

/-- A validated response. -/
structure DashboardData where
  status : String
  sources : List DashboardSource
  contributingSources : List String
  configuredSourceCount : ℚ
  sourceMaxAgeSeconds : ℚ
  deriving DecidableEq

/-- `age_seconds === null || (finite(age_seconds) && age_seconds >= 0)`. -/
def validateAge : Json → Option (Option ℚ)
  | .null => some none
  | value => (value.finite.filter fun age => 0 ≤ age).map some

/-- The condition on every element of `data.sources`. -/
def validateSource (source : Json) : Option DashboardSource := do
  let name ← (source.get "source").bind Json.asStr
  let price ← ((source.get "price_usd").bind Json.finite).filter fun price => 0 < price
  let freshness ← ((source.get "freshness").bind Json.asStr).filter fun freshness =>
    ["fresh", "stale", "future", "unknown"].contains freshness
  let age ← ((source.get "age_seconds").bind validateAge).filter fun age => freshness ≠ "fresh" || age.isSome
  some ⟨name, price, age, freshness⟩

/-- The condition on every element of `data.provider_health`. -/
def validateHealth (health : Json) : Bool :=
  ((health.get "source").bind Json.asStr).isSome &&
    (((health.get "last_attempt").bind fun attempt => attempt.get "outcome").bind Json.asStr).any fun outcome =>
      ["unknown", "success", "failure"].contains outcome

/-- `Number.isInteger(count) && count >= 1`. -/
def validateCount (count : Json) : Option ℚ := count.finite.filter fun count => count.den = 1 && 1 ≤ count

def validate (data : Json) : Option DashboardData := do
  let status ← ((data.get "status").bind Json.asStr).filter fun status =>
    ["LIVE", "DEGRADED", "STALE", "UNAVAILABLE"].contains status
  let sources ← (data.get "sources").bind Json.asArray
  let health ← (data.get "provider_health").bind Json.asArray
  let _ ← (data.get "warnings").bind Json.asArray
  let coverage ← data.get "coverage"
  let contributing ← (coverage.get "contributing_sources").bind Json.asArray
  let count ← (coverage.get "configured_source_count").bind validateCount
  let maxAge ← ((data.get "source_max_age_seconds").bind Json.finite).filter fun maxAge => 0 < maxAge
  let _ ← (data.get "evaluated_at_unix").bind Json.finite
  let names ← (contributing.mapM Json.asStr).filter fun names => names.Nodup && names.length ≤ count
  let rows ← sources.mapM validateSource
  if health.all validateHealth then some ⟨status, rows, names, count, maxAge⟩ else none

/-- The page: `running`, `lastData`, `receivedAt` and the two error texts. -/
structure Dashboard where
  running : Bool
  lastData : Option DashboardData
  receivedAt : ℚ
  priceError : String
  presenceError : String

/-- The check of a price response in `poll`: 503 comes with a body too. -/
def pollPrice (status : ℕ) (body : Json) : Option DashboardData :=
  if (status < 200 || 299 < status) && status ≠ 503 then none
  else (validate body).filter fun data => status ≠ 503 || data.status = "UNAVAILABLE"

/-- `receivePrice` with a validated response, at `now` milliseconds. -/
def Dashboard.receivePrice (page : Dashboard) (data : DashboardData) (now : ℚ) : Dashboard :=
  if data.status = "UNAVAILABLE" && page.lastData.any fun last => !last.sources.isEmpty then
    { page with priceError := "Price service unavailable; retained quotes may be out of date." }
  else { page with lastData := some data, receivedAt := now, priceError := "" }

/-- A source with its age advanced by the elapsed seconds. -/
structure AgedSource where
  source : DashboardSource
  age : Option ℚ
  currentFreshness : String
  deriving DecidableEq

def DashboardSource.advance (source : DashboardSource) (elapsed : ℤ) (maxAge : ℚ) : AgedSource :=
  { source
    age := source.ageSeconds.map fun age => age + elapsed
    currentFreshness :=
      -- A fresh row has an age.
      if source.freshness = "fresh" && source.ageSeconds.any fun age => maxAge ≤ age + elapsed then "stale"
      else source.freshness }

/-- The order in which `sort((a, b) => a.age - b.age)` puts the rows; a null counts as zero. -/
def ageLe (left right : AgedSource) : Prop := left.age.getD 0 ≤ right.age.getD 0

instance (left right : AgedSource) : Decidable (ageLe left right) := inferInstanceAs (Decidable (_ ≤ _))

/-- The youngest fresh row of each contributing name. -/
def shownContributors (data : DashboardData) (sources : List AgedSource) : List AgedSource :=
  data.contributingSources.filterMap fun name =>
    ((sources.filter fun aged => aged.source.source = name && aged.currentFreshness = "fresh").insertionSort
      ageLe).head?

/-- The loop that computes `mean`. -/
def shownMean (prices : List ℚ) : Option ℚ :=
  prices.zipIdx.foldl
    (fun mean (price, index) =>
      if index = 0 then some price else mean.map fun mean => mean + (price - mean) / (index + 1)) none

/-- `Math.max(...prices) - Math.min(...prices)`, which is shown where there is a price. -/
def shownSpread : List ℚ → Option ℚ
  | [] => none
  | price :: prices => some (prices.foldl max price - prices.foldl min price)

/-- The label before the errors of the page are taken into account. -/
def shownStatus (data : DashboardData) (sources : List AgedSource) (count : ℕ) : String :=
  if !sources.isEmpty && count = 0 then "STALE"
  else if data.status = "LIVE" && count < data.configuredSourceCount then "DEGRADED"
  else data.status

structure PriceView where
  label : String
  contributors : List AgedSource
  mean : Option ℚ
  spread : Option ℚ
  deriving DecidableEq

/-- `Math.max(0, Math.floor((performance.now() - receivedAt) / 1000))`. -/
def Dashboard.elapsed (page : Dashboard) (now : ℚ) : ℤ := max 0 ⌊(now - page.receivedAt) / 1000⌋

/-- What `render` shows of the price at `now` milliseconds. -/
def Dashboard.render (page : Dashboard) (now : ℚ) : Option PriceView :=
  if !page.running then none
  else
    match page.lastData with
    | none =>
      let label :=
        if page.priceError ≠ "" then "OFFLINE" else if page.presenceError ≠ "" then "DEGRADED" else "Connecting"
      some ⟨label, [], none, none⟩
    | some data =>
      let sources := data.sources.map fun source => source.advance (page.elapsed now) data.sourceMaxAgeSeconds
      let contributors := shownContributors data sources
      let status := shownStatus data sources contributors.length
      let label :=
        if page.priceError ≠ "" then "OFFLINE"
        else if page.presenceError ≠ "" && status = "LIVE" then "DEGRADED"
        else status
      let prices := contributors.map fun aged => aged.source.priceUsd
      some ⟨label, contributors, shownMean prices, shownSpread prices⟩

end BitcoinPriceTracker

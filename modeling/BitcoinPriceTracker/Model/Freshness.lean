import BitcoinPriceTracker.Model.SourceContract

namespace BitcoinPriceTracker

inductive SourceFreshness
  | fresh
  | stale
  | unknown
  | future
  deriving DecidableEq

inductive PriceStatus
  | live
  | degraded
  | stale
  | unavailable
  deriving DecidableEq

structure SourceResponse where
  quote : StoredQuote
  ageSeconds : Option ℤ
  freshness : SourceFreshness
  deriving DecidableEq

structure AggregateCoverage where
  configuredSourceCount : ℕ
  freshSourceCount : ℕ
  contributingSources : List String
  deriving DecidableEq

structure QuoteEvaluation where
  sources : List SourceResponse
  averagePrice : Option F64
  spread : Option F64
  status : PriceStatus
  coverage : AggregateCoverage
  deriving DecidableEq

/-- `None` is below every value. -/
instance decidableLTOption {α : Type} [LT α] [DecidableLT α] : DecidableLT (Option α) :=
  inferInstanceAs (DecidableRel (Option.lt (· < ·)))

/-- `Iterator::max_by_key`: the last of several maxima. -/
def maxByKey {α κ : Type} [LT κ] [DecidableLT κ] (key : α → κ) : List α → Option α
  | [] => none
  | first :: rest => some (rest.foldl (fun best next => if key next < key best then best else next) first)

/-- The age that a row has at a moment, where it is known, not negative and fits in an i64. -/
def StoredQuote.ageSeconds (quote : StoredQuote) (now : ℤ) : Option ℤ :=
  (quote.lastSuccessAtUnix.bind (checkedSub now)).filter fun age => 0 ≤ age

def StoredQuote.configured (quote : StoredQuote) : Bool :=
  UpstreamSource.all.any fun source => source.name = quote.source

def StoredQuote.freshness (quote : StoredQuote) (now : ℤ) : SourceFreshness :=
  if !quote.configured then .unknown
  else if quote.lastSuccessAtUnix.any fun time => now < time then .future
  else
    match quote.ageSeconds now with
    | some age => if age < SOURCE_MAX_AGE_SECONDS then .fresh else .stale
    | none => .unknown

def StoredQuote.evaluate (quote : StoredQuote) (now : ℤ) : SourceResponse :=
  ⟨quote, quote.ageSeconds now, quote.freshness now⟩

/-- The row that contributes for a provider. -/
def contributor (sources : List SourceResponse) (provider : UpstreamSource) : Option SourceResponse :=
  maxByKey (fun source => source.quote.lastSuccessAtUnix)
    (sources.filter fun source => source.quote.source = provider.name && source.freshness = .fresh)

/-- The loop over the contributors after the first one, whose index is `index`. -/
def advanceAverage (average : F64) (index : ℕ) : List F64 → F64
  | [] => average
  | price :: rest => advanceAverage (average.add ((price.sub average).divLen (index + 1))) (index + 1) rest

def averageOf : List F64 → Option F64
  | [] => none
  | first :: rest => some (advanceAverage first 1 rest)

def spreadOf (prices : List F64) : F64 := (prices.foldl F64.max .negInfinity).sub (prices.foldl F64.min .infinity)

lemma spreadOf_cons (price : ℚ) (prices : List ℚ) :
    spreadOf ((price :: prices).map .finite) = .finite (prices.foldl max price - prices.foldl min price) := by
  have hmax := F64.foldl_finite F64.max max (fun _ _ => rfl) prices price
  have hmin := F64.foldl_finite F64.min min (fun _ _ => rfl) prices price
  -- the first price takes the place of the infinities
  have hmax' : F64.max .negInfinity (.finite price) = .finite price := rfl
  have hmin' : F64.min .infinity (.finite price) = .finite price := rfl
  simp only [spreadOf, List.map_cons, List.foldl_cons]
  rw [hmax', hmin', hmax, hmin]
  simp [F64.sub, F64.neg, F64.add, sub_eq_add_neg]

/-- Every configured provider has a record of a success. -/
def allHealthy (health : List ProviderHealth) : Bool :=
  UpstreamSource.all.all fun provider => health.any fun record =>
    record.source = provider.name &&
      match record.lastAttempt with
      | .success _ => true
      | _ => false

def evaluateQuotes (quotes : List StoredQuote) (health : List ProviderHealth) (now : ℤ) : QuoteEvaluation :=
  let sources := (quotes.filter StoredQuote.valid).map fun quote => quote.evaluate now
  let contributors := UpstreamSource.all.filterMap (contributor sources)
  let prices := contributors.map fun source => source.quote.priceUsd
  { sources
    averagePrice := averageOf prices
    spread := (averageOf prices).map fun _ => spreadOf prices
    status :=
      if contributors.length = UpstreamSource.all.length && allHealthy health then .live
      else if !contributors.isEmpty then .degraded
      else if !sources.isEmpty then .stale
      else .unavailable
    coverage :=
      { configuredSourceCount := UpstreamSource.all.length
        freshSourceCount := contributors.length
        contributingSources := contributors.map fun source => source.quote.source } }

end BitcoinPriceTracker

import BitcoinPriceTracker.Model.JsonText

namespace BitcoinPriceTracker

def REFRESH_INTERVAL_SECONDS : ℕ := 10

def SOURCE_MAX_AGE_SECONDS : ℕ := 90

def VIEWER_TTL_SECONDS : ℕ := 15

def UPSTREAM_BODY_LIMIT : ℕ := 64 * 1024

inductive UpstreamSource
  | coinGecko
  | coinbase
  | kraken
  | gemini
  deriving DecidableEq

namespace UpstreamSource

instance neZero_four : NeZero 4 := ⟨four_ne_zero⟩

/-- `UpstreamSource::ALL`. -/
def all : List UpstreamSource := [coinGecko, coinbase, kraken, gemini]

/-- The element of `ALL` at an index. -/
def atIndex : Fin 4 → UpstreamSource
  | 0 => coinGecko
  | 1 => coinbase
  | 2 => kraken
  | 3 => gemini

/-- The position of a provider in `ALL`. -/
def index : UpstreamSource → Fin 4
  | coinGecko => 0
  | coinbase => 1
  | kraken => 2
  | gemini => 3

@[simp] lemma atIndex_index (source : UpstreamSource) : atIndex source.index = source := by
  cases source <;> rfl

@[simp] lemma index_atIndex (i : Fin 4) : (atIndex i).index = i := by
  fin_cases i <;> rfl

@[simp] lemma mem_all (source : UpstreamSource) : source ∈ all := by
  cases source <;> decide

lemma all_nodup : all.Nodup := by decide

end UpstreamSource

inductive QuoteKind
  | aggregate
  | spot
  | lastTrade
  | bid
  | unknown
  deriving DecidableEq

namespace UpstreamSource

def name : UpstreamSource → String
  | coinGecko => "CoinGecko"
  | coinbase => "Coinbase"
  | kraken => "Kraken"
  | gemini => "Gemini"

def quoteKind : UpstreamSource → QuoteKind
  | coinGecko => .aggregate
  | coinbase => .spot
  | kraken => .lastTrade
  | gemini => .bid

lemma name_injective : Function.Injective name := by
  intro a b h
  cases a <;> cases b <;> first | rfl | exact absurd h (by decide)

@[simp] lemma name_inj {a b : UpstreamSource} : a.name = b.name ↔ a = b := name_injective.eq_iff

end UpstreamSource

/-- A validated price as an adapter returns it. -/
structure SourcePrice where
  source : String
  priceUsd : F64
  deriving DecidableEq

structure StoredQuote where
  source : String
  priceUsd : F64
  lastSuccessAtUnix : Option ℤ
  quoteKind : QuoteKind
  deriving DecidableEq

/-- The guard `price_usd.is_finite() && price_usd > 0.0`. -/
def StoredQuote.valid (quote : StoredQuote) : Bool := quote.priceUsd.isFinite && quote.priceUsd.positive

lemma StoredQuote.price_of_valid {quote : StoredQuote} (h : quote.valid = true) :
    quote.priceUsd = .finite quote.priceUsd.value ∧ 0 < quote.priceUsd.value := by
  unfold StoredQuote.valid at h
  cases hprice : quote.priceUsd with
  | finite value => simpa [hprice, F64.isFinite, F64.positive, F64.value] using h
  | infinity | negInfinity | nan => simp [hprice, F64.isFinite] at h

inductive ErrorCategory
  | timeout
  | transport
  | http
  | invalidPayload
  | invalidPrice
  deriving DecidableEq

structure SourceError where
  category : ErrorCategory
  message : String
  httpStatus : Option ℕ
  deriving DecidableEq

inductive LastAttempt
  | unknown
  | success (attemptedAtUnix : ℤ)
  | failure (attemptedAtUnix : ℤ) (error : SourceError)
  deriving DecidableEq

structure ProviderHealth where
  source : String
  lastAttempt : LastAttempt
  deriving DecidableEq

structure SnapshotRecord where
  fetchedAtUnix : ℤ
  sources : List StoredQuote
  averagePrice : Option F64
  spread : Option F64
  warnings : List String
  refreshedSource : Option String
  deriving DecidableEq

structure StoredPriceState where
  snapshot : Option SnapshotRecord
  providerHealth : List ProviderHealth
  deriving DecidableEq

end BitcoinPriceTracker

import BitcoinPriceTracker.Proofs.BodyLimits
import BitcoinPriceTracker.Proofs.NoLostUpdate

namespace BitcoinPriceTracker

/-- The payload of a provider with a number at the place that its adapter reads. -/
inductive Payload (P : Platform) : UpstreamSource → Json → F64 → Prop
  | coinGecko {value entry : Json} {price : F64} (hentry : value.get "bitcoin" = some entry)
      (husd : entry.get "usd" = some (.number price)) : Payload P .coinGecko value price
  | coinbase {value data : Json} {amount : String} {price : F64} (hdata : value.get "data" = some data)
      (hcurrency : data.get "currency" = some (.string "USD"))
      (hbase : ∀ base, data.get "base" = some base → base = .string "BTC")
      (hamount : data.get "amount" = some (.string amount)) (hprice : P.parseF64 amount = some price) :
    Payload P .coinbase value price
  | kraken {value result ticker : Json} {close : String} {entries : List Json} {price : F64}
      (herror : value.get "error" = some (.array [])) (hresult : value.get "result" = some result)
      (hticker : result.get "XXBTZUSD" = some ticker)
      (hclose : ticker.get "c" = some (.array (.string close :: entries)))
      (hprice : P.parseF64 close = some price) : Payload P .kraken value price
  | gemini {value : Json} {symbol bid : String} {price : F64} (hsymbol : value.get "symbol" = some (.string symbol))
      (hpair : eqIgnoreAsciiCase symbol "BTCUSD" = true) (hbid : value.get "bid" = some (.string bid))
      (hprice : P.parseF64 bid = some price) : Payload P .gemini value price

/-- The exchange is a successful response with an accepted payload, completely received. -/
inductive Fetched (P : Platform) (source : UpstreamSource) : Except ReqwestError Response → ℚ → Prop
  | intro {response : Response} {value : Json} {price : ℚ} (hsuccess : response.status.isSuccess = true)
      (hcomplete : response.interrupted = none)
      (hdeclared : ∀ size, response.contentLength = some size → size ≤ UPSTREAM_BODY_LIMIT)
      (hlimit : response.chunks.flatten.length ≤ UPSTREAM_BODY_LIMIT)
      (hjson : P.parseJson response.chunks.flatten = .ok value) (hpayload : Payload P source value (.finite price))
      (hpositive : 0 < price) : Fetched P source (.ok response) price

section Adapters

variable {P : Platform} {source : UpstreamSource} {exchange : Except ReqwestError Response} {value : Json}

end Adapters

section Stored

variable {P : Platform} {path : DbPath} {maxViewers : ℕ} {s : Server} {history : List ServerAction} {db : Database}
  {start : ℕ} {name : String} {quote : StoredQuote}

/-- The task has sent its requests and has not stored their answers yet. -/
def TaskPoint.asked : TaskPoint → Bool
  | fetching | storing _ _ => true
  | _ => false

/-- A task has requested the quote, its provider has answered with it, and the task has stored it. -/
inductive Sourced (P : Platform) (path : DbPath) (maxViewers : ℕ) (start : Server) (history : List ServerAction) :
    StoredQuote → Prop
  | intro {newer older : List ServerAction} {task now : ℕ} {latest : Option SnapshotRecord} {batch : Batch}
      {before : Server} {running : RefreshTask} {attempts : UpstreamSource → Attempt} {nowUnix : ℤ}
      {source : UpstreamSource} {price : ℚ} (hhistory : history = newer ++ .stored task latest batch (.ok ⟨⟩) :: older)
      (hbefore : (serverMachine P path maxViewers).Run start older before) (hrunning : before.tasks task = some running)
      (hpoint : running.point = .storing attempts nowUnix)
      (hrequested : .requested task running.plan.sources now ∈ older) (hsource : source ∈ running.plan.sources)
      (hfetched : Fetched P source (attempts source).exchange price) :
    Sourced P path maxViewers start history
      ⟨source.name, .finite price, some (attempts source).observedAtUnix, source.quoteKind⟩

lemma Sourced.mono {before : List ServerAction} (h : Sourced P path maxViewers (.init db start) before quote)
    (hsuffix : before <:+ history) : Sourced P path maxViewers (.init db start) history quote := by
  obtain ⟨newer, rfl⟩ := hsuffix
  cases h with
  | intro hhistory hbefore hrunning hpoint hrequested hsource hfetched =>
    subst hhistory
    exact .intro (List.append_assoc ..).symm hbefore hrunning hpoint hrequested hsource hfetched

end Stored

end BitcoinPriceTracker

import BitcoinPriceTracker.Model.Pricing
import BitcoinPriceTracker.Proofs.StoreSteps

namespace BitcoinPriceTracker

lemma except_bind_eq_ok {ε α β : Type} {x : Except ε α} {f : α → Except ε β} {b : β}
    (h : x >>= f = .ok b) : ∃ a, x = .ok a ∧ f a = .ok b := by
  cases x with
  | error e => simp [Bind.bind, Except.bind] at h
  | ok a => exact ⟨a, rfl, h⟩

/-- Every result is a positive finite price under the name of the provider. -/
def PricesOf (source : UpstreamSource) (result : Except ProviderError SourcePrice) : Prop :=
  ∀ price, result = .ok price →
    price.source = source.name ∧ price.priceUsd.isFinite = true ∧ price.priceUsd.positive = true

/-- Every error is one of the provider, and an HTTP error reports the status of a response
without success. -/
def ErrorsOf (source : UpstreamSource) (exchange : Except ReqwestError Response) {α : Type}
    (result : Except ProviderError α) : Prop :=
  ∀ error, result = .error error → error.provider = source ∧
    ∀ status retryAfter, error.kind = .http status retryAfter →
      ∃ response, exchange = .ok response ∧ response.status = status

lemma F64.positive_of_finite {price : F64} (hfinite : price.isFinite = true) (h : price.nonPositive = false) :
    price.positive = true := by
  cases price <;> simp_all [F64.isFinite, F64.nonPositive, F64.positive]

lemma checkedPrice_prices (source : UpstreamSource) (field : String) (price : F64) :
    PricesOf source (checkedPrice source field price) := by
  intro result h
  unfold checkedPrice at h
  split at h
  · simp at h
  · next hguard =>
    simp only [Bool.or_eq_true, Bool.not_eq_true', not_or, Bool.not_eq_false, Bool.not_eq_true] at hguard
    obtain rfl := Except.ok.inj h
    exact ⟨rfl, hguard.1, F64.positive_of_finite hguard.1 hguard.2⟩

lemma PricesOf.bind {source : UpstreamSource} {α : Type} {x : Except ProviderError α}
    {f : α → Except ProviderError SourcePrice} (h : ∀ a, PricesOf source (f a)) : PricesOf source (x >>= f) := by
  intro price hprice
  obtain ⟨a, _, ha⟩ := except_bind_eq_ok hprice
  exact h a price ha

lemma PricesOf.error (source : UpstreamSource) (error : ProviderError) : PricesOf source (.error error) := by
  intro price h
  simp at h

lemma parsePrice_prices (P : Platform) (source : UpstreamSource) (field amount : String) :
    PricesOf source (parsePrice P source field amount) := by
  unfold parsePrice
  split
  · exact .error source _
  · exact checkedPrice_prices source field _

lemma fetchRoundRobinSource_prices (P : Platform) (source : UpstreamSource)
    (exchange : Except ReqwestError Response) : PricesOf source (fetchRoundRobinSource P source exchange) := by
  cases source with
  | coinGecko => exact .bind fun value => .bind fun price => checkedPrice_prices _ _ _
  | coinbase =>
    refine .bind fun value => .bind fun data => ?_
    split
    · exact .error _ _
    · exact .bind fun amount => parsePrice_prices P _ _ _
  | kraken =>
    refine .bind fun value => .bind fun errors => ?_
    split
    · exact .error _ _
    · exact .bind fun ticker => .bind fun close => parsePrice_prices P _ _ _
  | gemini =>
    refine .bind fun value => ?_
    split
    · exact .error _ _
    · exact .bind fun bid => parsePrice_prices P _ _ _

section Errors

variable {source : UpstreamSource} {exchange : Except ReqwestError Response} {α β : Type}

lemma ErrorsOf.bind {x : Except ProviderError α} {f : α → Except ProviderError β}
    (hx : ErrorsOf source exchange x) (hf : ∀ a, ErrorsOf source exchange (f a)) :
    ErrorsOf source exchange (x >>= f) := by
  cases x with
  | error e => exact fun error h => hx error (by simpa [Bind.bind, Except.bind] using h)
  | ok a => exact hf a

lemma ErrorsOf.ok (a : α) : ErrorsOf source exchange (.ok a) := by
  intro error h
  simp at h

lemma ErrorsOf.invalidPayload (reason : String) :
    ErrorsOf source exchange (.error (.invalidPayload source reason) : Except ProviderError α) := by
  rintro error h
  obtain rfl := Except.error.inj h
  exact ⟨rfl, by simp [ProviderError.invalidPayload]⟩

lemma ErrorsOf.invalidPrice (field reason : String) :
    ErrorsOf source exchange (.error (.invalidPrice source field reason) : Except ProviderError α) := by
  rintro error h
  obtain rfl := Except.error.inj h
  exact ⟨rfl, by simp [ProviderError.invalidPrice]⟩

lemma ErrorsOf.fromReqwest (cause : ReqwestError) :
    ErrorsOf source exchange (.error (.fromReqwest source cause) : Except ProviderError α) := by
  rintro error h
  obtain rfl := Except.error.inj h
  refine ⟨rfl, fun status retryAfter hkind => ?_⟩
  cases htimeout : cause.isTimeout <;> simp [ProviderError.fromReqwest, htimeout] at hkind

lemma okOr_errors (reason : String) (x : Option α) :
    ErrorsOf source exchange (okOr (.invalidPayload source reason) x) := by
  cases x with
  | none => exact .invalidPayload reason
  | some a => exact .ok a

lemma checkedPrice_errors (field : String) (price : F64) :
    ErrorsOf source exchange (checkedPrice source field price) := by
  unfold checkedPrice
  split
  · exact .invalidPrice _ _
  · exact .ok _

lemma parsePrice_errors (P : Platform) (field amount : String) :
    ErrorsOf source exchange (parsePrice P source field amount) := by
  unfold parsePrice
  split
  · exact .invalidPrice _ _
  · exact checkedPrice_errors _ _

lemma readChunks_errors (interrupted : Option ReqwestError) (body : List UInt8) (chunks : List (List UInt8)) :
    ErrorsOf source exchange (readChunks source interrupted body chunks) := by
  induction chunks generalizing body with
  | nil =>
    cases interrupted with
    | none => exact .ok _
    | some cause => exact .fromReqwest cause
  | cons chunk chunks ih =>
    unfold readChunks
    split
    · exact .invalidPayload _
    · exact ih _

end Errors

lemma fetchJson_errors (P : Platform) (source : UpstreamSource) (exchange : Except ReqwestError Response) :
    ErrorsOf source exchange (fetchJson P source exchange) := by
  cases exchange with
  | error cause => exact .fromReqwest cause
  | ok response =>
    change ErrorsOf source (.ok response) (decodeResponse P source response)
    unfold decodeResponse
    split
    · rintro error h
      obtain rfl := Except.error.inj h
      refine ⟨rfl, fun status retryAfter hkind => ⟨response, rfl, ?_⟩⟩
      exact (ProviderErrorKind.http.inj hkind).1
    · split
      · exact .invalidPayload _
      · have hchunks := @readChunks_errors source (.ok response)
          response.interrupted [] response.chunks
        cases hbody : readChunks source response.interrupted [] response.chunks with
        | error cause =>
          rw [hbody] at hchunks
          rintro error h
          obtain rfl := Except.error.inj h
          exact hchunks _ rfl
        | ok body =>
          rintro error h
          dsimp only at h
          cases hjson : P.parseJson body with
          | error cause =>
            rw [hjson] at h
            obtain rfl := Except.error.inj h
            exact ⟨rfl, by simp [ProviderError.invalidJson]⟩
          | ok value => simp [hjson, Except.mapError] at h

lemma fetchRoundRobinSource_errors (P : Platform) (source : UpstreamSource)
    (exchange : Except ReqwestError Response) :
    ErrorsOf source exchange (fetchRoundRobinSource P source exchange) := by
  cases source with
  | coinGecko =>
    exact (fetchJson_errors P _ _).bind fun value => (okOr_errors _ _).bind fun price => checkedPrice_errors _ _
  | coinbase =>
    refine (fetchJson_errors P _ _).bind fun value => (okOr_errors _ _).bind fun data => ?_
    split
    · exact .invalidPayload _
    · exact (okOr_errors _ _).bind fun amount => parsePrice_errors P _ _
  | kraken =>
    refine (fetchJson_errors P _ _).bind fun value => (okOr_errors _ _).bind fun errors => ?_
    split
    · exact .invalidPayload _
    · exact (okOr_errors _ _).bind fun ticker => (okOr_errors _ _).bind fun close => parsePrice_errors P _ _
  | gemini =>
    refine (fetchJson_errors P _ _).bind fun value => ?_
    split
    · exact .invalidPayload _
    · exact (okOr_errors _ _).bind fun bid => parsePrice_errors P _ _

lemma fetchRoundRobinSource_http (P : Platform) (source : UpstreamSource) {response : Response}
    (h : response.status.isSuccess = false) :
    fetchRoundRobinSource P source (.ok response) =
      .error (.fromStatus P source response.status response.retryAfter) := by
  have hdecode : ∀ provider, fetchJson P provider (.ok response) =
      .error (.fromStatus P provider response.status response.retryAfter) := by
    intro provider
    exact if_pos (by simp [h])
  cases source <;>
    simp [fetchRoundRobinSource, fetchCoingecko, fetchCoinbase, fetchKraken, fetchGemini, hdecode, Bind.bind,
      Except.bind]

/-- The outcome of the attempt at one provider. -/
def outcomeOf (P : Platform) (attempts : UpstreamSource → Attempt) (source : UpstreamSource) :
    Except ProviderError SourcePrice :=
  fetchRoundRobinSource P source (attempts source).exchange

/-- The quote of a provider that succeeded in the batch. -/
def quoteOf (P : Platform) (attempts : UpstreamSource → Attempt) (source : UpstreamSource) : Option StoredQuote :=
  match outcomeOf P attempts source with
  | .ok price => some ⟨source.name, price.priceUsd, some (attempts source).observedAtUnix, source.quoteKind⟩
  | .error _ => none

/-- The health record of a provider in the batch. -/
def recordOf (P : Platform) (attempts : UpstreamSource → Attempt) (source : UpstreamSource) : ProviderHealth :=
  (observeAttempt P source (attempts source)).1

lemma observeAttempt_quote (P : Platform) (attempts : UpstreamSource → Attempt) (source : UpstreamSource) :
    (observeAttempt P source (attempts source)).2.toOption = quoteOf P attempts source := by
  unfold observeAttempt quoteOf outcomeOf
  have hprices := fetchRoundRobinSource_prices P source (attempts source).exchange
  cases hfetch : fetchRoundRobinSource P source (attempts source).exchange with
  | error e => rfl
  | ok price => simp [Except.toOption, (hprices price hfetch).1]

@[simp] lemma recordOf_source (P : Platform) (attempts : UpstreamSource → Attempt) (source : UpstreamSource) :
    (recordOf P attempts source).source = source.name := by
  unfold recordOf observeAttempt
  split <;> rfl

lemma quoteOf_source {P : Platform} {attempts : UpstreamSource → Attempt} {source : UpstreamSource}
    {quote : StoredQuote} (h : quoteOf P attempts source = some quote) : quote.source = source.name := by
  unfold quoteOf at h
  split at h
  · rw [← Option.some.inj h]
  · simp at h

lemma quoteOf_valid {P : Platform} {attempts : UpstreamSource → Attempt} {source : UpstreamSource}
    {quote : StoredQuote} (h : quoteOf P attempts source = some quote) : quote.valid = true := by
  unfold quoteOf at h
  split at h
  · next price hprice =>
    obtain ⟨_, hfinite, hpositive⟩ := fetchRoundRobinSource_prices P source _ price hprice
    rw [← Option.some.inj h]
    simp [StoredQuote.valid, hfinite, hpositive]
  · simp at h

/-- The planned providers in configured order. -/
def plannedSources (plan : RefreshPlan) : List UpstreamSource := UpstreamSource.all.filter (· ∈ plan.sources)

lemma plannedSources_nodup (plan : RefreshPlan) : (plannedSources plan).Nodup :=
  UpstreamSource.all_nodup.filter _

@[simp] lemma mem_plannedSources {plan : RefreshPlan} {source : UpstreamSource} :
    source ∈ plannedSources plan ↔ source ∈ plan.sources := by
  simp [plannedSources]

lemma fetchSelectedSources_eq (P : Platform) (attempts : UpstreamSource → Attempt) (plan : RefreshPlan) :
    fetchSelectedSources P attempts plan.sources =
      (plannedSources plan).map fun source => observeAttempt P source (attempts source) := by
  unfold fetchSelectedSources plannedSources
  induction UpstreamSource.all with
  | nil => rfl
  | cons source sources ih =>
    rw [List.filterMap_cons, List.filter_cons, ih]
    by_cases h : source ∈ plan.sources <;> simp [h]

section Batch

variable (P : Platform) (latest : Option SnapshotRecord) (plan : RefreshPlan)
  (attempts : UpstreamSource → Attempt) (nowUnix : ℤ)

lemma refreshBatch_health :
    (refreshBatch P latest plan attempts nowUnix).health = (plannedSources plan).map (recordOf P attempts) := by
  simp only [refreshBatch, fetchSelectedSources_eq, List.map_map]
  rfl

lemma refreshBatch_refreshed :
    (refreshBatch P latest plan attempts nowUnix).refreshed =
      (plannedSources plan).filterMap (quoteOf P attempts) := by
  simp only [refreshBatch, fetchSelectedSources_eq, List.filterMap_map]
  congr 1
  exact funext (observeAttempt_quote P attempts)

lemma refreshBatch_snapshot_sources {snapshot : SnapshotRecord}
    (h : (refreshBatch P latest plan attempts nowUnix).snapshot = some snapshot) :
    snapshot.sources =
      mergeSnapshotSources P latest (refreshBatch P latest plan attempts nowUnix).refreshed := by
  simp only [refreshBatch] at h
  split at h
  · simp at h
  · rw [← Option.some.inj h]
    rfl

lemma refreshBatch_snapshot_eq_none :
    (refreshBatch P latest plan attempts nowUnix).snapshot = none ↔
      (refreshBatch P latest plan attempts nowUnix).refreshed = [] := by
  unfold refreshBatch
  dsimp only
  split
  · next hnil => exact iff_of_true rfl hnil
  · next hsome => exact iff_of_false (by simp) hsome

lemma mem_refreshed {quote : StoredQuote} :
    quote ∈ (refreshBatch P latest plan attempts nowUnix).refreshed ↔
      ∃ source ∈ plan.sources, quoteOf P attempts source = some quote := by
  simp [refreshBatch_refreshed]

lemma refreshed_nodup :
    ((refreshBatch P latest plan attempts nowUnix).refreshed.map StoredQuote.source).Nodup := by
  rw [refreshBatch_refreshed, List.map_filterMap]
  refine List.Nodup.filterMap ?_ (plannedSources_nodup plan)
  intro a b name ha hb
  obtain ⟨quote, hquote, rfl⟩ := Option.map_eq_some_iff.mp ha
  obtain ⟨quote', hquote', heq⟩ := Option.map_eq_some_iff.mp hb
  rw [quoteOf_source hquote, quoteOf_source hquote'] at heq
  exact (UpstreamSource.name_injective heq).symm

lemma recordOf_storable (source : UpstreamSource) :
    (recordOf P attempts source).Storable ↔
      ¬∃ response, (attempts source).exchange = .ok response ∧ 600 ≤ response.status.code := by
  unfold recordOf observeAttempt
  cases hfetch : fetchRoundRobinSource P source (attempts source).exchange with
  | ok price =>
    refine iff_of_true trivial ?_
    rintro ⟨response, hexchange, hcode⟩
    have hstatus : response.status.isSuccess = false := by
      simp only [StatusCode.isSuccess, Bool.and_eq_false_iff, decide_eq_false_iff_not]
      omega
    rw [hexchange, fetchRoundRobinSource_http P source hstatus] at hfetch
    simp at hfetch
  | error error =>
    have herrors := fetchRoundRobinSource_errors P source (attempts source).exchange error hfetch
    have hcategory : error.category = .http ↔ error.httpStatus.isSome = true := by
      unfold ProviderError.category ProviderError.httpStatus
      cases error.kind <;> simp
    constructor
    · rintro ⟨_, hrange⟩ ⟨response, hexchange, hcode⟩
      have hstatus : response.status.isSuccess = false := by
        simp only [StatusCode.isSuccess, Bool.and_eq_false_iff, decide_eq_false_iff_not]
        omega
      rw [hexchange, fetchRoundRobinSource_http P source hstatus] at hfetch
      obtain rfl := Except.error.inj hfetch
      have hbound := (hrange response.status.code rfl).2
      omega
    · intro hnone
      refine ⟨hcategory, fun status hstatus => ?_⟩
      obtain ⟨provider, kind⟩ := error
      cases kind with
      | http code retryAfter =>
        obtain rfl := Option.some.inj hstatus
        obtain ⟨response, hexchange, rfl⟩ := herrors.2 code retryAfter rfl
        have hadmitted := response.status.admitted
        have hbound : ¬600 ≤ response.status.code := fun hcode => hnone ⟨response, hexchange, hcode⟩
        omega
      | _ => simp [ProviderError.healthError, ProviderError.httpStatus] at hstatus

end Batch

section Merge

variable (P : Platform)

lemma takeConfigured_perm (sources : List UpstreamSource) (prices : SourcePrices) :
    ((takeConfigured sources prices).1 ++ (takeConfigured sources prices).2.items).Perm prices.items := by
  induction sources generalizing prices with
  | nil => exact .refl _
  | cons source rest ih =>
    unfold takeConfigured
    cases hget : prices.get? source.name with
    | none => exact ih prices
    | some quote =>
      exact ((ih (prices.remove source.name)).cons quote).trans (Keyed.cons_remove_perm hget)

lemma orderedSources_perm (prices : SourcePrices) : (orderedSources P prices).Perm prices.items := by
  unfold orderedSources
  refine List.Perm.trans (List.Perm.append_left _ ?_) (takeConfigured_perm UpstreamSource.all prices)
  exact (List.perm_insertionSort _ _).trans (P.intoValues_perm _)

/-- The merged prices as a map. -/
def mergedPrices (latest : Option SnapshotRecord) (refreshed : List StoredQuote) : SourcePrices :=
  refreshed.foldl Keyed.put (retainedQuotes latest)

lemma mem_mergeSnapshotSources {latest : Option SnapshotRecord} {refreshed : List StoredQuote}
    {quote : StoredQuote} :
    quote ∈ mergeSnapshotSources P latest refreshed ↔
      (mergedPrices latest refreshed).get? quote.source = some quote := by
  rw [mergeSnapshotSources, (orderedSources_perm P _).mem_iff, Keyed.get?_eq_some_iff]
  simp [mergedPrices]

lemma mergeSnapshotSources_nodup (latest : Option SnapshotRecord) (refreshed : List StoredQuote) :
    ((mergeSnapshotSources P latest refreshed).map StoredQuote.source).Nodup :=
  ((orderedSources_perm P _).map _).nodup_iff.mpr (mergedPrices latest refreshed).distinct

lemma retainedQuotes_some (snapshot : SnapshotRecord) :
    retainedQuotes (some snapshot) = (snapshot.sources.filter StoredQuote.valid).foldl Keyed.put .empty := by
  unfold retainedQuotes
  rw [List.foldl_filter]

lemma find_source_iff {quotes : List StoredQuote} (hnodup : (quotes.map StoredQuote.source).Nodup) {name : String}
    {quote : StoredQuote} :
    (quotes.find? fun q => q.source = name) = some quote ↔ quote ∈ quotes ∧ quote.source = name :=
  Keyed.get?_eq_some_iff (m := (⟨quotes, hnodup⟩ : SourcePrices))

lemma find?_eq_some_of_nodup {quotes : List StoredQuote} (hnodup : (quotes.map StoredQuote.source).Nodup)
    {name : String} {quote : StoredQuote} :
    (quotes.reverse.find? fun q => q.source = name) = some quote ↔ quote ∈ quotes ∧ quote.source = name := by
  have hreverse : (quotes.reverse.map StoredQuote.source).Nodup := by
    rw [List.map_reverse, List.nodup_reverse]
    exact hnodup
  rw [find_source_iff hreverse, List.mem_reverse]

lemma retainedQuotes_get? {snapshot : SnapshotRecord} (hnodup : (snapshot.sources.map StoredQuote.source).Nodup)
    {name : String} {quote : StoredQuote} :
    (retainedQuotes (some snapshot)).get? name = some quote ↔
      quote ∈ snapshot.sources ∧ quote.valid = true ∧ quote.source = name := by
  have hvalid : ((snapshot.sources.filter StoredQuote.valid).map StoredQuote.source).Nodup :=
    hnodup.sublist (List.filter_sublist.map _)
  rw [retainedQuotes_some, Keyed.get?_foldl_put, Keyed.get?_empty, Option.or_none,
    find?_eq_some_of_nodup hvalid, List.mem_filter, and_assoc]

lemma retainedQuotes_valid {latest : Option SnapshotRecord} {name : String} {quote : StoredQuote}
    (h : (retainedQuotes latest).get? name = some quote) : quote.valid = true := by
  cases latest with
  | none => simp [retainedQuotes] at h
  | some snapshot =>
    rw [retainedQuotes_some, Keyed.get?_foldl_put, Keyed.get?_empty, Option.or_none] at h
    have hmem := List.mem_of_find?_eq_some h
    rw [List.mem_reverse, List.mem_filter] at hmem
    exact hmem.2

lemma mergedPrices_get? (latest : Option SnapshotRecord) {refreshed : List StoredQuote}
    (hnodup : (refreshed.map StoredQuote.source).Nodup) (name : String) (quote : StoredQuote) :
    (mergedPrices latest refreshed).get? name = some quote ↔
      quote ∈ refreshed ∧ quote.source = name ∨
        (∀ q ∈ refreshed, q.source ≠ name) ∧ (retainedQuotes latest).get? name = some quote := by
  rw [mergedPrices, Keyed.get?_foldl_put, Option.or_eq_some_iff, find?_eq_some_of_nodup hnodup]
  simp [List.find?_eq_none]

end Merge

section MergedBatch

variable (P : Platform) (latest : Option SnapshotRecord) (plan : RefreshPlan)
  (attempts : UpstreamSource → Attempt) (nowUnix : ℤ)

/-- The quotes of a batch: the successes of its providers, and the retained ones of all others. -/
lemma mem_batch_sources {snapshot : SnapshotRecord}
    (h : (refreshBatch P latest plan attempts nowUnix).snapshot = some snapshot) {quote : StoredQuote} :
    quote ∈ snapshot.sources ↔
      (∃ source ∈ plan.sources, quoteOf P attempts source = some quote) ∨
        (∀ source ∈ plan.sources, (quoteOf P attempts source).isSome → source.name ≠ quote.source) ∧
          (retainedQuotes latest).get? quote.source = some quote := by
  rw [refreshBatch_snapshot_sources P latest plan attempts nowUnix h, mem_mergeSnapshotSources,
    mergedPrices_get? latest (refreshed_nodup P latest plan attempts nowUnix), mem_refreshed]
  have hothers : (∀ q ∈ (refreshBatch P latest plan attempts nowUnix).refreshed, q.source ≠ quote.source) ↔
      ∀ source ∈ plan.sources, (quoteOf P attempts source).isSome → source.name ≠ quote.source := by
    simp only [mem_refreshed, Option.isSome_iff_exists]
    constructor
    · rintro hall source hmem ⟨q, hq⟩
      rw [← quoteOf_source hq]
      exact hall q ⟨source, hmem, hq⟩
    · rintro hall q ⟨source, hmem, hq⟩
      rw [quoteOf_source hq]
      exact hall source hmem ⟨q, hq⟩
  rw [hothers]
  simp

lemma batch_sources_valid {snapshot : SnapshotRecord}
    (h : (refreshBatch P latest plan attempts nowUnix).snapshot = some snapshot) :
    ∀ quote ∈ snapshot.sources, quote.valid = true := by
  intro quote hmem
  rcases (mem_batch_sources P latest plan attempts nowUnix h).mp hmem with ⟨source, _, hquote⟩ | ⟨_, hretained⟩
  · exact quoteOf_valid hquote
  · exact retainedQuotes_valid hretained

end MergedBatch

/-- A successful exchange with a body in ASCII. -/
def answered (body : String) : Except ReqwestError Response :=
  .ok ⟨⟨200, by decide⟩, none, none, [body.toList.map fun ch => .ofNat ch.toNat], none⟩

/-- CoinGecko and Kraken answer with a price, Coinbase is not available and Gemini does not answer in time. -/
def someProviders (close : String) (time : ℤ) : UpstreamSource → Attempt
  | .coinGecko => ⟨time, answered "\x7b\"bitcoin\":\x7b\"usd\":50001.5\x7d\x7d", time + 1⟩
  | .coinbase => ⟨time, .ok ⟨⟨503, by decide⟩, none, none, [], none⟩, time + 2⟩
  | .kraken => ⟨time, answered ("\x7b\"error\":[],\"result\":\x7b\"XXBTZUSD\":\x7b\"c\":[\"" ++ close ++
      "\",\"0.01\"]\x7d\x7d\x7d"), time + 3⟩
  | .gemini => ⟨time, .error ⟨true, "operation timed out"⟩, time + 5⟩

example : (refreshBatch .plain none ⟨UpstreamSource.all, true, 1⟩ (someProviders "50000.5" 1000) 1005).refreshed =
    [⟨"CoinGecko", .finite (100003 / 2), some 1001, .aggregate⟩,
      ⟨"Kraken", .finite (100001 / 2), some 1003, .lastTrade⟩] := by
  decide +kernel

/-- A stored snapshot with prices of Coinbase and Kraken. -/
def storedTables : CurrentTables where
  parents := ⟨⟨[⟨1, 900, some (.finite 49985), some (.finite 10), "[]", some "partial"⟩], by decide⟩, 1, by decide⟩
  children := ⟨⟨[⟨1, 1, "Coinbase", .finite 49990, some 899, "spot", by decide⟩,
    ⟨2, 1, "Kraken", .finite 49980, some 898, "last_trade", by decide⟩], by decide⟩, 2, by decide⟩
  references := by decide

end BitcoinPriceTracker

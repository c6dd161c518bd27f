import BitcoinPriceTracker.Lib.Keyed
import BitcoinPriceTracker.Model.Dashboard
import BitcoinPriceTracker.Model.Handlers
import BitcoinPriceTracker.Proofs.IncrementalMean
import BitcoinPriceTracker.Proofs.QuoteEvaluation

namespace BitcoinPriceTracker

lemma SourceFreshness.text_eq_fresh {freshness : SourceFreshness} : freshness.text = "fresh" ↔ freshness = .fresh := by
  cases freshness <;> decide

/-- A row as the dashboard reads it. -/
def SourceResponse.received (source : SourceResponse) : DashboardSource :=
  ⟨source.quote.source, source.quote.priceUsd.value, source.ageSeconds.map fun age : ℤ => (age : ℚ),
    source.freshness.text⟩

/-- A response as the dashboard reads it. -/
def PriceResponse.received (response : PriceResponse) : DashboardData :=
  ⟨response.status.text, response.sources.map SourceResponse.received, response.coverage.contributingSources,
    response.coverage.configuredSourceCount, response.sourceMaxAgeSeconds⟩

lemma validateAge_optional {age : Option ℤ} (h : ∀ seconds, age = some seconds → 0 ≤ seconds) :
    validateAge (.optional .integer age) = some (age.map fun seconds : ℤ => (seconds : ℚ)) := by
  cases age with
  | none => rfl
  | some seconds =>
    have hnonneg : (0 : ℚ) ≤ seconds := by exact_mod_cast h seconds rfl
    simp [Json.optional, Json.integer, validateAge, Json.finite, Option.filter, hnonneg]

lemma validateSource_evaluate {quote : StoredQuote} (h : quote.valid = true) (now : ℤ) :
    validateSource (quote.evaluate now).toJson = some (quote.evaluate now).received := by
  let row := (quote.evaluate now).toJson
  have hsource : (row.get "source").bind Json.asStr = some quote.source := rfl
  have hprice : ((row.get "price_usd").bind Json.finite).filter (fun price => 0 < price) =
      some quote.priceUsd.value := by
    obtain ⟨hvalue, hpositive⟩ := StoredQuote.price_of_valid h
    have hget : row.get "price_usd" = some quote.priceUsd.toJson := rfl
    rw [hget, hvalue, Option.filter_eq_some_iff]
    exact ⟨rfl, decide_eq_true hpositive⟩
  have hfreshness : ((row.get "freshness").bind Json.asStr).filter
      (fun freshness => ["fresh", "stale", "future", "unknown"].contains freshness) =
        some (quote.freshness now).text := by
    have hget : (row.get "freshness").bind Json.asStr = some (quote.freshness now).text := rfl
    rw [hget]
    cases quote.freshness now <;> rfl
  have hage : ((row.get "age_seconds").bind validateAge).filter
      (fun age => (quote.freshness now).text ≠ "fresh" || age.isSome) =
        some ((quote.ageSeconds now).map fun seconds : ℤ => (seconds : ℚ)) := by
    have hget : (row.get "age_seconds").bind validateAge =
        some ((quote.ageSeconds now).map fun seconds : ℤ => (seconds : ℚ)) :=
      validateAge_optional fun seconds hsome => by
        obtain ⟨_, _, _, hnonneg, _⟩ := ageSeconds_eq_some.mp hsome
        exact hnonneg
    rw [hget, Option.filter_some_eq_some]
    by_cases hfresh : quote.freshness now = .fresh
    · obtain ⟨time, _, hsome⟩ := fresh_ageSeconds hfresh
      simp [hsome]
    · simp [mt SourceFreshness.text_eq_fresh.mp hfresh]
  change validateSource row = _
  simp only [validateSource, hsource, hprice, hfreshness, hage, Option.bind_eq_bind, Option.bind_some]
  rfl

lemma validateHealth_toJson (health : ProviderHealth) : validateHealth health.toJson = true := by
  obtain ⟨source, _ | _ | _⟩ := health <;> rfl

lemma mapM_map {α β γ : Type} {f : β → Option γ} {g : α → β} {k : α → γ} :
    ∀ {items : List α}, (∀ a ∈ items, f (g a) = some (k a)) → (items.map g).mapM f = some (items.map k)
  | [], _ => rfl
  | a :: items, h => by
    rw [List.map_cons, List.mapM_cons, h a List.mem_cons_self,
      mapM_map fun b hb => h b (List.mem_cons_of_mem a hb)]
    rfl

/-- A response is accepted where its rows are, and its contributors are distinct and no more
than the configured providers. -/
lemma validate_toJson {response : PriceResponse}
    (hsources : ∀ source ∈ response.sources, validateSource source.toJson = some source.received)
    (hnames : response.coverage.contributingSources.Nodup)
    (hcount : response.coverage.contributingSources.length ≤ response.coverage.configuredSourceCount)
    (hpositive : 1 ≤ response.coverage.configuredSourceCount) (hage : 0 < response.sourceMaxAgeSeconds) :
    validate response.toJson = some response.received := by
  let body := response.toJson
  let coverage := response.coverage.toJson
  have hstatus : ((body.get "status").bind Json.asStr).filter
      (fun status => ["LIVE", "DEGRADED", "STALE", "UNAVAILABLE"].contains status) = some response.status.text := by
    have hget : (body.get "status").bind Json.asStr = some response.status.text := rfl
    rw [hget]
    cases response.status <;> rfl
  have hrows : (body.get "sources").bind Json.asArray = some (response.sources.map SourceResponse.toJson) := rfl
  have hhealth : (body.get "provider_health").bind Json.asArray =
      some (response.providerHealth.map ProviderHealth.toJson) := rfl
  have hwarnings : (body.get "warnings").bind Json.asArray = some (response.warnings.map .string) := rfl
  have hcoverage : body.get "coverage" = some coverage := rfl
  have hcontributing : (coverage.get "contributing_sources").bind Json.asArray =
      some (response.coverage.contributingSources.map .string) := rfl
  have hconfigured : (coverage.get "configured_source_count").bind validateCount =
      some (response.coverage.configuredSourceCount : ℚ) := by
    have hget : (coverage.get "configured_source_count").bind validateCount =
      (some ((response.coverage.configuredSourceCount : ℤ) : ℚ)).filter
        fun count => count.den = 1 && 1 ≤ count := rfl
    have hone : (1 : ℚ) ≤ (response.coverage.configuredSourceCount : ℤ) := by exact_mod_cast hpositive
    rw [hget, Option.filter_some_pos]
    · simp
    · simpa using hone
  have hmaxAge : ((body.get "source_max_age_seconds").bind Json.finite).filter (fun maxAge => 0 < maxAge) =
      some (response.sourceMaxAgeSeconds : ℚ) := by
    have hget : (body.get "source_max_age_seconds").bind Json.finite =
      some ((response.sourceMaxAgeSeconds : ℤ) : ℚ) := rfl
    have hpos : (0 : ℚ) < (response.sourceMaxAgeSeconds : ℤ) := by exact_mod_cast hage
    rw [hget, Option.filter_some_pos]
    · simp
    · simpa using hpos
  have hevaluated : (body.get "evaluated_at_unix").bind Json.finite = some (response.evaluatedAtUnix : ℚ) := rfl
  have hdistinct : ((response.coverage.contributingSources.map Json.string).mapM Json.asStr).filter
      (fun names => names.Nodup && names.length ≤ (response.coverage.configuredSourceCount : ℚ)) =
        some response.coverage.contributingSources := by
    have hmap : (response.coverage.contributingSources.map Json.string).mapM Json.asStr =
        some (response.coverage.contributingSources.map id) := mapM_map fun _ _ => rfl
    rw [hmap, List.map_id, Option.filter_some_eq_some]
    simp [hnames, hcount]
  have hall : (response.providerHealth.map ProviderHealth.toJson).all validateHealth = true := by
    simp [validateHealth_toJson]
  change validate body = _
  simp only [validate, hstatus, hrows, hhealth, hwarnings, hcoverage, hcontributing, hconfigured, hmaxAge, hevaluated,
    hdistinct, mapM_map hsources, hall, Option.bind_eq_bind, Option.bind_some, if_true]
  rfl

section Contributors

variable (rows : Keyed StoredQuote StoredQuote.source)

/-- The rows of the configured providers that satisfy `p`, in configured order. -/
def selectedQuotes (p : StoredQuote → Bool) (providers : List UpstreamSource) : List StoredQuote :=
  providers.filterMap fun provider => (rows.get? provider.name).filter p

/-- The rows that contribute at a moment. -/
def freshQuotes (now : ℤ) : List StoredQuote :=
  selectedQuotes rows (fun quote => quote.freshness now = .fresh) UpstreamSource.all

lemma selectedQuotes_sublist {p q : StoredQuote → Bool} (h : ∀ quote ∈ rows.items, p quote = true → q quote = true) :
    ∀ providers : List UpstreamSource, (selectedQuotes rows p providers).Sublist (selectedQuotes rows q providers)
  | [] => .refl []
  | provider :: providers => by
    have ih := selectedQuotes_sublist h providers
    unfold selectedQuotes at ih ⊢
    rw [List.filterMap_cons, List.filterMap_cons]
    cases hget : rows.get? provider.name with
    | none => exact ih
    | some quote =>
      have hmem := (Keyed.get?_eq_some_iff.mp hget).1
      cases hp : p quote with
      | true =>
        rw [Option.filter_some_pos hp, Option.filter_some_pos (h quote hmem hp)]
        exact ih.cons_cons quote
      | false =>
        rw [Option.filter_some_neg hp]
        cases hq : q quote with
        | true =>
          rw [Option.filter_some_pos hq]
          exact ih.cons quote
        | false =>
          rw [Option.filter_some_neg hq]
          exact ih

lemma selectedQuotes_congr {p q : StoredQuote → Bool} (h : ∀ quote ∈ rows.items, p quote = q quote)
    (providers : List UpstreamSource) : selectedQuotes rows p providers = selectedQuotes rows q providers := by
  refine List.filterMap_congr fun provider _ => ?_
  cases hget : rows.get? provider.name with
  | none => rfl
  | some quote => simp [Option.filter, h quote (Keyed.get?_eq_some_iff.mp hget).1]

lemma selectedQuotes_length (p : StoredQuote → Bool) (providers : List UpstreamSource) :
    (selectedQuotes rows p providers).length ≤ providers.length := List.length_filterMap_le _ _

lemma mem_selectedQuotes {p : StoredQuote → Bool} {providers : List UpstreamSource} {quote : StoredQuote}
    (h : quote ∈ selectedQuotes rows p providers) : quote ∈ rows.items ∧ p quote = true := by
  obtain ⟨provider, _, hselected⟩ := List.mem_filterMap.mp h
  obtain ⟨hget, hp⟩ := Option.filter_eq_some_iff.mp hselected
  exact ⟨(Keyed.get?_eq_some_iff.mp hget).1, hp⟩

lemma selectedQuotes_nodup (p : StoredQuote → Bool) :
    ((selectedQuotes rows p UpstreamSource.all).map StoredQuote.source).Nodup := by
  have hnames : ((selectedQuotes rows p UpstreamSource.all).map StoredQuote.source).Sublist
      (UpstreamSource.all.map UpstreamSource.name) := by
    unfold selectedQuotes
    generalize UpstreamSource.all = providers
    induction providers with
    | nil => exact .refl []
    | cons provider providers ih =>
      rw [List.filterMap_cons]
      cases hselected : (rows.get? provider.name).filter p with
      | none => exact ih.cons _
      | some quote =>
        obtain ⟨hget, _⟩ := Option.filter_eq_some_iff.mp hselected
        rw [List.map_cons, List.map_cons, (Keyed.get?_eq_some_iff.mp hget).2]
        exact ih.cons_cons _
  exact hnames.nodup (UpstreamSource.all_nodup.map UpstreamSource.name_injective)

lemma contributor_eq (now : ℤ) (provider : UpstreamSource) :
    contributor (rows.items.map fun quote => quote.evaluate now) provider =
      ((rows.get? provider.name).filter fun quote => quote.freshness now = .fresh).map
        fun quote => quote.evaluate now := by
  have hfilter : (rows.items.map fun quote => quote.evaluate now).filter
      (fun source => source.quote.source = provider.name && source.freshness = .fresh) =
        (((rows.get? provider.name).filter fun quote => quote.freshness now = .fresh).toList).map
          fun quote => quote.evaluate now := by
    rw [← rows.filter_key_and, List.filter_map]
    rfl
  rw [contributor, hfilter]
  cases (rows.get? provider.name).filter fun quote => quote.freshness now = .fresh <;> rfl

lemma contributors_eq (now : ℤ) :
    UpstreamSource.all.filterMap (contributor (rows.items.map fun quote => quote.evaluate now)) =
      (freshQuotes rows now).map fun quote => quote.evaluate now := by
  rw [freshQuotes, selectedQuotes, List.map_filterMap]
  exact List.filterMap_congr fun provider _ => contributor_eq rows now provider

/-- A row as the dashboard holds it some seconds after the evaluation. -/
def StoredQuote.aged (quote : StoredQuote) (now elapsed : ℤ) : AgedSource :=
  (quote.evaluate now).received.advance elapsed SOURCE_MAX_AGE_SECONDS

/-- A row that was fresh and still is. -/
def StoredQuote.stillFresh (quote : StoredQuote) (now elapsed : ℤ) : Bool :=
  (quote.aged now elapsed).currentFreshness = "fresh"

lemma stillFresh_iff {quote : StoredQuote} {now elapsed : ℤ} :
    quote.stillFresh now elapsed = true ↔ quote.freshness now = .fresh ∧
      ∃ time, quote.lastSuccessAtUnix = some time ∧ now + elapsed - time < SOURCE_MAX_AGE_SECONDS := by
  unfold StoredQuote.stillFresh StoredQuote.aged DashboardSource.advance SourceResponse.received StoredQuote.evaluate
  by_cases hfresh : quote.freshness now = .fresh
  · obtain ⟨time, htime, hage⟩ := fresh_ageSeconds hfresh
    have hcast : (SOURCE_MAX_AGE_SECONDS : ℚ) ≤ ((now - time : ℤ) : ℚ) + elapsed ↔
        (SOURCE_MAX_AGE_SECONDS : ℤ) ≤ now - time + elapsed := by exact_mod_cast Iff.rfl
    simp only [hfresh, hage, htime, SourceFreshness.text, Option.map_some, Option.any_some, decide_true, Bool.true_and,
      decide_eq_true_eq, hcast, true_and, Option.some.injEq, exists_eq_left']
    split <;> simp <;> omega
  · have htext := mt SourceFreshness.text_eq_fresh.mp hfresh
    simp [hfresh, htext]

lemma fresh_of_stillFresh {quote : StoredQuote} {now elapsed : ℤ} (helapsed : 0 ≤ elapsed)
    (h : quote.stillFresh now elapsed = true) : quote.freshness (now + elapsed) = .fresh := by
  obtain ⟨hfresh, time, htime, hyoung⟩ := stillFresh_iff.mp h
  obtain ⟨hconfigured, time', htime', hpast, _⟩ := freshness_eq_fresh.mp hfresh
  obtain rfl : time = time' := Option.some.inj (htime.symm.trans htime')
  exact freshness_eq_fresh.mpr ⟨hconfigured, time, htime, by omega, hyoung⟩

lemma stillFresh_of_fresh {quote : StoredQuote} {now elapsed : ℤ} (helapsed : 0 ≤ elapsed)
    (hpast : ∀ time, quote.lastSuccessAtUnix = some time → time ≤ now)
    (h : quote.freshness (now + elapsed) = .fresh) : quote.stillFresh now elapsed = true := by
  obtain ⟨hconfigured, time, htime, _, hyoung⟩ := freshness_eq_fresh.mp h
  exact stillFresh_iff.mpr ⟨freshness_eq_fresh.mpr ⟨hconfigured, time, htime, hpast time htime, by omega⟩,
    time, htime, hyoung⟩

/-- The rows that the dashboard shows as contributing. -/
def shownQuotes (now elapsed : ℤ) : List StoredQuote :=
  selectedQuotes rows (fun quote => quote.stillFresh now elapsed) UpstreamSource.all

lemma shownContributors_eq {data : DashboardData} {now elapsed : ℤ}
    (h : data.contributingSources = (freshQuotes rows now).map StoredQuote.source) :
    shownContributors data (rows.items.map fun quote => quote.aged now elapsed) =
      (shownQuotes rows now elapsed).map fun quote => quote.aged now elapsed := by
  have hname : ∀ name, (((rows.items.map fun quote => quote.aged now elapsed).filter fun aged =>
      aged.source.source = name && aged.currentFreshness = "fresh").insertionSort ageLe).head? =
        ((rows.get? name).filter fun quote => quote.stillFresh now elapsed).map
          fun quote => quote.aged now elapsed := by
    intro name
    have hfilter : ((rows.items.map fun quote => quote.aged now elapsed).filter fun aged =>
        aged.source.source = name && aged.currentFreshness = "fresh") =
          (((rows.get? name).filter fun quote => quote.stillFresh now elapsed).toList).map
            fun quote => quote.aged now elapsed := by
      rw [← rows.filter_key_and, List.filter_map]
      rfl
    rw [hfilter]
    cases (rows.get? name).filter fun quote => quote.stillFresh now elapsed <;> rfl
  simp only [shownContributors, hname, h, freshQuotes, shownQuotes, selectedQuotes, List.map_filterMap,
    List.filterMap_filterMap]
  refine List.filterMap_congr fun provider _ => ?_
  cases hget : rows.get? provider.name with
  | none => rfl
  | some quote =>
    have hsource := (Keyed.get?_eq_some_iff.mp hget).2
    by_cases hfresh : quote.freshness now = .fresh
    · simp [Option.filter, hfresh, hsource, hget]
    · have hstill : quote.stillFresh now elapsed = false := by
        rw [Bool.eq_false_iff]
        exact fun hstill => hfresh (stillFresh_iff.mp hstill).1
      simp [Option.filter, hfresh, hstill]

end Contributors

/-- The rows that a read evaluates. -/
def storedQuotes (loaded : Except String StoredPriceState) : List StoredQuote :=
  (quotesOf (storedOf loaded).1.snapshot).1

/-- The valid rows, where the sources are distinct. -/
def validRows (quotes : List StoredQuote) (h : (quotes.map StoredQuote.source).Nodup) :
    Keyed StoredQuote StoredQuote.source :=
  ⟨quotes.filter StoredQuote.valid, h.sublist (List.filter_sublist.map _)⟩

/-- The status with `count` contributors. -/
def statusOf (healthy : Bool) (count : ℕ) (noRows : Bool) : PriceStatus :=
  if count = UpstreamSource.all.length && healthy then .live
  else if 0 < count then .degraded
  else if !noRows then .stale
  else .unavailable

lemma status_eq (contributors sources : List SourceResponse) (healthy : Bool) :
    (if contributors.length = UpstreamSource.all.length && healthy then .live
      else if !contributors.isEmpty then .degraded
      else if !sources.isEmpty then .stale
      else .unavailable) = statusOf healthy contributors.length sources.isEmpty := by
  unfold statusOf
  cases contributors <;> simp

/-- An error of the last refresh degrades a live status. -/
def reportedStatus (report : PriceRefreshReport) (status : PriceStatus) : PriceStatus :=
  if !report.errors.isEmpty && status = .live then .degraded else status

/-- What the response says of distinct rows. -/
structure ResponseOf (rows : Keyed StoredQuote StoredQuote.source) (healthy : Bool) (report : PriceRefreshReport)
    (now : ℤ) (response : PriceResponse) : Prop where
  sources : response.sources = rows.items.map fun quote => quote.evaluate now
  averagePrice : response.averagePrice = averageOf ((freshQuotes rows now).map StoredQuote.priceUsd)
  spread : response.spread = (averageOf ((freshQuotes rows now).map StoredQuote.priceUsd)).map fun _ =>
    spreadOf ((freshQuotes rows now).map StoredQuote.priceUsd)
  status : response.status =
    reportedStatus report (statusOf healthy (freshQuotes rows now).length rows.items.isEmpty)
  coverage : response.coverage = ⟨UpstreamSource.all.length, (freshQuotes rows now).length,
    (freshQuotes rows now).map StoredQuote.source⟩
  maxAge : response.sourceMaxAgeSeconds = SOURCE_MAX_AGE_SECONDS

lemma priceResponse_eq {loaded : Except String StoredPriceState}
    (h : ((storedQuotes loaded).map StoredQuote.source).Nodup) (context : ReadContext) (now : ℤ) :
    ResponseOf (validRows (storedQuotes loaded) h) (allHealthy (storedOf loaded).1.providerHealth) context.report now
      (priceResponse loaded context now).2 := by
  let rows := validRows (storedQuotes loaded) h
  let evaluated := evaluateQuotes (storedQuotes loaded) (storedOf loaded).1.providerHealth now
  have hcontributors := contributors_eq rows now
  have hprices : (UpstreamSource.all.filterMap (contributor (rows.items.map fun quote => quote.evaluate now))).map
      (fun source => source.quote.priceUsd) = (freshQuotes rows now).map StoredQuote.priceUsd := by
    rw [hcontributors, List.map_map]
    rfl
  have hcoverage : evaluated.coverage = ⟨UpstreamSource.all.length, (freshQuotes rows now).length,
      (freshQuotes rows now).map StoredQuote.source⟩ := by
    simp only [evaluated, evaluateQuotes]
    change AggregateCoverage.mk _ (List.length (UpstreamSource.all.filterMap (contributor (rows.items.map _))))
      (List.map _ (UpstreamSource.all.filterMap (contributor (rows.items.map _)))) = _
    rw [hcontributors, List.length_map, List.map_map]
    rfl
  have hstatus : evaluated.status = statusOf (allHealthy (storedOf loaded).1.providerHealth)
      (freshQuotes rows now).length rows.items.isEmpty := by
    have hlength := congrArg List.length hcontributors
    rw [List.length_map] at hlength
    have hempty : (rows.items.map fun quote => quote.evaluate now).isEmpty = rows.items.isEmpty := by simp
    rw [← hlength, ← hempty]
    exact status_eq _ _ _
  exact
    { sources := rfl
      averagePrice := congrArg averageOf hprices
      spread := congrArg (fun prices => (averageOf prices).map fun _ => spreadOf prices) hprices
      status := congrArg (reportedStatus context.report) hstatus
      coverage := hcoverage
      maxAge := rfl }

lemma reportedStatus_eq_live {report : PriceRefreshReport} {status : PriceStatus} :
    reportedStatus report status = .live ↔ report.errors = [] ∧ status = .live := by
  unfold reportedStatus
  cases report.errors <;> cases status <;> simp

lemma statusOf_eq_live {healthy : Bool} {count : ℕ} {noRows : Bool} :
    statusOf healthy count noRows = .live ↔ count = UpstreamSource.all.length ∧ healthy = true := by
  unfold statusOf
  split
  · next h => simpa using h
  · next h => split_ifs <;> simpa using h

lemma reportedStatus_of_pos (report : PriceRefreshReport) (healthy noRows : Bool) {count : ℕ} (h : 0 < count) :
    reportedStatus report (statusOf healthy count noRows) = .live ∨
      reportedStatus report (statusOf healthy count noRows) = .degraded := by
  unfold reportedStatus statusOf
  simp only [h, if_true]
  split_ifs <;> simp

lemma shownStatus_eq {report : PriceRefreshReport} {healthy noRows : Bool} {count count' : ℕ} {data : DashboardData}
    {sources : List AgedSource} (hstatus : data.status = (reportedStatus report (statusOf healthy count noRows)).text)
    (hconfigured : data.configuredSourceCount = (UpstreamSource.all.length : ℕ)) (hrows : sources.isEmpty = noRows)
    (hle : count' ≤ count) (hmost : count ≤ UpstreamSource.all.length) (hnone : noRows = true → count = 0) :
    shownStatus data sources count' = (reportedStatus report (statusOf healthy count' noRows)).text := by
  have hfour : UpstreamSource.all.length = 4 := rfl
  rw [hfour] at hconfigured hmost
  unfold shownStatus
  rw [hstatus, hconfigured, hrows]
  rcases Nat.eq_zero_or_pos count' with hzero | hpos
  · -- No row is fresh any more.
    subst hzero
    cases noRows with
    | false => simp [statusOf, hfour, reportedStatus, PriceStatus.text]
    | true => simp [hnone rfl, statusOf, hfour, reportedStatus, PriceStatus.text]
  · have hnonzero : count' ≠ 0 := Nat.pos_iff_ne_zero.mp hpos
    have hcast : ((count' : ℚ) < (4 : ℕ)) ↔ count' < 4 := by exact_mod_cast Iff.rfl
    simp only [hnonzero, decide_false, Bool.and_false, Bool.false_eq_true, if_false, hcast]
    rcases Nat.lt_or_ge count' 4 with hfew | hall
    · -- Some rows are fresh, but not all of them.
      have hlater : reportedStatus report (statusOf healthy count' noRows) = .degraded := by
        refine (reportedStatus_of_pos report healthy noRows hpos).resolve_left fun hlive => ?_
        have hcount := (statusOf_eq_live.mp (reportedStatus_eq_live.mp hlive).2).1
        omega
      rw [hlater]
      rcases reportedStatus_of_pos report healthy noRows (hpos.trans_le hle) with hbefore | hbefore <;>
        simp [hbefore, hfew, PriceStatus.text]
    · obtain rfl : count' = 4 := by omega
      obtain rfl : count = 4 := by omega
      simp

lemma shownStatus_live {data : DashboardData} {sources : List AgedSource} {count : ℕ}
    (hconfigured : data.configuredSourceCount = (UpstreamSource.all.length : ℕ))
    (h : shownStatus data sources count = "LIVE") : data.status = "LIVE" ∧ UpstreamSource.all.length ≤ count := by
  unfold shownStatus at h
  rw [hconfigured] at h
  split at h
  · simp at h
  · split at h
    · simp at h
    · next hnot =>
      refine ⟨h, ?_⟩
      simpa [h] using hnot

section Evaluations

variable {rows : Keyed StoredQuote StoredQuote.source} {healthy : Bool} {report : PriceRefreshReport} {now : ℤ}
  {response : PriceResponse}

lemma ResponseOf.count_le (_ : ResponseOf rows healthy report now response) :
    (freshQuotes rows now).length ≤ UpstreamSource.all.length := selectedQuotes_length rows _ _

lemma freshQuotes_of_empty (now : ℤ) (h : rows.items.isEmpty = true) : (freshQuotes rows now).length = 0 := by
  rw [List.length_eq_zero_iff, List.eq_nil_iff_forall_not_mem]
  intro quote hquote
  have hmem := (mem_selectedQuotes rows hquote).1
  rw [List.isEmpty_iff.mp h] at hmem
  simp at hmem

lemma ResponseOf.validate (h : ResponseOf rows healthy report now response)
    (hvalid : ∀ quote ∈ rows.items, quote.valid = true) :
    BitcoinPriceTracker.validate response.toJson = some response.received := by
  refine validate_toJson ?_ ?_ ?_ ?_ ?_
  · intro source hsource
    rw [h.sources] at hsource
    obtain ⟨quote, hquote, rfl⟩ := List.mem_map.mp hsource
    exact validateSource_evaluate (hvalid quote hquote) now
  · rw [h.coverage]
    exact selectedQuotes_nodup rows _
  · rw [h.coverage, List.length_map]
    exact h.count_le
  · rw [h.coverage]
    change 1 ≤ UpstreamSource.all.length
    decide
  · rw [h.maxAge]
    decide

lemma ResponseOf.render (h : ResponseOf rows healthy report now response) {page : Dashboard} {time : ℚ}
    (hrunning : page.running = true) (hdata : page.lastData = some response.received) (hprice : page.priceError = "")
    (hpresence : page.presenceError = "") :
    let shown := shownQuotes rows now (page.elapsed time)
    let prices := shown.map fun quote => quote.priceUsd.value
    page.render time = some
      ⟨shownStatus response.received (rows.items.map fun quote => quote.aged now (page.elapsed time)) shown.length,
        shown.map fun quote => quote.aged now (page.elapsed time), shownMean prices, shownSpread prices⟩ := by
  have hsources : response.received.sources.map (fun source =>
      source.advance (page.elapsed time) response.received.sourceMaxAgeSeconds) =
        rows.items.map fun quote => quote.aged now (page.elapsed time) := by
    simp only [PriceResponse.received, h.sources, h.maxAge, List.map_map]
    rfl
  have hnames : response.received.contributingSources = (freshQuotes rows now).map StoredQuote.source := by
    simp only [PriceResponse.received, h.coverage]
  simp only [Dashboard.render, hrunning, hdata, hprice, hpresence, hsources, shownContributors_eq rows hnames,
    List.length_map, List.map_map]
  rfl

end Evaluations

lemma priceResponse_code (loaded : Except String StoredPriceState) (context : ReadContext) (now : ℤ) :
    ((∃ e, loaded = .error e) ∧ (priceResponse loaded context now).1 = 500) ∨
      ((∃ stored, loaded = .ok stored) ∧ (priceResponse loaded context now).1 =
        if (priceResponse loaded context now).2.sources.isEmpty then 503 else 200) := by
  cases loaded with
  | error e => exact .inl ⟨⟨e, rfl⟩, rfl⟩
  | ok stored => exact .inr ⟨⟨stored, rfl⟩, rfl⟩

lemma ResponseOf.unavailable {rows : Keyed StoredQuote StoredQuote.source} {healthy : Bool}
    {report : PriceRefreshReport} {now : ℤ} {response : PriceResponse}
    (h : ResponseOf rows healthy report now response) (hempty : response.sources.isEmpty = true) :
    response.status = .unavailable := by
  rw [h.sources, List.isEmpty_map] at hempty
  rw [h.status, freshQuotes_of_empty now hempty, hempty]
  simp [statusOf, reportedStatus, UpstreamSource.all]

/-- What is shown later, against the response of that time. -/
lemma ResponseOf.later {rows : Keyed StoredQuote StoredQuote.source} {healthy : Bool}
    {report : PriceRefreshReport} {now elapsed : ℤ} {response answer : PriceResponse}
    (h : ResponseOf rows healthy report now response) (hanswer : ResponseOf rows healthy report (now + elapsed) answer)
    (hvalid : ∀ quote ∈ rows.items, quote.valid = true) (helapsed : 0 ≤ elapsed) :
    let shown := shownQuotes rows now elapsed
    let prices := shown.map fun quote => quote.priceUsd.value
    let label := shownStatus response.received (rows.items.map fun quote => quote.aged now elapsed) shown.length
    (shown.map StoredQuote.source).Sublist answer.coverage.contributingSources ∧
    (label = "LIVE" → answer.status = .live) ∧
    ((∀ quote ∈ rows.items, ∀ seen, quote.lastSuccessAtUnix = some seen → seen ≤ now) →
      label = answer.status.text ∧ shown.map StoredQuote.source = answer.coverage.contributingSources ∧
      (shownMean prices).map F64.finite = answer.averagePrice ∧
      (shownSpread prices).map F64.finite = answer.spread) := by
  have hconfigured : response.received.configuredSourceCount = (UpstreamSource.all.length : ℕ) := by
    simp only [PriceResponse.received, h.coverage]
  have hsublist : (shownQuotes rows now elapsed).Sublist (freshQuotes rows (now + elapsed)) :=
    selectedQuotes_sublist rows
      (fun quote _ hstill => decide_eq_true (fresh_of_stillFresh helapsed hstill)) UpstreamSource.all
  have hbefore : (shownQuotes rows now elapsed).Sublist (freshQuotes rows now) :=
    selectedQuotes_sublist rows
      (fun quote _ hstill => decide_eq_true (stillFresh_iff.mp hstill).1) UpstreamSource.all
  refine ⟨?_, fun hlive => ?_, fun hpast => ?_⟩
  · rw [hanswer.coverage]
    exact hsublist.map _
  · obtain ⟨hstatus, hall⟩ := shownStatus_live hconfigured hlive
    have hnow : response.status = .live := by
      cases hcase : response.status <;> simp [PriceResponse.received, hcase, PriceStatus.text] at hstatus ⊢
    rw [h.status, reportedStatus_eq_live, statusOf_eq_live] at hnow
    rw [hanswer.status, reportedStatus_eq_live, statusOf_eq_live]
    exact ⟨hnow.1, le_antisymm hanswer.count_le (hall.trans hsublist.length_le), hnow.2.2⟩
  · have hsame : shownQuotes rows now elapsed = freshQuotes rows (now + elapsed) := by
      refine selectedQuotes_congr rows (fun quote hquote => ?_) UpstreamSource.all
      rw [Bool.eq_iff_iff, decide_eq_true_eq]
      exact ⟨fresh_of_stillFresh helapsed, stillFresh_of_fresh helapsed (hpast quote hquote)⟩
    have hprices : (freshQuotes rows (now + elapsed)).map StoredQuote.priceUsd =
        ((shownQuotes rows now elapsed).map fun quote => quote.priceUsd.value).map F64.finite := by
      rw [hsame, List.map_map]
      refine List.map_congr_left fun quote hquote => ?_
      exact (StoredQuote.price_of_valid (hvalid quote (mem_selectedQuotes rows hquote).1)).1
    refine ⟨?_, ?_, ?_, ?_⟩
    · rw [hanswer.status, ← hsame]
      refine shownStatus_eq (congrArg PriceStatus.text h.status) hconfigured ?_ hbefore.length_le h.count_le
        (freshQuotes_of_empty now)
      rw [List.isEmpty_map]
    · rw [hanswer.coverage, hsame]
    · rw [hanswer.averagePrice, hprices, averageOf_finite]
    · rw [hanswer.spread, hprices, spreadOf_finite]

/-- The dashboard and the server agree on a response as it ages. The response to a price
request is accepted, with status 503 only for an unavailable price and 500 only after a failed
read. What the page shows later is what the server would then answer from the same rows,
health and report, unless a row is dated in the future; and in any case it shows no other
contributor, and no live label, than the server would. -/
theorem local_ageing_law {loaded : Except String StoredPriceState}
    (h : ((storedQuotes loaded).map StoredQuote.source).Nodup) (context later : ReadContext)
    (hreport : later.report = context.report) (now : ℤ) :
    let (status, body) := priceResponse loaded context now
    (status = 200 ∨ status = 503 ∨ status = 500) ∧
    (status = 503 → body.status = .unavailable) ∧
    (status = 500 ↔ ∃ e, loaded = .error e) ∧
    ∃ data, validate body.toJson = some data ∧
      (∀ stored, loaded = .ok stored → pollPrice status body.toJson = some data) ∧
      ∀ (page : Dashboard) (time : ℚ), page.running = true → page.lastData = some data → page.priceError = "" →
        page.presenceError = "" → ∃ view, page.render time = some view ∧
          let answer := (priceResponse loaded later (now + page.elapsed time)).2
          (view.contributors.map fun aged => aged.source.source).Sublist answer.coverage.contributingSources ∧
          (view.label = "LIVE" → answer.status = .live) ∧
          ((∀ quote ∈ storedQuotes loaded, ∀ seen, quote.lastSuccessAtUnix = some seen → seen ≤ now) →
            view.label = answer.status.text ∧
            (view.contributors.map fun aged => aged.source.source) = answer.coverage.contributingSources ∧
            view.mean.map F64.finite = answer.averagePrice ∧ view.spread.map F64.finite = answer.spread) := by
  let rows := validRows (storedQuotes loaded) h
  have hvalid : ∀ quote ∈ rows.items, quote.valid = true := fun quote hquote => List.of_mem_filter hquote
  have hresponse := priceResponse_eq h context now
  have hbody := hresponse.validate hvalid
  have hcode := priceResponse_code loaded context now
  have hempty := hresponse.unavailable
  generalize hgeneral : priceResponse loaded context now = response at *
  obtain ⟨status, body⟩ := response
  dsimp only at hcode hempty hbody hresponse ⊢
  refine ⟨?_, fun hstatus => ?_, ?_, body.received, hbody, fun stored hloaded => ?_, ?_⟩
  · rcases hcode with ⟨_, hcode⟩ | ⟨_, hcode⟩
    · exact .inr (.inr hcode)
    · split at hcode
      · exact .inr (.inl hcode)
      · exact .inl hcode
  · rcases hcode with ⟨_, hcode⟩ | ⟨_, hcode⟩
    · omega
    · split at hcode
      · next hrows => exact hempty hrows
      · omega
  · rcases hcode with ⟨hfailed, hcode⟩ | ⟨⟨stored, rfl⟩, hcode⟩
    · exact iff_of_true hcode hfailed
    · refine iff_of_false ?_ (by simp)
      split at hcode <;> omega
  · rcases hcode with ⟨⟨e, hfailed⟩, _⟩ | ⟨_, hcode⟩
    · simp [hfailed] at hloaded
    · unfold pollPrice
      rw [hbody]
      split at hcode
      · next hrows => simp [hcode, PriceResponse.received, hempty hrows, PriceStatus.text]
      · simp [hcode]
  · intro page time hrunning hdata hprice hpresence
    have helapsed : 0 ≤ page.elapsed time := le_max_left _ _
    have hanswer := priceResponse_eq h later (now + page.elapsed time)
    rw [hreport] at hanswer
    obtain ⟨hnames, hlive, hagree⟩ := hresponse.later hanswer hvalid helapsed
    refine ⟨_, hresponse.render hrunning hdata hprice hpresence, ?_, hlive, fun hpast => ?_⟩
    · rw [List.map_map]
      exact hnames
    · rw [List.map_map]
      exact hagree fun quote hquote => hpast quote (List.mem_of_mem_filter hquote)

/-- Quotes of one, five and twenty seconds ago, and one without a time. -/
def mixedQuotes : StoredPriceState :=
  ⟨some ⟨99, [⟨"CoinGecko", .finite 50030, some 80, .aggregate⟩, ⟨"Coinbase", .finite 50020, none, .spot⟩,
    ⟨"Kraken", .finite 50010, some 95, .lastTrade⟩, ⟨"Gemini", .finite 50000, some 99, .bid⟩], some (.finite 50015),
    some (.finite 30), [], some "all"⟩, []⟩

/-- After eighty seconds two of three contributors are left, and after eighty-five one. -/
theorem local_ageing_law_mixed :
    let context : ReadContext := ⟨.default, 1, false, none⟩
    let answer := fun now => (priceResponse (.ok mixedQuotes) context now).2
    (answer 100).coverage.contributingSources = ["CoinGecko", "Kraken", "Gemini"] ∧
      ∃ data earlier view, validate (answer 100).toJson = some data ∧
        (⟨true, some data, 0, "", ""⟩ : Dashboard).render 80000 = some earlier ∧
        (earlier.contributors.map fun aged => aged.source.source) = ["Kraken", "Gemini"] ∧
        (⟨true, some data, 0, "", ""⟩ : Dashboard).render 85000 = some view ∧
        (view.contributors.map fun aged => aged.source.source) = ["Gemini"] ∧
        earlier.mean.map F64.finite = (answer 180).averagePrice ∧
        view.label = (answer 185).status.text ∧ (answer 185).status = .degraded := by
  have hnodup : ((storedQuotes (.ok mixedQuotes)).map StoredQuote.source).Nodup := by decide
  obtain ⟨_, _, _, data, hvalidate, _, hrender⟩ :=
    local_ageing_law hnodup ⟨.default, 1, false, none⟩ ⟨.default, 1, false, none⟩ rfl 100
  have hpast : ∀ quote ∈ storedQuotes (.ok mixedQuotes), ∀ seen, quote.lastSuccessAtUnix = some seen → seen ≤ 100 := by
    decide
  obtain ⟨earlier, hearlier, _, _, hagree⟩ := hrender ⟨true, some data, 0, "", ""⟩ 80000 rfl rfl rfl rfl
  obtain ⟨view, hview, _, _, hagree'⟩ := hrender ⟨true, some data, 0, "", ""⟩ 85000 rfl rfl rfl rfl
  rw [show (⟨true, some data, 0, "", ""⟩ : Dashboard).elapsed 80000 = 80 by norm_num [Dashboard.elapsed]] at hagree
  rw [show (⟨true, some data, 0, "", ""⟩ : Dashboard).elapsed 85000 = 85 by norm_num [Dashboard.elapsed]] at hagree'
  obtain ⟨_, hnames, hmean, _⟩ := hagree hpast
  obtain ⟨hlabel, hnames', _⟩ := hagree' hpast
  exact ⟨by decide +kernel, data, earlier, view, hvalidate, hearlier, hnames.trans (by decide +kernel), hview,
    hnames'.trans (by decide +kernel), hmean, hlabel, by decide +kernel⟩

end BitcoinPriceTracker

import BitcoinPriceTracker.Model.Freshness

namespace BitcoinPriceTracker

lemma ageSeconds_eq_some {quote : StoredQuote} {now age : ℤ} :
    quote.ageSeconds now = some age ↔
      ∃ time, quote.lastSuccessAtUnix = some time ∧ age = now - time ∧ 0 ≤ age ∧ age ≤ i64Max := by
  have hmin : i64Min < 0 := by decide
  simp only [StoredQuote.ageSeconds, Option.filter_eq_some_iff, Option.bind_eq_some_iff, checkedSub_eq_some,
    decide_eq_true_eq]
  constructor
  · rintro ⟨⟨time, htime, hage, _, hmax⟩, hnonneg⟩
    exact ⟨time, htime, hage, hnonneg, hmax⟩
  · rintro ⟨time, htime, hage, hnonneg, hmax⟩
    exact ⟨⟨time, htime, hage, by omega, hmax⟩, hnonneg⟩

lemma freshness_eq_fresh {quote : StoredQuote} {now : ℤ} :
    quote.freshness now = .fresh ↔ quote.configured = true ∧ ∃ time, quote.lastSuccessAtUnix = some time ∧
      time ≤ now ∧ now - time < SOURCE_MAX_AGE_SECONDS := by
  have hmax : (SOURCE_MAX_AGE_SECONDS : ℤ) ≤ i64Max := by decide
  unfold StoredQuote.freshness
  by_cases hconfigured : quote.configured = true
  · simp only [hconfigured, Bool.not_true, Bool.false_eq_true, if_false, true_and]
    cases hlast : quote.lastSuccessAtUnix with
    | none => simp [StoredQuote.ageSeconds, hlast]
    | some time =>
      simp only [Option.any_some, decide_eq_true_eq, Option.some.injEq, exists_eq_left']
      by_cases hfuture : now < time
      · simp only [hfuture, if_true, reduceCtorEq, false_iff]
        omega
      · simp only [hfuture, if_false]
        cases hage : quote.ageSeconds now with
        | none =>
          simp only [reduceCtorEq, false_iff, not_and]
          intro _ hyoung
          have hsome : quote.ageSeconds now = some (now - time) :=
            ageSeconds_eq_some.mpr ⟨time, hlast, rfl, by omega, by omega⟩
          simp [hage] at hsome
        | some age =>
          obtain ⟨time', htime, rfl, _, _⟩ := ageSeconds_eq_some.mp hage
          obtain rfl : time = time' := Option.some.inj (hlast.symm.trans htime)
          dsimp only
          split <;> simp <;> omega
  · simp [hconfigured]

lemma fresh_ageSeconds {quote : StoredQuote} {now : ℤ} (h : quote.freshness now = .fresh) :
    ∃ time, quote.lastSuccessAtUnix = some time ∧ quote.ageSeconds now = some (now - time) := by
  have hmax : (SOURCE_MAX_AGE_SECONDS : ℤ) ≤ i64Max := by decide
  obtain ⟨_, time, hlast, hpast, hyoung⟩ := freshness_eq_fresh.mp h
  exact ⟨time, hlast, ageSeconds_eq_some.mpr ⟨time, hlast, rfl, by omega, by omega⟩⟩

/-- The documented condition of each freshness, with differences of unbounded integers. -/
def DocumentedFreshness (quote : StoredQuote) (now : ℤ) : SourceFreshness → Prop
  | .fresh => (∃ provider : UpstreamSource, provider.name = quote.source) ∧
      ∃ time, quote.lastSuccessAtUnix = some time ∧ 0 ≤ now - time ∧ now - time < 90
  | .future => (∃ provider : UpstreamSource, provider.name = quote.source) ∧
      ∃ time, quote.lastSuccessAtUnix = some time ∧ now < time
  | .stale => (∃ provider : UpstreamSource, provider.name = quote.source) ∧
      ∃ time, quote.lastSuccessAtUnix = some time ∧ 90 ≤ now - time ∧ now - time ≤ i64Max
  | .unknown => (∀ provider : UpstreamSource, provider.name ≠ quote.source) ∨ quote.lastSuccessAtUnix = none ∨
      ∃ time, quote.lastSuccessAtUnix = some time ∧ i64Max < now - time

lemma configured_iff {quote : StoredQuote} :
    quote.configured = true ↔ ∃ provider : UpstreamSource, provider.name = quote.source := by
  simp [StoredQuote.configured]

/-- The chain of branches decides between the four conditions. -/
lemma freshness_documented (quote : StoredQuote) (now : ℤ) : DocumentedFreshness quote now (quote.freshness now) := by
  unfold StoredQuote.freshness
  by_cases hconfigured : quote.configured = true
  · have hprovider := configured_iff.mp hconfigured
    simp only [hconfigured, Bool.not_true, Bool.false_eq_true, if_false]
    cases hlast : quote.lastSuccessAtUnix with
    | none => simp [StoredQuote.ageSeconds, hlast, DocumentedFreshness]
    | some time =>
      simp only [Option.any_some, decide_eq_true_eq]
      split
      · next hfuture => exact ⟨hprovider, time, hlast, hfuture⟩
      · next hpast =>
        cases hage : quote.ageSeconds now with
        | none =>
          refine .inr (.inr ⟨time, hlast, ?_⟩)
          by_contra hfits
          have hsome : quote.ageSeconds now = some (now - time) :=
            ageSeconds_eq_some.mpr ⟨time, hlast, rfl, by omega, by omega⟩
          simp [hage] at hsome
        | some age =>
          obtain ⟨time', htime, rfl, hnonneg, hmax⟩ := ageSeconds_eq_some.mp hage
          dsimp only
          split
          · next hyoung => exact ⟨hprovider, time', htime, hnonneg, hyoung⟩
          · next hold => exact ⟨hprovider, time', htime, not_lt.mp hold, hmax⟩
  · simp only [hconfigured, Bool.not_false, if_true]
    exact .inl fun provider hname => hconfigured (configured_iff.mpr ⟨provider, hname⟩)

lemma DocumentedFreshness.unique {quote : StoredQuote} {now : ℤ} {freshness freshness' : SourceFreshness}
    (h : DocumentedFreshness quote now freshness) (h' : DocumentedFreshness quote now freshness') :
    freshness = freshness' := by
  have hmax : 90 ≤ i64Max := by decide
  cases freshness <;> cases freshness' <;> simp only [DocumentedFreshness] at h h' <;> first | rfl | grind

lemma freshness_iff {quote : StoredQuote} {now : ℤ} {freshness : SourceFreshness} :
    quote.freshness now = freshness ↔ DocumentedFreshness quote now freshness :=
  ⟨fun h => h ▸ freshness_documented quote now, fun h => (freshness_documented quote now).unique h⟩

section MaxByKey

variable {α κ : Type}

lemma newest_congr {κ' : Type} [LT κ] [DecidableLT κ] [LT κ'] [DecidableLT κ'] {key : α → κ} {key' : α → κ'}
    (rest : List α) (first : α) (h : ∀ a ∈ first :: rest, ∀ b ∈ first :: rest, key a < key b ↔ key' a < key' b) :
    rest.foldl (fun best next => if key next < key best then best else next) first =
      rest.foldl (fun best next => if key' next < key' best then best else next) first := by
  induction rest generalizing first with
  | nil => rfl
  | cons next rest ih =>
    have hpair := h next (by simp) first (by simp)
    rw [List.foldl_cons, List.foldl_cons, if_congr hpair rfl rfl]
    refine ih _ fun a ha b hb => ?_
    split at ha <;> exact h a (by simp at ha ⊢; tauto) b (by split at hb <;> simp at hb ⊢ <;> tauto)

lemma maxByKey_congr {κ' : Type} [LT κ] [DecidableLT κ] [LT κ'] [DecidableLT κ'] {key : α → κ} {key' : α → κ'}
    {items : List α} (h : ∀ a ∈ items, ∀ b ∈ items, key a < key b ↔ key' a < key' b) :
    maxByKey key items = maxByKey key' items := by
  cases items with
  | nil => rfl
  | cons first rest => exact congrArg some (newest_congr rest first h)

variable [LinearOrder κ] {key : α → κ}

lemma newest_split (rest : List α) {first a : α}
    (h : rest.foldl (fun best next => if key next < key best then best else next) first = a) :
    ∃ before after, first :: rest = before ++ a :: after ∧ (∀ b ∈ before, key b ≤ key a) ∧
      ∀ b ∈ after, key b < key a := by
  induction rest generalizing first with
  | nil => exact ⟨[], [], by rw [← h]; rfl, by simp, by simp⟩
  | cons next rest ih =>
    rw [List.foldl_cons] at h
    obtain ⟨before, after, hsplit, hbefore, hafter⟩ := ih h
    split at hsplit
    · next hless =>
      -- The first item stays the best one, and the next one is put behind it.
      cases before with
      | nil =>
        obtain ⟨rfl, rfl⟩ := List.cons_eq_cons.mp hsplit
        exact ⟨[], next :: rest, rfl, by simp, by simpa [hless] using hafter⟩
      | cons other before =>
        obtain ⟨rfl, rfl⟩ := List.cons_eq_cons.mp hsplit
        have hfirst := hbefore first List.mem_cons_self
        refine ⟨first :: next :: before, after, rfl, ?_, hafter⟩
        simp only [List.forall_mem_cons] at hbefore ⊢
        exact ⟨hfirst, hless.le.trans hfirst, hbefore.2⟩
    · next hle =>
      have hnext : key next ≤ key a := by
        cases before with
        | nil => exact (congrArg key (List.cons_eq_cons.mp hsplit).1).le
        | cons other before => exact hbefore next (by simp [(List.cons_eq_cons.mp hsplit).1])
      refine ⟨first :: before, after, by rw [hsplit]; rfl, ?_, hafter⟩
      exact List.forall_mem_cons.mpr ⟨(not_lt.mp hle).trans hnext, hbefore⟩

/-- The maximum that is chosen is the last one. -/
lemma maxByKey_split {items : List α} {a : α} (h : maxByKey key items = some a) :
    ∃ before after, items = before ++ a :: after ∧ (∀ b ∈ before, key b ≤ key a) ∧ ∀ b ∈ after, key b < key a := by
  cases items with
  | nil => simp [maxByKey] at h
  | cons first rest => exact newest_split rest (Option.some.inj h)

lemma maxByKey_spec {items : List α} {a : α} (h : maxByKey key items = some a) :
    a ∈ items ∧ ∀ b ∈ items, key b ≤ key a := by
  obtain ⟨before, after, rfl, hbefore, hafter⟩ := maxByKey_split h
  refine ⟨by simp, fun b hb => ?_⟩
  rcases List.mem_append.mp hb with hbef | htail
  · exact hbefore b hbef
  · rcases List.mem_cons.mp htail with rfl | haft
    · exact le_rfl
    · exact (hafter b haft).le

end MaxByKey

/-- The rows of an evaluation. -/
def evaluatedRows (quotes : List StoredQuote) (now : ℤ) : List SourceResponse :=
  (quotes.filter StoredQuote.valid).map fun quote => quote.evaluate now

/-- The rows that may contribute for a provider. -/
def freshRows (quotes : List StoredQuote) (now : ℤ) (provider : UpstreamSource) : List SourceResponse :=
  (evaluatedRows quotes now).filter fun source => source.quote.source = provider.name && source.freshness = .fresh

/-- The observation time of a row that has one. -/
def SourceResponse.observedAt (source : SourceResponse) : ℤ := source.quote.lastSuccessAtUnix.getD 0

/-- A provider has a valid row younger than ninety seconds. -/
def HasFresh (quotes : List StoredQuote) (now : ℤ) (provider : UpstreamSource) : Prop :=
  ∃ quote ∈ quotes, quote.valid = true ∧ quote.source = provider.name ∧
    ∃ time, quote.lastSuccessAtUnix = some time ∧ 0 ≤ now - time ∧ now - time < 90

section Contributors

variable {quotes : List StoredQuote} {now : ℤ} {provider : UpstreamSource}

lemma mem_freshRows {source : SourceResponse} :
    source ∈ freshRows quotes now provider ↔
      source ∈ evaluatedRows quotes now ∧ source.quote.source = provider.name ∧ source.freshness = .fresh := by
  simp [freshRows]

lemma evaluatedRows_freshness {source : SourceResponse} (h : source ∈ evaluatedRows quotes now) :
    source.freshness = source.quote.freshness now ∧ source.ageSeconds = source.quote.ageSeconds now := by
  obtain ⟨quote, _, rfl⟩ := List.mem_map.mp h
  exact ⟨rfl, rfl⟩

lemma freshRows_time {source : SourceResponse} (h : source ∈ freshRows quotes now provider) :
    source.quote.lastSuccessAtUnix = some source.observedAt := by
  obtain ⟨hmem, _, hfresh⟩ := mem_freshRows.mp h
  rw [(evaluatedRows_freshness hmem).1] at hfresh
  obtain ⟨time, htime, _⟩ := fresh_ageSeconds hfresh
  simp [SourceResponse.observedAt, htime]

lemma contributor_newest :
    contributor (evaluatedRows quotes now) provider =
      maxByKey SourceResponse.observedAt (freshRows quotes now provider) := by
  refine maxByKey_congr fun a ha b hb => ?_
  rw [freshRows_time ha, freshRows_time hb]
  exact Option.some_lt_some

lemma freshRows_ne_nil : freshRows quotes now provider ≠ [] ↔ HasFresh quotes now provider := by
  rw [← List.length_pos_iff_ne_nil, List.length_pos_iff_exists_mem]
  constructor
  · rintro ⟨source, hmem⟩
    obtain ⟨hrow, hname, hfresh⟩ := mem_freshRows.mp hmem
    obtain ⟨quote, hquote, rfl⟩ := List.mem_map.mp hrow
    obtain ⟨hin, hvalid⟩ := List.mem_filter.mp hquote
    obtain ⟨_, time, htime, hpast, hyoung⟩ := freshness_iff.mp hfresh
    exact ⟨quote, hin, hvalid, hname, time, htime, hpast, hyoung⟩
  · rintro ⟨quote, hin, hvalid, hname, time, htime, hpast, hyoung⟩
    refine ⟨quote.evaluate now, mem_freshRows.mpr ⟨List.mem_map_of_mem (List.mem_filter.mpr ⟨hin, hvalid⟩), hname, ?_⟩⟩
    exact freshness_iff.mpr ⟨⟨provider, hname.symm⟩, time, htime, hpast, hyoung⟩

lemma contributor_isSome : (contributor (evaluatedRows quotes now) provider).isSome ↔ HasFresh quotes now provider := by
  rw [contributor_newest, ← freshRows_ne_nil]
  cases freshRows quotes now provider <;> simp [maxByKey]

lemma contributor_spec {source : SourceResponse} (h : contributor (evaluatedRows quotes now) provider = some source) :
    source ∈ freshRows quotes now provider ∧
      ∀ other ∈ freshRows quotes now provider, other.observedAt ≤ source.observedAt := by
  rw [contributor_newest] at h
  exact maxByKey_spec h

lemma contributor_source {source : SourceResponse} (h : contributor (evaluatedRows quotes now) provider = some source) :
    source.quote.source = provider.name :=
  (mem_freshRows.mp (contributor_spec h).1).2.1

/-- The contributors of an evaluation, in configured order. -/
def contributors (quotes : List StoredQuote) (now : ℤ) : List SourceResponse :=
  UpstreamSource.all.filterMap (contributor (evaluatedRows quotes now))

lemma mem_contributors {source : SourceResponse} :
    source ∈ contributors quotes now ↔ ∃ provider, contributor (evaluatedRows quotes now) provider = some source := by
  simp [contributors]

lemma contributors_sublist :
    ((contributors quotes now).map fun source => source.quote.source).Sublist
      (UpstreamSource.all.map UpstreamSource.name) := by
  unfold contributors
  generalize UpstreamSource.all = providers
  induction providers with
  | nil => exact .slnil
  | cons provider rest ih =>
    rw [List.filterMap_cons, List.map_cons]
    cases hcontributor : contributor (evaluatedRows quotes now) provider with
    | none => exact ih.cons _
    | some source =>
      dsimp only
      rw [List.map_cons, contributor_source hcontributor]
      exact ih.cons_cons _

lemma contributors_names_nodup : ((contributors quotes now).map fun source => source.quote.source).Nodup :=
  contributors_sublist.nodup (List.Nodup.map UpstreamSource.name_injective UpstreamSource.all_nodup)

lemma name_mem_contributors :
    provider.name ∈ (contributors quotes now).map (fun source => source.quote.source) ↔
      HasFresh quotes now provider := by
  rw [← contributor_isSome, List.mem_map, Option.isSome_iff_exists]
  constructor
  · rintro ⟨source, hmem, hname⟩
    obtain ⟨other, hcontributor⟩ := mem_contributors.mp hmem
    obtain rfl : other = provider := UpstreamSource.name_injective ((contributor_source hcontributor).symm.trans hname)
    exact ⟨source, hcontributor⟩
  · rintro ⟨source, hcontributor⟩
    exact ⟨source, mem_contributors.mpr ⟨provider, hcontributor⟩, contributor_source hcontributor⟩

lemma contributors_eq_nil : contributors quotes now = [] ↔ ¬∃ provider, HasFresh quotes now provider := by
  simp only [← contributor_isSome, contributors, List.filterMap_eq_nil_iff, UpstreamSource.mem_all, true_imp_iff,
    not_exists, Option.not_isSome_iff_eq_none]

lemma contributors_length :
    (contributors quotes now).length = UpstreamSource.all.length ↔ ∀ provider, HasFresh quotes now provider := by
  have hnames : ((contributors quotes now).map fun source => source.quote.source).Sublist
      (UpstreamSource.all.map UpstreamSource.name) := contributors_sublist
  have hlength : ((contributors quotes now).map fun source => source.quote.source).length =
      (UpstreamSource.all.map UpstreamSource.name).length ↔
        (contributors quotes now).map (fun source => source.quote.source) =
          UpstreamSource.all.map UpstreamSource.name :=
    ⟨hnames.eq_of_length, fun heq => by rw [heq]⟩
  rw [List.length_map, List.length_map] at hlength
  rw [hlength]
  constructor
  · intro heq provider
    rw [← name_mem_contributors, heq]
    exact List.mem_map_of_mem (UpstreamSource.mem_all provider)
  · intro hall
    have hsubset : UpstreamSource.all.map UpstreamSource.name ⊆
        (contributors quotes now).map fun source => source.quote.source := by
      intro name hname
      obtain ⟨provider, _, rfl⟩ := List.mem_map.mp hname
      exact name_mem_contributors.mpr (hall provider)
    have hdistinct := List.Nodup.map UpstreamSource.name_injective UpstreamSource.all_nodup
    exact hnames.eq_of_length_le (hdistinct.subperm hsubset).length_le

end Contributors

/-- Every configured provider has a record of a success. -/
def AllSucceeded (health : List ProviderHealth) : Prop :=
  ∀ provider : UpstreamSource, ∃ record ∈ health, record.source = provider.name ∧
    ∃ attemptedAt, record.lastAttempt = .success attemptedAt

lemma allHealthy_iff {health : List ProviderHealth} : allHealthy health = true ↔ AllSucceeded health := by
  simp only [allHealthy, List.all_eq_true, UpstreamSource.mem_all, true_imp_iff, List.any_eq_true, Bool.and_eq_true,
    decide_eq_true_eq, AllSucceeded]
  refine forall_congr' fun provider => exists_congr fun record => and_congr_right fun _ => and_congr_right fun _ => ?_
  cases record.lastAttempt <;> simp

/-- The documented condition of each status. -/
def DocumentedStatus (quotes : List StoredQuote) (health : List ProviderHealth) (now : ℤ) : PriceStatus → Prop
  | .live => (∀ provider, HasFresh quotes now provider) ∧ AllSucceeded health
  | .degraded => (∃ provider, HasFresh quotes now provider) ∧
      ¬((∀ provider, HasFresh quotes now provider) ∧ AllSucceeded health)
  | .stale => (¬∃ provider, HasFresh quotes now provider) ∧ ∃ quote ∈ quotes, quote.valid = true
  | .unavailable => ¬∃ quote ∈ quotes, quote.valid = true

lemma HasFresh.valid {quotes : List StoredQuote} {now : ℤ} {provider : UpstreamSource}
    (h : HasFresh quotes now provider) : ∃ quote ∈ quotes, quote.valid = true := by
  obtain ⟨quote, hmem, hvalid, _⟩ := h
  exact ⟨quote, hmem, hvalid⟩

lemma evaluatedRows_isEmpty {quotes : List StoredQuote} {now : ℤ} :
    (evaluatedRows quotes now).isEmpty = true ↔ ¬∃ quote ∈ quotes, quote.valid = true := by
  simp [evaluatedRows]

lemma status_documented (quotes : List StoredQuote) (health : List ProviderHealth) (now : ℤ) :
    DocumentedStatus quotes health now (evaluateQuotes quotes health now).status := by
  change DocumentedStatus quotes health now
    (if (contributors quotes now).length = UpstreamSource.all.length && allHealthy health then .live
      else if !(contributors quotes now).isEmpty then .degraded
      else if !(evaluatedRows quotes now).isEmpty then .stale
      else .unavailable)
  have hall : ((contributors quotes now).length = UpstreamSource.all.length && allHealthy health) = true ↔
      (∀ provider, HasFresh quotes now provider) ∧ AllSucceeded health := by
    rw [Bool.and_eq_true, decide_eq_true_eq, contributors_length, allHealthy_iff]
  have hsome : (!(contributors quotes now).isEmpty) = true ↔ ∃ provider, HasFresh quotes now provider := by
    rw [Bool.not_eq_true', ← Bool.not_eq_true, List.isEmpty_iff, contributors_eq_nil, not_not]
  have hrows : (!(evaluatedRows quotes now).isEmpty) = true ↔ ∃ quote ∈ quotes, quote.valid = true := by
    rw [Bool.not_eq_true', ← Bool.not_eq_true, evaluatedRows_isEmpty, not_not]
  split
  · next hlive => exact hall.mp hlive
  · next hlive =>
    split
    · next hdegraded => exact ⟨hsome.mp hdegraded, fun h => hlive (hall.mpr h)⟩
    · next hdegraded =>
      split
      · next hstale => exact ⟨fun h => hdegraded (hsome.mpr h), hrows.mp hstale⟩
      · next hstale => exact fun h => hstale (hrows.mpr h)

lemma DocumentedStatus.unique {quotes : List StoredQuote} {health : List ProviderHealth} {now : ℤ}
    {status status' : PriceStatus} (h : DocumentedStatus quotes health now status)
    (h' : DocumentedStatus quotes health now status') : status = status' := by
  have hvalid : (∃ provider, HasFresh quotes now provider) → ∃ quote ∈ quotes, quote.valid = true :=
    fun ⟨_, hfresh⟩ => hfresh.valid
  have hall : (∀ provider, HasFresh quotes now provider) → ∃ provider, HasFresh quotes now provider :=
    fun hall => ⟨.coinGecko, hall _⟩
  cases status <;> cases status' <;> simp only [DocumentedStatus] at h h' <;>
    generalize (∃ provider, HasFresh quotes now provider) = fresh at * <;>
    generalize (∀ provider, HasFresh quotes now provider) = every at * <;>
    generalize (∃ quote ∈ quotes, quote.valid = true) = rows at * <;> first | rfl | tauto

/-- The evaluation is the documented one, for any rows, records and time. -/
theorem evaluate_quotes_law (quotes : List StoredQuote) (health : List ProviderHealth) (now : ℤ) :
    let evaluation := evaluateQuotes quotes health now
    evaluation.sources.map SourceResponse.quote = quotes.filter StoredQuote.valid ∧
    (∀ row ∈ evaluation.sources,
      (∀ freshness, row.freshness = freshness ↔ DocumentedFreshness row.quote now freshness) ∧
      ∀ age, row.ageSeconds = some age ↔
        ∃ time, row.quote.lastSuccessAtUnix = some time ∧ age = now - time ∧ 0 ≤ age ∧ age ≤ i64Max) ∧
    (∃ contributors : List SourceResponse,
      (contributors.map fun row => row.quote.source).Sublist (UpstreamSource.all.map UpstreamSource.name) ∧
      (∀ provider : UpstreamSource,
        provider.name ∈ contributors.map (fun row => row.quote.source) ↔ HasFresh quotes now provider) ∧
      (∀ row ∈ contributors, row ∈ evaluation.sources ∧ row.freshness = .fresh ∧
        ∃ newest, row.quote.lastSuccessAtUnix = some newest ∧
          ∀ other ∈ evaluation.sources, other.quote.source = row.quote.source → other.freshness = .fresh →
            ∃ time ≤ newest, other.quote.lastSuccessAtUnix = some time) ∧
      evaluation.coverage = ⟨4, contributors.length, contributors.map fun row => row.quote.source⟩ ∧
      evaluation.coverage.contributingSources.Nodup ∧
      evaluation.averagePrice = averageOf (contributors.map fun row => row.quote.priceUsd) ∧
      (evaluation.averagePrice.isSome ↔ contributors ≠ []) ∧ (evaluation.spread.isSome ↔ contributors ≠ [])) ∧
    ∀ status, evaluation.status = status ↔ DocumentedStatus quotes health now status := by
  intro evaluation
  have hsources : evaluation.sources = evaluatedRows quotes now := rfl
  refine ⟨?_, fun row hrow => ?_, ⟨contributors quotes now, contributors_sublist, fun _ => name_mem_contributors,
    fun row hrow => ?_, rfl, contributors_names_nodup, rfl, ?_, ?_⟩, fun status => ?_⟩
  · rw [hsources, evaluatedRows, List.map_map]
    exact List.map_id _
  · obtain ⟨hfreshness, hage⟩ := evaluatedRows_freshness hrow
    rw [hfreshness, hage]
    exact ⟨fun _ => freshness_iff, fun _ => ageSeconds_eq_some⟩
  · obtain ⟨provider, hcontributor⟩ := mem_contributors.mp hrow
    obtain ⟨hfresh, hnewest⟩ := contributor_spec hcontributor
    obtain ⟨hmem, hname, hstill⟩ := mem_freshRows.mp hfresh
    refine ⟨hmem, hstill, _, freshRows_time hfresh, fun other hother hsame hotherFresh => ?_⟩
    have hothers : other ∈ freshRows quotes now provider :=
      mem_freshRows.mpr ⟨hother, hsame.trans hname, hotherFresh⟩
    exact ⟨_, hnewest other hothers, freshRows_time hothers⟩
  · change (averageOf ((contributors quotes now).map fun row => row.quote.priceUsd)).isSome ↔ _
    cases contributors quotes now <;> simp [averageOf]
  · change ((averageOf ((contributors quotes now).map fun row => row.quote.priceUsd)).map _).isSome ↔ _
    cases contributors quotes now <;> simp [averageOf]
  · exact ⟨fun h => h ▸ status_documented quotes health now,
      fun h => (status_documented quotes health now).unique h⟩

/-- An old row, one of an unknown provider and one from the future do not contribute. -/
example : ((evaluateQuotes [⟨"Kraken", .finite 5, some 10, .lastTrade⟩, ⟨"Zaif", .finite 7, some 99, .unknown⟩,
    ⟨"Gemini", .finite 6, some 101, .bid⟩] [] 100).status,
    (evaluateQuotes [⟨"Kraken", .finite 5, some 10, .lastTrade⟩, ⟨"Zaif", .finite 7, some 99, .unknown⟩,
      ⟨"Gemini", .finite 6, some 101, .bid⟩] [] 100).sources.map SourceResponse.freshness) =
    (.stale, [.stale, .unknown, .future]) := by decide

end BitcoinPriceTracker

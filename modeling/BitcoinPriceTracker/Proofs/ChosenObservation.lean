import BitcoinPriceTracker.Proofs.LocalAgeing
import BitcoinPriceTracker.Proofs.MergedSources

namespace BitcoinPriceTracker

/-- A valid row of a provider with a time of the last ninety seconds. -/
structure FreshRow (quotes : List StoredQuote) (now : ℤ) (provider : UpstreamSource) (quote : StoredQuote) (time : ℤ) :
    Prop where
  mem : quote ∈ quotes
  valid : quote.valid = true
  source : quote.source = provider.name
  time_eq : quote.lastSuccessAtUnix = some time
  past : 0 ≤ now - time
  young : now - time < 90

/-- A fresh row of a provider that none is newer than. -/
structure NewestRow (quotes : List StoredQuote) (now : ℤ) (provider : UpstreamSource) (quote : StoredQuote)
    (time : ℤ) : Prop extends FreshRow quotes now provider quote time where
  newest : ∀ {other time'}, FreshRow quotes now provider other time' → time' ≤ time

/-- The last valid row of a source. -/
def lastValid (quotes : List StoredQuote) (name : String) : Option StoredQuote :=
  (quotes.filter StoredQuote.valid).reverse.find? fun quote => quote.source = name

/-- For every provider with a fresh row, the newest ones have one price and the last valid row is as new. -/
def OneNewest (quotes : List StoredQuote) (now : ℤ) : Prop :=
  ∀ provider quote time, NewestRow quotes now provider quote time →
    (∀ other, NewestRow quotes now provider other time → other.priceUsd = quote.priceUsd) ∧
      ∀ last, lastValid quotes provider.name = some last → last.lastSuccessAtUnix = some time

/-- What a provider contributes to the aggregate: a price and its observation time. -/
def contribution (quotes : List StoredQuote) (now : ℤ) (provider : UpstreamSource) : Option (F64 × ℤ) :=
  (contributor (evaluatedRows quotes now) provider).map fun row => (row.quote.priceUsd, row.observedAt)

section Rows

variable {quotes : List StoredQuote} {now : ℤ} {provider : UpstreamSource}

lemma FreshRow.perm {quotes' : List StoredQuote} {quote : StoredQuote} {time : ℤ}
    (h : FreshRow quotes now provider quote time) (hperm : quotes.Perm quotes') :
    FreshRow quotes' now provider quote time :=
  { h with mem := hperm.mem_iff.mp h.mem }

lemma NewestRow.perm {quotes' : List StoredQuote} {quote : StoredQuote} {time : ℤ}
    (h : NewestRow quotes now provider quote time) (hperm : quotes.Perm quotes') :
    NewestRow quotes' now provider quote time :=
  ⟨h.toFreshRow.perm hperm, fun hother => h.newest (hother.perm hperm.symm)⟩

lemma FreshRow.freshness {quote : StoredQuote} {time : ℤ} (h : FreshRow quotes now provider quote time) :
    quote.freshness now = .fresh :=
  freshness_iff.mpr ⟨⟨provider, h.source.symm⟩, time, h.time_eq, h.past, h.young⟩

lemma FreshRow.row {quote : StoredQuote} {time : ℤ} (h : FreshRow quotes now provider quote time) :
    quote.evaluate now ∈ freshRows quotes now provider ∧ (quote.evaluate now).observedAt = time :=
  ⟨mem_freshRows.mpr ⟨List.mem_map_of_mem (List.mem_filter.mpr ⟨h.mem, h.valid⟩), h.source, h.freshness⟩,
    by simp [SourceResponse.observedAt, StoredQuote.evaluate, h.time_eq]⟩

lemma freshRow_of_mem {row : SourceResponse} (h : row ∈ freshRows quotes now provider) :
    row = row.quote.evaluate now ∧ FreshRow quotes now provider row.quote row.observedAt := by
  have htime := freshRows_time h
  obtain ⟨hrow, hsource, hfresh⟩ := mem_freshRows.mp h
  obtain ⟨quote, hquote, rfl⟩ := List.mem_map.mp hrow
  obtain ⟨hmem, hvalid⟩ := List.mem_filter.mp hquote
  obtain ⟨_, time, hlast, hpast, hyoung⟩ := freshness_iff.mp hfresh
  have hobserved : (quote.evaluate now).observedAt = time := by
    simp [SourceResponse.observedAt, StoredQuote.evaluate, hlast]
  rw [hobserved]
  exact ⟨rfl, hmem, hvalid, hsource, hlast, hpast, hyoung⟩

lemma contributor_newestRow {row : SourceResponse} (h : contributor (evaluatedRows quotes now) provider = some row) :
    row = row.quote.evaluate now ∧ NewestRow quotes now provider row.quote row.observedAt := by
  obtain ⟨hmem, hnewest⟩ := contributor_spec h
  obtain ⟨hrow, hfresh⟩ := freshRow_of_mem hmem
  refine ⟨hrow, hfresh, fun hother => ?_⟩
  obtain ⟨hin, hobserved⟩ := hother.row
  exact hobserved ▸ hnewest _ hin

lemma contribution_newest {price : F64} {time : ℤ} (h : contribution quotes now provider = some (price, time)) :
    ∃ quote, NewestRow quotes now provider quote time ∧ quote.priceUsd = price := by
  obtain ⟨row, hrow, hpair⟩ := Option.map_eq_some_iff.mp h
  obtain ⟨rfl, rfl⟩ := Prod.mk.inj hpair
  exact ⟨row.quote, (contributor_newestRow hrow).2, rfl⟩

lemma FreshRow.contribution {quote : StoredQuote} {time : ℤ} (h : FreshRow quotes now provider quote time) :
    ∃ price newest, contribution quotes now provider = some (price, newest) := by
  have hsome : (contributor (evaluatedRows quotes now) provider).isSome :=
    contributor_isSome.mpr ⟨quote, h.mem, h.valid, h.source, time, h.time_eq, h.past, h.young⟩
  obtain ⟨row, hrow⟩ := Option.isSome_iff_exists.mp hsome
  exact ⟨_, _, congrArg (Option.map _) hrow⟩

lemma NewestRow.contribution_time {quote : StoredQuote} {time : ℤ} (h : NewestRow quotes now provider quote time) :
    ∃ price, BitcoinPriceTracker.contribution quotes now provider = some (price, time) := by
  obtain ⟨price, newest, hcontribution⟩ := h.toFreshRow.contribution
  obtain ⟨other, hother, _⟩ := contribution_newest hcontribution
  obtain rfl : newest = time := le_antisymm (h.newest hother.toFreshRow) (hother.newest h.toFreshRow)
  exact ⟨price, hcontribution⟩

lemma NewestRow.contribution_eq {quote : StoredQuote} {time : ℤ} (h : NewestRow quotes now provider quote time)
    (hprice : ∀ other, NewestRow quotes now provider other time → other.priceUsd = quote.priceUsd) :
    BitcoinPriceTracker.contribution quotes now provider = some (quote.priceUsd, time) := by
  obtain ⟨price, hcontribution⟩ := h.contribution_time
  obtain ⟨other, hother, rfl⟩ := contribution_newest hcontribution
  rw [hcontribution, hprice other hother]

lemma NewestRow.contribution_last {before : List StoredQuote} {quote : StoredQuote} {time : ℤ}
    (h : NewestRow (before ++ [quote]) now provider quote time) :
    BitcoinPriceTracker.contribution (before ++ [quote]) now provider = some (quote.priceUsd, time) := by
  obtain ⟨row, hrow⟩ := Option.isSome_iff_exists.mp (contributor_isSome.mpr
    ⟨quote, h.mem, h.valid, h.source, time, h.time_eq, h.past, h.young⟩)
  obtain ⟨hin, hobserved⟩ := h.row
  have hrows : freshRows (before ++ [quote]) now provider =
      freshRows before now provider ++ [quote.evaluate now] := by
    have hlast : [quote].filter StoredQuote.valid = [quote] := by simp [h.valid]
    have hkept : [quote.evaluate now].filter (fun source => source.quote.source = provider.name &&
        source.freshness = .fresh) = [quote.evaluate now] := by
      simp [StoredQuote.evaluate, h.source, h.freshness]
    simp only [freshRows, evaluatedRows, List.filter_append, List.map_append, hlast, List.map_singleton, hkept]
  obtain ⟨_, hnewest⟩ := contributor_newestRow hrow
  have hmaximum := hrow
  rw [contributor_newest, hrows] at hmaximum
  obtain ⟨left, right, hsplit, _, hright⟩ := maxByKey_split hmaximum
  have hlast : right = [] := by
    rcases List.eq_nil_or_concat right with hnil | ⟨init, last, rfl⟩
    · exact hnil
    · have hend : quote.evaluate now = last := by
        rw [List.concat_eq_append, ← List.cons_append, ← List.append_assoc] at hsplit
        exact List.singleton_injective (List.append_inj_right' hsplit rfl)
      have hless := hright last (by simp)
      rw [← hend, hobserved] at hless
      exact absurd (h.newest hnewest.toFreshRow) (not_le.mpr hless)
  have hchosen : row = quote.evaluate now := by
    rw [hlast] at hsplit
    exact (List.singleton_injective (List.append_inj_right' hsplit rfl)).symm
  rw [contribution, hrow, hchosen, Option.map_some, hobserved]
  rfl

end Rows

section Permuted

variable {quotes : List StoredQuote} {now : ℤ}

lemma contributors_prices : (contributors quotes now).map (fun row => row.quote.priceUsd) =
    UpstreamSource.all.filterMap fun provider => (contribution quotes now provider).map Prod.fst := by
  rw [contributors, List.map_filterMap]
  refine List.filterMap_congr fun provider _ => ?_
  rw [contribution, Option.map_map]
  rfl

/-- The same contributors, average and spread. -/
def SameAggregate (quotes quotes' : List StoredQuote) (now : ℤ) : Prop :=
  (∀ provider, contribution quotes' now provider = contribution quotes now provider) ∧
    ∀ health, (evaluateQuotes quotes' health now).averagePrice = (evaluateQuotes quotes health now).averagePrice ∧
      (evaluateQuotes quotes' health now).spread = (evaluateQuotes quotes health now).spread

lemma sameAggregate_of_contributions {quotes' : List StoredQuote}
    (h : ∀ provider, contribution quotes' now provider = contribution quotes now provider) :
    SameAggregate quotes quotes' now := by
  have hprices : (contributors quotes' now).map (fun row => row.quote.priceUsd) =
      (contributors quotes now).map fun row => row.quote.priceUsd := by
    rw [contributors_prices, contributors_prices]
    exact List.filterMap_congr fun provider _ => by rw [h]
  exact ⟨h, fun health => ⟨congrArg averageOf hprices,
    congrArg (fun prices => (averageOf prices).map fun _ => spreadOf prices) hprices⟩⟩

lemma contribution_perm {quotes' : List StoredQuote} (hperm : quotes'.Perm quotes) {provider : UpstreamSource}
    (h : ∀ quote time, NewestRow quotes now provider quote time →
      ∀ other, NewestRow quotes now provider other time → other.priceUsd = quote.priceUsd) :
    contribution quotes' now provider = contribution quotes now provider := by
  cases hcontribution : contribution quotes' now provider with
  | some chosen =>
    obtain ⟨quote, hnewest, hprice⟩ := contribution_newest hcontribution
    have hrow := hnewest.perm hperm
    rw [hrow.contribution_eq (h quote chosen.2 hrow), hprice]
  | none =>
    cases hother : contribution quotes now provider with
    | none => rfl
    | some chosen =>
      obtain ⟨quote, hnewest, _⟩ := contribution_newest hother
      obtain ⟨price, htime⟩ := (hnewest.perm hperm.symm).contribution_time
      simp [hcontribution] at htime

/-- Rows in another order contribute the same only where the newest ones have one price. -/
lemma one_price_of_perm {provider : UpstreamSource}
    (h : ∀ quotes' : List StoredQuote, quotes'.Perm quotes →
      contribution quotes' now provider = contribution quotes now provider) {quote other : StoredQuote} {time : ℤ}
    (hquote : NewestRow quotes now provider quote time) (hother : NewestRow quotes now provider other time) :
    other.priceUsd = quote.priceUsd := by
  have hchosen : ∀ row, NewestRow quotes now provider row time →
      contribution quotes now provider = some (row.priceUsd, time) := by
    intro row hrow
    have hperm : (quotes.erase row ++ [row]).Perm quotes :=
      (List.perm_append_singleton _ _).trans (List.perm_cons_erase hrow.mem).symm
    rw [← h _ hperm]
    exact (hrow.perm hperm.symm).contribution_last
  have hboth := (hchosen other hother).symm.trans (hchosen quote hquote)
  exact (Prod.mk.inj (Option.some.inj hboth)).1

end Permuted

section Merged

variable {P : Platform} {latest : Option SnapshotRecord} {refreshed : List StoredQuote} {now : ℤ}
  {provider : UpstreamSource}

lemma lastValid_spec {quotes : List StoredQuote} {name : String} {quote : StoredQuote}
    (h : lastValid quotes name = some quote) : quote ∈ quotes ∧ quote.valid = true ∧ quote.source = name := by
  have hmem := List.mem_of_find?_eq_some h
  rw [List.mem_reverse, List.mem_filter] at hmem
  exact ⟨hmem.1, hmem.2, by simpa using List.find?_some h⟩

lemma mem_merged_other (h : provider.name ∉ refreshed.map StoredQuote.source) {quote : StoredQuote}
    (hsource : quote.source = provider.name) :
    quote ∈ mergeSnapshotSources P latest refreshed ↔
      lastValid (storedRows latest) provider.name = some quote := by
  have hnone : (refreshed.reverse.find? fun other => other.source = provider.name) = none := by
    simpa [List.find?_eq_none] using h
  rw [mem_mergeSnapshotSources, hsource, mergedPrices, Keyed.get?_foldl_put, hnone, Option.none_or,
    retainedQuotes_last]
  rfl

lemma freshRow_merged (h : provider.name ∉ refreshed.map StoredQuote.source) {quote : StoredQuote} {time : ℤ} :
    FreshRow (mergeSnapshotSources P latest refreshed) now provider quote time ↔
      lastValid (storedRows latest) provider.name = some quote ∧
        FreshRow (storedRows latest) now provider quote time := by
  constructor
  · intro hrow
    have hlast := (mem_merged_other h hrow.source).mp hrow.mem
    exact ⟨hlast, { hrow with mem := (lastValid_spec hlast).1 }⟩
  · rintro ⟨hlast, hrow⟩
    exact { hrow with mem := (mem_merged_other h hrow.source).mpr hlast }

/-- A merge that changes no contribution keeps a row as new as the newest. -/
lemma last_of_same_contribution (h : provider.name ∉ refreshed.map StoredQuote.source)
    (hsame : contribution (mergeSnapshotSources P latest refreshed) now provider =
      contribution (storedRows latest) now provider) {quote last : StoredQuote} {time : ℤ}
    (hnewest : NewestRow (storedRows latest) now provider quote time)
    (hlast : lastValid (storedRows latest) provider.name = some last) : last.lastSuccessAtUnix = some time := by
  obtain ⟨price, htime⟩ := hnewest.contribution_time
  obtain ⟨kept, hkept, _⟩ := contribution_newest (hsame.trans htime)
  obtain rfl : last = kept := Option.some.inj (hlast.symm.trans ((freshRow_merged h).mp hkept.toFreshRow).1)
  exact hkept.time_eq

lemma contribution_merged (h : provider.name ∉ refreshed.map StoredQuote.source)
    (hone : OneNewest (storedRows latest) now) :
    contribution (mergeSnapshotSources P latest refreshed) now provider =
      contribution (storedRows latest) now provider := by
  cases hcontribution : contribution (storedRows latest) now provider with
  | none =>
    cases hmerged : contribution (mergeSnapshotSources P latest refreshed) now provider with
    | none => rfl
    | some chosen =>
      obtain ⟨kept, hkept, _⟩ := contribution_newest hmerged
      obtain ⟨price, newest, hsome⟩ := ((freshRow_merged h).mp hkept.toFreshRow).2.contribution
      simp [hcontribution] at hsome
  | some chosen =>
    obtain ⟨quote, hnewest, hprice⟩ := contribution_newest hcontribution
    obtain ⟨hprices, hlasts⟩ := hone provider quote chosen.2 hnewest
    obtain ⟨last, hlast⟩ : ∃ last, lastValid (storedRows latest) provider.name = some last := by
      rw [← Option.isSome_iff_exists, lastValid, List.find?_isSome]
      exact ⟨quote, by simp [hnewest.mem, hnewest.valid], by simpa using hnewest.source⟩
    obtain ⟨hmem, hvalid, hsource⟩ := lastValid_spec hlast
    have hfresh : FreshRow (storedRows latest) now provider last chosen.2 :=
      ⟨hmem, hvalid, hsource, hlasts last hlast, hnewest.past, hnewest.young⟩
    have hkept : NewestRow (mergeSnapshotSources P latest refreshed) now provider last chosen.2 :=
      ⟨(freshRow_merged h).mpr ⟨hlast, hfresh⟩,
        fun hother => hnewest.newest ((freshRow_merged h).mp hother).2⟩
    rw [hkept.contribution_eq, hprices last ⟨hfresh, hnewest.newest⟩, hprice]
    intro other hother
    rw [Option.some.inj (((freshRow_merged h).mp hother.toFreshRow).1.symm.trans hlast)]

end Merged

section Shown

variable {quotes : List StoredQuote} {now elapsed : ℤ}

instance : Std.Total ageLe := ⟨fun left right => le_total (left.age.getD 0) (right.age.getD 0)⟩

instance : IsTrans AgedSource ageLe := ⟨fun _ _ _ => le_trans⟩

lemma youngest_spec {sources : List AgedSource} {aged : AgedSource}
    (h : (sources.insertionSort ageLe).head? = some aged) : aged ∈ sources ∧ ∀ other ∈ sources, ageLe aged other := by
  have hsorted := List.pairwise_insertionSort ageLe sources
  obtain ⟨rest, hrest⟩ := List.head?_eq_some_iff.mp h
  rw [hrest, List.pairwise_cons] at hsorted
  have hmem : ∀ other, other ∈ sources ↔ other = aged ∨ other ∈ rest := by
    intro other
    rw [← List.mem_insertionSort ageLe, hrest, List.mem_cons]
  refine ⟨(hmem aged).mpr (.inl rfl), fun other hother => ?_⟩
  rcases (hmem other).mp hother with rfl | hlater
  · exact le_rfl
  · exact hsorted.1 other hlater

/-- The rows of a name that the dashboard still counts as fresh. -/
def shownRows (quotes : List StoredQuote) (now elapsed : ℤ) (name : String) : List AgedSource :=
  ((quotes.filter StoredQuote.valid).map fun quote => quote.aged now elapsed).filter fun aged =>
    aged.source.source = name && aged.currentFreshness = "fresh"

lemma mem_shownRows {provider : UpstreamSource} {aged : AgedSource} :
    aged ∈ shownRows quotes now elapsed provider.name ↔
      ∃ quote time, FreshRow quotes now provider quote time ∧ now + elapsed - time < 90 ∧
        quote.aged now elapsed = aged := by
  have hage : (SOURCE_MAX_AGE_SECONDS : ℤ) = 90 := rfl
  simp only [shownRows, List.mem_filter, List.mem_map, Bool.and_eq_true, decide_eq_true_eq]
  constructor
  · rintro ⟨⟨quote, ⟨hmem, hvalid⟩, rfl⟩, hname, hfresh⟩
    obtain ⟨hfreshness, time, htime, hyoung⟩ := stillFresh_iff.mp (decide_eq_true hfresh)
    obtain ⟨_, time', htime', hpast, hnow⟩ := freshness_iff.mp hfreshness
    obtain rfl : time = time' := Option.some.inj (htime.symm.trans htime')
    exact ⟨quote, time, ⟨hmem, hvalid, hname, htime, hpast, hnow⟩, hage ▸ hyoung, rfl⟩
  · rintro ⟨quote, time, hrow, hyoung, rfl⟩
    refine ⟨⟨quote, ⟨hrow.mem, hrow.valid⟩, rfl⟩, hrow.source, ?_⟩
    exact of_decide_eq_true (stillFresh_iff.mpr ⟨hrow.freshness, time, hrow.time_eq, hage ▸ hyoung⟩)

lemma FreshRow.age {provider : UpstreamSource} {quote : StoredQuote} {time : ℤ}
    (h : FreshRow quotes now provider quote time) :
    (quote.aged now elapsed).age = some ((now - time + elapsed : ℤ) : ℚ) := by
  obtain ⟨time', htime, hage⟩ := fresh_ageSeconds h.freshness
  obtain rfl : time' = time := Option.some.inj (htime.symm.trans h.time_eq)
  simp [StoredQuote.aged, DashboardSource.advance, SourceResponse.received, StoredQuote.evaluate, hage]

lemma FreshRow.received_eq {provider : UpstreamSource} {quote other : StoredQuote} {time : ℤ}
    (h : FreshRow quotes now provider quote time) (hother : FreshRow quotes now provider other time)
    (hprice : other.priceUsd = quote.priceUsd) : (other.evaluate now).received = (quote.evaluate now).received := by
  have hage : ∀ row, FreshRow quotes now provider row time → row.ageSeconds now = some (now - time) := by
    intro row hrow
    obtain ⟨time', htime, hrowAge⟩ := fresh_ageSeconds hrow.freshness
    obtain rfl : time' = time := Option.some.inj (htime.symm.trans hrow.time_eq)
    exact hrowAge
  simp only [SourceResponse.received, StoredQuote.evaluate, h.source, hother.source, hprice, hage quote h,
    hage other hother, h.freshness, hother.freshness]

lemma shown_contributor (elapsed : ℤ) {provider : UpstreamSource} {quote : StoredQuote} {time : ℤ}
    (h : NewestRow quotes now provider quote time)
    (hprices : ∀ other, NewestRow quotes now provider other time → other.priceUsd = quote.priceUsd) :
    (((shownRows quotes now elapsed provider.name).insertionSort ageLe).head?).map AgedSource.source =
      if now + elapsed - time < 90 then some (quote.evaluate now).received else none := by
  cases hhead : ((shownRows quotes now elapsed provider.name).insertionSort ageLe).head? with
  | none =>
    have hnil : shownRows quotes now elapsed provider.name = [] := by
      have hlength := List.length_insertionSort ageLe (shownRows quotes now elapsed provider.name)
      rw [List.head?_eq_none_iff.mp hhead] at hlength
      exact List.length_eq_zero_iff.mp hlength.symm
    rw [if_neg]
    · rfl
    · intro hyoung
      have hmem := mem_shownRows.mpr ⟨quote, time, h.toFreshRow, hyoung, rfl⟩
      rw [hnil] at hmem
      simp at hmem
  | some aged =>
    obtain ⟨hmem, hyoungest⟩ := youngest_spec hhead
    obtain ⟨other, time', hother, hyoung, rfl⟩ := mem_shownRows.mp hmem
    have hle := h.newest hother
    have hquote : now + elapsed - time < 90 := by omega
    -- The newest row is shown as well, so the one at the head is not older.
    have hage := hyoungest _ (mem_shownRows.mpr ⟨quote, time, h.toFreshRow, hquote, rfl⟩)
    rw [ageLe, hother.age, h.toFreshRow.age] at hage
    simp only [Option.getD_some] at hage
    have hcast : now - time' + elapsed ≤ now - time + elapsed := by exact_mod_cast hage
    obtain rfl : time' = time := by omega
    rw [if_pos hquote, Option.map_some]
    exact congrArg some (h.toFreshRow.received_eq hother (hprices other ⟨hother, h.newest⟩))

lemma render_contributors {page : Dashboard} {data : DashboardData} (hrunning : page.running = true)
    (hdata : page.lastData = some data) (time : ℚ) :
    ∃ view, page.render time = some view ∧ view.contributors = shownContributors data
      (data.sources.map fun source => source.advance (page.elapsed time) data.sourceMaxAgeSeconds) := by
  rw [Dashboard.render, hrunning, hdata]
  exact ⟨_, rfl, rfl⟩

lemma shownContributors_received (elapsed : ℤ) {data : DashboardData}
    (hnames : data.contributingSources = (contributors quotes now).map fun row => row.quote.source)
    (hprices : ∀ provider quote time, NewestRow quotes now provider quote time →
      ∀ other, NewestRow quotes now provider other time → other.priceUsd = quote.priceUsd) :
    (shownContributors data ((quotes.filter StoredQuote.valid).map fun quote => quote.aged now elapsed)).map
        AgedSource.source =
      ((contributors quotes now).filter fun row => now + elapsed - row.observedAt < 90).map
        SourceResponse.received := by
  have hkept : ((contributors quotes now).filter fun row => now + elapsed - row.observedAt < 90).map
      SourceResponse.received = (contributors quotes now).filterMap fun row =>
        (Option.guard (fun row => now + elapsed - row.observedAt < 90) row).map SourceResponse.received := by
    rw [← List.filterMap_eq_filter, List.map_filterMap]
  rw [shownContributors, hnames, List.filterMap_map, List.map_filterMap, hkept]
  refine List.filterMap_congr fun row hrow => ?_
  obtain ⟨provider, hcontributor⟩ := mem_contributors.mp hrow
  obtain ⟨heq, hnewest⟩ := contributor_newestRow hcontributor
  have hshown := shown_contributor elapsed hnewest (hprices provider _ _ hnewest)
  rw [← heq, ← hnewest.source] at hshown
  refine hshown.trans ?_
  by_cases hyoung : now + elapsed - row.observedAt < 90 <;> simp [Option.guard, hyoung]

end Shown

section Response

variable (snapshot : SnapshotRecord) (health : List ProviderHealth) (context : ReadContext) (now : ℤ)

lemma validate_priceResponse :
    validate (priceResponse (.ok ⟨some snapshot, health⟩) context now).2.toJson =
      some (priceResponse (.ok ⟨some snapshot, health⟩) context now).2.received := by
  refine validate_toJson ?_ contributors_names_nodup ?_ ?_ ?_
  · intro source hsource
    obtain ⟨quote, hquote, rfl⟩ := List.mem_map.mp hsource
    exact validateSource_evaluate (List.mem_filter.mp hquote).2 now
  · exact contributors_sublist.length_le
  · change 1 ≤ UpstreamSource.all.length
    decide
  · change 0 < SOURCE_MAX_AGE_SECONDS
    decide

lemma pollPrice_priceResponse :
    pollPrice (priceResponse (.ok ⟨some snapshot, health⟩) context now).1
        (priceResponse (.ok ⟨some snapshot, health⟩) context now).2.toJson =
      some (priceResponse (.ok ⟨some snapshot, health⟩) context now).2.received := by
  rw [pollPrice, validate_priceResponse]
  rcases priceResponse_code (.ok ⟨some snapshot, health⟩) context now with ⟨⟨e, hfailed⟩, _⟩ | ⟨_, hcode⟩
  · simp at hfailed
  split at hcode
  · next hempty =>
    have hnone : ¬∃ quote ∈ snapshot.sources, quote.valid = true := evaluatedRows_isEmpty.mp hempty
    have hunavailable : (evaluateQuotes snapshot.sources health now).status = .unavailable :=
      (status_documented _ _ _).unique hnone
    have hstatus : (priceResponse (.ok ⟨some snapshot, health⟩) context now).2.status = .unavailable := by
      change (if !context.report.errors.isEmpty && (evaluateQuotes snapshot.sources health now).status = .live
        then PriceStatus.degraded else (evaluateQuotes snapshot.sources health now).status) = _
      simp [hunavailable]
    simp [hcode, PriceResponse.received, hstatus, PriceStatus.text]
  · simp [hcode]

end Response

/-- The same observation is chosen for a provider by the evaluation of the rows in any order, after a merge that does
not refresh the provider, and on the page. -/
structure SameEverywhere (quotes : List StoredQuote) (now : ℤ) : Prop where
  permuted : ∀ quotes' : List StoredQuote, quotes'.Perm quotes → SameAggregate quotes quotes' now
  merged : ∀ (P : Platform) (latest : Option SnapshotRecord) (refreshed : List StoredQuote)
    (provider : UpstreamSource), storedRows latest = quotes →
      provider.name ∉ refreshed.map StoredQuote.source →
        contribution (mergeSnapshotSources P latest refreshed) now provider = contribution quotes now provider
  shown : ∀ (snapshot : SnapshotRecord) (health : List ProviderHealth) (context : ReadContext),
    snapshot.sources = quotes →
      let (status, body) := priceResponse (.ok ⟨some snapshot, health⟩) context now
      ∃ data, pollPrice status body.toJson = some data ∧
        ∀ (page : Dashboard) (time : ℚ), page.running = true → page.lastData = some data →
          ∃ view, page.render time = some view ∧
            view.contributors.map AgedSource.source =
              ((contributors quotes now).filter fun row => now + page.elapsed time - row.observedAt < 90).map
                SourceResponse.received

/-- The same observation is chosen everywhere exactly when the newest fresh rows of a provider have one price and its
last valid row is as new. -/
theorem one_observation_iff (quotes : List StoredQuote) (now : ℤ) :
    SameEverywhere quotes now ↔ OneNewest quotes now := by
  constructor
  · intro h provider quote time hnewest
    refine ⟨fun other hother => ?_, fun last hlast => ?_⟩
    · exact one_price_of_perm (fun quotes' hperm => (h.permuted quotes' hperm).1 provider) hnewest hother
    · let latest : Option SnapshotRecord := some ⟨0, quotes, none, none, [], none⟩
      have hnone : provider.name ∉ ([] : List StoredQuote).map StoredQuote.source := by simp
      have hsame : contribution (mergeSnapshotSources .plain latest []) now provider =
          contribution (storedRows latest) now provider := h.merged .plain latest [] provider rfl hnone
      exact last_of_same_contribution hnone hsame hnewest hlast
  · intro h
    refine ⟨fun quotes' hperm => ?_, fun P latest refreshed provider hrows hother => ?_,
      fun snapshot health context hsources => ?_⟩
    · exact sameAggregate_of_contributions fun provider =>
        contribution_perm hperm fun quote time hnewest => (h provider quote time hnewest).1
    · subst hrows
      exact contribution_merged hother h
    · subst hsources
      refine ⟨_, pollPrice_priceResponse snapshot health context now, fun page time hrunning hdata => ?_⟩
      obtain ⟨view, hview, hcontributors⟩ := render_contributors hrunning hdata time
      refine ⟨view, hview, ?_⟩
      have hnames : (priceResponse (.ok ⟨some snapshot, health⟩) context now).2.received.contributingSources =
          (contributors snapshot.sources now).map fun row => row.quote.source := rfl
      have hshown := shownContributors_received (page.elapsed time) hnames
        fun provider quote time hnewest => (h provider quote time hnewest).1
      have hrows : (priceResponse (.ok ⟨some snapshot, health⟩) context now).2.received.sources.map
          (fun source => source.advance (page.elapsed time) SOURCE_MAX_AGE_SECONDS) =
            (snapshot.sources.filter StoredQuote.valid).map fun quote => quote.aged now (page.elapsed time) := by
        change (List.map _ (List.map _ (List.map _ _))) = _
        rw [List.map_map, List.map_map]
        rfl
      rw [hcontributors, ← hshown, ← hrows]
      rfl

/-- An older row behind a newer one: a merge that refreshes another provider drops the newer one. -/
theorem one_observation_fails : ¬∀ (quotes : List StoredQuote) (now : ℤ),
    (∀ quote ∈ quotes, ∀ time, quote.lastSuccessAtUnix = some time → time ≤ now) → SameEverywhere quotes now := by
  intro h
  let quotes : List StoredQuote :=
    [⟨"Coinbase", .finite 200, some 99, .spot⟩, ⟨"Coinbase", .finite 100, some 98, .spot⟩]
  have hsame := (h quotes 100 (by simp [quotes])).merged .plain (some ⟨99, quotes, none, none, [], none⟩)
    [⟨"Kraken", .finite 150, some 100, .lastTrade⟩] .coinbase rfl (by decide)
  exact absurd hsame (by decide)

end BitcoinPriceTracker

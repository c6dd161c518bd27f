import Mathlib.Data.String.Basic
import BitcoinPriceTracker.Model.Freshness
import BitcoinPriceTracker.Model.Storage
import BitcoinPriceTracker.Proofs.FetchedBatch

namespace BitcoinPriceTracker

lemma sourceLe_antisymm {left right : String} (h : sourceLe left right) (h' : sourceLe right left) : left = right := by
  unfold sourceLe at h h'
  rcases h with hlt | ⟨_, hle⟩
  · omega
  · rcases h' with hlt | ⟨_, hle'⟩
    · omega
    · exact le_antisymm hle hle'

lemma sourceLe_trans {left middle right : String} (h : sourceLe left middle) (h' : sourceLe middle right) :
    sourceLe left right := by
  unfold sourceLe at h h' ⊢
  rcases h with hlt | ⟨heq, hle⟩
  · left
    omega
  · rcases h' with hlt | ⟨heq', hle'⟩
    · left
      omega
    · exact .inr ⟨heq.trans heq', hle.trans hle'⟩

lemma sourceLe_total (left right : String) : sourceLe left right ∨ sourceLe right left := by
  unfold sourceLe
  rcases lt_trichotomy (sourceRank left) (sourceRank right) with hlt | heq | hlt
  · exact .inl (.inl hlt)
  · rcases le_total left right with hle | hle
    · exact .inl (.inr ⟨heq, hle⟩)
    · exact .inr (.inr ⟨heq.symm, hle⟩)
  · exact .inr (.inl hlt)

instance : Std.Total sourceLe := ⟨sourceLe_total⟩

instance : IsTrans String sourceLe := ⟨fun _ _ _ => sourceLe_trans⟩

instance : Std.Antisymm sourceLe := ⟨fun _ _ => sourceLe_antisymm⟩

lemma sourceRank_name (source : UpstreamSource) : sourceRank source.name = source.index := by
  cases source <;> rfl

lemma sourceRank_other {name : String} (h : ∀ source : UpstreamSource, source.name ≠ name) : sourceRank name = 99 := by
  unfold sourceRank
  split
  · exact absurd rfl (h .coinGecko)
  · exact absurd rfl (h .coinbase)
  · exact absurd rfl (h .kraken)
  · exact absurd rfl (h .gemini)
  · rfl

/-- The configured providers in configured order, then the other names in increasing order. -/
def ConfiguredOrder (names : List String) : Prop :=
  ∃ configured others, names = configured ++ others ∧
    configured.Sublist (UpstreamSource.all.map UpstreamSource.name) ∧
    (∀ name ∈ others, ∀ source : UpstreamSource, source.name ≠ name) ∧ others.Pairwise (· < ·)

lemma sourceRank_lt_iff {name : String} : sourceRank name < 99 ↔ ∃ source : UpstreamSource, source.name = name := by
  constructor
  · intro h
    by_contra hnone
    rw [sourceRank_other fun source hname => hnone ⟨source, hname⟩] at h
    omega
  · rintro ⟨source, rfl⟩
    rw [sourceRank_name]
    omega

lemma filter_append_of_sorted {names : List String} (h : names.Pairwise sourceLe) :
    names = names.filter (fun name => sourceRank name < 99) ++ names.filter (fun name => ¬sourceRank name < 99) := by
  induction names with
  | nil => rfl
  | cons name rest ih =>
    obtain ⟨hfirst, hrest⟩ := List.pairwise_cons.mp h
    by_cases hrank : sourceRank name < 99
    · rw [List.filter_cons_of_pos (by simpa using hrank), List.filter_cons_of_neg (by simpa using hrank),
        List.cons_append, ← ih hrest]
    · have hlater : ∀ other ∈ rest, ¬sourceRank other < 99 := by
        intro other hother
        rcases hfirst other hother with hlt | ⟨heq, _⟩ <;> omega
      have hnone : rest.filter (fun name => sourceRank name < 99) = [] :=
        List.filter_eq_nil_iff.mpr fun other hother => by simpa using hlater other hother
      have hall : rest.filter (fun name => ¬sourceRank name < 99) = rest :=
        List.filter_eq_self.mpr fun other hother => by simpa using hlater other hother
      rw [List.filter_cons_of_neg (by simpa using hrank), List.filter_cons_of_pos (by simpa using hrank), hnone, hall,
        List.nil_append]

lemma configuredOrder_of_sorted {names : List String} (hsorted : names.Pairwise sourceLe) (hdistinct : names.Nodup) :
    ConfiguredOrder names := by
  refine ⟨_, _, filter_append_of_sorted hsorted, ?_, fun name hname => ?_, ?_⟩
  · have hsubset : names.filter (fun name => sourceRank name < 99) ⊆ UpstreamSource.all.map UpstreamSource.name := by
      intro name hname
      have hrank := List.of_mem_filter hname
      obtain ⟨source, rfl⟩ := sourceRank_lt_iff.mp (by simpa using hrank)
      exact List.mem_map_of_mem (UpstreamSource.mem_all source)
    have hall : (UpstreamSource.all.map UpstreamSource.name).Pairwise sourceLe := by decide
    exact List.sublist_of_subperm_of_pairwise ((hdistinct.filter _).subperm hsubset)
      (hsorted.sublist List.filter_sublist) hall
  · have hrank := List.of_mem_filter hname
    intro source hsource
    exact absurd (sourceRank_lt_iff.mpr ⟨source, hsource⟩) (by simpa using hrank)
  · refine List.Pairwise.imp_of_mem ?_ ((hsorted.and hdistinct).sublist List.filter_sublist)
    rintro left right hleft hright ⟨hle, hne⟩
    have hleft := List.of_mem_filter hleft
    have hright := List.of_mem_filter hright
    rcases hle with hlt | ⟨_, hle⟩
    · have hlast : sourceRank right ≤ 99 := by
        unfold sourceRank
        split <;> omega
      simp at hleft
      omega
    · exact lt_of_le_of_ne hle hne

lemma not_configured_iff {quote : StoredQuote} :
    quote.configured = false ↔ ∀ source : UpstreamSource, source.name ≠ quote.source := by
  simp [StoredQuote.configured]

lemma takeConfigured_fst {sources : List UpstreamSource} (h : sources.Nodup) (prices : SourcePrices) :
    (takeConfigured sources prices).1 = sources.filterMap fun source => prices.get? source.name := by
  induction sources generalizing prices with
  | nil => rfl
  | cons source rest ih =>
    obtain ⟨hfirst, hrest⟩ := List.nodup_cons.mp h
    unfold takeConfigured
    rw [List.filterMap_cons]
    cases hget : prices.get? source.name with
    | none => exact ih hrest prices
    | some quote =>
      dsimp only
      rw [ih hrest]
      congr 1
      refine List.filterMap_congr fun other hmem => ?_
      have hne : other ≠ source := fun heq => hfirst (heq ▸ hmem)
      rw [Keyed.get?_remove, if_neg (by simpa using hne)]

lemma takeConfigured_snd (sources : List UpstreamSource) (prices : SourcePrices) (name : String) :
    (takeConfigured sources prices).2.get? name =
      if name ∈ sources.map UpstreamSource.name then none else prices.get? name := by
  induction sources generalizing prices with
  | nil => simp [takeConfigured]
  | cons source rest ih =>
    unfold takeConfigured
    cases hget : prices.get? source.name with
    | none =>
      rw [ih]
      by_cases hname : name = source.name
      · simp [hname, hget]
      · simp [hname]
    | some quote =>
      dsimp only
      rw [ih, Keyed.get?_remove]
      by_cases hname : name = source.name
      · simp [hname]
      · simp [hname]

section Order

variable (P : Platform) (prices : SourcePrices)

lemma orderedSources_split :
    ∃ extras, orderedSources P prices =
        (UpstreamSource.all.filterMap fun source => prices.get? source.name) ++ extras ∧
      (∀ quote ∈ extras, quote.configured = false) ∧ extras.Pairwise fun left right => left.source < right.source := by
  let left := (takeConfigured UpstreamSource.all prices).2
  let extras := (P.intoValues left.items).insertionSort fun left right => left.source ≤ right.source
  have hperm : extras.Perm left.items := (List.perm_insertionSort _ _).trans (P.intoValues_perm _)
  have htotal : Std.Total fun left right : StoredQuote => left.source ≤ right.source :=
    ⟨fun left right => le_total left.source right.source⟩
  have htrans : IsTrans StoredQuote fun left right => left.source ≤ right.source :=
    ⟨fun _ _ _ => le_trans⟩
  have hsorted : extras.Pairwise fun left right => left.source ≤ right.source :=
    List.pairwise_insertionSort _ _
  have hdistinct : (extras.map StoredQuote.source).Nodup := (hperm.map _).nodup_iff.mpr left.distinct
  refine ⟨extras, ?_, fun quote hmem => ?_, ?_⟩
  · rw [← takeConfigured_fst UpstreamSource.all_nodup]
    rfl
  · have hget : left.get? quote.source = some quote := Keyed.get?_eq_some_iff.mpr ⟨hperm.mem_iff.mp hmem, rfl⟩
    rw [takeConfigured_snd] at hget
    rw [not_configured_iff]
    intro source hname
    simp [← hname] at hget
  · exact (hsorted.and (List.pairwise_map.mp hdistinct)).imp fun hboth => lt_of_le_of_ne hboth.1 hboth.2

/-- The order of the hash map in the program is that of the ORDER BY clause. -/
lemma orderedSources_sorted :
    (orderedSources P prices).Pairwise fun left right => sourceLe left.source right.source := by
  obtain ⟨extras, hsplit, hothers, hextras⟩ := orderedSources_split P prices
  have hrank : ∀ quote ∈ extras, sourceRank quote.source = 99 := fun quote hmem =>
    sourceRank_other (not_configured_iff.mp (hothers quote hmem))
  have hindexed : UpstreamSource.all.Pairwise fun left right => (left.index : ℕ) < right.index := by decide
  have hconfigured : ∀ quote ∈ UpstreamSource.all.filterMap fun source => prices.get? source.name,
      sourceRank quote.source < 99 := by
    intro quote hmem
    obtain ⟨source, _, hget⟩ := List.mem_filterMap.mp hmem
    rw [(Keyed.get?_eq_some_iff.mp hget).2, sourceRank_name]
    omega
  rw [hsplit]
  refine List.pairwise_append.mpr ⟨?_, ?_, fun left hleft right hright => .inl ?_⟩
  · refine List.pairwise_filterMap.mpr (hindexed.imp ?_)
    intro left right hlt quote hquote quote' hquote'
    rw [(Keyed.get?_eq_some_iff.mp hquote).2, (Keyed.get?_eq_some_iff.mp hquote').2]
    refine .inl ?_
    rwa [sourceRank_name, sourceRank_name]
  · refine hextras.imp_of_mem fun hleft hright hlt => .inr ⟨?_, hlt.le⟩
    rw [hrank _ hleft, hrank _ hright]
  · rw [hrank right hright]
    exact hconfigured left hleft

lemma orderedSources_nodup : ((orderedSources P prices).map StoredQuote.source).Nodup :=
  ((orderedSources_perm P prices).map _).nodup_iff.mpr prices.distinct

variable {P prices}

lemma orderedSources_congr {P' : Platform} {prices' : SourcePrices}
    (h : ∀ name, prices.get? name = prices'.get? name) : orderedSources P prices = orderedSources P' prices' :=
  Keyed.eq_of_sorted sourceLe_antisymm (orderedSources_nodup P prices) (orderedSources_sorted P prices)
    (orderedSources_sorted P' prices')
    (((orderedSources_perm P prices).trans (Keyed.perm_of_get?_eq h)).trans (orderedSources_perm P' prices').symm)

end Order

/-- The rows of the stored snapshot. -/
def storedRows (latest : Option SnapshotRecord) : List StoredQuote := (latest.map SnapshotRecord.sources).getD []

/-- Of several valid rows of a source the last one is retained. -/
lemma retainedQuotes_last (latest : Option SnapshotRecord) (name : String) :
    (retainedQuotes latest).get? name =
      ((storedRows latest).filter StoredQuote.valid).reverse.find? fun quote => quote.source = name := by
  cases latest with
  | none => rfl
  | some snapshot => rw [retainedQuotes_some, Keyed.get?_foldl_put, Keyed.get?_empty, Option.or_none]; rfl

lemma retained_mem {latest : Option SnapshotRecord} {name : String} {quote : StoredQuote}
    (h : (retainedQuotes latest).get? name = some quote) :
    quote ∈ storedRows latest ∧ quote.valid = true ∧ quote.source = name := by
  rw [retainedQuotes_last] at h
  have hmem := List.mem_of_find?_eq_some h
  rw [List.mem_reverse, List.mem_filter] at hmem
  exact ⟨hmem.1, hmem.2, by simpa using List.find?_some h⟩

lemma retained_of_valid {latest : Option SnapshotRecord} {row : StoredQuote} (hrow : row ∈ storedRows latest)
    (hvalid : row.valid = true) : ∃ quote, (retainedQuotes latest).get? row.source = some quote := by
  rw [retainedQuotes_last, ← Option.isSome_iff_exists, List.find?_isSome]
  exact ⟨row, by simp [hrow, hvalid], by simp⟩

section Quotes

variable (P : Platform) (latest : Option SnapshotRecord) {refreshed : List StoredQuote}

lemma mem_merged (h : (refreshed.map StoredQuote.source).Nodup) {quote : StoredQuote} :
    quote ∈ mergeSnapshotSources P latest refreshed ↔
      quote ∈ refreshed ∨ quote.source ∉ refreshed.map StoredQuote.source ∧
        (retainedQuotes latest).get? quote.source = some quote := by
  rw [mem_mergeSnapshotSources, mergedPrices_get? latest h]
  simp

lemma merged_filter {quote : StoredQuote}
    (hmem : quote ∈ mergeSnapshotSources P latest refreshed) :
    (mergeSnapshotSources P latest refreshed).filter (fun other => other.source = quote.source) = [quote] := by
  let merged : SourcePrices :=
    ⟨mergeSnapshotSources P latest refreshed, mergeSnapshotSources_nodup P latest refreshed⟩
  have hget : merged.get? quote.source = some quote := Keyed.get?_eq_some_iff.mpr ⟨hmem, rfl⟩
  have hfilter := merged.filter_key_eq quote.source
  rw [hget] at hfilter
  exact hfilter

lemma merged_again (h : (refreshed.map StoredQuote.source).Nodup) {snapshot : SnapshotRecord}
    (hsources : snapshot.sources = mergeSnapshotSources P latest refreshed) (name : String) :
    (mergedPrices (some snapshot) refreshed).get? name = (mergedPrices latest refreshed).get? name := by
  have hdistinct : (snapshot.sources.map StoredQuote.source).Nodup := by
    rw [hsources]
    exact mergeSnapshotSources_nodup P latest refreshed
  ext quote
  rw [mergedPrices_get? _ h, mergedPrices_get? _ h, retainedQuotes_get? hdistinct, hsources, mem_merged P latest h]
  refine or_congr_right (and_congr_right fun hother => ?_)
  constructor
  · rintro ⟨hrefreshed | ⟨_, hretained⟩, _, rfl⟩
    · exact absurd rfl (hother quote hrefreshed)
    · exact hretained
  · intro hretained
    obtain ⟨_, hvalid, rfl⟩ := retained_mem hretained
    exact ⟨.inr ⟨by simpa using hother, hretained⟩, hvalid, rfl⟩

end Quotes

/-- A merge has one quote for each source: what was refreshed, and else a valid row that was stored. The configured
providers come in configured order and the others by name, whatever the order of the hash map, and a second merge
changes nothing. -/
theorem merge_law (P : Platform) (latest : Option SnapshotRecord) {refreshed : List StoredQuote}
    (h : (refreshed.map StoredQuote.source).Nodup) :
    let merged := mergeSnapshotSources P latest refreshed
    (merged.map StoredQuote.source).Nodup ∧
    (∀ quote ∈ refreshed, quote ∈ merged) ∧
    (∀ row ∈ storedRows latest, row.valid = true → row.source ∉ refreshed.map StoredQuote.source →
      ∃ quote ∈ storedRows latest, quote.valid = true ∧
        merged.filter (fun other => other.source = row.source) = [quote]) ∧
    (∀ quote ∈ merged, quote ∈ refreshed ∨
      quote.source ∉ refreshed.map StoredQuote.source ∧ quote ∈ storedRows latest ∧ quote.valid = true) ∧
    ConfiguredOrder (merged.map StoredQuote.source) ∧
    (∀ P' : Platform, mergeSnapshotSources P' latest refreshed = merged) ∧
    ∀ snapshot : SnapshotRecord, snapshot.sources = merged →
      mergeSnapshotSources P (some snapshot) refreshed = merged := by
  intro merged
  refine ⟨mergeSnapshotSources_nodup P latest refreshed, fun quote hmem => (mem_merged P latest h).mpr (.inl hmem),
    fun row hrow hvalid hother => ?_, fun quote hmem => ?_, ?_, fun P' => orderedSources_congr fun _ => rfl,
    fun snapshot hsources => orderedSources_congr (merged_again P latest h hsources)⟩
  · obtain ⟨quote, hretained⟩ := retained_of_valid hrow hvalid
    obtain ⟨hstored, hquote, hsource⟩ := retained_mem hretained
    refine ⟨quote, hstored, hquote, ?_⟩
    rw [← hsource] at hretained hother ⊢
    exact merged_filter P latest ((mem_merged P latest h).mpr (.inr ⟨hother, hretained⟩))
  · refine ((mem_merged P latest h).mp hmem).imp_right fun ⟨hother, hretained⟩ => ⟨hother, ?_⟩
    obtain ⟨hstored, hquote, _⟩ := retained_mem hretained
    exact ⟨hstored, hquote⟩
  · exact configuredOrder_of_sorted (List.pairwise_map.mpr (orderedSources_sorted P _))
      (mergeSnapshotSources_nodup P latest refreshed)

/-- Two rows of one provider and one that is refreshed. -/
theorem merge_law_duplicates :
    let stored : SnapshotRecord :=
      ⟨90, [⟨"Kraken", .finite 1, some 80, .lastTrade⟩, ⟨"Kraken", .finite 2, some 70, .lastTrade⟩,
        ⟨"Coinbase", .finite 3, some 80, .spot⟩], none, none, [], none⟩
    let merged := mergeSnapshotSources .plain (some stored) [⟨"Coinbase", .finite 4, some 95, .spot⟩]
    merged = [⟨"Coinbase", .finite 4, some 95, .spot⟩, ⟨"Kraken", .finite 2, some 70, .lastTrade⟩] ∧
      (merged.map StoredQuote.source).Nodup :=
  ⟨by decide, (merge_law .plain _ (by simp)).1⟩

end BitcoinPriceTracker

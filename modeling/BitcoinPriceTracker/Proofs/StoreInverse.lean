import BitcoinPriceTracker.Proofs.MergedSources
import BitcoinPriceTracker.Proofs.StoreInvariant

namespace BitcoinPriceTracker

/-- The last attempts in a list of records, by name. -/
def healthMap (records : List ProviderHealth) (name : String) : Option LastAttempt :=
  (records.find? fun record => record.source = name).map ProviderHealth.lastAttempt

/-- Records written one by one over a health map. -/
def overridden (health : String → Option LastAttempt) (records : List ProviderHealth) : String → Option LastAttempt :=
  records.foldl (fun health record => Function.update health record.source (some record.lastAttempt)) health

lemma overridden_apply (health : String → Option LastAttempt) (records : List ProviderHealth) (name : String) :
    overridden health records name =
      ((records.reverse.find? fun record => record.source = name).map ProviderHealth.lastAttempt).or (health name) := by
  induction records generalizing health with
  | nil => rfl
  | cons record rest ih =>
    rw [overridden, List.foldl_cons, ← overridden, ih, List.reverse_cons, List.find?_append, Option.map_or,
      Option.or_assoc, Function.update_apply]
    congr 1
    by_cases hname : record.source = name
    · simp [hname]
    · simp [hname, Ne.symm hname]

/-- The records of a health map as they are listed. -/
structure Listed (health : String → Option LastAttempt) (records : List ProviderHealth) : Prop where
  content : healthMap records = health
  distinct : (records.map ProviderHealth.source).Nodup
  order : ConfiguredOrder (records.map ProviderHealth.source)

lemma healthOf_sorted (health : HealthTable) :
    ((healthOf health).map ProviderHealth.source).Pairwise sourceLe := by
  have hle : Std.Total fun left right : HealthRow => sourceLe left.source right.source :=
    ⟨fun left right => sourceLe_total left.source right.source⟩
  have htrans : IsTrans HealthRow fun left right => sourceLe left.source right.source :=
    ⟨fun _ _ _ => sourceLe_trans⟩
  rw [healthOf, List.map_map]
  exact List.pairwise_map.mpr (List.pairwise_insertionSort _ health.items)

lemma healthOf_nodup (health : HealthTable) : ((healthOf health).map ProviderHealth.source).Nodup := by
  have hperm := (List.perm_insertionSort (fun left right : HealthRow => sourceLe left.source right.source)
    health.items).map fun row => row.source
  rw [healthOf, List.map_map]
  exact hperm.nodup_iff.mpr health.distinct

lemma healthMap_healthOf (health : HealthTable) (name : String) :
    healthMap (healthOf health) name = (healthAt health name).map ProviderHealth.lastAttempt := by
  let listed : Keyed ProviderHealth ProviderHealth.source := ⟨healthOf health, healthOf_nodup health⟩
  have hget : listed.get? name = healthAt health name := by
    ext record
    rw [Keyed.get?_eq_some_iff, mem_healthOf]
    constructor
    · rintro ⟨hrecord, rfl⟩
      exact hrecord
    · intro hrecord
      obtain ⟨row, hrow, rfl⟩ := Option.map_eq_some_iff.mp hrecord
      obtain rfl : row.record.source = name := (Keyed.get?_eq_some_iff.mp hrow).2
      exact ⟨hrecord, rfl⟩
  exact congrArg (Option.map ProviderHealth.lastAttempt) hget

lemma listed_putHealth {records : List ProviderHealth} (h : ∀ record ∈ records, record.Storable)
    (health : HealthTable) :
    Listed (overridden (healthMap (healthOf health)) records) (healthOf (putHealth health records)) where
  content := by
    funext name
    rw [healthMap_healthOf, healthAt_putHealth h, overridden_apply, healthMap_healthOf, Option.map_or]
  distinct := healthOf_nodup _
  order := configuredOrder_of_sorted (healthOf_sorted _) (healthOf_nodup _)

lemma total_ne_nan (prices : List ℚ) {total : F64} (htotal : total ≠ .nan) :
    (prices.map F64.finite).foldl (fun total price => (F64.add total price).rounded) total ≠ .nan := by
  induction prices generalizing total with
  | nil => exact htotal
  | cons price prices ih =>
    apply ih
    apply F64.rounded_ne_nan
    cases total with
    | nan => exact absurd rfl htotal
    | _ => simp [F64.add]

lemma divLen_ne_nan {a : F64} (h : a ≠ .nan) (n : ℕ) : a.divLen n ≠ .nan := by
  cases a with
  | finite value => simp [F64.divLen]
  | _ => exact h

/-- A sum that overflows is infinite, and the spread is a difference of finite prices. -/
lemma summarizePrices_ne_nan {sources : List StoredQuote} (h : ∀ quote ∈ sources, quote.valid = true) :
    (summarizePrices sources).1 ≠ some .nan ∧ (summarizePrices sources).2 ≠ some .nan := by
  have hprices : sources.map StoredQuote.priceUsd =
      (sources.map fun quote => quote.priceUsd.value).map F64.finite := by
    rw [List.map_map]
    exact List.map_congr_left fun quote hquote => (StoredQuote.price_of_valid (h quote hquote)).1
  unfold summarizePrices
  split
  · simp
  · next hne =>
    rw [hprices]
    refine ⟨fun haverage => ?_, fun hspread => ?_⟩
    · exact F64.rounded_ne_nan (divLen_ne_nan (total_ne_nan _ (by simp)) _) (Option.some.inj haverage)
    · apply F64.rounded_ne_nan _ (Option.some.inj hspread)
      obtain ⟨price, prices, hcons⟩ := List.exists_cons_of_ne_nil (mt List.map_eq_nil_iff.mp hne)
      rw [hcons]
      change spreadOf _ ≠ _
      rw [spreadOf_cons]
      simp

lemma refreshBatch_builds {P : Platform} {latest : Option SnapshotRecord} {plan : RefreshPlan}
    {attempts : UpstreamSource → Attempt} {nowUnix : ℤ} {s : SnapshotRecord}
    (h : (refreshBatch P latest plan attempts nowUnix).snapshot = some s) :
    s.sources = mergeSnapshotSources P latest (refreshBatch P latest plan attempts nowUnix).refreshed ∧
      s.averagePrice ≠ some .nan ∧ s.spread ≠ some .nan := by
  have hvalid := batch_sources_valid P latest plan attempts nowUnix h
  refine ⟨refreshBatch_snapshot_sources P latest plan attempts nowUnix h, ?_⟩
  have hsummary : s.averagePrice = (summarizePrices s.sources).1 ∧ s.spread = (summarizePrices s.sources).2 := by
    simp only [refreshBatch] at h
    split at h
    · simp at h
    · rw [← Option.some.inj h]
      exact ⟨rfl, rfl⟩
  rw [hsummary.1, hsummary.2]
  exact summarizePrices_ne_nan hvalid

lemma sqlReal_eq_self {value : Option F64} (h : value ≠ some .nan) : sqlReal value = value := by
  cases value with
  | none => rfl
  | some value => exact Option.filter_some_pos (by simpa using h)

lemma sourcesOf_sorted {tables : CurrentTables} {row : SnapshotRow} {sources : List StoredQuote}
    (hparents : tables.parents.items = [row]) (hquotes : tables.children.items.map SourceRow.quote = sources)
    (hsorted : sources.Pairwise fun left right => sourceLe left.source right.source) :
    sourcesOf tables row.id = sources := by
  have hall : (tables.children.items.filter fun child => child.snapshotId = row.id) = tables.children.items := by
    refine List.filter_eq_self.mpr fun child hchild => ?_
    obtain ⟨only, honly, hid⟩ := owned_of_single (by simp [hparents]) hchild
    rw [hparents] at honly
    simpa [← (List.cons.inj honly).1] using hid
  have hrows : tables.children.items.Pairwise fun left right => sourceLe left.source right.source := by
    rw [← hquotes, List.pairwise_map] at hsorted
    exact hsorted
  rw [sourcesOf, hall, hrows.insertionSort_eq, hquotes]

/-- The tables that hold a snapshot give it back. -/
lemma snapshotOf_holds {P : Platform} {tables : CurrentTables} {snapshot : SnapshotRecord}
    (h : Holds P tables snapshot)
    (hsorted : snapshot.sources.Pairwise fun left right => sourceLe left.source right.source)
    (haverage : snapshot.averagePrice ≠ some .nan) (hspread : snapshot.spread ≠ some .nan) :
    snapshotOf P tables = .ok (some snapshot) := by
  obtain ⟨⟨id, hparents⟩, hquotes⟩ := h
  have hsources := sourcesOf_sorted hparents hquotes hsorted
  rw [snapshotOf, hparents, latestRow_singleton]
  simp only [snapshotAt, P.decode_encode, hsources, sqlReal_eq_self haverage, sqlReal_eq_self hspread, Except.map]

/-- After a refresh is stored, a load returns its snapshot with the sources in the same order, or without one the
snapshot from before, and the health overridden by its records. What a refresh builds has no NaN in its summaries. The
order of the merged sources is that of the query, and every kind and every last attempt is decoded from its columns. -/
theorem store_load_law {P : Platform} {path : DbPath} {latest : Option SnapshotRecord} {refreshed : List StoredQuote}
    {snapshot : Option SnapshotRecord} {records : List ProviderHealth} {tables : CurrentTables} {health : HealthTable}
    {F : Faults} {db : Database}
    (hsnapshot : ∀ s, snapshot = some s → s.sources = mergeSnapshotSources P latest refreshed ∧
      s.averagePrice ≠ some .nan ∧ s.spread ≠ some .nan)
    (hstored : (storeRefresh P path snapshot records).atomically F (.current tables health) = (.ok ⟨⟩, db)) :
    (∃ listed, Listed (overridden (healthMap (healthOf health)) records) listed ∧
      match snapshot with
      | some s => loaded P db = .ok ⟨some s, listed⟩
      | none => loaded P db = (loaded P (.current tables health)).map fun state => ⟨state.snapshot, listed⟩) ∧
    (∀ plan attempts nowUnix s, (refreshBatch P latest plan attempts nowUnix).snapshot = some s →
      s.sources = mergeSnapshotSources P latest (refreshBatch P latest plan attempts nowUnix).refreshed ∧
        s.averagePrice ≠ some .nan ∧ s.spread ≠ some .nan) ∧
    (∀ prices : SourcePrices,
      prices.items.insertionSort (fun left right => sourceLe left.source right.source) = orderedSources P prices) ∧
    (∀ kind : QuoteKind, QuoteKind.decode kind.text = some kind) ∧
    ∀ record : ProviderHealth, decodeLastAttempt (healthColumns record) = some record.lastAttempt := by
  refine ⟨?_, fun _ _ _ _ => refreshBatch_builds, fun prices => ?_, QuoteKind.decode_text,
    decodeLastAttempt_healthColumns⟩
  · have heval : (storeRefresh P path snapshot records).eval (.current tables health) = .ok (⟨⟩, db) := by
      have hok := Tx.atomically_ok (congrArg Prod.fst hstored)
      rwa [hstored] at hok
    obtain ⟨hacceptable, tables', rfl, hwritten⟩ := storeRefresh_commits heval
    refine ⟨_, listed_putHealth hacceptable.2 health, ?_⟩
    cases snapshot with
    | none =>
      obtain rfl : tables' = tables := hwritten
      simp only [loaded, loadPriceState_current, stateOf]
      cases snapshotOf P tables' <;> rfl
    | some s =>
      obtain ⟨hsources, haverage, hspread⟩ := hsnapshot s rfl
      have hsorted : s.sources.Pairwise fun left right => sourceLe left.source right.source := by
        rw [hsources]
        exact orderedSources_sorted P _
      rw [loaded, loadPriceState_current, stateOf,
        snapshotOf_holds hwritten hsorted haverage hspread]
      rfl
  · have htotal : Std.Total fun left right : StoredQuote => sourceLe left.source right.source :=
      ⟨fun left right => sourceLe_total left.source right.source⟩
    have htrans : IsTrans StoredQuote fun left right => sourceLe left.source right.source :=
      ⟨fun _ _ _ => sourceLe_trans⟩
    exact Keyed.eq_of_sorted sourceLe_antisymm
      (((List.perm_insertionSort _ prices.items).map _).nodup_iff.mpr prices.distinct)
      (List.pairwise_insertionSort _ prices.items) (orderedSources_sorted P prices)
      ((List.perm_insertionSort _ prices.items).trans (orderedSources_perm P prices).symm)

/-- A refresh of Kraken over two retained rows, one of them of no configured provider. -/
def mergedSnapshot : SnapshotRecord :=
  let sources := mergeSnapshotSources .plain
    (some ⟨80, [⟨"Zaif", .finite 9, none, .unknown⟩, ⟨"Coinbase", .finite 4, some 80, .spot⟩], none, none, [], none⟩)
    [⟨"Kraken", .finite 6, some 100, .lastTrade⟩]
  ⟨100, sources, (summarizePrices sources).1, (summarizePrices sources).2, ["Gemini request timed out"], some "Kraken"⟩

theorem store_load_law_merged :
    let stored := (storeRefresh .plain ⟨none, "tracker.db"⟩ (some mergedSnapshot)
      [⟨"Kraken", .unknown⟩, ⟨"Kraken", .success 99⟩]).atomically [] (.current .empty seededHealth)
    mergedSnapshot.sources.map StoredQuote.source = ["Coinbase", "Kraken", "Zaif"] ∧
      ∃ listed, loaded .plain stored.2 = .ok ⟨some mergedSnapshot, listed⟩ ∧
        healthMap listed "Kraken" = some (.success 99) := by
  intro stored
  have hmerged : ∀ s, some mergedSnapshot = some s → s.sources = mergeSnapshotSources .plain
      (some ⟨80, [⟨"Zaif", .finite 9, none, .unknown⟩, ⟨"Coinbase", .finite 4, some 80, .spot⟩], none, none, [],
        none⟩) [⟨"Kraken", .finite 6, some 100, .lastTrade⟩] ∧
      s.averagePrice ≠ some .nan ∧ s.spread ≠ some .nan := by
    rintro s ⟨rfl⟩
    exact ⟨rfl, by decide +kernel, by decide +kernel⟩
  have hok : stored = (.ok ⟨⟩, stored.2) := rfl
  obtain ⟨listed, hlisted, hload⟩ := (store_load_law hmerged hok).1
  exact ⟨by decide, listed, hload, by rw [hlisted.content]; rfl⟩

end BitcoinPriceTracker

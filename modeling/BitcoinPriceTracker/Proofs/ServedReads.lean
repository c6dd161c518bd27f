import BitcoinPriceTracker.Proofs.LocalAgeing
import BitcoinPriceTracker.Proofs.NoLostUpdate
import BitcoinPriceTracker.Proofs.RefreshNotices
import BitcoinPriceTracker.Proofs.StoreInverse

namespace BitcoinPriceTracker

variable {P : Platform} {path : DbPath} {maxViewers : ℕ} {s : Server} {history : List ServerAction} {start : ℕ}
  {tables : CurrentTables} {health : HealthTable}

/-- The health record of a name in the most recent batch that committed and requested its provider. -/
def lastAttempted (name : String) : List StoreAction → Option ProviderHealth
  | [] => none
  | .stored batch (.ok _) :: older =>
    (batch.health.find? fun record => record.source = name).or (lastAttempted name older)
  | _ :: older => lastAttempted name older

/-- The stored health is that of the most recent commits over that of the start. -/
def Attempted (health : HealthTable) (history : List StoreAction) (db : Database) : Prop :=
  ∃ tables' health', db = .current tables' health' ∧
    ∀ name, healthAt health' name = (lastAttempted name history).or (healthAt health name)

lemma refreshBatch_health_nodup (latest : Option SnapshotRecord) (plan : RefreshPlan)
    (attempts : UpstreamSource → Attempt) (nowUnix : ℤ) :
    ((refreshBatch P latest plan attempts nowUnix).health.map ProviderHealth.source).Nodup := by
  rw [refreshBatch_health, List.map_map]
  apply (plannedSources_nodup plan).map
  intro source other hname
  simpa using hname

lemma find_record_reverse {records : List ProviderHealth} (h : (records.map ProviderHealth.source).Nodup)
    (name : String) :
    (records.reverse.find? fun record => record.source = name) = records.find? fun record => record.source = name := by
  have hreverse : (records.reverse.map ProviderHealth.source).Nodup := by
    rw [List.map_reverse, List.nodup_reverse]
    exact h
  let listed : Keyed ProviderHealth ProviderHealth.source := ⟨records, h⟩
  let reversed : Keyed ProviderHealth ProviderHealth.source := ⟨records.reverse, hreverse⟩
  change reversed.get? name = listed.get? name
  ext record
  simp only [Keyed.get?_eq_some_iff, reversed, listed, List.mem_reverse]

lemma Attempted.stored {history : List StoreAction} {db db' : Database} {batch : Batch} {F : Faults}
    {result : Except String Unit} (h : Attempted health history db)
    (hbatch : (batch.health.map ProviderHealth.source).Nodup)
    (hstore : (storeRefresh P path batch.snapshot batch.health).atomically F db = (result, db')) :
    Attempted health (.stored batch result :: history) db' := by
  obtain ⟨tables', health', rfl, hrecords⟩ := h
  rcases (storeRefresh P path batch.snapshot batch.health).atomically_cases F (.current tables' health') with
    ⟨e, he⟩ | ⟨_, committed, heval, hok⟩
  · obtain ⟨rfl, rfl⟩ := Prod.mk.inj (he.symm.trans hstore)
    exact ⟨tables', health', rfl, hrecords⟩
  · obtain ⟨rfl, rfl⟩ := Prod.mk.inj (hok.symm.trans hstore)
    obtain ⟨hacceptable, written, rfl, _⟩ := storeRefresh_commits heval
    refine ⟨written, _, rfl, fun name => ?_⟩
    rw [healthAt_putHealth hacceptable.2, find_record_reverse hbatch, hrecords, lastAttempted, Option.or_assoc]

theorem Attempted.run (h : (serverMachine P path maxViewers).Run (.init (.current tables health) start) history s) :
    Attempted health (history.filterMap storeView) s.db := by
  refine h.invariant (P := fun history s => Attempted health (history.filterMap storeView) s.db)
    ⟨tables, health, rfl, fun name => rfl⟩ ?_
  intro history s i s' a _ ih hs
  cases hview : storeView a with
  | none =>
    rw [List.filterMap_cons_none hview, store_unseen (server_step hs) hview]
    exact ih
  | some b =>
    rw [List.filterMap_cons_some hview]
    cases server_step hs with
    | stored _ _ hbatch hstore =>
      obtain rfl := Option.some.inj hview
      subst hbatch
      apply ih.stored (refreshBatch_health_nodup ..) hstore
    | _ => simp [storeView] at hview

/-- The quote and the health record of a name that the commits of a run have left. -/
def quoteAfter (start : Database) (history : List ServerAction) (name : String) : Option StoredQuote :=
  (lastCommitted name (history.filterMap storeView)).or (quoteAt start name)

def healthAfter (start : HealthTable) (history : List ServerAction) (name : String) : Option ProviderHealth :=
  (lastAttempted name (history.filterMap storeView)).or (healthAt start name)

lemma sourcesOf_pairwise (tables : CurrentTables) (id : ℤ) :
    ((sourcesOf tables id).map StoredQuote.source).Pairwise sourceLe := by
  have hle : Std.Total fun left right : SourceRow => sourceLe left.source right.source :=
    ⟨fun left right => sourceLe_total left.source right.source⟩
  have htrans : IsTrans SourceRow fun left right => sourceLe left.source right.source :=
    ⟨fun _ _ _ => sourceLe_trans⟩
  rw [sourcesOf, List.map_map]
  exact List.pairwise_map.mpr (List.pairwise_insertionSort _ _)

/-- The rows of a loaded state are the stored quotes. -/
structure LoadedQuotes (db : Database) (quotes : List StoredQuote) : Prop where
  content : ∀ quote, quote ∈ quotes ↔ quoteAt db quote.source = some quote
  valid : ∀ quote ∈ quotes, quote.valid = true
  distinct : (quotes.map StoredQuote.source).Nodup
  order : ConfiguredOrder (quotes.map StoredQuote.source)

lemma Clean.loadedQuotes (h : Clean tables) {state : StoredPriceState}
    (hload : loaded P (.current tables health) = .ok state) :
    LoadedQuotes (.current tables health) (storedQuotes (.ok state)) := by
  rcases loaded_sources hload with ⟨hlatest, hnone⟩ | ⟨row, snapshot, hlatest, hsome, hsources⟩
  · have hempty : storedQuotes (.ok state) = [] := by simp [storedQuotes, storedOf, hnone, quotesOf]
    rw [hempty]
    refine ⟨fun quote => ?_, by simp, by simp, [], [], rfl, by simp, by simp, .nil⟩
    simp [quoteAt, Database.current, hlatest]
  · have hrows : storedQuotes (.ok state) = sourcesOf tables row.id := by
      simp [storedQuotes, storedOf, hsome, quotesOf, hsources]
    have hnodup := h.sourcesOf_nodup row.id
    rw [hrows]
    refine ⟨fun quote => ?_, fun quote => h.sourcesOf_valid, hnodup,
      configuredOrder_of_sorted (sourcesOf_pairwise tables row.id) hnodup⟩
    have hfind : quoteAt (.current tables health) quote.source =
        (sourcesOf tables row.id).find? fun other => other.source = quote.source := by
      simp [quoteAt, Database.current, hlatest]
    rw [hfind, find_source_iff hnodup, and_iff_left rfl]

lemma loaded_of_step {s' : Server} {id : ℕ} {result : Except String StoredPriceState}
    (hs : ServerStep P path maxViewers s (.loaded id result) s') :
    ∃ F, ((loadPriceState P).atomically F s.db).1 = result := by
  cases hs with
  | loaded => exact ⟨_, rfl⟩

lemma loaded_health {state : StoredPriceState} (h : loaded P (.current tables health) = .ok state) :
    state.providerHealth = healthOf health := by
  rw [loaded, loadPriceState_current, stateOf] at h
  cases hsnapshot : snapshotOf P tables with
  | error e => simp [hsnapshot, Except.map] at h
  | ok snapshot =>
    simp only [hsnapshot, Except.map, Except.ok.injEq] at h
    rw [← h]

/-- The response shows one state of the two tables, each in configured order. -/
structure Shows (quotes : String → Option StoredQuote) (records : String → Option ProviderHealth) (status : ℕ)
    (body : PriceResponse) : Prop where
  status : status = if body.sources.isEmpty then 503 else 200
  rows : ∀ row, row ∈ body.sources ↔
    ∃ quote, quotes quote.source = some quote ∧ row = quote.evaluate body.evaluatedAtUnix
  distinctRows : (body.sources.map fun row => row.quote.source).Nodup
  orderedRows : ConfiguredOrder (body.sources.map fun row => row.quote.source)
  records : ∀ record, record ∈ body.providerHealth ↔ records record.source = some record
  distinctRecords : (body.providerHealth.map ProviderHealth.source).Nodup
  orderedRecords : ConfiguredOrder (body.providerHealth.map ProviderHealth.source)

lemma evaluatedRows_sources {quotes : List StoredQuote} (h : ∀ quote ∈ quotes, quote.valid = true) (now : ℤ) :
    ((evaluatedRows quotes now).map fun row => row.quote.source) = quotes.map StoredQuote.source := by
  rw [evaluatedRows, List.filter_eq_self.mpr h, List.map_map]
  rfl

lemma shows_of_loaded {db : Database} {quotes : String → Option StoredQuote} {state : StoredPriceState}
    (hquotes : LoadedQuotes db (storedQuotes (.ok state))) (hcontent : ∀ name, quoteAt db name = quotes name)
    (hhealth : state.providerHealth = healthOf health) (context : ReadContext) (now : ℤ) :
    Shows quotes (healthAt health) (priceResponse (.ok state) context now).1
      (priceResponse (.ok state) context now).2 := by
  have hsources : (priceResponse (.ok state) context now).2.sources =
      evaluatedRows (storedQuotes (.ok state)) now := rfl
  have hrecords : (priceResponse (.ok state) context now).2.providerHealth = healthOf health := hhealth
  have hnames := evaluatedRows_sources hquotes.valid now
  refine ⟨rfl, fun row => ?_, ?_, ?_, fun record => ?_, ?_, ?_⟩
  · rw [hsources, evaluatedRows, List.filter_eq_self.mpr hquotes.valid, List.mem_map]
    refine exists_congr fun quote => ?_
    rw [hquotes.content, hcontent]
    exact and_congr_right' eq_comm
  · rw [hsources, hnames]
    exact hquotes.distinct
  · rw [hsources, hnames]
    exact hquotes.order
  · rw [hrecords]
    exact mem_healthOf
  · rw [hrecords]
    exact healthOf_nodup health
  · rw [hrecords]
    exact configuredOrder_of_sorted (healthOf_sorted health) (healthOf_nodup health)

lemma loaded_of_responded {db : Database} {newer older : List ServerAction} {id status : ℕ} {body : PriceResponse}
    (h : (serverMachine P path maxViewers).Run (.init db start) (newer ++ .responded id status body :: older) s) :
    ∃ middle result before context now, older = middle ++ .loaded id result :: before ∧
      (status, body) = priceResponse result context now := by
  obtain ⟨answering, i, after, hanswering, hs, _⟩ := h.event
  obtain ⟨seen, refreshing, reason, hread, hbody⟩ := respond_step hs
  obtain ⟨owner, _, _, later, earlier, rfl, hseen, _⟩ := (Noticed.run hanswering).reads id _ hread
  obtain ⟨middle, before, rfl⟩ := List.append_of_mem hseen.loaded
  refine ⟨later ++ .decided id :: middle, seen.loaded, before, _, _, ?_, hbody⟩
  rw [List.append_assoc, List.cons_append]

/-- What a read has loaded is what the commits before it have left. -/
lemma shows_of_load (hclean : Clean tables) {newer older : List ServerAction} {id : ℕ} {state : StoredPriceState}
    (h : (serverMachine P path maxViewers).Run (.init (.current tables health) start)
      (newer ++ .loaded id (.ok state) :: older) s) (context : ReadContext) (now : ℤ) :
    Shows (quoteAfter (.current tables health) older) (healthAfter health older)
      (priceResponse (.ok state) context now).1 (priceResponse (.ok state) context now).2 := by
  obtain ⟨loading, i, after, hloading, hload, _⟩ := h.event
  have hstart : Tracked (.current tables health) [] (.current tables health) :=
    ⟨tables, health, rfl, hclean, fun name => rfl⟩
  obtain ⟨tables', health', hdb, hclean', hquotes⟩ := Tracked.run hstart (store_refines hloading)
  replace hdb : loading.db = .current tables' health' := hdb
  obtain ⟨written, stored, hdb', hrecords⟩ := Attempted.run hloading
  obtain ⟨rfl, rfl⟩ : tables' = written ∧ health' = stored := by
    simpa [Database.current] using hdb.symm.trans hdb'
  obtain ⟨F, hresult⟩ := loaded_of_step (server_step hload)
  have hstate := loaded_of_atomically hresult
  dsimp only at hquotes
  rw [hdb] at hstate hquotes
  rw [← (funext hrecords : healthAt health' = healthAfter health older)]
  exact shows_of_loaded (hclean'.loadedQuotes hstate) hquotes (loaded_health hstate) context now

lemma clean_of_rows (hnames : (tables.children.items.map SourceRow.source).Nodup)
    (hprices : ∀ row ∈ tables.children.items, row.priceUsd.isFinite = true ∧ row.priceUsd.positive = true) :
    Clean tables :=
  ⟨hnames, fun row hrow => by simpa [StoredQuote.valid, SourceRow.quote] using hprices row hrow⟩

/-- Reads, cancellations, refreshes, presence updates and the shutdown in any order, from distinct sources with
positive prices. A response is an error without rows where its load has failed. Else its rows and its health records
are those that the commits before its load have left, all of them, each evaluated at the time of the response. -/
theorem served_read_law (P : Platform) (path : DbPath) (maxViewers : ℕ) {tables : CurrentTables} (health : HealthTable)
    (hnames : (tables.children.items.map SourceRow.source).Nodup)
    (hprices : ∀ row ∈ tables.children.items, row.priceUsd.isFinite = true ∧ row.priceUsd.positive = true)
    {start : ℕ} {newer older : List ServerAction} {id status : ℕ} {body : PriceResponse} {s : Server}
    (h : (serverMachine P path maxViewers).Run (.init (.current tables health) start)
      (newer ++ .responded id status body :: older) s) :
    ∃ middle result before, older = middle ++ .loaded id result :: before ∧
      ((∃ error, result = .error error ∧ status = 500 ∧ body.sources = [] ∧ body.providerHealth = []) ∨
        Shows (quoteAfter (.current tables health) before) (healthAfter health before) status body) := by
  obtain ⟨middle, result, before, context, now, rfl, hbody⟩ := loaded_of_responded h
  obtain ⟨rfl, rfl⟩ := Prod.mk.inj hbody
  refine ⟨middle, result, before, rfl, ?_⟩
  cases result with
  | error error => exact .inl ⟨error, rfl, rfl, rfl, rfl⟩
  | ok state =>
    obtain ⟨_, _, _, hanswering, _⟩ := h.event
    exact .inr (shows_of_load (clean_of_rows hnames hprices) hanswering context now)

/-- The quotes of a successful response. -/
def ServerAction.rows : ServerAction → List StoredQuote
  | responded _ 200 body => body.sources.map SourceResponse.quote
  | _ => []

/-- A read answers after a commit that came after its load. -/
def answerAfterCommit : List ServerInput :=
  let later := nextRefresh (someProviders "51000.5" 1015) []
  oneRefresh (someProviders "50000.5" 1000) ++ later.take 10 ++ later.drop 11 ++ [.respond 2]

/-- It shows the first refresh, with the quote of Coinbase from the start, and not the second one. -/
theorem served_read_law_later_commit :
    ∃ older s id body, (serverMachine .plain ⟨none, "tracker.db"⟩ 1).Run (.init (.current storedTables seededHealth) 0)
        ([] ++ .responded id 200 body :: older) s ∧
      body.sources.map SourceResponse.quote = [⟨"CoinGecko", .finite (100003 / 2), some 1001, .aggregate⟩,
        ⟨"Coinbase", .finite 49990, some 899, .spot⟩, ⟨"Kraken", .finite (100001 / 2), some 1003, .lastTrade⟩] ∧
      quoteAt s.db "CoinGecko" = some ⟨"CoinGecko", .finite (100003 / 2), some 1016, .aggregate⟩ ∧
      ∃ middle result before, older = middle ++ .loaded id result :: before ∧
        Shows (quoteAfter (.current storedTables seededHealth) before) (healthAfter seededHealth before) 200 body := by
  have hchecked : ((serverMachine .plain ⟨none, "tracker.db"⟩ 1).exec [] (.init (.current storedTables seededHealth) 0)
      answerAfterCommit).any (fun r =>
        r.1.head?.any (fun a => a.rows = [⟨"CoinGecko", .finite (100003 / 2), some 1001, .aggregate⟩,
          ⟨"Coinbase", .finite 49990, some 899, .spot⟩, ⟨"Kraken", .finite (100001 / 2), some 1003, .lastTrade⟩]) &&
        quoteAt r.2.db "CoinGecko" = some ⟨"CoinGecko", .finite (100003 / 2), some 1016, .aggregate⟩) = true := by
    decide +kernel
  obtain ⟨⟨_ | ⟨a, older⟩, s⟩, hexec, hshown⟩ := (Option.any_eq_true _ _).mp hchecked
  · simp at hshown
  simp only [List.head?_cons, Option.any_some, Bool.and_eq_true, decide_eq_true_eq] at hshown
  obtain ⟨hrows, hcommitted⟩ := hshown
  obtain ⟨id, body, rfl⟩ : ∃ id body, a = .responded id 200 body := by
    unfold ServerAction.rows at hrows
    split at hrows
    · exact ⟨_, _, rfl⟩
    · simp at hrows
  have hrun : (serverMachine .plain ⟨none, "tracker.db"⟩ 1).Run _ ([] ++ .responded id 200 body :: older) s :=
    Machine.run_of_exec _ hexec
  obtain ⟨middle, result, before, holder, hread⟩ :=
    served_read_law .plain _ 1 seededHealth (by decide) (by decide +kernel) hrun
  refine ⟨older, s, id, body, hrun, hrows, hcommitted, middle, result, before, holder, hread.resolve_left ?_⟩
  rintro ⟨_, _, hstatus, _⟩
  simp at hstatus

end BitcoinPriceTracker

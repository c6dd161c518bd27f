import BitcoinPriceTracker.Proofs.Migration
import BitcoinPriceTracker.Proofs.ServerViews
import BitcoinPriceTracker.Proofs.StoreInvariant

namespace BitcoinPriceTracker

/-- The stored quote of a name: the one in the snapshot that a read selects. -/
def quoteAt (db : Database) (name : String) : Option StoredQuote :=
  match db.quotes with
  | .current tables =>
    (latestRow SnapshotRow.fetchedAtUnix SnapshotRow.id tables.parents.items).bind fun row =>
      (sourcesOf tables row.id).find? fun quote => quote.source = name
  | _ => none

/-- One row per source at most, and only finite positive prices. -/
structure Clean (tables : CurrentTables) : Prop where
  names : (tables.children.items.map SourceRow.source).Nodup
  prices : ∀ row ∈ tables.children.items, row.quote.valid = true

lemma sourcesOf_perm (tables : CurrentTables) (id : ℤ) :
    (sourcesOf tables id).Perm ((tables.children.items.filter fun row => row.snapshotId = id).map SourceRow.quote) :=
  (List.perm_insertionSort _ _).map _

lemma Clean.sourcesOf_nodup {tables : CurrentTables} (h : Clean tables) (id : ℤ) :
    ((sourcesOf tables id).map StoredQuote.source).Nodup := by
  rw [((sourcesOf_perm tables id).map _).nodup_iff, List.map_map]
  exact h.names.sublist (List.filter_sublist.map _)

lemma Clean.sourcesOf_valid {tables : CurrentTables} (h : Clean tables) {id : ℤ} {quote : StoredQuote}
    (hmem : quote ∈ sourcesOf tables id) : quote.valid = true := by
  rw [(sourcesOf_perm tables id).mem_iff] at hmem
  obtain ⟨row, hrow, rfl⟩ := List.mem_map.mp hmem
  exact h.prices row (List.mem_of_mem_filter hrow)

lemma loaded_sources {P : Platform} {tables : CurrentTables} {health : HealthTable} {state : StoredPriceState}
    (h : loaded P (.current tables health) = .ok state) :
    (latestRow SnapshotRow.fetchedAtUnix SnapshotRow.id tables.parents.items = none ∧ state.snapshot = none) ∨
      ∃ row snapshot, latestRow SnapshotRow.fetchedAtUnix SnapshotRow.id tables.parents.items = some row ∧
        state.snapshot = some snapshot ∧ snapshot.sources = sourcesOf tables row.id := by
  have hsnapshot := snapshotOf_of_loaded h
  unfold snapshotOf at hsnapshot
  cases hlatest : latestRow SnapshotRow.fetchedAtUnix SnapshotRow.id tables.parents.items with
  | none =>
    rw [hlatest] at hsnapshot
    exact .inl ⟨rfl, (Except.ok.inj hsnapshot).symm⟩
  | some row =>
    simp only [hlatest, snapshotAt] at hsnapshot
    cases hdecode : P.decodeStrings row.warningsJson with
    | error error => simp [hdecode, Except.map] at hsnapshot
    | ok warnings =>
      simp only [hdecode, Except.map, Except.ok.injEq] at hsnapshot
      exact .inr ⟨row, _, rfl, hsnapshot.symm, rfl⟩

lemma retainedQuotes_stored {P : Platform} {tables : CurrentTables} {health : HealthTable} {state : StoredPriceState}
    (hclean : Clean tables) (h : loaded P (.current tables health) = .ok state) (name : String) :
    (retainedQuotes state.snapshot).get? name = quoteAt (.current tables health) name := by
  unfold quoteAt Database.current
  dsimp only
  rcases loaded_sources h with ⟨hlatest, hnone⟩ | ⟨row, snapshot, hlatest, hsome, hsources⟩
  · simp [hlatest, hnone, retainedQuotes]
  · rw [hlatest, hsome, Option.bind_some]
    have hnodup : (snapshot.sources.map StoredQuote.source).Nodup := hsources ▸ hclean.sourcesOf_nodup row.id
    ext quote
    rw [retainedQuotes_get? hnodup, find_source_iff (hclean.sourcesOf_nodup row.id), hsources]
    constructor
    · rintro ⟨hmem, _, hname⟩
      exact ⟨hmem, hname⟩
    · rintro ⟨hmem, hname⟩
      exact ⟨hmem, hclean.sourcesOf_valid hmem, hname⟩

/-- The quote of a name among the successes of a batch. -/
def Batch.quoteOf (batch : Batch) (name : String) : Option StoredQuote :=
  batch.refreshed.find? fun quote => quote.source = name

lemma quoteOf_refreshBatch (P : Platform) (latest : Option SnapshotRecord) (plan : RefreshPlan)
    (attempts : UpstreamSource → Attempt) (nowUnix : ℤ) (source : UpstreamSource) :
    (refreshBatch P latest plan attempts nowUnix).quoteOf source.name =
      if source ∈ plan.sources then quoteOf P attempts source else none := by
  ext quote
  rw [Batch.quoteOf, find_source_iff (refreshed_nodup P latest plan attempts nowUnix), mem_refreshed]
  constructor
  · rintro ⟨⟨other, hother, hquote⟩, hname⟩
    obtain rfl : other = source := UpstreamSource.name_injective ((quoteOf_source hquote).symm.trans hname)
    rwa [if_pos hother]
  · intro h
    split at h
    · next hmem => exact ⟨⟨source, hmem, h⟩, quoteOf_source h⟩
    · simp at h

/-- Where a batch merges with the stored snapshot, its commit replaces the quotes of its successes
and keeps all others. -/
lemma quoteAt_batch {P : Platform} {path : DbPath} {tables : CurrentTables} {health : HealthTable}
    {state : StoredPriceState} (hclean : Clean tables) (hload : loaded P (.current tables health) = .ok state)
    {plan : RefreshPlan} {attempts : UpstreamSource → Attempt} {nowUnix : ℤ} {batch : Batch} {db : Database}
    (hbatch : batch = refreshBatch P state.snapshot plan attempts nowUnix)
    (h : (storeRefresh P path batch.snapshot batch.health).eval (.current tables health) = .ok (⟨⟩, db)) :
    ∃ tables' health', db = .current tables' health' ∧ Clean tables' ∧
      ∀ name, quoteAt db name = (batch.quoteOf name).or (quoteAt (.current tables health) name) := by
  obtain ⟨hacceptable, tables', rfl, hwritten⟩ := storeRefresh_commits h
  refine ⟨tables', _, rfl, ?_⟩
  cases hsnapshot : batch.snapshot with
  | none =>
    obtain rfl : tables' = tables := by simpa [Written, hsnapshot] using hwritten
    have hnil : batch.refreshed = [] := by
      rw [hbatch] at hsnapshot ⊢
      exact (refreshBatch_snapshot_eq_none P state.snapshot plan attempts nowUnix).mp hsnapshot
    exact ⟨hclean, fun name => by simp [Batch.quoteOf, hnil, quoteAt, Database.current]⟩
  | some snapshot =>
    obtain ⟨⟨id, hparents⟩, hquotes⟩ : Holds P tables' snapshot := by simpa [Written, hsnapshot] using hwritten
    have hsources : snapshot.sources = mergeSnapshotSources P state.snapshot batch.refreshed := by
      rw [hbatch] at hsnapshot ⊢
      exact refreshBatch_snapshot_sources P state.snapshot plan attempts nowUnix hsnapshot
    have hnames : tables'.children.items.map SourceRow.source = snapshot.sources.map StoredQuote.source := by
      rw [← hquotes, List.map_map]
      rfl
    have hclean' : Clean tables' := by
      refine ⟨?_, fun row hrow => hacceptable.1 snapshot hsnapshot row.quote ?_⟩
      · rw [hnames, hsources]
        exact mergeSnapshotSources_nodup P _ _
      · rw [← hquotes]
        exact List.mem_map_of_mem hrow
    refine ⟨hclean', fun name => ?_⟩
    have hmerged : quoteAt (.current tables' (putHealth health batch.health)) name =
        (mergedPrices state.snapshot batch.refreshed).get? name := by
      unfold quoteAt Database.current
      dsimp only
      rw [hparents, latestRow_singleton, Option.bind_some]
      ext quote
      rw [find_source_iff (hclean'.sourcesOf_nodup id), (sourcesOf_single hparents).mem_iff, hquotes, hsources,
        mem_mergeSnapshotSources]
      constructor
      · rintro ⟨hget, rfl⟩
        exact hget
      · intro hget
        obtain ⟨_, hname⟩ := Keyed.get?_eq_some_iff.mp hget
        exact ⟨hname.symm ▸ hget, hname⟩
    have hnodup : (batch.refreshed.map StoredQuote.source).Nodup := by
      rw [hbatch]
      exact refreshed_nodup P state.snapshot plan attempts nowUnix
    have hreverse : (batch.refreshed.reverse.find? fun quote => quote.source = name) = batch.quoteOf name := by
      ext quote
      rw [find?_eq_some_of_nodup hnodup, Batch.quoteOf, find_source_iff hnodup]
    rw [hmerged, mergedPrices, Keyed.get?_foldl_put, retainedQuotes_stored hclean hload, hreverse]

/-- The quote of a name in the most recent batch that committed and in which it succeeded. -/
def lastCommitted (name : String) : List StoreAction → Option StoredQuote
  | [] => none
  | .stored batch (.ok _) :: older => (batch.quoteOf name).or (lastCommitted name older)
  | _ :: older => lastCommitted name older

/-- The stored quotes are those of the most recent commits over those of a database. -/
def Tracked (start : Database) (history : List StoreAction) (db : Database) : Prop :=
  ∃ tables health, db = .current tables health ∧ Clean tables ∧
    ∀ name, quoteAt db name = (lastCommitted name history).or (quoteAt start name)

lemma Tracked.batch {P : Platform} {path : DbPath} {start db db' : Database} {history : List StoreAction}
    (h : Tracked start history db) {state : StoredPriceState} (hload : loaded P db = .ok state) {plan : RefreshPlan}
    {attempts : UpstreamSource → Attempt} {nowUnix : ℤ} {batch : Batch} {F : Faults} {result : Except String Unit}
    (hbatch : batch = refreshBatch P state.snapshot plan attempts nowUnix)
    (hstore : (storeRefresh P path batch.snapshot batch.health).atomically F db = (result, db')) :
    Tracked start (.stored batch result :: history) db' := by
  obtain ⟨tables, health, rfl, hclean, hquotes⟩ := h
  rcases (storeRefresh P path batch.snapshot batch.health).atomically_cases F (.current tables health) with
    ⟨e, he⟩ | ⟨_, committed, heval, hok⟩
  · obtain ⟨rfl, rfl⟩ := Prod.mk.inj (he.symm.trans hstore)
    exact ⟨tables, health, rfl, hclean, hquotes⟩
  · obtain ⟨rfl, rfl⟩ := Prod.mk.inj (hok.symm.trans hstore)
    obtain ⟨tables', health', rfl, hclean', hquotes'⟩ := quoteAt_batch hclean hload hbatch heval
    refine ⟨tables', health', rfl, hclean', fun name => ?_⟩
    rw [hquotes', hquotes, lastCommitted, Option.or_assoc]

lemma Clean.prune {tables : CurrentTables} (h : Clean tables) (health : HealthTable) :
    Clean (keepLatest SnapshotRow.fetchedAtUnix tables) ∧ ∀ name,
      quoteAt (.current (keepLatest SnapshotRow.fetchedAtUnix tables) health) name =
        quoteAt (.current tables health) name := by
  have hsublist : List.Sublist (keepLatest SnapshotRow.fetchedAtUnix tables).children.items tables.children.items :=
    List.filter_sublist
  refine ⟨⟨h.names.sublist (hsublist.map _), fun row hrow => h.prices row (hsublist.subset hrow)⟩, fun name => ?_⟩
  unfold quoteAt Database.current
  dsimp only
  rw [latestRow_keepLatest]
  cases hlatest : latestRow SnapshotRow.fetchedAtUnix SnapshotRow.id tables.parents.items with
  | none => rfl
  | some row => rw [Option.bind_some, Option.bind_some, sourcesOf, children_keepLatest _ _ hlatest, sourcesOf]

lemma Tracked.restart {path : DbPath} {start db : Database} {history : List StoreAction}
    (h : Tracked start history db) (F : Faults) : Tracked start history ((initDb path).atomically F db).2 := by
  rcases (initDb path).atomically_cases F db with ⟨e, he⟩ | ⟨_, db', heval, hok⟩
  · rw [he]
    exact h
  · obtain ⟨tables, health, rfl, hclean, hquotes⟩ := h
    rw [initDb_current] at heval
    obtain ⟨hclean', hquotes'⟩ := hclean.prune health
    rw [hok, ← (Prod.mk.inj (Except.ok.inj heval)).2]
    exact ⟨_, health, rfl, hclean', fun name => (hquotes' name).trans (hquotes name)⟩

/-- Along every run of the store the quote of a name is the one of the most recent commit with it. -/
theorem Tracked.run {P : Platform} {path : DbPath} {start : StoreRun} (hstart : Tracked start.db [] start.db)
    {history : List StoreAction} {s : StoreRun} (h : (storeMachine P path).Run start history s) :
    Tracked start.db history s.db := by
  refine h.invariant (P := fun history s => Tracked start.db history s.db) hstart ?_
  rintro history ⟨db, read⟩ i s' a _ ih hs
  cases i with
  | restart F =>
    obtain ⟨rfl, rfl⟩ := Prod.mk.inj (Option.some.inj hs)
    exact ih.restart F
  | batch plan attempts nowUnix F =>
    simp only [storeMachine] at hs
    split at hs
    · simp at hs
    · next state db' hload =>
      have hloaded : loaded P db = .ok state := by rw [loaded, hload]; rfl
      obtain ⟨rfl, rfl⟩ := Prod.mk.inj (Option.some.inj hs)
      exact ih.batch hloaded rfl rfl
  | beginRead =>
    cases read with
    | none =>
      obtain ⟨rfl, rfl⟩ := Prod.mk.inj (Option.some.inj hs)
      exact ih
    | some phase => simp [storeMachine] at hs
  | continueRead F =>
    cases read with
    | none => simp [storeMachine] at hs
    | some phase =>
      obtain ⟨rfl, rfl⟩ := Prod.mk.inj (Option.some.inj hs)
      cases phase with
      | begun | metadata | quotes =>
        simp only
        split <;> exact ih

lemma lastCommitted_step {a : ServerAction} {name : String} (history : List ServerAction)
    (h : ∀ task latest batch, a = .stored task latest batch (.ok ⟨⟩) → batch.quoteOf name = none) :
    lastCommitted name ((a :: history).filterMap storeView) = lastCommitted name (history.filterMap storeView) := by
  cases hview : storeView a with
  | none => rw [List.filterMap_cons_none hview]
  | some b =>
    rw [List.filterMap_cons_some hview]
    cases a with
    | stored task latest batch result =>
      obtain rfl := Option.some.inj hview
      cases result with
      | error e => rfl
      | ok _ => rw [lastCommitted, h task latest batch rfl, Option.none_or]
    | _ => simp [storeView] at hview

/-- Reads, cancellations, presence updates, the stop signal and refresh tasks in any order. The
snapshot that a batch merges into is the stored one at the moment of its transaction. In every
reachable state the stored quote of a source is the one of the most recent batch that committed and
in which its provider succeeded, or else the initial one, and no other step changes it. -/
theorem no_lost_update (P : Platform) (path : DbPath) (maxViewers : ℕ) {tables : CurrentTables}
    (health : HealthTable) (hnames : (tables.children.items.map SourceRow.source).Nodup)
    (hprices : ∀ row ∈ tables.children.items, row.priceUsd.isFinite = true ∧ row.priceUsd.positive = true)
    {start : ℕ} {history : List ServerAction} {s : Server}
    (h : (serverMachine P path maxViewers).Run (.init (.current tables health) start) history s) :
    (∀ newer older task latest batch result, history = newer ++ .stored task latest batch result :: older →
      ∃ before state running attempts nowUnix,
        (serverMachine P path maxViewers).Run (.init (.current tables health) start) older before ∧
        loaded P before.db = .ok state ∧ state.snapshot = latest ∧
        before.tasks task = some running ∧ running.snapshot = latest ∧
        batch = refreshBatch P latest running.plan attempts nowUnix ∧
        ∀ source : UpstreamSource, batch.quoteOf source.name =
          if source ∈ running.plan.sources then quoteOf P attempts source else none) ∧
    (∀ name, quoteAt s.db name =
      (lastCommitted name (history.filterMap storeView)).or (quoteAt (.current tables health) name)) ∧
    ∀ i s' a name, (serverMachine P path maxViewers).step s i = some (s', a) →
      (∀ task latest batch, a = .stored task latest batch (.ok ⟨⟩) → batch.quoteOf name = none) →
      quoteAt s'.db name = quoteAt s.db name := by
  have hclean : Clean tables :=
    ⟨hnames, fun row hrow => by simpa [StoredQuote.valid, SourceRow.quote] using hprices row hrow⟩
  have hquotes : ∀ {history s}, (serverMachine P path maxViewers).Run (.init (.current tables health) start) history s →
      ∀ name, quoteAt s.db name =
        (lastCommitted name (history.filterMap storeView)).or (quoteAt (.current tables health) name) := by
    intro history s h
    have hstart : Tracked (.current tables health) [] (.current tables health) :=
      ⟨tables, health, rfl, hclean, fun name => rfl⟩
    obtain ⟨_, _, _, _, hquotes⟩ := Tracked.run hstart (store_refines h)
    exact hquotes
  refine ⟨?_, hquotes h, ?_⟩
  · rintro newer older task latest batch result rfl
    obtain ⟨before, i, after, hbefore, hs, _⟩ := h.event
    cases server_step hs with
    | @stored _ running attempts nowUnix _ _ _ _ htask hpoint hbatch _ =>
      obtain ⟨state, hload, hsnapshot⟩ :=
        (Captured.run hbefore).held _ ((Exclusive.run hbefore).held_task htask) (by rw [hpoint]; rfl)
      refine ⟨before, state, running, attempts, nowUnix, hbefore, hload, hsnapshot, htask, rfl, hbatch, ?_⟩
      rw [hbatch]
      exact quoteOf_refreshBatch P _ _ _ _
  · intro i s' a name hs ha
    rw [hquotes (h.next hs), hquotes h, lastCommitted_step history ha]

/-- A batch that is committed over a snapshot. -/
def ServerAction.replaces : ServerAction → Bool
  | stored _ (some _) _ (.ok _) => true
  | _ => false

/-- The first batch has a new price of Kraken and none of Coinbase, and the second one, with CoinGecko, is rolled
back. -/
theorem no_lost_update_rolled_back :
    ∃ history s, (serverMachine .plain ⟨none, "tracker.db"⟩ 1).Run
        (.init (.current storedTables seededHealth) 0) history s ∧
      quoteAt s.db "Kraken" = some ⟨"Kraken", .finite (100001 / 2), some 1003, .lastTrade⟩ ∧
      quoteAt s.db "Coinbase" = some ⟨"Coinbase", .finite 49990, some 899, .spot⟩ ∧
      quoteAt s.db "CoinGecko" = some ⟨"CoinGecko", .finite (100003 / 2), some 1001, .aggregate⟩ ∧
      lastCommitted "Coinbase" (history.filterMap storeView) = none ∧
      lastCommitted "CoinGecko" (history.filterMap storeView) = quoteAt s.db "CoinGecko" ∧
      ∃ newer older task latest batch before state, history = newer ++ .stored task latest batch (.ok ⟨⟩) :: older ∧
        latest.isSome = true ∧ (serverMachine .plain ⟨none, "tracker.db"⟩ 1).Run
          (.init (.current storedTables seededHealth) 0) older before ∧
        loaded .plain before.db = .ok state ∧ state.snapshot = latest := by
  have hchecked : ((serverMachine .plain ⟨none, "tracker.db"⟩ 1).exec [] (.init (.current storedTables seededHealth) 0)
      (oneRefresh (someProviders "50000.5" 1000) ++
        nextRefresh (someProviders "51000.5" 1015) [none, some "disk I/O error"])).any (fun r =>
        quoteAt r.2.db "Kraken" = some ⟨"Kraken", .finite (100001 / 2), some 1003, .lastTrade⟩ &&
        quoteAt r.2.db "Coinbase" = some ⟨"Coinbase", .finite 49990, some 899, .spot⟩ &&
        quoteAt r.2.db "CoinGecko" = some ⟨"CoinGecko", .finite (100003 / 2), some 1001, .aggregate⟩ &&
        lastCommitted "Coinbase" (r.1.filterMap storeView) = none &&
        lastCommitted "CoinGecko" (r.1.filterMap storeView) ≠ none &&
        r.1.any ServerAction.replaces) = true := by
    decide +kernel
  obtain ⟨⟨history, s⟩, hexec, hshown⟩ := (Option.any_eq_true _ _).mp hchecked
  simp only [Bool.and_eq_true, decide_eq_true_eq] at hshown
  obtain ⟨⟨⟨⟨⟨hkraken, hbase⟩, hgecko⟩, hkept⟩, hnew⟩, hreplaced⟩ := hshown
  have hrun := Machine.run_of_exec _ hexec
  obtain ⟨hbatches, hquotes, _⟩ :=
    no_lost_update .plain ⟨none, "tracker.db"⟩ 1 seededHealth (by decide) (by decide +kernel) hrun
  obtain ⟨a, hmem, hreplaces⟩ := List.any_eq_true.mp hreplaced
  obtain ⟨task, latest, batch, hlatest, rfl⟩ :
      ∃ task latest batch, latest.isSome = true ∧ a = .stored task latest batch (.ok ⟨⟩) := by
    unfold ServerAction.replaces at hreplaces
    split at hreplaces
    · exact ⟨_, _, _, rfl, rfl⟩
    · simp at hreplaces
  obtain ⟨newer, older, rfl⟩ := List.append_of_mem hmem
  obtain ⟨before, state, _, _, _, hbefore, hloaded, hsnapshot, _⟩ := hbatches newer older _ _ _ _ rfl
  refine ⟨_, s, hrun, hkraken, hbase, hgecko, hkept, ?_, newer, older, task, latest, batch, before, state, rfl, hlatest,
    hbefore, hloaded, hsnapshot⟩
  obtain ⟨quote, hquote⟩ := Option.ne_none_iff_exists'.mp hnew
  rw [hquotes, hquote]
  rfl

end BitcoinPriceTracker

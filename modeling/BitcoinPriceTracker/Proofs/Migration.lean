import BitcoinPriceTracker.Proofs.StoreInvariant

namespace BitcoinPriceTracker

lemma latestFirst_total {ρ : Type} (fetchedAt id : ρ → ℤ) : Std.Total (latestFirst fetchedAt id) where
  total left right := by
    unfold latestFirst
    omega

lemma latestFirst_trans {ρ : Type} (fetchedAt id : ρ → ℤ) : IsTrans ρ (latestFirst fetchedAt id) where
  trans first second third h₁ h₂ := by
    unfold latestFirst at *
    omega

lemma latestRow_eq_none_iff {ρ : Type} {fetchedAt id : ρ → ℤ} {rows : List ρ} :
    latestRow fetchedAt id rows = none ↔ rows = [] := by
  unfold latestRow
  rw [List.head?_eq_none_iff, ← List.length_eq_zero_iff, List.length_insertionSort, List.length_eq_zero_iff]

lemma latestFirst_of_latestRow {ρ : Type} {fetchedAt id : ρ → ℤ} {rows : List ρ} {row : ρ}
    (h : latestRow fetchedAt id rows = some row) : ∀ other ∈ rows, latestFirst fetchedAt id row other := by
  intro other hother
  have := latestFirst_total fetchedAt id
  have := latestFirst_trans fetchedAt id
  have hsorted := List.pairwise_insertionSort (latestFirst fetchedAt id) rows
  obtain ⟨rest, hrest⟩ := List.head?_eq_some_iff.mp h
  rw [hrest, List.pairwise_cons] at hsorted
  have hmem : other ∈ row :: rest := by
    rw [← hrest, List.mem_insertionSort]
    exact hother
  rcases List.mem_cons.mp hmem with rfl | htail
  · exact .inr ⟨rfl, le_rfl⟩
  · exact hsorted.1 other htail

section Pruning

variable {ρ τ : Type} {id : ρ → ℤ} {childId parent : τ → ℤ} (fetchedAt : ρ → ℤ)
  (tables : Linked id childId parent)

lemma parents_keepLatest :
    (keepLatest fetchedAt tables).parents.items = (latestRow fetchedAt id tables.parents.items).toList := by
  cases hlatest : latestRow fetchedAt id tables.parents.items with
  | none => simp [keepLatest, Linked.deleteParents, latestRow_eq_none_iff.mp hlatest]
  | some row =>
    have hrow := latestRow_mem hlatest
    have hget : tables.parents.toKeyed.get? (id row) = some row := Keyed.get?_eq_some_iff.mpr ⟨hrow, rfl⟩
    have hfilter := tables.parents.toKeyed.filter_key_eq (id row)
    rw [hget] at hfilter
    rw [← hfilter]
    simp [keepLatest, Linked.deleteParents, hlatest]

lemma keepLatest_single : (keepLatest fetchedAt tables).parents.items.length ≤ 1 := by
  rw [parents_keepLatest]
  cases latestRow fetchedAt id tables.parents.items <;> simp

@[simp] lemma latestRow_keepLatest :
    latestRow fetchedAt id (keepLatest fetchedAt tables).parents.items =
      latestRow fetchedAt id tables.parents.items := by
  rw [parents_keepLatest]
  cases latestRow fetchedAt id tables.parents.items <;> rfl

@[simp] lemma keepLatest_keepLatest :
    keepLatest fetchedAt (keepLatest fetchedAt tables) = keepLatest fetchedAt tables :=
  keepLatest_eq_self _ (keepLatest_single fetchedAt tables)

lemma children_keepLatest {row : ρ} (h : latestRow fetchedAt id tables.parents.items = some row) :
    (keepLatest fetchedAt tables).children.items.filter (fun child => parent child = id row) =
      tables.children.items.filter fun child => parent child = id row :=
  tables.children_deleteParents_of_kept (latestRow_mem h) (by simp [h])

end Pruning

lemma readQuotes_congr (P : Platform) {db db' : Database} (latest : Option SnapshotRow)
    (h : ∀ row, latest = some row → querySources row.id db' = querySources row.id db) :
    ∃ content : Except String (Option SnapshotRecord), (readQuotes P latest).eval db = content.map (·, db) ∧
      (readQuotes P latest).eval db' = content.map (·, db') := by
  cases latest with
  | none => exact ⟨.ok none, rfl, rfl⟩
  | some row =>
    simp only [readQuotes]
    cases P.decodeStrings row.warningsJson with
    | error error => exact ⟨.error _, rfl, rfl⟩
    | ok warnings =>
      simp only [Tx.eval_bind, Tx.eval_touch, Tx.eval_query, h row rfl]
      cases querySources row.id db with
      | error e => exact ⟨.error _, rfl, rfl⟩
      | ok rows =>
        dsimp only
        cases decodeRows decodeSourceRow rows with
        | error e => exact ⟨.error _, rfl, rfl⟩
        | ok quotes => exact ⟨.ok _, rfl, rfl⟩

lemma finishRead_congr {db db' : Database} (h : queryHealth db' = queryHealth db) :
    ∃ content : Except String (List ProviderHealth), finishRead.eval db = content.map (·, db) ∧
      finishRead.eval db' = content.map (·, db') := by
  simp only [finishRead, readProviderHealth, Tx.eval_bind, Tx.eval_touch, Tx.eval_query, h]
  cases queryHealth db with
  | error e => exact ⟨.error _, rfl, rfl⟩
  | ok rows =>
    dsimp only
    cases decodeRows decodeHealthRow rows with
    | error e => exact ⟨.error _, rfl, rfl⟩
    | ok health => exact ⟨.ok _, rfl, rfl⟩

lemma loaded_congr (P : Platform) {db db' : Database} (hlatest : queryLatest db' = queryLatest db)
    (hsources : ∀ row, queryLatest db = .ok (some row) → querySources row.id db' = querySources row.id db)
    (hhealth : queryHealth db' = queryHealth db) : loaded P db' = loaded P db := by
  unfold loaded loadPriceState readMetadata
  simp only [Tx.eval_bind, Tx.eval_touch, Tx.eval_query, hlatest]
  cases hquery : queryLatest db with
  | error e => rfl
  | ok latest =>
    obtain ⟨snapshot, hold, hnew⟩ := readQuotes_congr P latest fun row hrow =>
      hsources row (hrow ▸ hquery)
    obtain ⟨health, hhold, hhnew⟩ := finishRead_congr hhealth
    simp only [hold, hnew]
    cases snapshot with
    | error e => rfl
    | ok snapshot =>
      simp only [Except.map, hhold, hhnew]
      cases health <;> rfl

/-- Pruning does not change what is loaded. -/
lemma loaded_prune (P : Platform) (db : Database) {pruned : Database} (h : pruneSnapshotsToLatest db = .ok (⟨⟩, pruned))
    (version : ℤ) : loaded P { pruned with userVersion := version } = loaded P db := by
  obtain ⟨_, quotes, health⟩ := db
  cases quotes with
  | absent => simp [pruneSnapshotsToLatest] at h
  | legacy tables =>
    obtain rfl := (Prod.mk.inj (Except.ok.inj h)).2
    rfl
  | legacyRefreshed tables =>
    obtain rfl := (Prod.mk.inj (Except.ok.inj h)).2
    exact loaded_congr P (by simp [queryLatest]) (fun _ _ => rfl) rfl
  | current tables =>
    obtain rfl := (Prod.mk.inj (Except.ok.inj h)).2
    refine loaded_congr P (by simp [queryLatest]) (fun row hrow => ?_) rfl
    have hlatest : latestRow SnapshotRow.fetchedAtUnix SnapshotRow.id tables.parents.items = some row :=
      Except.ok.inj hrow
    simp only [querySources, children_keepLatest _ _ hlatest]

lemma prune_prune {db pruned : Database} (h : pruneSnapshotsToLatest db = .ok (⟨⟩, pruned)) (version : ℤ) :
    pruneSnapshotsToLatest { pruned with userVersion := version } =
      .ok (⟨⟩, { pruned with userVersion := version }) := by
  obtain ⟨_, quotes, health⟩ := db
  cases quotes with
  | absent => simp [pruneSnapshotsToLatest] at h
  | legacy tables | legacyRefreshed tables | current tables =>
    obtain rfl := (Prod.mk.inj (Except.ok.inj h)).2
    simp [pruneSnapshotsToLatest]

/-- The rows of a database without a schema or with a legacy one. A missing column
`refreshed_source` reads as null. -/
def legacyContent : QuoteTables → Option (List SnapshotRow × List LegacySourceRow)
  | .absent => some ([], [])
  | .legacy tables => some (tables.parents.items.map LegacySnapshotRow.withRefreshedSource, tables.children.items)
  | .legacyRefreshed tables => some (tables.parents.items, tables.children.items)
  | .current _ => none

/-- The kind of the provider with a name. -/
def kindOfName (name : String) : QuoteKind :=
  match UpstreamSource.all.find? fun source => source.name = name with
  | some source => source.quoteKind
  | none => .unknown

/-- What a legacy row says as an observation: nothing about its time. -/
def LegacySourceRow.quote (row : LegacySourceRow) : StoredQuote :=
  ⟨row.source, row.priceUsd, none, kindOfName row.source⟩

/-- The UPDATE of the migration writes the kinds that the providers declare. -/
lemma kindOfSource_eq (name : String) : kindOfSource name = (kindOfName name).text := by
  unfold kindOfSource
  split
  · rfl
  · rfl
  · rfl
  · rfl
  · next hgecko hbase hkraken hgemini =>
    have hnone : (UpstreamSource.all.find? fun source => source.name = name) = none := by
      simp only [List.find?_eq_none, decide_eq_true_eq]
      rintro (_ | _ | _ | _) _ heq
      · exact hgecko heq.symm
      · exact hbase heq.symm
      · exact hkraken heq.symm
      · exact hgemini heq.symm
    rw [kindOfName, hnone]
    rfl

lemma quote_withKind (row : LegacySourceRow) : row.withObservation.withKind.quote = row.quote := by
  simp [SourceRow.quote, SourceRow.withKind, LegacySourceRow.withObservation, LegacySourceRow.quote,
    kindOfSource_eq]

lemma migrateFrom_legacy {quotes : QuoteTables} {rows : List SnapshotRow} {children : List LegacySourceRow}
    (h : legacyContent quotes = some (rows, children)) :
    ∃ tables : CurrentTables, (migrateFrom 0).eval ⟨0, quotes, none⟩ =
        .ok (⟨⟩, ⟨0, .current tables, some seededHealth⟩) ∧
      tables.parents.items = rows ∧
      tables.children.items = children.map fun row => row.withObservation.withKind := by
  cases quotes with
  | absent =>
    obtain ⟨rfl, rfl⟩ := Prod.mk.inj (Option.some.inj h)
    exact ⟨_, rfl, rfl, rfl⟩
  | legacy tables =>
    obtain ⟨rfl, rfl⟩ := Prod.mk.inj (Option.some.inj h)
    refine ⟨_, rfl, ?_, ?_⟩ <;> simp [Linked.mapRows, AutoTable.mapRows, Keyed.map]
  | legacyRefreshed tables =>
    obtain ⟨rfl, rfl⟩ := Prod.mk.inj (Option.some.inj h)
    refine ⟨_, rfl, ?_, ?_⟩ <;> simp [Linked.mapRows, AutoTable.mapRows, Keyed.map]
  | current tables => simp [legacyContent] at h

/-- The content of the legacy row with the greatest pair of time and id: its own columns and
all and only its source rows. -/
structure MigratedRow (P : Platform) (rows : List SnapshotRow) (children : List LegacySourceRow)
    (row : SnapshotRow) (snapshot : SnapshotRecord) : Prop where
  mem : row ∈ rows
  latest : ∀ other ∈ rows, other.fetchedAtUnix < row.fetchedAtUnix ∨
    row.fetchedAtUnix = other.fetchedAtUnix ∧ other.id ≤ row.id
  fetchedAtUnix : snapshot.fetchedAtUnix = row.fetchedAtUnix
  averagePrice : snapshot.averagePrice = row.averagePrice
  spread : snapshot.spread = row.spread
  warnings : P.decodeStrings row.warningsJson = .ok snapshot.warnings
  refreshedSource : snapshot.refreshedSource = row.refreshedSource
  sources : snapshot.sources.Perm
    ((children.filter fun child => child.snapshotId = row.id).map LegacySourceRow.quote)

/-- The snapshot that remains of legacy rows. -/
def MigratedSnapshot (P : Platform) (rows : List SnapshotRow) (children : List LegacySourceRow) :
    Option SnapshotRecord → Prop
  | none => rows = []
  | some snapshot => ∃ row, MigratedRow P rows children row snapshot

lemma sourcesOf_migrated {tables : CurrentTables} {children : List LegacySourceRow}
    (h : tables.children.items = children.map fun row => row.withObservation.withKind) (snapshotId : ℤ) :
    (sourcesOf tables snapshotId).Perm
      ((children.filter fun child => child.snapshotId = snapshotId).map LegacySourceRow.quote) := by
  unfold sourcesOf
  refine ((List.perm_insertionSort _ _).map _).trans (List.Perm.of_eq ?_)
  rw [h, List.filter_map, List.map_map]
  exact List.map_congr_left fun row _ => quote_withKind row

lemma snapshotOf_migrated {P : Platform} {tables : CurrentTables} {rows : List SnapshotRow}
    {children : List LegacySourceRow} (hrows : tables.parents.items = rows)
    (hchildren : tables.children.items = children.map fun row => row.withObservation.withKind)
    (hwarnings : ∀ row ∈ rows, (∀ other ∈ rows, latestFirst SnapshotRow.fetchedAtUnix SnapshotRow.id row other) →
      ∃ warnings, P.decodeStrings row.warningsJson = .ok warnings) :
    ∃ snapshot, snapshotOf P tables = .ok snapshot ∧ MigratedSnapshot P rows children snapshot := by
  unfold snapshotOf
  rw [hrows]
  cases hlatest : latestRow SnapshotRow.fetchedAtUnix SnapshotRow.id rows with
  | none => exact ⟨none, rfl, latestRow_eq_none_iff.mp hlatest⟩
  | some row =>
    have hmem := latestRow_mem hlatest
    have hfirst := latestFirst_of_latestRow hlatest
    obtain ⟨warnings, hdecode⟩ := hwarnings row hmem hfirst
    simp only [snapshotAt, hdecode]
    exact ⟨_, rfl, row, hmem, hfirst, rfl, rfl, rfl, hdecode, rfl, sourcesOf_migrated hchildren row.id⟩

lemma initDb_migrates (P : Platform) (path : DbPath) {quotes : QuoteTables} {rows : List SnapshotRow}
    {children : List LegacySourceRow} (h : legacyContent quotes = some (rows, children)) :
    ∃ (db : Database) (tables : CurrentTables), (initDb path).eval ⟨0, quotes, none⟩ = .ok (⟨⟩, db) ∧
      tables.parents.items = rows ∧
      tables.children.items = (children.map fun row => row.withObservation.withKind) ∧
      loaded P db = (snapshotOf P tables).map fun snapshot => ⟨snapshot, unknownRecords⟩ := by
  obtain ⟨tables, hmigrate, hparents, hchildren⟩ := migrateFrom_legacy h
  have hinit := initDb_eval path ⟨0, quotes, none⟩
  simp only [hmigrate] at hinit
  refine ⟨_, tables, hinit, hparents, hchildren, ?_⟩
  have hcurrent : loaded P ⟨0, .current tables, some seededHealth⟩ = loaded P (.current tables seededHealth) :=
    loaded_congr P rfl (fun _ _ => rfl) rfl
  rw [loaded_prune P ⟨0, .current tables, some seededHealth⟩ rfl SCHEMA_VERSION, hcurrent, loaded,
    loadPriceState_current, stateOf]
  cases snapshotOf P tables <;> rfl

lemma initDb_legacy {P : Platform} (path : DbPath) {quotes : QuoteTables} {rows : List SnapshotRow}
    {children : List LegacySourceRow} (h : legacyContent quotes = some (rows, children))
    (hwarnings : ∀ row ∈ rows, (∀ other ∈ rows, latestFirst SnapshotRow.fetchedAtUnix SnapshotRow.id row other) →
      ∃ warnings, P.decodeStrings row.warningsJson = .ok warnings) :
    ∃ db snapshot, (initDb path).eval ⟨0, quotes, none⟩ = .ok (⟨⟩, db) ∧
      loaded P db = .ok ⟨snapshot, unknownRecords⟩ ∧ MigratedSnapshot P rows children snapshot := by
  obtain ⟨db, tables, hinit, hparents, hchildren, hloaded⟩ := initDb_migrates P path h
  obtain ⟨snapshot, hsnapshot, hmigrated⟩ := snapshotOf_migrated hparents hchildren hwarnings
  exact ⟨db, snapshot, hinit, by rw [hloaded, hsnapshot]; rfl, hmigrated⟩

lemma initDb_unreadable {P : Platform} (path : DbPath) {quotes : QuoteTables} {rows : List SnapshotRow}
    {children : List LegacySourceRow} {row : SnapshotRow} {error : JsonError}
    (h : legacyContent quotes = some (rows, children))
    (hlatest : latestRow SnapshotRow.fetchedAtUnix SnapshotRow.id rows = some row)
    (herror : P.decodeStrings row.warningsJson = .error error) :
    ∃ db, (initDb path).eval ⟨0, quotes, none⟩ = .ok (⟨⟩, db) ∧
      loaded P db = .error ("failed to decode stored warnings: " ++ error.diagnostic) := by
  obtain ⟨db, tables, hinit, hparents, _, hloaded⟩ := initDb_migrates P path h
  refine ⟨db, hinit, ?_⟩
  rw [hloaded, snapshotOf, hparents, hlatest]
  simp only [snapshotAt, herror]
  rfl

lemma initDb_loaded {P : Platform} {path : DbPath} {db db' : Database} (hversion : db.userVersion = SCHEMA_VERSION)
    (h : (initDb path).eval db = .ok (⟨⟩, db')) : loaded P db' = loaded P db := by
  have hmigrate : (migrateFrom SCHEMA_VERSION).eval db = .ok (⟨⟩, db) := rfl
  rw [initDb_eval, hversion, hmigrate] at h
  dsimp only at h
  cases hprune : pruneSnapshotsToLatest db with
  | error e => simp [hprune] at h
  | ok pruned =>
    simp only [hprune] at h
    rw [← (Prod.mk.inj (Except.ok.inj h)).2]
    exact loaded_prune P _ hprune SCHEMA_VERSION

/-- A database that was initialised is not changed by initialising it again. -/
lemma initDb_again {path : DbPath} {db db' : Database} (h : (initDb path).eval db = .ok (⟨⟩, db')) :
    (initDb path).eval db' = .ok (⟨⟩, db') := by
  rw [initDb_eval] at h
  cases hmigrate : (migrateFrom db.userVersion).eval db with
  | error e => simp [hmigrate] at h
  | ok migrated =>
    simp only [hmigrate] at h
    cases hprune : pruneSnapshotsToLatest migrated.2 with
    | error e => simp [hprune] at h
    | ok pruned =>
      simp only [hprune] at h
      rw [← (Prod.mk.inj (Except.ok.inj h)).2, initDb_eval]
      have hkeep : (migrateFrom SCHEMA_VERSION).eval { pruned.2 with userVersion := SCHEMA_VERSION } =
          .ok (⟨⟩, { pruned.2 with userVersion := SCHEMA_VERSION }) := rfl
      simp only [hkeep, prune_prune hprune]

lemma initDb_unsupported (path : DbPath) {db : Database} (hzero : db.userVersion ≠ 0)
    (hversion : db.userVersion ≠ SCHEMA_VERSION) : ∃ e, (initDb path).eval db = .error e := by
  rw [initDb_eval, migrateFrom, if_neg hzero, if_neg hversion]
  exact ⟨_, rfl⟩

/-- What starting the server does to a database. An empty or legacy one is loaded afterwards as
its latest snapshot with unknown times and health, if the warnings of that snapshot are a list of strings; if they are
not, loading fails and starting does not. One of the current version is loaded as
before, under every fault, and initialising again changes nothing. Any other version, and any
fault, leaves the database as it was. -/
theorem migration_law (P : Platform) (path : DbPath) :
    (∀ (quotes : QuoteTables) (rows : List SnapshotRow) (children : List LegacySourceRow),
      legacyContent quotes = some (rows, children) →
      (∀ row ∈ rows, (∀ other ∈ rows, other.fetchedAtUnix < row.fetchedAtUnix ∨
          row.fetchedAtUnix = other.fetchedAtUnix ∧ other.id ≤ row.id) →
        ∃ warnings, P.decodeStrings row.warningsJson = .ok warnings) →
      ∃ db snapshot, (initDb path).eval ⟨0, quotes, none⟩ = .ok (⟨⟩, db) ∧
        loaded P db = .ok ⟨snapshot, UpstreamSource.all.map fun source => ⟨source.name, .unknown⟩⟩ ∧
        MigratedSnapshot P rows children snapshot) ∧
    (∀ (quotes : QuoteTables) (rows : List SnapshotRow) (children : List LegacySourceRow) (row : SnapshotRow)
      (error : JsonError), legacyContent quotes = some (rows, children) →
      latestRow SnapshotRow.fetchedAtUnix SnapshotRow.id rows = some row →
      P.decodeStrings row.warningsJson = .error error →
      ∃ db, (initDb path).eval ⟨0, quotes, none⟩ = .ok (⟨⟩, db) ∧
        loaded P db = .error ("failed to decode stored warnings: " ++ error.diagnostic)) ∧
    (∀ tables health, ∃ db, (initDb path).eval (.current tables health) = .ok (⟨⟩, db)) ∧
    (∀ db F, db.userVersion = SCHEMA_VERSION → loaded P ((initDb path).atomically F db).2 = loaded P db) ∧
    (∀ db db', (initDb path).eval db = .ok (⟨⟩, db') → (initDb path).eval db' = .ok (⟨⟩, db')) ∧
    (∀ db F, db.userVersion ≠ 0 → db.userVersion ≠ SCHEMA_VERSION →
      ∃ e, (initDb path).atomically F db = (.error e, db)) ∧
    ∀ db F, (∃ e, (initDb path).atomically F db = (.error e, db)) ∨
      ∃ db', (initDb path).eval db = .ok (⟨⟩, db') ∧ (initDb path).atomically F db = (.ok ⟨⟩, db') := by
  refine ⟨fun quotes rows children => initDb_legacy path,
    fun quotes rows children row error => initDb_unreadable path,
    fun tables health => ⟨_, initDb_current path tables health⟩,
    fun db F hversion => ?_, fun db db' => initDb_again, fun db F hzero hversion => ?_, fun db F => ?_⟩
  · rcases (initDb path).atomically_cases F db with ⟨e, he⟩ | ⟨_, db', heval, hok⟩
    · rw [he]
    · rw [hok]
      exact initDb_loaded hversion heval
  · obtain ⟨e, he⟩ := initDb_unsupported path hzero hversion
    rcases (initDb path).atomically_cases F db with hfailed | ⟨_, db', heval, _⟩
    · exact hfailed
    · simp [he] at heval
  · rcases (initDb path).atomically_cases F db with hfailed | ⟨_, db', heval, hok⟩
    · exact .inl hfailed
    · exact .inr ⟨db', heval, hok⟩

/-- Three legacy snapshots, two of them of the same second: the last one has a source that is not configured, and the
first one warnings that are no list. -/
def tiedTables : LegacyTables where
  parents := ⟨⟨[⟨1, 90, none, none, "\x7b\x7d"⟩, ⟨2, 100, none, none, "[]"⟩,
    ⟨3, 100, some (.finite 50100), none, "[\"Gemini request timed out\"]"⟩], by decide⟩, 3, by decide⟩
  children := ⟨⟨[⟨1, 1, "Kraken", .finite 50000⟩, ⟨2, 2, "Kraken", .finite 50001⟩, ⟨3, 3, "Bitstamp", .finite 50100⟩,
    ⟨4, 3, "Gemini", .finite 50099⟩], by decide⟩, 4, by decide⟩
  references := by decide

/-- One legacy snapshot whose warnings are an empty object. -/
def objectTables : LegacyTables where
  parents := ⟨⟨[⟨1, 100, none, none, "\x7b\x7d"⟩], by decide⟩, 1, by decide⟩
  children := ⟨⟨[⟨1, 1, "Kraken", .finite 50000⟩], by decide⟩, 1, by decide⟩
  references := by decide

lemma decodeStrings_object :
    Platform.plain.decodeStrings "\x7b\x7d" = .error ⟨"invalid type, expected a sequence"⟩ := by
  decide +kernel

lemma latestRow_objectTables : latestRow SnapshotRow.fetchedAtUnix SnapshotRow.id
    (objectTables.parents.items.map LegacySnapshotRow.withRefreshedSource) =
      some ⟨1, 100, none, none, "\x7b\x7d", none⟩ := rfl

/-- The later of two tied snapshots remains; a version from the future is refused. -/
theorem migration_law_tied :
    (∃ db snapshot, (initDb ⟨none, "tracker.db"⟩).eval ⟨0, .legacy tiedTables, none⟩ = .ok (⟨⟩, db) ∧
      loaded .plain db = .ok ⟨snapshot, UpstreamSource.all.map fun source => ⟨source.name, .unknown⟩⟩ ∧
      MigratedSnapshot .plain (tiedTables.parents.items.map LegacySnapshotRow.withRefreshedSource)
        tiedTables.children.items snapshot) ∧
    (∃ db, (initDb ⟨none, "tracker.db"⟩).eval ⟨0, .legacy objectTables, none⟩ = .ok (⟨⟩, db) ∧
      loaded .plain db = .error "failed to decode stored warnings: invalid type, expected a sequence") ∧
    loaded .plain ((initDb ⟨none, "tracker.db"⟩).atomically [some "disk I/O error"]
      (.current storedTables seededHealth)).2 = loaded .plain (.current storedTables seededHealth) ∧
    (initDb ⟨none, "tracker.db"⟩).eval (.current .empty seededHealth) = .ok (⟨⟩, .current .empty seededHealth) ∧
    ∃ e, (initDb ⟨none, "tracker.db"⟩).atomically [] ⟨2, .absent, none⟩ = (.error e, ⟨2, .absent, none⟩) := by
  obtain ⟨hlegacy, hunreadable, _, hload, hagain, hunsupported, _⟩ := migration_law .plain ⟨none, "tracker.db"⟩
  refine ⟨hlegacy (.legacy tiedTables) _ _ rfl fun row hrow hlatest => ?_,
    hunreadable (.legacy objectTables) _ _ _ _ rfl latestRow_objectTables decodeStrings_object,
    hload (.current storedTables seededHealth) _ rfl,
    hagain .blank _ (initDb_blank _), hunsupported ⟨2, .absent, none⟩ [] (by decide) (by decide)⟩
  obtain ⟨legacy, hmem, rfl⟩ := List.mem_map.mp hrow
  simp only [tiedTables, List.mem_cons, List.not_mem_nil, or_false] at hmem
  have hnewest := hlatest (LegacySnapshotRow.withRefreshedSource ⟨3, 100, some (.finite 50100), none,
    "[\"Gemini request timed out\"]"⟩) (List.mem_map_of_mem (by simp [tiedTables]))
  rcases hmem with rfl | rfl | rfl
  · simp [LegacySnapshotRow.withRefreshedSource] at hnewest
  · exact ⟨[], by decide +kernel⟩
  · exact ⟨["Gemini request timed out"], by decide +kernel⟩

/-- Warnings that are valid JSON are not enough for a load after the migration. -/
theorem migration_of_object : ¬∀ (quotes : QuoteTables) (rows : List SnapshotRow) (children : List LegacySourceRow),
    legacyContent quotes = some (rows, children) →
    (∀ row ∈ rows, ∃ value, Platform.plain.parseJson (row.warningsJson.toList.map fun ch => .ofNat ch.toNat) =
      .ok value) →
    ∃ db snapshot, (initDb ⟨none, "tracker.db"⟩).eval ⟨0, quotes, none⟩ = .ok (⟨⟩, db) ∧
      loaded .plain db = .ok ⟨snapshot, UpstreamSource.all.map fun source => ⟨source.name, .unknown⟩⟩ ∧
      MigratedSnapshot .plain rows children snapshot := by
  intro h
  obtain ⟨db, snapshot, hinit, hloaded, _⟩ := h (.legacy objectTables) _ _ rfl fun row hrow => by
    obtain ⟨legacy, hmem, rfl⟩ := List.mem_map.mp hrow
    obtain rfl := List.mem_singleton.mp hmem
    exact ⟨.object [], by with_unfolding_all rfl⟩
  obtain ⟨db', hinit', hfailed⟩ := initDb_unreadable (P := .plain) ⟨none, "tracker.db"⟩
    (show legacyContent (.legacy objectTables) = some (_, _) from rfl) latestRow_objectTables decodeStrings_object
  obtain ⟨_, rfl⟩ := Prod.mk.inj (Except.ok.inj (hinit.symm.trans hinit'))
  rw [hloaded] at hfailed
  cases hfailed

end BitcoinPriceTracker

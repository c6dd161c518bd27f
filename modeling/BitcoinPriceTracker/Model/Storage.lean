import BitcoinPriceTracker.Lib.Transaction
import BitcoinPriceTracker.Lib.Relational
import BitcoinPriceTracker.Model.SourceContract

/-!
# The store

`storage.rs` over the tables of its schema. The tables carry the constraints that SQLite
enforces: primary keys, the foreign key with its cascade, and the CHECK constraints of a row as
a field of the row. Every call of SQLite is a statement that may be failed from outside. Row
ids are unbounded, and rows that an ORDER BY leaves tied keep the order of their ids.
-/

namespace BitcoinPriceTracker

def SCHEMA_VERSION : ℤ := 1

/-! ### Rows -/

structure LegacySnapshotRow where
  id : ℤ
  fetchedAtUnix : ℤ
  averagePrice : Option F64
  spread : Option F64
  warningsJson : String

structure SnapshotRow where
  id : ℤ
  fetchedAtUnix : ℤ
  averagePrice : Option F64
  spread : Option F64
  warningsJson : String
  refreshedSource : Option String

structure LegacySourceRow where
  id : ℤ
  snapshotId : ℤ
  source : String
  priceUsd : F64

/-- `quote_kind IN ('aggregate', 'spot', 'last_trade', 'bid', 'unknown')`. -/
def quoteKindChecks (kind : String) : Bool :=
  ["aggregate", "spot", "last_trade", "bid", "unknown"].contains kind

structure SourceRow where
  id : ℤ
  snapshotId : ℤ
  source : String
  priceUsd : F64
  lastSuccessAtUnix : Option ℤ
  quoteKind : String
  checked : quoteKindChecks quoteKind = true

structure HealthColumns where
  source : String
  attemptOutcome : String
  attemptedAtUnix : Option ℤ
  errorCategory : Option String
  errorMessage : Option String
  httpStatus : Option ℕ
  deriving DecidableEq

namespace HealthColumns

def outcomeChecks (row : HealthColumns) : Bool := ["unknown", "success", "failure"].contains row.attemptOutcome

/-- A CHECK that is not true of NULL but unknown passes. -/
def categoryChecks (row : HealthColumns) : Bool :=
  row.errorCategory.all fun category =>
    ["timeout", "transport", "http", "invalid_payload", "invalid_price"].contains category

/-- `http_status BETWEEN 100 AND 599`. -/
def statusChecks (row : HealthColumns) : Bool := row.httpStatus.all fun status => 100 ≤ status && status ≤ 599

/-- The CHECK over the whole row. -/
def combinationChecks (row : HealthColumns) : Bool :=
  (row.attemptOutcome = "unknown" && row.attemptedAtUnix.isNone && row.errorCategory.isNone &&
      row.errorMessage.isNone && row.httpStatus.isNone) ||
    (row.attemptOutcome = "success" && row.attemptedAtUnix.isSome && row.errorCategory.isNone &&
      row.errorMessage.isNone && row.httpStatus.isNone) ||
    (row.attemptOutcome = "failure" && row.attemptedAtUnix.isSome && row.errorCategory.isSome &&
      row.errorMessage.isSome &&
      ((row.errorCategory = some "http" && row.httpStatus.isSome) ||
        (row.errorCategory ≠ some "http" && row.httpStatus.isNone)))

def checks (row : HealthColumns) : Bool :=
  row.outcomeChecks && row.categoryChecks && row.statusChecks && row.combinationChecks

end HealthColumns

structure HealthRow extends HealthColumns where
  checked : toHealthColumns.checks = true

abbrev LegacyTables := Linked LegacySnapshotRow.id LegacySourceRow.id LegacySourceRow.snapshotId

abbrev RefreshedTables := Linked SnapshotRow.id LegacySourceRow.id LegacySourceRow.snapshotId

abbrev CurrentTables := Linked SnapshotRow.id SourceRow.id SourceRow.snapshotId

abbrev HealthTable := Keyed HealthRow fun row => row.source

/-- The tables of snapshots and source prices: the legacy ones without and with the column
`refreshed_source`, and the current ones with the columns of an observation. -/
inductive QuoteTables
  | absent
  | legacy (tables : LegacyTables)
  | legacyRefreshed (tables : RefreshedTables)
  | current (tables : CurrentTables)

structure Database where
  userVersion : ℤ
  quotes : QuoteTables
  health : Option HealthTable

/-- A new database file. -/
def Database.blank : Database := ⟨0, .absent, none⟩

/-! ### Texts of the enumerations -/

/-- `enum_text` on a quote kind. -/
def QuoteKind.text : QuoteKind → String
  | aggregate => "aggregate"
  | spot => "spot"
  | lastTrade => "last_trade"
  | bid => "bid"
  | unknown => "unknown"

/-- `decode_enum` on a quote kind. -/
def QuoteKind.decode : String → Option QuoteKind
  | "aggregate" => some aggregate
  | "spot" => some spot
  | "last_trade" => some lastTrade
  | "bid" => some bid
  | "unknown" => some unknown
  | _ => none

def ErrorCategory.text : ErrorCategory → String
  | timeout => "timeout"
  | transport => "transport"
  | http => "http"
  | invalidPayload => "invalid_payload"
  | invalidPrice => "invalid_price"

def ErrorCategory.decode : String → Option ErrorCategory
  | "timeout" => some timeout
  | "transport" => some transport
  | "http" => some http
  | "invalid_payload" => some invalidPayload
  | "invalid_price" => some invalidPrice
  | _ => none

/-- `CASE source WHEN 'CoinGecko' THEN 0 … ELSE 99 END` of the ORDER BY clauses. -/
def sourceRank : String → ℕ
  | "CoinGecko" => 0
  | "Coinbase" => 1
  | "Kraken" => 2
  | "Gemini" => 3
  | _ => 99

/-- The order by rank and then by name. -/
def sourceLe (left right : String) : Prop :=
  sourceRank left < sourceRank right ∨ sourceRank left = sourceRank right ∧ left ≤ right

instance (left right : String) : Decidable (sourceLe left right) :=
  inferInstanceAs (Decidable (_ ∨ _))

/-- The order of `ORDER BY fetched_at_unix DESC, id DESC`. -/
def latestFirst {ρ : Type} (fetchedAt id : ρ → ℤ) (left right : ρ) : Prop :=
  fetchedAt right < fetchedAt left ∨ fetchedAt left = fetchedAt right ∧ id right ≤ id left

instance {ρ : Type} (fetchedAt id : ρ → ℤ) (left right : ρ) : Decidable (latestFirst fetchedAt id left right) :=
  inferInstanceAs (Decidable (_ ∨ _))

/-- The row that `ORDER BY fetched_at_unix DESC, id DESC LIMIT 1` selects. -/
def latestRow {ρ : Type} (fetchedAt id : ρ → ℤ) (rows : List ρ) : Option ρ :=
  (rows.insertionSort (latestFirst fetchedAt id)).head?

/-! ### Opening and migrating -/

/-- The path of the database, in the `Debug` texts of its error messages. -/
structure DbPath where
  parent : Option String
  shown : String

def openConnection (path : DbPath) : Tx Database Unit := do
  .touch ("failed to open SQLite database at " ++ path.shown ++ ": ")
  .touch ("failed to enable SQLite foreign keys for " ++ path.shown ++ ": ")

/-- `CREATE TABLE IF NOT EXISTS` for both tables. -/
def createQuoteTables (db : Database) : Except String (Unit × Database) :=
  match db.quotes with
  | .absent => .ok (⟨⟩, { db with quotes := .legacyRefreshed .empty })
  | _ => .ok (⟨⟩, db)

def LegacySnapshotRow.withRefreshedSource (row : LegacySnapshotRow) : SnapshotRow :=
  ⟨row.id, row.fetchedAtUnix, row.averagePrice, row.spread, row.warningsJson, none⟩

/-- `ensure_snapshot_column` for `refreshed_source`. -/
def ensureSnapshotColumn : Tx Database Unit := do
  .touch "failed to inspect price_snapshots schema: "
  .touch "failed to query price_snapshots schema: "
  .touch "failed to decode schema row: "
  .statement "failed to add refreshed_source column to price_snapshots: " fun db =>
    match db.quotes with
    | .legacy tables =>
      let refreshed : RefreshedTables :=
        tables.mapRows LegacySnapshotRow.withRefreshedSource (fun _ => rfl) id (fun _ => rfl) fun _ => rfl
      .ok (⟨⟩, { db with quotes := .legacyRefreshed refreshed })
    | _ => .ok (⟨⟩, db)

/-- A legacy row with the new columns and their defaults. -/
def LegacySourceRow.withObservation (row : LegacySourceRow) : SourceRow :=
  ⟨row.id, row.snapshotId, row.source, row.priceUsd, none, "unknown", rfl⟩

/-- Both `ALTER TABLE source_prices ADD COLUMN`. -/
def addObservationColumns (db : Database) : Except String (Unit × Database) :=
  match db.quotes with
  | .absent => .error "no such table: source_prices"
  -- Not reached: `ensureSnapshotColumn` comes first.
  | .legacy _ => .error "no such column: refreshed_source"
  | .legacyRefreshed tables =>
    let observed : CurrentTables :=
      tables.mapRows id (fun _ => rfl) LegacySourceRow.withObservation (fun _ => rfl) fun _ => rfl
    .ok (⟨⟩, { db with quotes := .current observed })
  | .current _ => .error "duplicate column name: last_success_at_unix"

/-- `CASE source WHEN 'CoinGecko' THEN 'aggregate' … ELSE 'unknown' END`. -/
def kindOfSource : String → String
  | "CoinGecko" => "aggregate"
  | "Coinbase" => "spot"
  | "Kraken" => "last_trade"
  | "Gemini" => "bid"
  | _ => "unknown"

lemma kindOfSource_checks (source : String) : quoteKindChecks (kindOfSource source) = true := by
  unfold kindOfSource
  split <;> decide

def SourceRow.withKind (row : SourceRow) : SourceRow :=
  { row with quoteKind := kindOfSource row.source, checked := kindOfSource_checks row.source }

/-- `UPDATE source_prices SET quote_kind = …`. -/
def updateQuoteKinds (db : Database) : Except String (Unit × Database) :=
  match db.quotes with
  | .current tables =>
    let kinds : CurrentTables := tables.mapRows id (fun _ => rfl) SourceRow.withKind (fun _ => rfl) fun _ => rfl
    .ok (⟨⟩, { db with quotes := .current kinds })
  | _ => .error "no such column: quote_kind"

def createHealthTable (db : Database) : Except String (Unit × Database) :=
  match db.health with
  | none => .ok (⟨⟩, { db with health := some .empty })
  | some _ => .error "table provider_health already exists"

/-- The row that `INSERT INTO provider_health (source)` completes with its defaults. -/
def HealthRow.unknown (source : String) : HealthRow := ⟨⟨source, "unknown", none, none, none, none⟩, rfl⟩

def seedHealth (source : UpstreamSource) (db : Database) : Except String (Unit × Database) :=
  match db.health with
  | none => .error "no such table: provider_health"
  | some health =>
    if health.contains source.name then .error "UNIQUE constraint failed: provider_health.source"
    else .ok (⟨⟩, { db with health := some (health.put (.unknown source.name)) })

def migrateUnversionedSchema : Tx Database Unit := do
  .statement "failed to initialize schema: " createQuoteTables
  ensureSnapshotColumn
  .statement "failed to migrate source observations and provider health: " addObservationColumns
  .statement "failed to migrate source observations and provider health: " updateQuoteKinds
  .statement "failed to migrate source observations and provider health: " createHealthTable
  forM UpstreamSource.all fun source => .statement "failed to initialize provider health: " (seedHealth source)

/-- Deletes the parents other than the latest one. -/
def keepLatest {ρ τ : Type} {id : ρ → ℤ} {childId parent : τ → ℤ} (fetchedAt : ρ → ℤ)
    (tables : Linked id childId parent) : Linked id childId parent :=
  tables.deleteParents fun row =>
    (latestRow fetchedAt id tables.parents.items).all fun latest => id row ≠ id latest

/-- The `DELETE` of `prune_snapshots_to_latest`. -/
def pruneSnapshotsToLatest (db : Database) : Except String (Unit × Database) :=
  match db.quotes with
  | .absent => .error "no such table: price_snapshots"
  | .legacy tables => .ok (⟨⟩, { db with quotes := .legacy (keepLatest LegacySnapshotRow.fetchedAtUnix tables) })
  | .legacyRefreshed tables =>
    .ok (⟨⟩, { db with quotes := .legacyRefreshed (keepLatest SnapshotRow.fetchedAtUnix tables) })
  | .current tables => .ok (⟨⟩, { db with quotes := .current (keepLatest SnapshotRow.fetchedAtUnix tables) })

def createParent (path : DbPath) : Tx Database Unit :=
  match path.parent with
  | some parent => .touch ("failed to create database directory " ++ parent ++ ": ")
  | none => pure ⟨⟩

/-- The `match` on the version. A refusal drops the transaction, which rolls it back. -/
def migrateFrom (version : ℤ) : Tx Database Unit :=
  if version = 0 then migrateUnversionedSchema
  else if version = SCHEMA_VERSION then pure ⟨⟩
  else
    .fail ("unsupported SQLite schema version " ++ toString version ++ "; supported version is " ++
      toString SCHEMA_VERSION)

/-- `init_db_sync`. -/
def initDb (path : DbPath) : Tx Database Unit := do
  createParent path
  openConnection path
  .touch "failed to start schema migration: "
  let version ← .query "failed to read SQLite schema version: " fun db => .ok db.userVersion
  migrateFrom version
  .statement "failed to prune stored price snapshots to the latest entry: " pruneSnapshotsToLatest
  .statement "failed to record SQLite schema version: " fun db =>
    .ok (⟨⟩, { db with userVersion := SCHEMA_VERSION })
  .touch "failed to commit schema migration: "

/-! ### Storing a refresh -/

/-- SQLite stores a NaN as NULL. -/
def sqlReal (value : Option F64) : Option F64 := value.filter fun x => x ≠ .nan

/-- `DELETE FROM price_snapshots`. -/
def clearSnapshots (db : Database) : Except String (Unit × Database) :=
  match db.quotes with
  | .current tables => .ok (⟨⟩, { db with quotes := .current (tables.deleteParents fun _ => true) })
  | _ => .error "no such table: price_snapshots"

/-- `INSERT INTO price_snapshots`, with `last_insert_rowid`. -/
def insertSnapshot (P : Platform) (snapshot : SnapshotRecord) (db : Database) :
    Except String (ℤ × Database) :=
  match db.quotes with
  | .current tables =>
    .ok (tables.parents.nextId, { db with quotes := .current (tables.insertParent
      (fun id => ⟨id, snapshot.fetchedAtUnix, sqlReal snapshot.averagePrice, sqlReal snapshot.spread,
        P.encodeStrings snapshot.warnings, snapshot.refreshedSource⟩) fun _ => rfl) })
  | _ => .error "no such table: price_snapshots"

/-- `INSERT INTO source_prices`. -/
def insertSource (snapshotId : ℤ) (quote : StoredQuote) (db : Database) : Except String (Unit × Database) :=
  match db.quotes with
  | .current tables =>
    if h : quoteKindChecks quote.quoteKind.text = true then
      match tables.insertChild snapshotId (fun id => ⟨id, snapshotId, quote.source, quote.priceUsd,
          quote.lastSuccessAtUnix, quote.quoteKind.text, h⟩) (fun _ => rfl) fun _ => rfl with
      | some tables' => .ok (⟨⟩, { db with quotes := .current tables' })
      | none => .error "FOREIGN KEY constraint failed"
    else .error "CHECK constraint failed"
  | _ => .error "no such table: source_prices"

def writeSnapshot (P : Platform) (snapshot : SnapshotRecord) : Tx Database Unit := do
  if snapshot.sources.any fun quote => !quote.priceUsd.isFinite || quote.priceUsd.nonPositive then
    .fail "refusing to store an invalid source price"
  else
    .statement "failed to clear stored price snapshot: " clearSnapshots
    let snapshotId ← .statement "failed to insert price snapshot: " (insertSnapshot P snapshot)
    .touch "failed to prepare source insert: "
    forM snapshot.sources fun quote => .statement "failed to insert source price: " (insertSource snapshotId quote)

/-- The columns of a health record. -/
def healthColumns (record : ProviderHealth) : HealthColumns :=
  match record.lastAttempt with
  | .unknown => ⟨record.source, "unknown", none, none, none, none⟩
  | .success attemptedAtUnix => ⟨record.source, "success", some attemptedAtUnix, none, none, none⟩
  | .failure attemptedAtUnix error =>
    ⟨record.source, "failure", some attemptedAtUnix, some error.category.text, some error.message,
      error.httpStatus⟩

/-- `INSERT INTO provider_health … ON CONFLICT(source) DO UPDATE`. -/
def upsertHealth (record : ProviderHealth) (db : Database) : Except String (Unit × Database) :=
  match db.health with
  | none => .error "no such table: provider_health"
  | some health =>
    if h : (healthColumns record).checks = true then
      .ok (⟨⟩, { db with health := some (health.put ⟨healthColumns record, h⟩) })
    else .error "CHECK constraint failed"

def writeProviderHealth (health : List ProviderHealth) : Tx Database Unit :=
  forM health fun record => .statement "failed to store provider health: " (upsertHealth record)

/-- `store_refresh_sync`. -/
def storeRefresh (P : Platform) (path : DbPath) (snapshot : Option SnapshotRecord)
    (health : List ProviderHealth) : Tx Database Unit := do
  openConnection path
  .touch "failed to start SQLite transaction: "
  match snapshot with
  | some snapshot => writeSnapshot P snapshot
  | none => pure ⟨⟩
  writeProviderHealth health
  .touch "failed to commit refresh transaction: "

/-! ### Loading -/

/-- The rows of a result, decoded one by one. -/
def decodeRows {ρ α : Type} (decode : ρ → Except String α) : List ρ → Except String (List α)
  | [] => .ok []
  | row :: rest =>
    match decode row with
    | .error e => .error e
    | .ok a => (decodeRows decode rest).map (a :: ·)

def queryLatest (db : Database) : Except String (Option SnapshotRow) :=
  match db.quotes with
  | .absent => .error "no such table: price_snapshots"
  | .legacy _ => .error "no such column: refreshed_source"
  | .legacyRefreshed tables => .ok (latestRow SnapshotRow.fetchedAtUnix SnapshotRow.id tables.parents.items)
  | .current tables => .ok (latestRow SnapshotRow.fetchedAtUnix SnapshotRow.id tables.parents.items)

def querySources (snapshotId : ℤ) (db : Database) : Except String (List SourceRow) :=
  match db.quotes with
  | .current tables =>
    .ok ((tables.children.items.filter fun row => row.snapshotId = snapshotId).insertionSort
      fun left right => sourceLe left.source right.source)
  | _ => .error "no such column: last_success_at_unix"

def queryHealth (db : Database) : Except String (List HealthRow) :=
  match db.health with
  | none => .error "no such table: provider_health"
  | some health => .ok (health.items.insertionSort fun left right => sourceLe left.source right.source)

def decodeSourceRow (row : SourceRow) : Except String StoredQuote :=
  match QuoteKind.decode row.quoteKind with
  | some kind => .ok ⟨row.source, row.priceUsd, row.lastSuccessAtUnix, kind⟩
  | none => .error "Conversion error from type Text at index: 3"

/-- The last attempt of a health row. A NULL where the record has a value is an error. -/
def decodeLastAttempt (row : HealthColumns) : Option LastAttempt :=
  match row.attemptOutcome with
  | "unknown" => some .unknown
  | "success" => row.attemptedAtUnix.map .success
  | "failure" => do
    let attemptedAtUnix ← row.attemptedAtUnix
    let category ← row.errorCategory.bind ErrorCategory.decode
    let message ← row.errorMessage
    some (.failure attemptedAtUnix ⟨category, message, row.httpStatus⟩)
  | _ => none

def decodeHealthRow (row : HealthRow) : Except String ProviderHealth :=
  match decodeLastAttempt row.toHealthColumns with
  | some lastAttempt => .ok ⟨row.source, lastAttempt⟩
  | none => .error "Query is not read-only"

/-- `read_snapshot` before the hook `after_metadata`. -/
def readMetadata : Tx Database (Option SnapshotRow) := .query "failed to query latest snapshot: " queryLatest

/-- `read_snapshot` after the hook. -/
def readQuotes (P : Platform) (latest : Option SnapshotRow) : Tx Database (Option SnapshotRecord) :=
  match latest with
  | none => pure none
  | some row =>
    match P.decodeStrings row.warningsJson with
    | .error error => .fail ("failed to decode stored warnings: " ++ error.diagnostic)
    | .ok warnings => do
      .touch "failed to prepare source lookup: "
      let rows ← .query "failed to query stored source prices: " (querySources row.id)
      let sources ← .query "failed to decode stored source row: " fun _ => decodeRows decodeSourceRow rows
      pure (some ⟨row.fetchedAtUnix, sources, row.averagePrice, row.spread, warnings, row.refreshedSource⟩)

def readProviderHealth : Tx Database (List ProviderHealth) := do
  .touch "failed to prepare provider health lookup: "
  let rows ← .query "failed to query provider health: " queryHealth
  .query "failed to decode provider health: " fun _ => decodeRows decodeHealthRow rows

/-- The end of the read transaction after the snapshot. -/
def finishRead : Tx Database (List ProviderHealth) := do
  let providerHealth ← readProviderHealth
  .touch "failed to finish SQLite read transaction: "
  pure providerHealth

/-- `load_price_state_sync_with_hook`: one read transaction over all queries. -/
def loadPriceState (P : Platform) : Tx Database StoredPriceState := do
  .touch "failed to open SQLite for reading: "
  .touch "failed to start SQLite read transaction: "
  let latest ← readMetadata
  let snapshot ← readQuotes P latest
  let providerHealth ← finishRead
  pure ⟨snapshot, providerHealth⟩

end BitcoinPriceTracker

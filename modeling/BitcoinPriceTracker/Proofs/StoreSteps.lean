import BitcoinPriceTracker.Model.Storage

namespace BitcoinPriceTracker

/-- A database of the current schema version. -/
def Database.current (tables : CurrentTables) (health : HealthTable) : Database :=
  ⟨SCHEMA_VERSION, .current tables, some health⟩

/-- The health table of a new database. -/
def seededHealth : HealthTable :=
  UpstreamSource.all.foldl (fun health source => health.put (.unknown source.name)) .empty

@[simp] lemma QuoteKind.decode_text (kind : QuoteKind) : QuoteKind.decode kind.text = some kind := by
  cases kind <;> rfl

@[simp] lemma QuoteKind.checks_text (kind : QuoteKind) : quoteKindChecks kind.text = true := by
  cases kind <;> rfl

lemma QuoteKind.decode_of_checks {text : String} (h : quoteKindChecks text = true) :
    ∃ kind, QuoteKind.decode text = some kind := by
  simp only [quoteKindChecks, List.contains_eq_mem, List.mem_cons, List.not_mem_nil, or_false,
    decide_eq_true_eq] at h
  rcases h with rfl | rfl | rfl | rfl | rfl <;> exact ⟨_, rfl⟩

@[simp] lemma ErrorCategory.decode_text (category : ErrorCategory) :
    ErrorCategory.decode category.text = some category := by
  cases category <;> rfl

lemma ErrorCategory.text_eq_http {category : ErrorCategory} : category.text = "http" ↔ category = .http := by
  cases category <;> decide

lemma decodeLastAttempt_healthColumns (record : ProviderHealth) :
    decodeLastAttempt (healthColumns record) = some record.lastAttempt := by
  obtain ⟨source, _ | attemptedAt | ⟨attemptedAt, error⟩⟩ := record
  · rfl
  · rfl
  · simp [decodeLastAttempt, healthColumns]

/-- The records that the constraints of `provider_health` admit. -/
def ProviderHealth.Storable (record : ProviderHealth) : Prop :=
  match record.lastAttempt with
  | .failure _ error =>
    (error.category = .http ↔ error.httpStatus.isSome = true) ∧
      ∀ status, error.httpStatus = some status → 100 ≤ status ∧ status ≤ 599
  | _ => True

lemma ErrorCategory.text_known (category : ErrorCategory) :
    ["timeout", "transport", "http", "invalid_payload", "invalid_price"].contains category.text = true := by
  cases category <;> rfl

lemma ErrorCategory.text_of_known {text : String}
    (h : ["timeout", "transport", "http", "invalid_payload", "invalid_price"].contains text = true) :
    ∃ category : ErrorCategory, category.text = text := by
  simp only [List.contains_eq_mem, List.mem_cons, List.not_mem_nil, or_false, decide_eq_true_eq] at h
  rcases h with rfl | rfl | rfl | rfl | rfl
  · exact ⟨.timeout, rfl⟩
  · exact ⟨.transport, rfl⟩
  · exact ⟨.http, rfl⟩
  · exact ⟨.invalidPayload, rfl⟩
  · exact ⟨.invalidPrice, rfl⟩

lemma healthColumns_checks (record : ProviderHealth) :
    (healthColumns record).checks = true ↔ record.Storable := by
  obtain ⟨source, _ | attemptedAt | ⟨attemptedAt, category, message, httpStatus⟩⟩ := record
  · exact iff_of_true rfl trivial
  · exact iff_of_true rfl trivial
  · have hknown : (healthColumns ⟨source, .failure attemptedAt ⟨category, message, httpStatus⟩⟩).categoryChecks =
        true := category.text_known
    rw [HealthColumns.checks, hknown]
    cases httpStatus <;>
      simp [HealthColumns.outcomeChecks, HealthColumns.statusChecks, HealthColumns.combinationChecks,
        healthColumns, ProviderHealth.Storable, ErrorCategory.text_eq_http, and_comm]

lemma healthColumns_of_checks {row : HealthColumns} (h : row.checks = true) :
    ∃ lastAttempt, healthColumns ⟨row.source, lastAttempt⟩ = row := by
  obtain ⟨source, outcome, attemptedAt, category, message, httpStatus⟩ := row
  simp only [HealthColumns.checks, Bool.and_eq_true] at h
  obtain ⟨⟨⟨_, hcategory⟩, _⟩, hcombination⟩ := h
  simp only [HealthColumns.combinationChecks, Bool.or_eq_true, Bool.and_eq_true, decide_eq_true_eq,
    Option.isNone_iff_eq_none, Option.isSome_iff_exists] at hcombination
  rcases hcombination with (⟨⟨⟨⟨rfl, rfl⟩, rfl⟩, rfl⟩, rfl⟩ | ⟨⟨⟨⟨rfl, ⟨at', rfl⟩⟩, rfl⟩, rfl⟩, rfl⟩) |
    ⟨⟨⟨⟨rfl, ⟨at', rfl⟩⟩, ⟨text, rfl⟩⟩, ⟨reason, rfl⟩⟩, _⟩
  · exact ⟨.unknown, rfl⟩
  · exact ⟨.success at', rfl⟩
  · obtain ⟨known, rfl⟩ := ErrorCategory.text_of_known hcategory
    exact ⟨.failure at' ⟨known, reason, httpStatus⟩, rfl⟩

/-- The quote in a row. -/
def SourceRow.quote (row : SourceRow) : StoredQuote :=
  ⟨row.source, row.priceUsd, row.lastSuccessAtUnix, (QuoteKind.decode row.quoteKind).getD .unknown⟩

/-- The record in a row. -/
def HealthRow.record (row : HealthRow) : ProviderHealth :=
  ⟨row.source, (decodeLastAttempt row.toHealthColumns).getD .unknown⟩

lemma decodeSourceRow_eq (row : SourceRow) : decodeSourceRow row = .ok row.quote := by
  obtain ⟨kind, hkind⟩ := QuoteKind.decode_of_checks row.checked
  simp [decodeSourceRow, SourceRow.quote, hkind]

lemma decodeHealthRow_eq (row : HealthRow) : decodeHealthRow row = .ok row.record := by
  obtain ⟨lastAttempt, hcolumns⟩ := healthColumns_of_checks row.checked
  have hdecode := decodeLastAttempt_healthColumns ⟨row.source, lastAttempt⟩
  rw [hcolumns] at hdecode
  simp [decodeHealthRow, HealthRow.record, hdecode]

/-- The row of a record. -/
def HealthRow.ofRecord (record : ProviderHealth) : Option HealthRow :=
  if h : (healthColumns record).checks = true then some ⟨healthColumns record, h⟩ else none

@[simp] lemma healthColumns_source (record : ProviderHealth) : (healthColumns record).source = record.source := by
  obtain ⟨source, _ | _ | _⟩ := record <;> rfl

lemma HealthRow.record_ofRecord {record : ProviderHealth} {row : HealthRow}
    (h : HealthRow.ofRecord record = some row) : row.record = record := by
  unfold HealthRow.ofRecord at h
  split at h
  · rw [← Option.some.inj h, HealthRow.record]
    simp [decodeLastAttempt_healthColumns]
  · simp at h

lemma decodeRows_eq {ρ α : Type} {decode : ρ → Except String α} {f : ρ → α}
    (h : ∀ row, decode row = .ok (f row)) (rows : List ρ) : decodeRows decode rows = .ok (rows.map f) := by
  induction rows with
  | nil => rfl
  | cons row rows ih => simp [decodeRows, h, ih, Except.map]

/-- The quotes of a snapshot in the order in which they are loaded. -/
def sourcesOf (tables : CurrentTables) (snapshotId : ℤ) : List StoredQuote :=
  ((tables.children.items.filter fun row => row.snapshotId = snapshotId).insertionSort
    fun left right => sourceLe left.source right.source).map SourceRow.quote

/-- The content of a snapshot row. -/
def snapshotAt (P : Platform) (tables : CurrentTables) (row : SnapshotRow) : Except String SnapshotRecord :=
  match P.decodeStrings row.warningsJson with
  | .error error => .error ("failed to decode stored warnings: " ++ error.diagnostic)
  | .ok warnings =>
    .ok ⟨row.fetchedAtUnix, sourcesOf tables row.id, row.averagePrice, row.spread, warnings, row.refreshedSource⟩

/-- The stored snapshot. -/
def snapshotOf (P : Platform) (tables : CurrentTables) : Except String (Option SnapshotRecord) :=
  match latestRow SnapshotRow.fetchedAtUnix SnapshotRow.id tables.parents.items with
  | none => .ok none
  | some row => (snapshotAt P tables row).map some

/-- The stored health records in the order in which they are loaded. -/
def healthOf (health : HealthTable) : List ProviderHealth :=
  (health.items.insertionSort fun left right => sourceLe left.source right.source).map HealthRow.record

/-- What loading a database of the current schema returns. -/
def stateOf (P : Platform) (tables : CurrentTables) (health : HealthTable) : Except String StoredPriceState :=
  (snapshotOf P tables).map fun snapshot => ⟨snapshot, healthOf health⟩

lemma readMetadata_current (tables : CurrentTables) (health : HealthTable) :
    readMetadata.eval (.current tables health) =
      .ok (latestRow SnapshotRow.fetchedAtUnix SnapshotRow.id tables.parents.items, .current tables health) := by
  simp [readMetadata, queryLatest, Database.current]

lemma readQuotes_current (P : Platform) (tables : CurrentTables) (health : HealthTable) :
    (readQuotes P (latestRow SnapshotRow.fetchedAtUnix SnapshotRow.id tables.parents.items)).eval
        (.current tables health) =
      (snapshotOf P tables).map fun snapshot => (snapshot, .current tables health) := by
  have hsources : ∀ id, querySources id (.current tables health) = .ok ((tables.children.items.filter
      fun row => row.snapshotId = id).insertionSort fun left right => sourceLe left.source right.source) :=
    fun _ => rfl
  unfold snapshotOf readQuotes
  cases latestRow SnapshotRow.fetchedAtUnix SnapshotRow.id tables.parents.items with
  | none => rfl
  | some row =>
    unfold snapshotAt
    cases hwarnings : P.decodeStrings row.warningsJson with
    | error error => simp [hwarnings, Except.map]
    | ok warnings => simp [hwarnings, hsources, decodeRows_eq decodeSourceRow_eq, sourcesOf, Except.map]

lemma finishRead_current (tables : CurrentTables) (health : HealthTable) :
    finishRead.eval (.current tables health) = .ok (healthOf health, .current tables health) := by
  simp [finishRead, readProviderHealth, queryHealth, Database.current, decodeRows_eq decodeHealthRow_eq, healthOf]

theorem loadPriceState_current (P : Platform) (tables : CurrentTables) (health : HealthTable) :
    (loadPriceState P).eval (.current tables health) =
      (stateOf P tables health).map fun state => (state, .current tables health) := by
  unfold loadPriceState stateOf
  simp only [Tx.eval_bind, Tx.eval_touch, readMetadata_current, readQuotes_current]
  cases snapshotOf P tables with
  | error e => rfl
  | ok snapshot => simp [Except.map, finishRead_current]

/-- What a load returns, without the database. -/
def loaded (P : Platform) (db : Database) : Except String StoredPriceState :=
  ((loadPriceState P).eval db).map Prod.fst

lemma loaded_of_atomically {P : Platform} {F : Faults} {db : Database} {state : StoredPriceState}
    (h : ((loadPriceState P).atomically F db).1 = .ok state) : loaded P db = .ok state := by
  rw [loaded, Tx.atomically_ok h]
  rfl

lemma load_of_loaded {P : Platform} {db : Database} {state : StoredPriceState} (h : loaded P db = .ok state) :
    ∃ db', (loadPriceState P).eval db = .ok (state, db') := by
  unfold loaded at h
  cases heval : (loadPriceState P).eval db with
  | error e => simp [heval, Except.map] at h
  | ok r =>
    obtain ⟨state', db'⟩ := r
    simp only [heval, Except.map, Except.ok.injEq] at h
    exact ⟨db', by rw [h]⟩

lemma snapshotOf_of_loaded {P : Platform} {tables : CurrentTables} {health : HealthTable} {state : StoredPriceState}
    (h : loaded P (.current tables health) = .ok state) : snapshotOf P tables = .ok state.snapshot := by
  rw [loaded, loadPriceState_current, stateOf] at h
  cases hsnapshot : snapshotOf P tables with
  | error e => simp [hsnapshot, Except.map] at h
  | ok snapshot =>
    simp only [hsnapshot, Except.map, Except.ok.injEq] at h
    rw [← h]

/-- Health records written in order over a table. -/
def putHealth (health : HealthTable) (records : List ProviderHealth) : HealthTable :=
  (records.filterMap HealthRow.ofRecord).foldl Keyed.put health

lemma upsertHealth_storable {record : ProviderHealth} (h : record.Storable) (tables : CurrentTables)
    (health : HealthTable) :
    upsertHealth record (.current tables health) = .ok (⟨⟩, .current tables (putHealth health [record])) := by
  have hchecks := (healthColumns_checks record).mpr h
  have hrow : HealthRow.ofRecord record = some ⟨healthColumns record, hchecks⟩ := dif_pos hchecks
  simp [upsertHealth, Database.current, hchecks, putHealth, hrow]

lemma upsertHealth_not_storable {record : ProviderHealth} (h : ¬record.Storable) (db : Database) :
    ∃ e, upsertHealth record db = .error e := by
  have hchecks := mt (healthColumns_checks record).mp h
  unfold upsertHealth
  cases db.health with
  | none => exact ⟨_, rfl⟩
  | some health => exact ⟨_, dif_neg hchecks⟩

lemma writeProviderHealth_ok {records : List ProviderHealth} (h : ∀ record ∈ records, record.Storable)
    (tables : CurrentTables) (health : HealthTable) :
    (writeProviderHealth records).eval (.current tables health) =
      .ok (⟨⟩, .current tables (putHealth health records)) := by
  unfold writeProviderHealth
  induction records generalizing health with
  | nil => rfl
  | cons record records ih =>
    rw [List.forM_cons, Tx.eval_bind, Tx.eval_statement,
      upsertHealth_storable (h record List.mem_cons_self)]
    have hrest := ih (fun r hr => h r (List.mem_cons_of_mem _ hr)) (putHealth health [record])
    dsimp only
    rw [hrest]
    cases hrow : HealthRow.ofRecord record <;> simp [putHealth, hrow]

lemma writeProviderHealth_error {records : List ProviderHealth} {record : ProviderHealth}
    (hmem : record ∈ records) (h : ¬record.Storable) (db : Database) :
    ∃ e, (writeProviderHealth records).eval db = .error e := by
  refine Tx.eval_forM_error hmem fun db => ?_
  obtain ⟨e, he⟩ := upsertHealth_not_storable h db
  rw [Tx.eval_statement, he]
  exact ⟨_, rfl⟩

/-- The tables hold exactly the snapshot. -/
structure Holds (P : Platform) (tables : CurrentTables) (snapshot : SnapshotRecord) : Prop where
  parents : ∃ id, tables.parents.items = [⟨id, snapshot.fetchedAtUnix, sqlReal snapshot.averagePrice,
    sqlReal snapshot.spread, P.encodeStrings snapshot.warnings, snapshot.refreshedSource⟩]
  quotes : tables.children.items.map SourceRow.quote = snapshot.sources

lemma insertSources_ok (snapshotId : ℤ) (quotes : List StoredQuote) (tables : CurrentTables)
    (health : HealthTable) (h : tables.parents.contains snapshotId = true) :
    ∃ tables' : CurrentTables,
      (forM quotes fun quote => Tx.statement "failed to insert source price: " (insertSource snapshotId quote)).eval
        (.current tables health) = .ok (⟨⟩, .current tables' health) ∧
      tables'.parents = tables.parents ∧
      tables'.children.items.map SourceRow.quote = tables.children.items.map SourceRow.quote ++ quotes := by
  induction quotes generalizing tables with
  | nil => exact ⟨tables, rfl, rfl, by simp⟩
  | cons quote quotes ih =>
    obtain ⟨next, hinsert, hparents, hchildren⟩ := tables.insertChild_spec snapshotId
      (fun id => ⟨id, snapshotId, quote.source, quote.priceUsd, quote.lastSuccessAtUnix, quote.quoteKind.text,
        quote.quoteKind.checks_text⟩) (fun _ => rfl) (fun _ => rfl) h
    have hstatement : insertSource snapshotId quote (.current tables health) =
        .ok (⟨⟩, .current next health) := by
      simp [insertSource, Database.current, hinsert]
    obtain ⟨final, heval, hkept, hquotes⟩ := ih next (hparents ▸ h)
    refine ⟨final, ?_, hkept.trans hparents, ?_⟩
    · rw [List.forM_cons, Tx.eval_bind, Tx.eval_statement, hstatement]
      exact heval
    · rw [hquotes, hchildren]
      simp [SourceRow.quote]

lemma priceGuard_eq (quote : StoredQuote) :
    (!quote.priceUsd.isFinite || quote.priceUsd.nonPositive) = !quote.valid := by
  unfold StoredQuote.valid
  cases quote.priceUsd with
  | finite value =>
    by_cases h : 0 < value
    · simp [F64.isFinite, F64.positive, F64.nonPositive, h, not_le.mpr h]
    · simp [F64.isFinite, F64.positive, F64.nonPositive, h, not_lt.mp h]
  | infinity => rfl
  | negInfinity => rfl
  | nan => rfl

lemma writeSnapshot_ok {P : Platform} {snapshot : SnapshotRecord}
    (h : ∀ quote ∈ snapshot.sources, quote.valid = true) (tables : CurrentTables) (health : HealthTable) :
    ∃ tables' : CurrentTables,
      (writeSnapshot P snapshot).eval (.current tables health) = .ok (⟨⟩, .current tables' health) ∧
        Holds P tables' snapshot := by
  have hguard : (snapshot.sources.any fun quote => !quote.priceUsd.isFinite || quote.priceUsd.nonPositive) =
      false := by
    simp only [priceGuard_eq, List.any_eq_false, Bool.not_eq_true', Bool.not_eq_false]
    exact h
  obtain ⟨hparents, hchildren⟩ := tables.deleteParents_all
  let cleared := tables.deleteParents fun _ => true
  let row : ℤ → SnapshotRow := fun id => ⟨id, snapshot.fetchedAtUnix, sqlReal snapshot.averagePrice,
    sqlReal snapshot.spread, P.encodeStrings snapshot.warnings, snapshot.refreshedSource⟩
  let inserted := cleared.insertParent row fun _ => rfl
  have hitems : inserted.parents.items = [row cleared.parents.nextId] := by
    simp [inserted, Linked.insertParent, cleared, hparents]
  have hcontains : inserted.parents.contains cleared.parents.nextId = true :=
    Keyed.contains_iff.mpr ⟨row cleared.parents.nextId, by simp [hitems], rfl⟩
  obtain ⟨tables', heval, hkept, hquotes⟩ :=
    insertSources_ok cleared.parents.nextId snapshot.sources inserted health hcontains
  refine ⟨tables', ?_, ⟨_, (congrArg (fun t => t.items) hkept).trans hitems⟩, ?_⟩
  · unfold writeSnapshot
    rw [hguard]
    have hclear : clearSnapshots (.current tables health) = .ok (⟨⟩, .current cleared health) := rfl
    have hinsert : insertSnapshot P snapshot (.current cleared health) =
        .ok (cleared.parents.nextId, .current inserted health) := rfl
    simp only [Bool.false_eq_true, if_false, Tx.eval_bind, Tx.eval_statement, Tx.eval_touch, hclear, hinsert]
    exact heval
  · rw [hquotes]
    have hnone : inserted.children.items = [] := hchildren
    simp [hnone]

lemma writeSnapshot_error {P : Platform} {snapshot : SnapshotRecord} {quote : StoredQuote}
    (hmem : quote ∈ snapshot.sources) (h : quote.valid = false) (db : Database) :
    (writeSnapshot P snapshot).eval db = .error "refusing to store an invalid source price" := by
  have hguard : (snapshot.sources.any fun quote => !quote.priceUsd.isFinite || quote.priceUsd.nonPositive) =
      true := by
    rw [List.any_eq_true]
    exact ⟨quote, hmem, by rw [priceGuard_eq, h]; rfl⟩
  unfold writeSnapshot
  rw [hguard]
  rfl

/-- The tables after writing: a new snapshot, or no change. -/
def Written (P : Platform) (tables tables' : CurrentTables) : Option SnapshotRecord → Prop
  | some snapshot => Holds P tables' snapshot
  | none => tables' = tables

/-- What a batch must satisfy for the store to accept it. -/
def Acceptable (snapshot : Option SnapshotRecord) (records : List ProviderHealth) : Prop :=
  (∀ s, snapshot = some s → ∀ quote ∈ s.sources, quote.valid = true) ∧ ∀ record ∈ records, record.Storable

/-- An acceptable batch replaces the snapshot, where it has one, and its providers' health. -/
theorem storeRefresh_ok {P : Platform} {snapshot : Option SnapshotRecord} {records : List ProviderHealth}
    (h : Acceptable snapshot records) (path : DbPath) (tables : CurrentTables) (health : HealthTable) :
    ∃ tables' : CurrentTables,
      (storeRefresh P path snapshot records).eval (.current tables health) =
        .ok (⟨⟩, .current tables' (putHealth health records)) ∧ Written P tables tables' snapshot := by
  cases snapshot with
  | none =>
    refine ⟨tables, ?_, rfl⟩
    simp [storeRefresh, openConnection, writeProviderHealth_ok h.2]
  | some s =>
    obtain ⟨tables', heval, hholds⟩ := writeSnapshot_ok (P := P) (h.1 s rfl) tables health
    refine ⟨tables', ?_, hholds⟩
    simp [storeRefresh, openConnection, heval, writeProviderHealth_ok h.2]

theorem storeRefresh_error {P : Platform} {snapshot : Option SnapshotRecord} {records : List ProviderHealth}
    (h : ¬Acceptable snapshot records) (path : DbPath) (tables : CurrentTables) (health : HealthTable) :
    ∃ e, (storeRefresh P path snapshot records).eval (.current tables health) = .error e := by
  by_cases hrecords : ∀ record ∈ records, record.Storable
  · obtain ⟨s, quote, rfl, hmem, hinvalid⟩ : ∃ s quote, snapshot = some s ∧ quote ∈ s.sources ∧
        quote.valid = false := by
      by_contra hnone
      refine h ⟨fun s hs quote hquote => ?_, hrecords⟩
      by_contra hvalid
      exact hnone ⟨s, quote, hs, hquote, by simpa using hvalid⟩
    refine ⟨"refusing to store an invalid source price", ?_⟩
    simp [storeRefresh, openConnection, writeSnapshot_error hmem hinvalid]
  · push Not at hrecords
    obtain ⟨record, hmem, hbad⟩ := hrecords
    have hhealth := writeProviderHealth_error hmem hbad
    cases snapshot with
    | none =>
      obtain ⟨e, he⟩ := hhealth (.current tables health)
      exact ⟨e, by simp [storeRefresh, openConnection, he]⟩
    | some s =>
      cases hwrite : (writeSnapshot P s).eval (.current tables health) with
      | error e => exact ⟨e, by simp [storeRefresh, openConnection, hwrite]⟩
      | ok r =>
        obtain ⟨e, he⟩ := hhealth r.2
        exact ⟨e, by simp [storeRefresh, openConnection, hwrite, he]⟩

lemma storeRefresh_commits {P : Platform} {path : DbPath} {snapshot : Option SnapshotRecord}
    {records : List ProviderHealth} {tables : CurrentTables} {health : HealthTable} {db : Database}
    (h : (storeRefresh P path snapshot records).eval (.current tables health) = .ok (⟨⟩, db)) :
    Acceptable snapshot records ∧
      ∃ tables' : CurrentTables, db = .current tables' (putHealth health records) ∧
        Written P tables tables' snapshot := by
  by_cases hacceptable : Acceptable snapshot records
  · obtain ⟨tables', heval, htables⟩ := storeRefresh_ok hacceptable path tables health (P := P)
    rw [h] at heval
    exact ⟨hacceptable, tables', by simpa using heval, htables⟩
  · obtain ⟨e, he⟩ := storeRefresh_error hacceptable path tables health (P := P)
    simp [he] at h

lemma latestRow_singleton {ρ : Type} (fetchedAt id : ρ → ℤ) (row : ρ) :
    latestRow fetchedAt id [row] = some row := rfl

lemma latestRow_mem {ρ : Type} {fetchedAt id : ρ → ℤ} {rows : List ρ} {row : ρ}
    (h : latestRow fetchedAt id rows = some row) : row ∈ rows := by
  have hmem := List.mem_of_mem_head? h
  rwa [List.mem_insertionSort] at hmem

lemma keepLatest_eq_self {ρ τ : Type} {id : ρ → ℤ} {childId parent : τ → ℤ} (fetchedAt : ρ → ℤ)
    {tables : Linked id childId parent} (h : tables.parents.items.length ≤ 1) :
    keepLatest fetchedAt tables = tables := by
  refine tables.deleteParents_none fun row hrow => ?_
  obtain ⟨only, honly⟩ := List.length_eq_one_iff.mp (le_antisymm h (List.length_pos_of_mem hrow))
  rw [honly, List.mem_singleton] at hrow
  simp [honly, latestRow_singleton, hrow]

/-- Around the migration the initialisation prunes and records the version. -/
lemma initDb_eval (path : DbPath) (db : Database) :
    (initDb path).eval db =
      match (migrateFrom db.userVersion).eval db with
      | .error e => .error e
      | .ok (_, migrated) =>
        match pruneSnapshotsToLatest migrated with
        | .error e => .error ("failed to prune stored price snapshots to the latest entry: " ++ e)
        | .ok (_, pruned) => .ok (⟨⟩, { pruned with userVersion := SCHEMA_VERSION }) := by
  have hparent : (createParent path).eval db = .ok (⟨⟩, db) := by
    unfold createParent
    split <;> simp
  unfold initDb openConnection
  simp only [Tx.eval_bind, hparent, Tx.eval_touch, Tx.eval_query, Tx.eval_statement]
  cases (migrateFrom db.userVersion).eval db with
  | error e => rfl
  | ok r =>
    dsimp only
    cases pruneSnapshotsToLatest r.2 <;> rfl

/-- A restart on the current schema only prunes. -/
theorem initDb_current (path : DbPath) (tables : CurrentTables) (health : HealthTable) :
    (initDb path).eval (.current tables health) =
      .ok (⟨⟩, .current (keepLatest SnapshotRow.fetchedAtUnix tables) health) := by
  rw [initDb_eval]
  rfl

/-- A new database gets empty tables and unknown health. -/
theorem initDb_blank (path : DbPath) :
    (initDb path).eval .blank = .ok (⟨⟩, .current .empty seededHealth) := by
  rw [initDb_eval]
  rfl

end BitcoinPriceTracker

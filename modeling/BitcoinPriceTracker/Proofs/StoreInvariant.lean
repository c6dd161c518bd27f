import BitcoinPriceTracker.Model.StoreRuns
import BitcoinPriceTracker.Proofs.FetchedBatch

namespace BitcoinPriceTracker

/-- The stored record of a name. -/
def healthAt (health : HealthTable) (name : String) : Option ProviderHealth :=
  (health.get? name).map HealthRow.record

lemma healthAt_put (health : HealthTable) (row : HealthRow) (name : String) :
    healthAt (health.put row) name = if name = row.source then some row.record else healthAt health name := by
  unfold healthAt
  rw [Keyed.get?_put]
  split <;> rfl

lemma healthAt_putHealth {records : List ProviderHealth} (h : ∀ record ∈ records, record.Storable)
    (health : HealthTable) (name : String) :
    healthAt (putHealth health records) name =
      (records.reverse.find? fun record => record.source = name).or (healthAt health name) := by
  induction records generalizing health with
  | nil => simp [putHealth]
  | cons record records ih =>
    have hchecks := (healthColumns_checks record).mpr (h record List.mem_cons_self)
    have hrow : HealthRow.ofRecord record = some ⟨healthColumns record, hchecks⟩ := dif_pos hchecks
    have hput : putHealth health (record :: records) =
        putHealth (health.put ⟨healthColumns record, hchecks⟩) records := by
      simp [putHealth, hrow]
    rw [hput, ih fun r hr => h r (List.mem_cons_of_mem _ hr), healthAt_put, HealthRow.record_ofRecord hrow,
      List.reverse_cons, List.find?_append, Option.or_assoc]
    congr 1
    by_cases hname : record.source = name
    · simp [hname]
    · simp [hname, Ne.symm hname]

lemma mem_healthOf {health : HealthTable} {record : ProviderHealth} :
    record ∈ healthOf health ↔ healthAt health record.source = some record := by
  unfold healthOf healthAt
  simp only [List.mem_map, List.mem_insertionSort, Option.map_eq_some_iff, Keyed.get?_eq_some_iff]
  constructor
  · rintro ⟨row, hrow, rfl⟩
    exact ⟨row, ⟨hrow, rfl⟩, rfl⟩
  · rintro ⟨row, ⟨hrow, _⟩, hrecord⟩
    exact ⟨row, hrow, hrecord⟩

structure StoreInvariant (P : Platform) (tables : CurrentTables) (health : HealthTable) : Prop where
  single : tables.parents.items.length ≤ 1
  warnings : ∀ row ∈ tables.parents.items, ∃ warnings, P.decodeStrings row.warningsJson = .ok warnings
  names : (tables.children.items.map SourceRow.source).Nodup
  prices : ∀ row ∈ tables.children.items, row.quote.valid = true
  providers : ∀ name, (healthAt health name).isSome = true ↔ ∃ source : UpstreamSource, source.name = name
  linked : ∀ (source : UpstreamSource) (attemptedAt : ℤ),
    healthAt health source.name = some ⟨source.name, .success attemptedAt⟩ →
      ∃ row ∈ tables.children.items, row.source = source.name ∧ row.lastSuccessAtUnix.isSome = true ∧
        row.quote.quoteKind = source.quoteKind

lemma owned_of_single {tables : CurrentTables} (h : tables.parents.items.length ≤ 1) {child : SourceRow}
    (hchild : child ∈ tables.children.items) :
    ∃ row, tables.parents.items = [row] ∧ child.snapshotId = row.id := by
  obtain ⟨row, hrow, hid⟩ := tables.references child hchild
  obtain ⟨only, honly⟩ := List.length_eq_one_iff.mp (le_antisymm h (List.length_pos_of_mem hrow))
  rw [honly, List.mem_singleton] at hrow
  exact ⟨only, honly, by rw [← hrow, hid]⟩

lemma sourcesOf_single {tables : CurrentTables} {row : SnapshotRow} (h : tables.parents.items = [row]) :
    (sourcesOf tables row.id).Perm (tables.children.items.map SourceRow.quote) := by
  have hall : (tables.children.items.filter fun child => child.snapshotId = row.id) = tables.children.items := by
    refine List.filter_eq_self.mpr fun child hchild => ?_
    obtain ⟨only, honly, hid⟩ := owned_of_single (by simp [h]) hchild
    rw [h] at honly
    simpa [← (List.cons.inj honly).1] using hid
  unfold sourcesOf
  rw [hall]
  exact (List.perm_insertionSort _ _).map _

lemma StoreInvariant.snapshot {P : Platform} {tables : CurrentTables} {health : HealthTable}
    (h : StoreInvariant P tables health) :
    (snapshotOf P tables = .ok none ∧ tables.children.items = []) ∨
      ∃ snapshot, snapshotOf P tables = .ok (some snapshot) ∧
        snapshot.sources.Perm (tables.children.items.map SourceRow.quote) := by
  unfold snapshotOf
  cases hparents : tables.parents.items with
  | nil =>
    refine .inl ⟨rfl, List.eq_nil_iff_forall_not_mem.mpr fun child hchild => ?_⟩
    obtain ⟨row, hrow, _⟩ := owned_of_single h.single hchild
    simp [hparents] at hrow
  | cons row rest =>
    obtain rfl : rest = [] := by
      have := h.single
      rw [hparents] at this
      simpa using this
    obtain ⟨warnings, hwarnings⟩ := h.warnings row (by simp [hparents])
    right
    rw [latestRow_singleton]
    simp only [snapshotAt, hwarnings]
    exact ⟨_, rfl, sourcesOf_single hparents⟩

/-- The records that the migration seeds. -/
def unknownRecords : List ProviderHealth := UpstreamSource.all.map fun source => ⟨source.name, .unknown⟩

lemma healthAt_seeded (name : String) :
    healthAt seededHealth name = unknownRecords.reverse.find? fun record => record.source = name := by
  have hstorable : ∀ record ∈ unknownRecords, record.Storable := by
    intro record hrecord
    obtain ⟨source, _, rfl⟩ := List.mem_map.mp hrecord
    trivial
  have hput := healthAt_putHealth hstorable .empty name
  have hnone : healthAt .empty name = none := rfl
  rw [hnone, Option.or_none] at hput
  exact hput

lemma storeInvariant_seeded (P : Platform) : StoreInvariant P .empty seededHealth where
  single := by simp
  warnings row h := by simp at h
  names := by simp
  prices row h := by simp at h
  providers name := by
    simp [healthAt_seeded, unknownRecords]
  linked source attemptedAt h := by
    rw [healthAt_seeded] at h
    have hmem := List.mem_of_find?_eq_some h
    simp [unknownRecords] at hmem

/-- After a batch the health of a planned provider is its record, and that of any other name
is as before. -/
lemma healthAt_batch {P : Platform} {latest : Option SnapshotRecord} {plan : RefreshPlan}
    {attempts : UpstreamSource → Attempt} {nowUnix : ℤ}
    (h : ∀ record ∈ (refreshBatch P latest plan attempts nowUnix).health, record.Storable)
    (health : HealthTable) (name : String) :
    (∀ source ∈ plan.sources, source.name = name →
      healthAt (putHealth health (refreshBatch P latest plan attempts nowUnix).health) name =
        some (recordOf P attempts source)) ∧
    ((∀ source ∈ plan.sources, source.name ≠ name) →
      healthAt (putHealth health (refreshBatch P latest plan attempts nowUnix).health) name =
        healthAt health name) := by
  rw [healthAt_putHealth h, refreshBatch_health]
  constructor
  · rintro source hmem rfl
    cases hfind : ((plannedSources plan).map (recordOf P attempts)).reverse.find?
        fun record => record.source = source.name with
    | none =>
      have := List.find?_eq_none.mp hfind (recordOf P attempts source)
        (by simpa using ⟨source, hmem, rfl⟩)
      simp at this
    | some record =>
      have hrecord := List.mem_of_find?_eq_some hfind
      have hname : record.source = source.name := by simpa using List.find?_some hfind
      obtain ⟨other, _, rfl⟩ : ∃ other ∈ plan.sources, recordOf P attempts other = record := by
        simpa using hrecord
      rw [recordOf_source, UpstreamSource.name_inj] at hname
      rw [hname]
      rfl
  · intro hnone
    have hfind : (((plannedSources plan).map (recordOf P attempts)).reverse.find?
        fun record => record.source = name) = none := by
      rw [List.find?_eq_none]
      intro record hrecord
      obtain ⟨other, hother, rfl⟩ : ∃ other ∈ plan.sources, recordOf P attempts other = record := by
        simpa using hrecord
      simpa using hnone other hother
    rw [hfind]
    rfl

lemma recordOf_success {P : Platform} {attempts : UpstreamSource → Attempt} {source : UpstreamSource}
    {attemptedAt : ℤ} (h : (recordOf P attempts source).lastAttempt = .success attemptedAt) :
    ∃ quote, quoteOf P attempts source = some quote ∧
      quote.lastSuccessAtUnix = some (attempts source).observedAtUnix ∧ quote.quoteKind = source.quoteKind := by
  unfold recordOf observeAttempt at h
  unfold quoteOf outcomeOf
  cases hfetch : fetchRoundRobinSource P source (attempts source).exchange with
  | ok price => exact ⟨_, rfl, rfl, rfl⟩
  | error e => simp [hfetch] at h

lemma names_ne_of_not_mem {sources : List UpstreamSource} {source : UpstreamSource} (h : source ∉ sources) :
    ∀ other ∈ sources, other.name ≠ source.name :=
  fun _ hother hname => h (UpstreamSource.name_injective hname ▸ hother)

/-- A batch that commits keeps the invariant. -/
theorem StoreInvariant.batch {P : Platform} {path : DbPath} {tables : CurrentTables} {health : HealthTable}
    (h : StoreInvariant P tables health) {latest : Option SnapshotRecord}
    (hlatest : snapshotOf P tables = .ok latest) {plan : RefreshPlan} {attempts : UpstreamSource → Attempt}
    {nowUnix : ℤ} {db : Database}
    (hstore : (storeRefresh P path (refreshBatch P latest plan attempts nowUnix).snapshot
      (refreshBatch P latest plan attempts nowUnix).health).eval (.current tables health) = .ok (⟨⟩, db)) :
    ∃ tables' health', db = .current tables' health' ∧ StoreInvariant P tables' health' := by
  obtain ⟨hacceptable, tables', rfl, htables⟩ := storeRefresh_commits hstore
  have hhealth := healthAt_batch hacceptable.2 health
  have hproviders : ∀ name, (healthAt (putHealth health
      (refreshBatch P latest plan attempts nowUnix).health) name).isSome = true ↔
        ∃ source : UpstreamSource, source.name = name := by
    intro name
    by_cases hplanned : ∃ source ∈ plan.sources, source.name = name
    · obtain ⟨source, hmem, hname⟩ := hplanned
      rw [(hhealth name).1 source hmem hname]
      exact iff_of_true rfl ⟨source, hname⟩
    · have hunplanned : ∀ source ∈ plan.sources, source.name ≠ name := fun source hmem hname =>
        hplanned ⟨source, hmem, hname⟩
      rw [(hhealth name).2 hunplanned]
      exact h.providers name
  refine ⟨tables', _, rfl, ?_⟩
  cases hsnapshot : (refreshBatch P latest plan attempts nowUnix).snapshot with
  | none =>
    obtain rfl : tables' = tables := by simpa [Written, hsnapshot] using htables
    refine ⟨h.single, h.warnings, h.names, h.prices, hproviders, fun source attemptedAt hsuccess => ?_⟩
    by_cases hmem : source ∈ plan.sources
    · rw [(hhealth source.name).1 source hmem rfl] at hsuccess
      have hrecord := congrArg ProviderHealth.lastAttempt (Option.some.inj hsuccess)
      obtain ⟨quote, hquote, _⟩ := recordOf_success hrecord
      have hnil := (refreshBatch_snapshot_eq_none P latest plan attempts nowUnix).mp hsnapshot
      have hin := (mem_refreshed P latest plan attempts nowUnix).mpr ⟨source, hmem, hquote⟩
      simp [hnil] at hin
    · rw [(hhealth source.name).2 (names_ne_of_not_mem hmem)] at hsuccess
      exact h.linked source attemptedAt hsuccess
  | some snapshot =>
    obtain ⟨⟨id, hparents⟩, hquotes⟩ : Holds P tables' snapshot := by
      simpa [Written, hsnapshot] using htables
    have hmem_iff : ∀ quote, quote ∈ snapshot.sources ↔ ∃ row ∈ tables'.children.items, row.quote = quote := by
      intro quote
      rw [← hquotes, List.mem_map]
    have hnames : tables'.children.items.map SourceRow.source = snapshot.sources.map StoredQuote.source := by
      rw [← hquotes, List.map_map]
      rfl
    have hbatch := fun quote => @mem_batch_sources P latest plan attempts nowUnix snapshot hsnapshot quote
    refine ⟨by simp [hparents], ?_, ?_, ?_, hproviders, fun source attemptedAt hsuccess => ?_⟩
    · intro row hrow
      rw [hparents, List.mem_singleton] at hrow
      subst hrow
      exact ⟨_, P.decode_encode _⟩
    · rw [hnames, refreshBatch_snapshot_sources P latest plan attempts nowUnix hsnapshot]
      exact mergeSnapshotSources_nodup P _ _
    · intro row hrow
      exact hacceptable.1 snapshot hsnapshot row.quote ((hmem_iff row.quote).mpr ⟨row, hrow, rfl⟩)
    · by_cases hmem : source ∈ plan.sources
      · rw [(hhealth source.name).1 source hmem rfl] at hsuccess
        have hrecord := congrArg ProviderHealth.lastAttempt (Option.some.inj hsuccess)
        obtain ⟨quote, hquote, htime, hkind⟩ := recordOf_success hrecord
        obtain ⟨row, hrow, hrowquote⟩ := (hmem_iff quote).mp ((hbatch quote).mpr (.inl ⟨source, hmem, hquote⟩))
        refine ⟨row, hrow, ?_, ?_, hrowquote ▸ hkind⟩
        · exact (congrArg StoredQuote.source hrowquote).trans (quoteOf_source hquote)
        · have htime' := (congrArg StoredQuote.lastSuccessAtUnix hrowquote).trans htime
          simpa [SourceRow.quote] using congrArg Option.isSome htime'
      · have hunplanned := names_ne_of_not_mem hmem
        rw [(hhealth source.name).2 hunplanned] at hsuccess
        obtain ⟨child, hchild, hsource, htime, hkind⟩ := h.linked source attemptedAt hsuccess
        have hretained : (retainedQuotes latest).get? child.quote.source = some child.quote := by
          rcases h.snapshot with ⟨_, hnone⟩ | ⟨stored, hstored, hperm⟩
          · simp [hnone] at hchild
          · obtain rfl : latest = some stored := Except.ok.inj (hlatest.symm.trans hstored)
            have hnodup : (stored.sources.map StoredQuote.source).Nodup := by
              rw [(hperm.map _).nodup_iff, List.map_map]
              exact h.names
            refine (retainedQuotes_get? hnodup).mpr ⟨?_, h.prices child hchild, rfl⟩
            exact hperm.mem_iff.mpr (List.mem_map_of_mem hchild)
        have hkept : child.quote ∈ snapshot.sources := by
          refine (hbatch child.quote).mpr (.inr ⟨fun other hother _ => ?_, hretained⟩)
          exact fun hname => hunplanned other hother (hname.trans hsource)
        obtain ⟨row, hrow, hrowquote⟩ := (hmem_iff child.quote).mp hkept
        refine ⟨row, hrow, (congrArg StoredQuote.source hrowquote).trans hsource, ?_, hrowquote ▸ hkind⟩
        have htime' := congrArg StoredQuote.lastSuccessAtUnix hrowquote
        simp only [SourceRow.quote] at htime'
        rw [htime', htime]

/-- The database that a run holds has the current schema and the invariant. -/
def Sound (P : Platform) (db : Database) : Prop :=
  ∃ tables health, db = .current tables health ∧ StoreInvariant P tables health

lemma Sound.load {P : Platform} {db : Database} (h : Sound P db) :
    ∃ state, (loadPriceState P).eval db = .ok (state, db) := by
  obtain ⟨tables, health, rfl, hinv⟩ := h
  rw [loadPriceState_current]
  rcases hinv.snapshot with ⟨hsnapshot, _⟩ | ⟨snapshot, hsnapshot, _⟩ <;>
    exact ⟨_, by simp only [stateOf, hsnapshot]; rfl⟩

lemma Sound.loaded_linked {P : Platform} {db : Database} (h : Sound P db) {state : StoredPriceState}
    (hload : (loadPriceState P).eval db = .ok (state, db)) (source : UpstreamSource) (attemptedAt : ℤ)
    (hsuccess : ⟨source.name, .success attemptedAt⟩ ∈ state.providerHealth) :
    ∃ snapshot, state.snapshot = some snapshot ∧ ∃ quote ∈ snapshot.sources, quote.source = source.name ∧
      quote.lastSuccessAtUnix.isSome = true ∧ quote.quoteKind = source.quoteKind := by
  obtain ⟨tables, health, rfl, hinv⟩ := h
  rw [loadPriceState_current] at hload
  rcases hinv.snapshot with ⟨hsnapshot, hnone⟩ | ⟨snapshot, hsnapshot, hperm⟩
  all_goals
    simp only [stateOf, hsnapshot, Except.map, Except.ok.injEq, Prod.mk.injEq, and_true] at hload
    subst hload
    obtain ⟨row, hrow, hname, htime, hkind⟩ := hinv.linked source attemptedAt (mem_healthOf.mp hsuccess)
  · simp [hnone] at hrow
  · exact ⟨snapshot, rfl, row.quote, hperm.mem_iff.mpr (List.mem_map_of_mem hrow), hname, htime, hkind⟩

lemma Sound.restart {P : Platform} {path : DbPath} {db : Database} (h : Sound P db) (F : Faults) :
    ((initDb path).atomically F db).2 = db := by
  obtain ⟨tables, health, rfl, hinv⟩ := h
  rcases (initDb path).atomically_cases F (.current tables health) with ⟨e, he⟩ | ⟨_, db', heval, hok⟩
  · rw [he]
  · rw [initDb_current, keepLatest_eq_self _ hinv.single] at heval
    rw [hok]
    exact (congrArg Prod.snd (Except.ok.inj heval)).symm

lemma Sound.batch {P : Platform} {path : DbPath} {db : Database} (h : Sound P db) {stored : StoredPriceState}
    (hload : (loadPriceState P).eval db = .ok (stored, db)) (plan : RefreshPlan)
    (attempts : UpstreamSource → Attempt) (nowUnix : ℤ) (F : Faults) :
    Sound P ((storeRefresh P path (refreshBatch P stored.snapshot plan attempts nowUnix).snapshot
      (refreshBatch P stored.snapshot plan attempts nowUnix).health).atomically F db).2 := by
  rcases Tx.atomically_cases (storeRefresh P path (refreshBatch P stored.snapshot plan attempts nowUnix).snapshot
    (refreshBatch P stored.snapshot plan attempts nowUnix).health) F db with ⟨e, he⟩ | ⟨_, db', heval, hok⟩
  · rw [he]
    exact h
  · obtain ⟨tables, health, rfl, hinv⟩ := h
    have hlatest : snapshotOf P tables = .ok stored.snapshot :=
      snapshotOf_of_loaded (by rw [loaded, hload]; rfl)
    rw [hok]
    exact hinv.batch hlatest heval

/-- Some committed state of the run so far is `view`. -/
def Committed (M : Machine StoreRun StoreInput StoreAction) (start : StoreRun) (history : List StoreAction)
    (view : Database) : Prop :=
  ∃ older before, older <:+ history ∧ M.Run start older before ∧ before.db = view

lemma Committed.mono {M : Machine StoreRun StoreInput StoreAction} {start : StoreRun}
    {history : List StoreAction} {view : Database} (h : Committed M start history view) (a : StoreAction) :
    Committed M start (a :: history) view := by
  obtain ⟨older, before, hsuffix, hrun, hdb⟩ := h
  exact ⟨older, before, hsuffix.trans (List.suffix_cons a history), hrun, hdb⟩

/-- What the open read has read is a part of one committed state. -/
def ReadsView (P : Platform) (committed : Database → Prop) : Option ReadPhase → Prop
  | some (.metadata view latest) => committed view ∧ readMetadata.eval view = .ok (latest, view)
  | some (.quotes view snapshot) =>
    committed view ∧ ∃ latest, readMetadata.eval view = .ok (latest, view) ∧
      (readQuotes P latest).eval view = .ok (snapshot, view)
  | _ => True

/-- What holds along every run from a sound database. -/
structure StoreRunInvariant (P : Platform) (path : DbPath) (start : StoreRun) (history : List StoreAction)
    (s : StoreRun) : Prop where
  sound : Sound P s.db
  reads : ReadsView P (Committed (storeMachine P path) start history) s.read
  loaded : ∀ state, .loaded state ∈ history → ∃ view,
    Committed (storeMachine P path) start history view ∧ Sound P view ∧
      (loadPriceState P).eval view = .ok (state, view)

lemma StoreRunInvariant.of_commit {P : Platform} {path : DbPath} {start : StoreRun} {history : List StoreAction}
    {s s' : StoreRun} {a : StoreAction} (h : StoreRunInvariant P path start history s) (hsound : Sound P s'.db)
    (hread : s'.read = s.read ∨ s'.read = some .begun ∨ s'.read = none) (ha : ∀ state, a ≠ .loaded state) :
    StoreRunInvariant P path start (a :: history) s' := by
  refine ⟨hsound, ?_, fun state hmem => ?_⟩
  · rcases hread with hsame | hbegun | hnone
    · rw [hsame]
      have hreads := h.reads
      revert hreads
      cases s.read with
      | none => exact id
      | some phase =>
        cases phase with
        | begun => exact id
        | metadata view latest => exact fun hview => ⟨hview.1.mono a, hview.2⟩
        | quotes view snapshot => exact fun hview => ⟨hview.1.mono a, hview.2⟩
    · rw [hbegun]
      trivial
    · rw [hnone]
      trivial
  · rcases List.mem_cons.mp hmem with heq | hmem
    · exact absurd heq.symm (ha state)
    · obtain ⟨view, hview, hrest⟩ := h.loaded state hmem
      exact ⟨view, hview.mono a, hrest⟩

lemma readMetadata_keeps {db db' : Database} {latest : Option SnapshotRow}
    (h : readMetadata.eval db = .ok (latest, db')) : db' = db := by
  simp only [readMetadata, Tx.eval_query] at h
  split at h
  · simp at h
  · simp_all

lemma StoreRunInvariant.readStep {P : Platform} {path : DbPath} {start : StoreRun} {history : List StoreAction}
    {db : Database} {phase : ReadPhase} (h : StoreRunInvariant P path start history ⟨db, some phase⟩)
    (hsoundOf : ∀ view, Committed (storeMachine P path) start history view → Sound P view)
    (hrun : (storeMachine P path).Run start history ⟨db, some phase⟩) (F : Faults) :
    StoreRunInvariant P path start ((BitcoinPriceTracker.readStep P F db phase).2 :: history)
      ⟨db, (BitcoinPriceTracker.readStep P F db phase).1⟩ := by
  cases phase with
  | begun =>
    simp only [BitcoinPriceTracker.readStep]
    cases hresult : (readMetadata.atomically F db).1 with
    | error e => exact h.of_commit h.sound (.inr (.inr rfl)) (by simp)
    | ok latest =>
      have hnext : StoreRunInvariant P path start (.readContinued :: history) ⟨db, none⟩ :=
        h.of_commit h.sound (.inr (.inr rfl)) (by simp)
      refine ⟨h.sound, ⟨⟨history, _, List.suffix_cons _ _, hrun, rfl⟩, ?_⟩, hnext.loaded⟩
      have heval := Tx.atomically_ok hresult
      rwa [readMetadata_keeps heval] at heval
  | metadata view latest =>
    obtain ⟨hcommitted, hlatest⟩ := h.reads
    simp only [BitcoinPriceTracker.readStep]
    cases hresult : ((readQuotes P latest).atomically F view).1 with
    | error e => exact h.of_commit h.sound (.inr (.inr rfl)) (by simp)
    | ok snapshot =>
      have hnext : StoreRunInvariant P path start (.readContinued :: history) ⟨db, none⟩ :=
        h.of_commit h.sound (.inr (.inr rfl)) (by simp)
      refine ⟨h.sound, ⟨hcommitted.mono _, latest, hlatest, ?_⟩, hnext.loaded⟩
      have heval := Tx.atomically_ok hresult
      obtain ⟨tables, health, rfl, _⟩ := hsoundOf view hcommitted
      rw [readMetadata_current] at hlatest
      obtain rfl := (Prod.mk.inj (Except.ok.inj hlatest)).1
      rw [readQuotes_current] at heval ⊢
      cases hsnapshot : snapshotOf P tables with
      | error e => simp [hsnapshot, Except.map] at heval
      | ok stored =>
        simp only [hsnapshot, Except.map, Except.ok.injEq, Prod.mk.injEq] at heval ⊢
        exact ⟨heval.1, trivial⟩
  | quotes view snapshot =>
    obtain ⟨hcommitted, latest, hlatest, hquotes⟩ := h.reads
    simp only [BitcoinPriceTracker.readStep]
    cases hresult : (finishRead.atomically F view).1 with
    | error e => exact h.of_commit h.sound (.inr (.inr rfl)) (by simp)
    | ok health =>
      refine ⟨h.sound, trivial, fun state hmem => ?_⟩
      rcases List.mem_cons.mp hmem with heq | hmem
      · obtain rfl := StoreAction.loaded.inj heq
        refine ⟨view, hcommitted.mono _, hsoundOf view hcommitted, ?_⟩
        have heval := Tx.atomically_ok hresult
        obtain ⟨tables, health', rfl, _⟩ := hsoundOf view hcommitted
        rw [finishRead_current] at heval
        obtain rfl := (Prod.mk.inj (Except.ok.inj heval)).1
        simp only [loadPriceState, Tx.eval_bind, Tx.eval_touch, hlatest, hquotes, finishRead_current, Tx.eval_pure]
      · obtain ⟨view', hview', hrest⟩ := h.loaded state hmem
        exact ⟨view', hview'.mono _, hrest⟩

lemma StoreRunInvariant.run {P : Platform} {path : DbPath} {db : Database} (hdb : Sound P db)
    {history : List StoreAction} {s : StoreRun} (h : (storeMachine P path).Run ⟨db, none⟩ history s) :
    StoreRunInvariant P path ⟨db, none⟩ history s := by
  have hsound : ∀ history s, (storeMachine P path).Run ⟨db, none⟩ history s → Sound P s.db := by
    intro history s h
    refine h.invariant (P := fun _ s => Sound P s.db) hdb ?_
    rintro _ ⟨current, read⟩ i s' a _ ih hs
    cases i with
    | restart F =>
      simp only [storeMachine, Option.some.injEq, Prod.mk.injEq] at hs
      rw [← hs.1]
      simpa only [Sound.restart ih F] using ih
    | batch plan attempts nowUnix F =>
      obtain ⟨stored, hload⟩ := ih.load
      simp only [storeMachine, hload, Option.some.injEq, Prod.mk.injEq] at hs
      rw [← hs.1]
      exact ih.batch hload plan attempts nowUnix F
    | beginRead =>
      cases read with
      | none =>
        simp only [storeMachine, Option.some.injEq, Prod.mk.injEq] at hs
        rw [← hs.1]
        exact ih
      | some phase => simp [storeMachine] at hs
    | continueRead F =>
      cases read with
      | none => simp [storeMachine] at hs
      | some phase =>
        simp only [storeMachine, Option.some.injEq, Prod.mk.injEq] at hs
        rw [← hs.1]
        exact ih
  have hcommitted : ∀ history view, Committed (storeMachine P path) ⟨db, none⟩ history view → Sound P view := by
    rintro history view ⟨older, before, _, hrun, rfl⟩
    exact hsound older before hrun
  have hstart : StoreRunInvariant P path ⟨db, none⟩ [] ⟨db, none⟩ :=
    ⟨hdb, trivial, fun state hmem => by simp at hmem⟩
  refine h.invariant hstart ?_
  rintro history ⟨current, read⟩ i s' a hrun ih hs
  have hsound' := hsound _ _ (hrun.next hs)
  cases i with
  | restart F =>
    simp only [storeMachine, Option.some.injEq, Prod.mk.injEq] at hs
    obtain ⟨rfl, rfl⟩ := hs
    exact ih.of_commit hsound' (.inl rfl) (by simp)
  | batch plan attempts nowUnix F =>
    obtain ⟨stored, hload⟩ := ih.sound.load
    simp only [storeMachine, hload, Option.some.injEq, Prod.mk.injEq] at hs
    obtain ⟨rfl, rfl⟩ := hs
    exact ih.of_commit hsound' (.inl rfl) (by simp)
  | beginRead =>
    cases read with
    | none =>
      simp only [storeMachine, Option.some.injEq, Prod.mk.injEq] at hs
      obtain ⟨rfl, rfl⟩ := hs
      exact ih.of_commit hsound' (.inr (.inl rfl)) (by simp)
    | some phase => simp [storeMachine] at hs
  | continueRead F =>
    cases read with
    | none => simp [storeMachine] at hs
    | some phase =>
      simp only [storeMachine, Option.some.injEq, Prod.mk.injEq] at hs
      obtain ⟨rfl, rfl⟩ := hs
      exact ih.readStep (hcommitted history) hrun F

lemma sound_init {P : Platform} {path : DbPath} {F : Faults} {db : Database}
    (h : (initDb path).atomically F .blank = (.ok ⟨⟩, db)) : Sound P db := by
  have heval := Tx.atomically_ok (congrArg Prod.fst h)
  rw [h, initDb_blank] at heval
  exact ⟨_, _, (Prod.mk.inj (Except.ok.inj heval)).2.symm, storeInvariant_seeded P⟩

lemma StoreInvariant.health_perm {P : Platform} {tables : CurrentTables} {health : HealthTable}
    (h : StoreInvariant P tables health) :
    (health.items.map fun row => row.source).Perm (UpstreamSource.all.map UpstreamSource.name) := by
  refine (List.perm_ext_iff_of_nodup health.distinct
    (UpstreamSource.all_nodup.map UpstreamSource.name_injective)).mpr fun name => ?_
  have hname := h.providers name
  rw [healthAt, Option.isSome_map, ← Keyed.contains_eq_isSome, Keyed.contains_iff] at hname
  simpa using hname

/-- The store along every run of batches, restarts and reads after the first initialisation,
with any statement of any of them failing. There is one snapshot at most and it owns every
quote; names are distinct and prices finite and positive; the health table has one row for
each configured provider and no other, each passing the checks; and a success has its quote
with its own time and kind. Every loaded state is a committed one, and shows no success
without its quote. -/
theorem store_run_law (P : Platform) (path : DbPath) {F : Faults} {db : Database}
    (hinit : (initDb path).atomically F .blank = (.ok ⟨⟩, db)) {history : List StoreAction} {s : StoreRun}
    (h : (storeMachine P path).Run ⟨db, none⟩ history s) :
    (∃ tables health, s.db = .current tables health ∧
      tables.parents.items.length ≤ 1 ∧
      (∀ child ∈ tables.children.items, ∃ row, tables.parents.items = [row] ∧ child.snapshotId = row.id) ∧
      (tables.children.items.map SourceRow.source).Nodup ∧
      (∀ child ∈ tables.children.items, child.priceUsd.isFinite = true ∧ child.priceUsd.positive = true) ∧
      (health.items.map fun row => row.source).Perm (UpstreamSource.all.map UpstreamSource.name) ∧
      (∀ row ∈ health.items, row.toHealthColumns.checks = true) ∧
      ∀ (source : UpstreamSource) (attemptedAt : ℤ),
        healthAt health source.name = some ⟨source.name, .success attemptedAt⟩ →
          ∃ row ∈ tables.children.items, row.source = source.name ∧ row.lastSuccessAtUnix.isSome = true ∧
            row.quote.quoteKind = source.quoteKind) ∧
    ∀ state, .loaded state ∈ history →
      (∃ older before, older <:+ history ∧ (storeMachine P path).Run ⟨db, none⟩ older before ∧
        (loadPriceState P).eval before.db = .ok (state, before.db)) ∧
      ∀ (source : UpstreamSource) (attemptedAt : ℤ),
        ⟨source.name, .success attemptedAt⟩ ∈ state.providerHealth →
        ∃ snapshot, state.snapshot = some snapshot ∧ ∃ quote ∈ snapshot.sources, quote.source = source.name ∧
          quote.lastSuccessAtUnix.isSome = true ∧ quote.quoteKind = source.quoteKind := by
  have hrun := StoreRunInvariant.run (sound_init (P := P) hinit) h
  constructor
  · obtain ⟨tables, health, hdb, hinv⟩ := hrun.sound
    refine ⟨tables, health, hdb, hinv.single, fun child => owned_of_single hinv.single, hinv.names, ?_,
      hinv.health_perm, fun row _ => row.checked, hinv.linked⟩
    intro child hchild
    simpa [StoredQuote.valid, SourceRow.quote] using hinv.prices child hchild
  · intro state hmem
    obtain ⟨view, ⟨older, before, hsuffix, hbefore, rfl⟩, hsound, hload⟩ := hrun.loaded state hmem
    exact ⟨⟨older, before, hsuffix, hbefore, hload⟩,
      fun source attemptedAt => hsound.loaded_linked hload source attemptedAt⟩

/-- The quotes that a read has loaded. -/
def StoreAction.quotes : StoreAction → List StoredQuote
  | loaded ⟨some snapshot, _⟩ => snapshot.sources
  | _ => []

def StoreAction.isRolledBack : StoreAction → Bool
  | stored _ (.error _) => true
  | _ => false

def Database.prices : Database → List (String × F64)
  | ⟨_, .current tables, _⟩ => tables.children.items.map fun row => (row.source, row.priceUsd)
  | _ => []

def Database.record (name : String) : Database → Option ProviderHealth
  | ⟨_, _, some health⟩ => healthAt health name
  | _ => none

/-- One batch is committed after a reader has taken its view, and another one is rolled back. -/
def readAcrossCommit : List StoreInput :=
  [.batch ⟨UpstreamSource.all, true, 1⟩ (someProviders "50000.5" 1000) 1005 [], .beginRead, .continueRead [],
    .batch ⟨[.kraken], false, 1⟩ (someProviders "51000.5" 1010) 1015 [],
    .batch ⟨[.kraken], false, 1⟩ (someProviders "52000.5" 1020) 1025 [none, some "disk I/O error"],
    .restart [], .continueRead [], .continueRead []]

/-- The reader gets the first price of Kraken, and the store keeps the second. -/
theorem store_run_law_across_commit :
    ∃ history s state tables health, (storeMachine .plain ⟨none, "tracker.db"⟩).Run
        ⟨.current .empty seededHealth, none⟩ (.loaded state :: history) s ∧
      history.any StoreAction.isRolledBack = true ∧
      (state.snapshot.map SnapshotRecord.sources) = some [⟨"CoinGecko", .finite (100003 / 2), some 1001, .aggregate⟩,
        ⟨"Kraken", .finite (100001 / 2), some 1003, .lastTrade⟩] ∧
      (∃ older before, older <:+ .loaded state :: history ∧
        (storeMachine .plain ⟨none, "tracker.db"⟩).Run ⟨.current .empty seededHealth, none⟩ older before ∧
        (loadPriceState .plain).eval before.db = .ok (state, before.db)) ∧
      s.db = .current tables health ∧
      s.db.prices = [("CoinGecko", .finite (100003 / 2)), ("Kraken", .finite (102001 / 2))] ∧
      (tables.children.items.map SourceRow.source).Nodup ∧
      ∃ row ∈ tables.children.items, row.source = "Kraken" ∧ row.lastSuccessAtUnix.isSome = true ∧
        row.quote.quoteKind = .lastTrade := by
  have hchecked : ((storeMachine .plain ⟨none, "tracker.db"⟩).exec [] ⟨.current .empty seededHealth, none⟩
      readAcrossCommit).any (fun r =>
        r.1.head?.any (fun a => a.quotes = [⟨"CoinGecko", .finite (100003 / 2), some 1001, .aggregate⟩,
          ⟨"Kraken", .finite (100001 / 2), some 1003, .lastTrade⟩]) &&
        r.1.tail.any StoreAction.isRolledBack &&
        r.2.db.prices = [("CoinGecko", .finite (100003 / 2)), ("Kraken", .finite (102001 / 2))] &&
        r.2.db.record "Kraken" = some ⟨"Kraken", .success 1010⟩) = true := by
    decide +kernel
  obtain ⟨⟨_ | ⟨a, history⟩, s⟩, hexec, hshown⟩ := (Option.any_eq_true _ _).mp hchecked
  · simp at hshown
  simp only [List.head?_cons, List.tail_cons, Option.any_some, Bool.and_eq_true, decide_eq_true_eq] at hshown
  obtain ⟨⟨⟨hquotes, hrolledBack⟩, hprices⟩, hrecord⟩ := hshown
  obtain ⟨snapshot, providers, rfl⟩ : ∃ snapshot providers, a = .loaded ⟨some snapshot, providers⟩ := by
    unfold StoreAction.quotes at hquotes
    split at hquotes
    · exact ⟨_, _, rfl⟩
    · simp at hquotes
  have hrun := Machine.run_of_exec _ hexec
  obtain ⟨⟨tables, health, hdb, _, _, hnames, _, _, _, hlinked⟩, hloaded⟩ :=
    store_run_law .plain ⟨none, "tracker.db"⟩ (F := []) rfl hrun
  refine ⟨history, s, _, tables, health, hrun, hrolledBack, congrArg some hquotes, (hloaded _ List.mem_cons_self).1,
    hdb, hprices, hnames, hlinked .kraken 1010 ?_⟩
  rw [hdb] at hrecord
  exact hrecord

end BitcoinPriceTracker

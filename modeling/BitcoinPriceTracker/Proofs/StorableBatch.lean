import BitcoinPriceTracker.Proofs.FetchedBatch

namespace BitcoinPriceTracker

lemma batch_acceptable_iff (P : Platform) (latest : Option SnapshotRecord) (plan : RefreshPlan)
    (attempts : UpstreamSource → Attempt) (nowUnix : ℤ) :
    Acceptable (refreshBatch P latest plan attempts nowUnix).snapshot
        (refreshBatch P latest plan attempts nowUnix).health ↔
      ∀ record ∈ (refreshBatch P latest plan attempts nowUnix).health, record.Storable :=
  ⟨fun h => h.2, fun h => ⟨fun _ hs => batch_sources_valid P latest plan attempts nowUnix hs, h⟩⟩

lemma batch_health_storable_iff (P : Platform) (latest : Option SnapshotRecord) (plan : RefreshPlan)
    (attempts : UpstreamSource → Attempt) (nowUnix : ℤ) :
    (∀ record ∈ (refreshBatch P latest plan attempts nowUnix).health, record.Storable) ↔
      ∀ source ∈ plan.sources, ∀ response, (attempts source).exchange = .ok response →
        response.status.code < 600 := by
  rw [refreshBatch_health]
  simp only [List.mem_map, mem_plannedSources, forall_exists_index, and_imp, forall_apply_eq_imp_iff₂,
    recordOf_storable, not_exists, not_and, not_le]

/-- A batch always passes the price guard. Its health records satisfy every CHECK, and without
a fault its transaction commits, exactly where no planned provider answers with a status from
600 on. -/
theorem batch_storable_iff (P : Platform) (path : DbPath) (latest : Option SnapshotRecord)
    (plan : RefreshPlan) (attempts : UpstreamSource → Attempt) (nowUnix : ℤ) (tables : CurrentTables)
    (health : HealthTable) :
    (∀ snapshot, (refreshBatch P latest plan attempts nowUnix).snapshot = some snapshot →
      ∀ quote ∈ snapshot.sources, quote.valid = true ∧ quoteKindChecks quote.quoteKind.text = true) ∧
    ((∀ record ∈ (refreshBatch P latest plan attempts nowUnix).health, (healthColumns record).checks = true) ↔
      ∀ source ∈ plan.sources, ∀ response, (attempts source).exchange = .ok response →
        response.status.code < 600) ∧
    ((∃ db, (storeRefresh P path (refreshBatch P latest plan attempts nowUnix).snapshot
        (refreshBatch P latest plan attempts nowUnix).health).atomically [] (.current tables health) =
          (.ok ⟨⟩, db)) ↔
      ∀ source ∈ plan.sources, ∀ response, (attempts source).exchange = .ok response →
        response.status.code < 600) := by
  have hhealth := batch_health_storable_iff P latest plan attempts nowUnix
  refine ⟨fun snapshot hs quote hquote => ?_, ?_, ?_⟩
  · exact ⟨batch_sources_valid P latest plan attempts nowUnix hs quote hquote, quote.quoteKind.checks_text⟩
  · simpa only [healthColumns_checks] using hhealth
  · rw [← hhealth, ← batch_acceptable_iff, Tx.atomically_nil]
    constructor
    · rintro ⟨db, hdb⟩
      by_contra hbad
      obtain ⟨e, he⟩ := storeRefresh_error hbad path tables health (P := P)
      simp [he] at hdb
    · intro hgood
      obtain ⟨tables', heval, _⟩ := storeRefresh_ok hgood path tables health (P := P)
      rw [heval]
      exact ⟨_, rfl⟩

/-- CoinGecko answers with status 600 and the other providers do not answer in time. -/
def unusualAnswers : UpstreamSource → Attempt
  | .coinGecko => ⟨1000, .ok ⟨⟨600, by decide⟩, none, none, [], none⟩, 1000⟩
  | _ => ⟨1000, .error ⟨true, "operation timed out"⟩, 1005⟩

/-- The status 600 of one provider discards the health of the other ones. -/
theorem batch_not_storable :
    ¬∀ (P : Platform) (path : DbPath) (latest : Option SnapshotRecord) (plan : RefreshPlan)
      (attempts : UpstreamSource → Attempt) (nowUnix : ℤ) (tables : CurrentTables) (health : HealthTable),
      ∃ db, (storeRefresh P path (refreshBatch P latest plan attempts nowUnix).snapshot
        (refreshBatch P latest plan attempts nowUnix).health).atomically [] (.current tables health) =
          (.ok ⟨⟩, db) := by
  intro h
  obtain ⟨db, hdb⟩ := h .plain ⟨none, "tracker.db"⟩ none ⟨UpstreamSource.all, true, 1⟩ unusualAnswers 1005
    .empty seededHealth
  have hrefused : (storeRefresh .plain ⟨none, "tracker.db"⟩
      (refreshBatch .plain none ⟨UpstreamSource.all, true, 1⟩ unusualAnswers 1005).snapshot
      (refreshBatch .plain none ⟨UpstreamSource.all, true, 1⟩ unusualAnswers 1005).health).atomically []
        (.current .empty seededHealth) =
      (.error "failed to store provider health: CHECK constraint failed", .current .empty seededHealth) := by
    rfl
  rw [hrefused] at hdb
  simp at hdb

end BitcoinPriceTracker

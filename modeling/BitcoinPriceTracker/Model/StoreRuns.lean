import BitcoinPriceTracker.Lib.Machine
import BitcoinPriceTracker.Model.Pricing
import BitcoinPriceTracker.Model.Storage

/-!
# Runs of the store

Restarts, refresh batches and the queries of one reader in any order. A batch merges with the
snapshot that is stored when it commits. The read transaction of the reader takes its view
at its first query and keeps it, whatever commits in between.
-/

namespace BitcoinPriceTracker

/-- How far the read transaction is. -/
inductive ReadPhase
  | begun
  | metadata (view : Database) (latest : Option SnapshotRow)
  | quotes (view : Database) (snapshot : Option SnapshotRecord)

structure StoreRun where
  db : Database
  read : Option ReadPhase

inductive StoreInput
  | restart (F : Faults)
  | batch (plan : RefreshPlan) (attempts : UpstreamSource → Attempt) (nowUnix : ℤ) (F : Faults)
  | beginRead
  | continueRead (F : Faults)

inductive StoreAction
  | restarted (result : Except String Unit)
  | stored (batch : Batch) (result : Except String Unit)
  | readBegan
  | readContinued
  | readFailed (error : String)
  | loaded (state : StoredPriceState)

/-- The next query of the reader. -/
def readStep (P : Platform) (F : Faults) (db : Database) : ReadPhase → Option ReadPhase × StoreAction
  | .begun =>
    match (readMetadata.atomically F db).1 with
    | .error e => (none, .readFailed e)
    | .ok latest => (some (.metadata db latest), .readContinued)
  | .metadata view latest =>
    match ((readQuotes P latest).atomically F view).1 with
    | .error e => (none, .readFailed e)
    | .ok snapshot => (some (.quotes view snapshot), .readContinued)
  | .quotes view snapshot =>
    match (finishRead.atomically F view).1 with
    | .error e => (none, .readFailed e)
    | .ok health => (none, .loaded ⟨snapshot, health⟩)

def storeMachine (P : Platform) (path : DbPath) : Machine StoreRun StoreInput StoreAction where
  step
    | ⟨db, read⟩, .restart F =>
      let (result, db') := (initDb path).atomically F db
      some (⟨db', read⟩, .restarted result)
    | ⟨db, read⟩, .batch plan attempts nowUnix F =>
      match (loadPriceState P).eval db with
      | .error _ => none
      | .ok (stored, _) =>
        let batch := refreshBatch P stored.snapshot plan attempts nowUnix
        let (result, db') := (storeRefresh P path batch.snapshot batch.health).atomically F db
        some (⟨db', read⟩, .stored batch result)
    | ⟨db, none⟩, .beginRead => some (⟨db, some .begun⟩, .readBegan)
    | ⟨db, some phase⟩, .continueRead F =>
      let (read, action) := readStep P F db phase
      some (⟨db, read⟩, action)
    | _, _ => none

end BitcoinPriceTracker

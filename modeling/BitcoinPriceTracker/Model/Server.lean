import BitcoinPriceTracker.Model.Handlers
import BitcoinPriceTracker.Model.Pricing

/-!
# The price server

Any number of price reads and refresh tasks in any order, with presence updates, the clock
and the stop signal. A step is what runs between two awaits, or a shorter section where
another thread can come in between. The lock around the coordinator is the name of the holder of
its guard: a read that took it at its start, or the task that the read moved it into.
-/

namespace BitcoinPriceTracker

/-- What a read has seen when it decides about a refresh. -/
structure ReadData where
  loaded : Except String StoredPriceState
  activeViewers : ℕ
  responseNow : ℤ
  report : PriceRefreshReport

/-- The next thing that a read does. -/
inductive ReadPoint
  | loading
  | counting (loaded : Except String StoredPriceState)
  | reporting (loaded : Except String StoredPriceState) (activeViewers : ℕ) (responseNow : ℤ)
  -- From here on there is no await at which the read could be cancelled.
  | deciding (seen : ReadData)
  | generating (seen : ReadData)
  | beginning (seen : ReadData) (generation : ℕ)
  | spawning (seen : ReadData) (plan : RefreshPlan)
  | refused (seen : ReadData) (reason : String)
  | responding (seen : ReadData) (refreshing : Bool) (reason : Option String)

/-- The next thing that a refresh task does. -/
inductive TaskPoint
  | spawned
  | counting
  | dispatching
  | fetching
  | storing (attempts : UpstreamSource → Attempt) (nowUnix : ℤ)
  | completing (batch : Batch) (stored : Except String Unit)
  | reporting (report : PriceRefreshReport)
  | releasing

structure RefreshTask where
  snapshot : Option SnapshotRecord
  plan : RefreshPlan
  point : TaskPoint

inductive Owner
  | read (id : ℕ)
  | task (id : ℕ)
  deriving DecidableEq

structure Server where
  now : ℕ
  stopping : Bool
  registry : Registry
  db : Database
  coordinator : RefreshCoordinator
  owner : Option Owner
  report : PriceRefreshReport
  reads : ℕ → Option ReadPoint
  tasks : ℕ → Option RefreshTask
  /-- Every read and every task gets a number of its own. -/
  nextId : ℕ

inductive ServerInput
  | advance (now : ℕ)
  | stop
  | presence (payload : PresencePayload)
  | read
  | load (id : ℕ) (F : Faults)
  | count (id : ℕ) (responseNow : ℤ)
  | copyReport (id : ℕ)
  | cancel (id : ℕ)
  | decide (id : ℕ)
  | loadGeneration (id : ℕ)
  | begin (id : ℕ)
  | spawn (id : ℕ)
  | dropOwner (id : ℕ)
  | respond (id : ℕ)
  | recheckStopping (task : ℕ)
  | recheckViewers (task : ℕ)
  | dispatch (task : ℕ)
  | collect (task : ℕ) (attempts : UpstreamSource → Attempt) (nowUnix : ℤ)
  | store (task : ℕ) (F : Faults)
  | complete (task : ℕ) (nowUnix : ℤ)
  | publish (task : ℕ)
  | release (task : ℕ)

inductive ServerAction
  | advanced (now : ℕ)
  | stopped
  | presence (payload : PresencePayload) (now : ℕ) (result : Except ℕ ℕ)
  | badSession (payload : PresencePayload)
  | readBegan (id : ℕ) (owner : Bool)
  | loaded (id : ℕ) (result : Except String StoredPriceState)
  | counted (id : ℕ) (now viewers : ℕ)
  | reportCopied (id : ℕ)
  | cancelled (id : ℕ)
  | decided (id : ℕ)
  | generationLoaded (id : ℕ) (generation : ℕ)
  | granted (id : ℕ) (plan : RefreshPlan) (now : ℕ)
  | refused (id : ℕ) (reason : String) (now generation : ℕ)
  | beginUnwound (id : ℕ) (now : ℕ)
  | spawned (id task : ℕ) (plan : RefreshPlan)
  | ownerDropped (id : ℕ)
  | responded (id : ℕ) (status : ℕ) (body : PriceResponse)
  | notStopping (task : ℕ)
  | stoppingSeen (task : ℕ) (plan : RefreshPlan)
  | viewersSeen (task : ℕ) (now viewers : ℕ)
  | noViewers (task : ℕ) (now : ℕ) (plan : RefreshPlan)
  | requested (task : ℕ) (sources : List UpstreamSource) (now : ℕ)
  | collected (task : ℕ)
  | stored (task : ℕ) (latest : Option SnapshotRecord) (batch : Batch) (result : Except String Unit)
  | completed (task : ℕ) (plan : RefreshPlan) (failures : List ProviderError) (now : ℕ) (nowUnix : ℤ)
  | completionUnwound (task : ℕ) (plan : RefreshPlan) (now : ℕ)
  | published (task : ℕ)
  | released (task : ℕ)

namespace Server

/-- A server that starts with a database. -/
def init (db : Database) (now : ℕ) : Server :=
  ⟨now, false, .init, db, .init, none, .default, fun _ => none, fun _ => none, 0⟩

def setRead (s : Server) (id : ℕ) (point : Option ReadPoint) : Server :=
  { s with reads := Function.update s.reads id point }

def setTask (s : Server) (id : ℕ) (task : Option RefreshTask) : Server :=
  { s with tasks := Function.update s.tasks id task }

/-- Drops the guard of a holder that may have one. -/
def unlock (s : Server) (holder : Owner) : Server :=
  { s with owner := if s.owner = some holder then none else s.owner }

/-- The read is over: it has been answered, cancelled or unwound. -/
def endRead (s : Server) (id : ℕ) : Server := (s.unlock (.read id)).setRead id none

def endTask (s : Server) (id : ℕ) : Server := (s.unlock (.task id)).setTask id none

/-- `update_presence` up to the price: the check of the session and the update. -/
def updatePresence (maxViewers : ℕ) (s : Server) (payload : PresencePayload) : Server × ServerAction :=
  if isValidSessionId payload.sessionId then
    let (result, registry) := applyPresenceUpdate maxViewers payload s.now s.registry
    ({ s with registry }, .presence payload s.now result)
  else (s, .badSession payload)

/-- The start of `cached_prices`, with `try_lock_owned`. -/
def beginRead (s : Server) : Server × ServerAction :=
  let begun := { s with nextId := s.nextId + 1 }.setRead s.nextId (some .loading)
  match s.owner with
  | none => ({ begun with owner := some (.read s.nextId) }, .readBegan s.nextId true)
  | some _ => (begun, .readBegan s.nextId false)

/-- The branches of `cached_prices` before the coordinator is asked. -/
def decision (s : Server) (id : ℕ) (seen : ReadData) : ReadPoint :=
  let owns : Bool := s.owner = some (.read id)
  match seen.loaded with
  | .error _ => .responding seen (!owns) (some "Refresh skipped: stored price data could not be read.")
  | .ok stored =>
    if s.stopping then .responding seen (!owns) (some "Refresh skipped: server is shutting down.")
    else
      match refreshSkipReason seen.activeViewers
          (stored.snapshot.bind fun snapshot => snapshotAgeSeconds snapshot seen.responseNow) with
      | some reason => .responding seen (!owns) (some reason)
      | none =>
        if owns then .generating seen
        else .responding seen true (some "Refresh skipped: another refresh is in progress.")

/-- The call of `begin`. A panic ends the handler and drops the guard. -/
def beginPlan (range : InstantRange) (s : Server) (id : ℕ) (seen : ReadData) (generation : ℕ) :
    Server × ServerAction :=
  match s.coordinator.begin range s.now generation with
  | .error left => ({ s with coordinator := left }.endRead id, .beginUnwound id s.now)
  | .ok (.error reason, c) =>
    ({ s with coordinator := c }.setRead id (some (.refused seen reason)), .refused id reason s.now generation)
  | .ok (.ok plan, c) =>
    ({ s with coordinator := c }.setRead id (some (.spawning seen plan)), .granted id plan s.now)

/-- `tokio::spawn`: the guard and a copy of the loaded snapshot move into the task. -/
def spawnTask (s : Server) (id : ℕ) (seen : ReadData) (plan : RefreshPlan) : Server × ServerAction :=
  let point : ReadPoint := .responding seen true (some "Refresh scheduled in the background.")
  (({ s with owner := some (.task s.nextId), nextId := s.nextId + 1 }.setRead id (some point)).setTask s.nextId
    (some ⟨(storedOf seen.loaded).1.snapshot, plan, .spawned⟩), .spawned id s.nextId plan)

/-- The response. The guard of a read that did not spawn is dropped with the handler. -/
def respond (s : Server) (id : ℕ) (seen : ReadData) (refreshing : Bool) (reason : Option String) :
    Server × ServerAction :=
  let (status, body) :=
    priceResponse seen.loaded ⟨seen.report, seen.activeViewers, refreshing, reason⟩ seen.responseNow
  (s.endRead id, .responded id status body)

/-- The first half of the recheck: the stop flag. -/
def recheckStopping (s : Server) (id : ℕ) (task : RefreshTask) : Server × ServerAction :=
  if s.stopping then (s.endTask id, .stoppingSeen id task.plan)
  else (s.setTask id (some { task with point := .counting }), .notStopping id)

/-- The second half of the recheck: the viewers. -/
def recheckViewers (s : Server) (id : ℕ) (task : RefreshTask) : Server × ServerAction :=
  let (viewers, registry) := activeViewerCount s.now s.registry
  if viewers = 0 then ({ s with registry }.endTask id, .noViewers id s.now task.plan)
  else
    ({ s with registry }.setTask id (some { task with point := .dispatching }), .viewersSeen id s.now viewers)

/-- `refresh_snapshot` after the last answer: the batch and its transaction. -/
def storeBatch (P : Platform) (path : DbPath) (F : Faults) (s : Server) (id : ℕ) (task : RefreshTask)
    (attempts : UpstreamSource → Attempt) (nowUnix : ℤ) : Server × ServerAction :=
  let batch := refreshBatch P task.snapshot task.plan attempts nowUnix
  let (result, db) := (storeRefresh P path batch.snapshot batch.health).atomically F s.db
  ({ s with db }.setTask id (some { task with point := .completing batch result }),
    .stored id task.snapshot batch result)

/-- The report of a finished refresh. -/
def refreshReport (P : Platform) (batch : Batch) (stored : Except String Unit) : PriceRefreshReport :=
  let failures := batch.failures.map (ProviderError.display P)
  match stored with
  | .ok _ => if batch.refreshed.isEmpty then ⟨false, failures⟩ else ⟨true, []⟩
  | .error error => ⟨false, refreshErrorDisplay error :: failures⟩

/-- The call of `complete` and the report built after it. A panic ends the task and drops the
guard. -/
def completePlan (P : Platform) (s : Server) (id : ℕ) (task : RefreshTask) (batch : Batch)
    (stored : Except String Unit) (nowUnix : ℤ) : Server × ServerAction :=
  match s.coordinator.complete P.range task.plan batch.failures s.now nowUnix with
  | .error left => ({ s with coordinator := left }.endTask id, .completionUnwound id task.plan s.now)
  | .ok c =>
    ({ s with coordinator := c }.setTask id (some { task with point := .reporting (refreshReport P batch stored) }),
      .completed id task.plan batch.failures s.now nowUnix)

/-- A step of a read. -/
def readStep (P : Platform) (s : Server) (id : ℕ) (point : ReadPoint) : ServerInput → Option (Server × ServerAction)
  | .load _ F =>
    match point with
    | .loading =>
      let loaded := ((loadPriceState P).atomically F s.db).1
      some (s.setRead id (some (.counting loaded)), .loaded id loaded)
    | _ => none
  | .count _ responseNow =>
    match point with
    | .counting loaded =>
      let (viewers, registry) := activeViewerCount s.now s.registry
      some ({ s with registry }.setRead id (some (.reporting loaded viewers responseNow)), .counted id s.now viewers)
    | _ => none
  | .copyReport _ =>
    match point with
    | .reporting loaded activeViewers responseNow =>
      some (s.setRead id (some (.deciding ⟨loaded, activeViewers, responseNow, s.report⟩)), .reportCopied id)
    | _ => none
  | .cancel _ =>
    match point with
    | .loading | .counting _ | .reporting _ _ _ => some (s.endRead id, .cancelled id)
    | _ => none
  | .decide _ =>
    match point with
    | .deciding seen => some (s.setRead id (some (s.decision id seen)), .decided id)
    | _ => none
  | .loadGeneration _ =>
    match point with
    | .generating seen =>
      let generation := s.registry.fullRefreshGeneration
      some (s.setRead id (some (.beginning seen generation)), .generationLoaded id generation)
    | _ => none
  | .begin _ =>
    match point with
    | .beginning seen generation => some (s.beginPlan P.range id seen generation)
    | _ => none
  | .spawn _ =>
    match point with
    | .spawning seen plan => some (s.spawnTask id seen plan)
    | _ => none
  | .dropOwner _ =>
    match point with
    | .refused seen reason =>
      some ((s.unlock (.read id)).setRead id (some (.responding seen false (some reason))), .ownerDropped id)
    | _ => none
  | .respond _ =>
    match point with
    | .responding seen refreshing reason => some (s.respond id seen refreshing reason)
    | _ => none
  | _ => none

/-- A step of a task. -/
def taskStep (P : Platform) (path : DbPath) (s : Server) (id : ℕ) (task : RefreshTask) :
    ServerInput → Option (Server × ServerAction)
  | .recheckStopping _ =>
    match task.point with
    | .spawned => some (s.recheckStopping id task)
    | _ => none
  | .recheckViewers _ =>
    match task.point with
    | .counting => some (s.recheckViewers id task)
    | _ => none
  | .dispatch _ =>
    match task.point with
    | .dispatching =>
      some (s.setTask id (some { task with point := .fetching }), .requested id task.plan.sources s.now)
    | _ => none
  | .collect _ attempts nowUnix =>
    match task.point with
    | .fetching => some (s.setTask id (some { task with point := .storing attempts nowUnix }), .collected id)
    | _ => none
  | .store _ F =>
    match task.point with
    | .storing attempts nowUnix => some (s.storeBatch P path F id task attempts nowUnix)
    | _ => none
  | .complete _ nowUnix =>
    match task.point with
    | .completing batch stored => some (s.completePlan P id task batch stored nowUnix)
    | _ => none
  | .publish _ =>
    match task.point with
    | .reporting report =>
      some ({ s with report }.setTask id (some { task with point := .releasing }), .published id)
    | _ => none
  | .release _ =>
    match task.point with
    | .releasing => some (s.endTask id, .released id)
    | _ => none
  | _ => none

end Server

/-- The read or the task that an input is for. -/
def ServerInput.target : ServerInput → Option Owner
  | load id _ | count id _ | copyReport id | cancel id | decide id | loadGeneration id | begin id | spawn id
  | dropOwner id | respond id => some (.read id)
  | recheckStopping id | recheckViewers id | dispatch id | collect id _ _ | store id _ | complete id _ | publish id
  | release id => some (.task id)
  | _ => none

def serverMachine (P : Platform) (path : DbPath) (maxViewers : ℕ) : Machine Server ServerInput ServerAction where
  step s input :=
    match input with
    | .advance now => if s.now ≤ now then some ({ s with now }, .advanced now) else none
    | .stop => some ({ s with stopping := true }, .stopped)
    | .presence payload => some (s.updatePresence maxViewers payload)
    | .read => some s.beginRead
    | input =>
      match input.target with
      | some (.read id) => (s.reads id).bind fun point => s.readStep P id point input
      | some (.task id) => (s.tasks id).bind fun task => s.taskStep P path id task input
      | none => none

end BitcoinPriceTracker

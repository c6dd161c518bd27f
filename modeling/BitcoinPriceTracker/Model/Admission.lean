import BitcoinPriceTracker.Lib.Permits
import BitcoinPriceTracker.Model.Lifecycle
import BitcoinPriceTracker.Model.Limits

/-!
# Admission

The permits around the handlers: `serve_until` takes one for each connection from the pool of its peer, and
`limit_requests` one for each request from its group of routes. Both are held by the task of the connection and given
back when it is over, however it ends.
-/

namespace BitcoinPriceTracker

/-- A `RuntimeConfig` with the fields that the request limits do not read. -/
structure ServerConfig extends RuntimeConfig where
  maxConnections : ℕ
  shutdownSeconds : ℕ

/-- The permits of a pool: of `local_slots` for loopback peers, of `slots` for the others. -/
def poolSize (config : ServerConfig) (loopback : Bool) : ℕ :=
  if loopback then min config.maxConnections 4 else config.maxConnections

/-- The permits of the group of a route. -/
def slotCount (config : RuntimeConfig) : Route → ℕ
  | .health => 4
  | .news => min config.concurrency 8
  | .price | .presence | .assets => config.concurrency

/-! ### One gate -/

inductive GateInput
  | arrive (now : ℕ)
  | leave
  deriving DecidableEq

inductive GateAction
  | limited (now : ℕ)
  | busy (now : ℕ)
  | admitted (now : ℕ)
  | left
  deriving DecidableEq

/-- What is asked of the gate in an event. -/
def GateAction.input : GateAction → GateInput
  | limited now | busy now | admitted now => .arrive now
  | left => .leave

/-- The requests of one group in the order in which they obtain its bucket, and the ends of those that are admitted. -/
def gateMachine (capacity : ℕ) : Machine Gate GateInput GateAction where
  step gate
    | .arrive now =>
      let (allowed, gate) := gate.allow now
      if !allowed then some (gate, .limited now)
      else if gate.slots = 0 then some (gate, .busy now)
      else some ({ gate with slots := gate.slots - 1 }, .admitted now)
    | .leave => if gate.slots < capacity then some ({ gate with slots := gate.slots + 1 }, .left) else none

/-! ### The process -/

/-- The process with its permits. `held` is the `_permit` of the request of a connection, by its group. -/
structure Admission where
  tracker : Tracker
  limits : Route → Gate
  free : Bool → ℕ
  loopback : ℕ → Bool
  held : ℕ → Option Route

/-- `sampled` is the instant that the middleware passes to `Gate::allow`. -/
inductive AdmissionInput
  | connect (loopback : Bool)
  | request (connection : ℕ) (path : String) (sampled : ℕ) (request : Request)
  | run (input : TrackerInput)

/-- What a step did to the process, to a gate and to a pool. -/
structure AdmissionAction where
  tracker : Option TrackerAction
  gate : Option (Route × GateAction)
  pool : Option (Bool × Permits.Action)

/-- The path of the route that leads to a handler. -/
def Request.servedAt (path : String) : Request → Bool
  | price => path = "/api/price"
  | presence _ => path = "/api/presence"
  | news => path = "/api/news"
  | health => path = "/health"
  | other => true

/-- The connection whose task takes a step. -/
def TrackerInput.connection : TrackerInput → Option ℕ
  | request connection _ | refuse connection _ | update connection | start connection | read connection _
  | readNews connection | check connection _ | expire connection | answer connection | close connection =>
    some connection
  | _ => none

/-- The steps that wait for a permit. -/
def TrackerInput.admits : TrackerInput → Bool
  | accept | request _ _ | refuse _ _ => true
  | _ => false

namespace Admission

def init (config : ServerConfig) (db : Database) (now : ℕ) : Admission :=
  ⟨.init db now, requestLimits config.toRuntimeConfig now, poolSize config, fun _ => false, fun _ => none⟩

/-- A connection that has got its permit. -/
def accept (s : Admission) (loopback : Bool) (r : Tracker × TrackerAction) : Admission × AdmissionAction :=
  ( { s with
      tracker := r.1
      free := Function.update s.free loopback (s.free loopback - 1)
      loopback := Function.update s.loopback s.tracker.nextConnection loopback },
    ⟨some r.2, none, some (loopback, .taken)⟩ )

/-- The middleware of a request: what it refuses is answered, what it admits is routed. -/
def handle (serve : Tracker → TrackerInput → Option (Tracker × TrackerAction)) (s : Admission) (connection : ℕ)
    (path : String) (sampled : ℕ) (request : Request) : Option (Admission × AdmissionAction) :=
  let route := routeOf path
  match limitRequests s.limits path sampled with
  | (.ok (), limits) =>
    (serve s.tracker (.request connection request)).map fun r =>
      ( { s with tracker := r.1, limits, held := Function.update s.held connection (some route) },
        ⟨some r.2, some (route, .admitted sampled), none⟩ )
  | (.error refusal, limits) =>
    (serve s.tracker (.refuse connection (refusal.status = 503))).map fun r =>
      ( { s with tracker := r.1, limits },
        ⟨some r.2, some (route, if refusal.status = 503 then .busy sampled else .limited sampled), none⟩ )

/-- The permits that the task of a connection drops in a step: the one of its request where the request is over,
the one of the connection where the task is. -/
def release (s : Admission) (connection : ℕ) (r : Tracker × TrackerAction) : Admission × AdmissionAction :=
  let handler := r.1.connections connection
  let finished := if handler.any Tracker.timed then none else s.held connection
  let closed := if handler.isNone then some (s.loopback connection) else none
  ( { s with
      tracker := r.1
      limits := fun route =>
        if finished = some route then { s.limits route with slots := (s.limits route).slots + 1 } else s.limits route
      free := fun loopback => if closed = some loopback then s.free loopback + 1 else s.free loopback
      held := if handler.any Tracker.timed then s.held else Function.update s.held connection none },
    ⟨some r.2, finished.map (·, .left), closed.map (·, .given)⟩ )

end Admission

/-- The process behind its permits. A peer that finds no permit is dropped. -/
def admissionMachine (P : Platform) (path : DbPath) (config : ServerConfig) :
    Machine Admission AdmissionInput AdmissionAction where
  step s
    | .connect loopback =>
      if s.tracker.phase ≠ .accepting then none
      else if s.free loopback = 0 then some (s, ⟨none, none, some (loopback, .refused)⟩)
      else ((trackerMachine P path config.maxViewers).step s.tracker .accept).map (s.accept loopback)
    | .request connection target sampled request =>
      if sampled ≤ s.tracker.server.now ∧ request.servedAt target then
        s.handle (trackerMachine P path config.maxViewers).step connection target sampled request
      else none
    | .run input =>
      if input.admits then none
      else
        ((trackerMachine P path config.maxViewers).step s.tracker input).map fun r =>
          match input.connection with
          | some connection => s.release connection r
          | none => ({ s with tracker := r.1 }, ⟨some r.2, none, none⟩)

end BitcoinPriceTracker

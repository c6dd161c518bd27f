import BitcoinPriceTracker.Model.News
import BitcoinPriceTracker.Model.Server

/-!
# The life of the server process

`lifecycle.rs`: accepted connections with one request each, their handlers and the shutdown. A
connection can end at every await of its handler: its lifetime is over, the client is gone or the
drain is aborted; the request itself has a time limit as well. Time limits may expire at any moment, so
the grace period is not a number here.
-/

namespace BitcoinPriceTracker

/-- A request, by the handler that it is routed to. -/
inductive Request
  | price
  | presence (payload : PresencePayload)
  | news
  | health
  /-- The page and its assets. -/
  | other
  deriving DecidableEq

structure Answer where
  status : ℕ
  body : Json

namespace Answer

/-- `Json(serde_json::json!({"error": text}))`. -/
def error (status : ℕ) (text : String) : Answer := ⟨status, .object [("error", .string text)]⟩

/-- The refusals of `limit_requests`. -/
def refused (busy : Bool) : Answer :=
  if busy then error 503 "Server busy; retry later." else error 429 "Request rate limit reached; retry later."

def deadline : Answer := error 408 "Request deadline exceeded."

/-- A `PresenceResponse`, which omits an absent price. -/
def presence (status activeViewers : ℕ) (price : Option PriceResponse) : Answer :=
  ⟨status, .object (("active_viewers", .integer activeViewers) ::
    (price.map fun price => ("price", price.toJson)).toList)⟩

def capacityReached (activeViewers : ℕ) : Answer :=
  ⟨429, .object [("active_viewers", .integer activeViewers),
    ("error", .string "Viewer capacity reached; retry later.")]⟩

/-- `health`. -/
def health (loaded : Except String StoredPriceState) : Answer :=
  match loaded with
  | .ok _ => ⟨200, .object [("status", .string "ok")]⟩
  | .error _ => ⟨503, .object [("status", .string "unavailable")]⟩

def news (response : News.Response) : Answer :=
  ⟨response.status, .object [("xml", .optional .string response.body.xml), ("stale", .bool response.body.stale),
    ("refreshing", .bool response.body.refreshing)]⟩

end Answer

/-- The next thing that the task of a connection does. A presence update that asks for the price keeps its
number of viewers. -/
inductive Handler
  | waiting
  | updating (payload : PresencePayload)
  | starting (activeViewers : Option ℕ)
  | reading (id : ℕ) (activeViewers : Option ℕ)
  | news (reader : ℕ)
  | checking
  | other
  | answering (answer : Answer)

/-- Where `serve_tracker_until` is. -/
inductive Phase
  | accepting
  | draining
  | locking
  | returned
  | failed
  deriving DecidableEq

structure Tracker where
  server : Server
  news : News.State
  connections : ℕ → Option Handler
  nextConnection : ℕ
  phase : Phase

inductive TrackerInput
  | advance (now : ℕ)
  | accept
  | request (connection : ℕ) (request : Request)
  | refuse (connection : ℕ) (busy : Bool)
  | update (connection : ℕ)
  | start (connection : ℕ)
  | read (connection : ℕ) (input : ServerInput)
  | readNews (connection : ℕ)
  | check (connection : ℕ) (F : Faults)
  | expire (connection : ℕ)
  | answer (connection : ℕ)
  | close (connection : ℕ)
  | work (input : ServerInput)
  | newsWork (input : News.Input)
  | shutdown
  | drained
  | drainTimeout
  | lock
  | lockTimeout

inductive TrackerAction
  | server (action : ServerAction)
  | news (action : News.Action)
  | accepted (connection : ℕ)
  | handled (connection : ℕ)
  | answered (connection : ℕ) (answer : Answer)
  | stopSet
  | drained
  | returned
  | failed

def ServerInput.cancels : ServerInput → Bool
  | cancel _ => true
  | _ => false

/-- A step of the news refresh task. -/
def News.Input.isWork : News.Input → Bool
  | fetched _ _ | deadline _ | settle _ => true
  | _ => false

namespace Tracker

def init (db : Database) (now : ℕ) : Tracker := ⟨.init db now, .init now, fun _ => none, 0, .accepting⟩

def setConnection (t : Tracker) (connection : ℕ) (handler : Option Handler) : Tracker :=
  { t with connections := Function.update t.connections connection handler }

/-- The `JoinSet` is empty. -/
def idle (t : Tracker) : Bool := (List.range t.nextConnection).all fun connection => (t.connections connection).isNone

/-- What `update_presence` does after the update: an admitted active viewer may ask for the price. -/
def afterUpdate (payload : PresencePayload) : ServerAction → Handler
  | .presence _ _ (.ok activeViewers) =>
    if payload.active && payload.includePrice then .starting (some activeViewers)
    else .answering (.presence 200 activeViewers none)
  | .presence _ _ (.error activeViewers) => .answering (.capacityReached activeViewers)
  | _ => .answering (.presence 400 0 none)

/-- Where a handler is after a step of its read. A panic ends the task of the connection. -/
def afterRead (id : ℕ) (activeViewers : Option ℕ) : ServerAction → Option Handler
  | .responded _ status body =>
    match activeViewers with
    | some activeViewers => some (.answering (.presence 200 activeViewers (some body)))
    | none => some (.answering ⟨status, body.toJson⟩)
  | .beginUnwound _ _ => none
  | _ => some (.reading id activeViewers)

def afterNews (reader : ℕ) : News.Action → Handler
  | .responded _ _ response _ => .answering (.news response)
  | _ => .news reader

/-- Drops the handler of a connection, and with it a read and its guard. -/
def dropHandler (serve : Server → ServerInput → Option (Server × ServerAction)) (t : Tracker) (connection : ℕ)
    (left : Option Handler) : Handler → Option (Tracker × TrackerAction)
  | .reading id _ =>
    (serve t.server (.cancel id)).map fun r => ({ t with server := r.1 }.setConnection connection left, .server r.2)
  | .news reader =>
    (News.machine.step t.news (.cancel reader)).map fun r =>
      ({ t with news := r.1 }.setConnection connection left, .news r.2)
  -- Between the update and the read there is no await.
  | .starting _ => none
  | _ => some (t.setConnection connection left, .handled connection)

/-- The first step of the handler that the request is routed to. -/
def route (t : Tracker) (connection : ℕ) : Request → Option (Tracker × TrackerAction)
  | .price => some (t.setConnection connection (some (.starting none)), .handled connection)
  | .presence payload => some (t.setConnection connection (some (.updating payload)), .handled connection)
  | .news =>
    (News.machine.step t.news .arrive).map fun r =>
      ({ t with news := r.1 }.setConnection connection (some (.news t.news.nextId)), .news r.2)
  | .health => some (t.setConnection connection (some .checking), .handled connection)
  | .other => some (t.setConnection connection (some .other), .handled connection)

/-- A request that the middleware has admitted and that is not answered yet. -/
def timed : Handler → Bool
  | .waiting | .answering _ => false
  | _ => true

end Tracker

/-- The main task, the tasks of the connections and the refresh tasks in any order. -/
def trackerMachine (P : Platform) (path : DbPath) (maxViewers : ℕ) : Machine Tracker TrackerInput TrackerAction where
  step t input :=
    let serve := (serverMachine P path maxViewers).step
    match input with
    | .advance now =>
      (serve t.server (.advance now)).bind fun r =>
        (News.machine.step t.news (.advance now)).map fun feed =>
          ({ t with server := r.1, news := feed.1 }, .server r.2)
    | .accept =>
      if t.phase = .accepting then
        some ({ t with nextConnection := t.nextConnection + 1 }.setConnection t.nextConnection (some .waiting),
          .accepted t.nextConnection)
      else none
    | .request connection request =>
      match t.connections connection with
      | some .waiting => t.route connection request
      | _ => none
    | .refuse connection busy =>
      match t.connections connection with
      | some .waiting => some (t.setConnection connection (some (.answering (.refused busy))), .handled connection)
      | _ => none
    | .update connection =>
      match t.connections connection with
      | some (.updating payload) =>
        (serve t.server (.presence payload)).map fun r =>
          ({ t with server := r.1 }.setConnection connection (some (Tracker.afterUpdate payload r.2)), .server r.2)
      | _ => none
    | .start connection =>
      match t.connections connection with
      | some (.starting activeViewers) =>
        (serve t.server .read).map fun r =>
          ({ t with server := r.1 }.setConnection connection (some (.reading t.server.nextId activeViewers)),
            .server r.2)
      | _ => none
    | .read connection input =>
      match t.connections connection with
      | some (.reading id activeViewers) =>
        if input.target = some (.read id) ∧ input.cancels = false then
          (serve t.server input).map fun r =>
            ({ t with server := r.1 }.setConnection connection (Tracker.afterRead id activeViewers r.2), .server r.2)
        else none
      | _ => none
    | .readNews connection =>
      match t.connections connection with
      | some (.news reader) =>
        (News.machine.step t.news (.read reader)).map fun r =>
          ({ t with news := r.1 }.setConnection connection (some (Tracker.afterNews reader r.2)), .news r.2)
      | _ => none
    | .check connection F =>
      match t.connections connection with
      | some .checking =>
        let loaded := ((loadPriceState P).atomically F t.server.db).1
        some (t.setConnection connection (some (.answering (.health loaded))), .handled connection)
      | _ => none
    | .expire connection =>
      (t.connections connection).bind fun handler =>
        if Tracker.timed handler then t.dropHandler serve connection (some (.answering .deadline)) handler else none
    | .answer connection =>
      match t.connections connection with
      | some (.answering answer) => some (t.setConnection connection none, .answered connection answer)
      | _ => none
    | .close connection => (t.connections connection).bind (t.dropHandler serve connection none)
    | .work input =>
      match input.target with
      | some (.task _) => (serve t.server input).map fun r => ({ t with server := r.1 }, .server r.2)
      | _ => none
    | .newsWork input =>
      if input.isWork then (News.machine.step t.news input).map fun r => ({ t with news := r.1 }, .news r.2) else none
    | .shutdown =>
      -- The stop flag is set, the listener dropped and every connection told to finish.
      if t.phase = .accepting then
        (serve t.server .stop).map fun r => ({ t with server := r.1, phase := .draining }, .stopSet)
      else none
    | .drained => if t.phase = .draining ∧ t.idle then some ({ t with phase := .locking }, .drained) else none
    | .drainTimeout => if t.phase = .draining then some ({ t with phase := .failed }, .failed) else none
    | .lock =>
      if t.phase = .locking ∧ t.server.owner = none then some ({ t with phase := .returned }, .returned) else none
    | .lockTimeout => if t.phase = .locking then some ({ t with phase := .failed }, .failed) else none

end BitcoinPriceTracker

import BitcoinPriceTracker.Lib.Clock
import BitcoinPriceTracker.Model.Dashboard

/-!
# Polling

`poll`, `start` and `stop` of `dashboard.js`. The page runs one callback at a time, so a step is what the code does
from an event, a timer or a settled promise to the next `await`. Every promise settles at any time or never, whether
its request was aborted or not. The listeners are registered once there is a session.
-/

namespace BitcoinPriceTracker

/-! ### What the page converts to text -/

namespace Json

mutual

/-- `String(value)` throws where a value has a `toString` of its own, which is never a function. -/
def textThrows : Json → Bool
  | array entries => anyTextThrows entries
  | object fields => (fields.lookup "toString").isSome
  | _ => false

/-- An array is converted entry by entry. -/
def anyTextThrows : List Json → Bool
  | [] => false
  | entry :: rest => entry.textThrows || anyTextThrows rest

end

def truthy : Json → Bool
  | null => false
  | bool value => value
  | number (.finite value) => value ≠ 0
  | number .nan => false
  | string value => value ≠ ""
  | _ => true

/-- The entries of an array of the response. -/
def entriesOf (data : Json) (field : String) : List Json := ((data.get field).bind asArray).getD []

/-- The `source` of a row or of a health record. -/
def sourceName (entry : Json) : Option String := (entry.get "source").bind asStr

/-- `(a.age ?? Infinity) - (b.age ?? Infinity)` is not positive. -/
def ageLe (left right : Json) : Prop :=
  ∀ rightAge, (right.get "age_seconds").bind finite = some rightAge →
    ∃ leftAge, (left.get "age_seconds").bind finite = some leftAge ∧ leftAge ≤ rightAge

instance (left right : Json) : Decidable (ageLe left right) :=
  match hright : (right.get "age_seconds").bind finite, hleft : (left.get "age_seconds").bind finite with
  | none, _ => isTrue (by simp [ageLe, hright])
  | some _, none => isFalse (by simp [ageLe, hright, hleft])
  | some rightAge, some leftAge => decidable_of_iff (leftAge ≤ rightAge) (by simp [ageLe, hright, hleft])

/-- The row that the card of a name shows. -/
def shownRow (rows : List Json) (name : String) : Option Json :=
  ((rows.filter fun row => row.sourceName = some name).insertionSort ageLe).head?

/-- `health.error?.message` where the latest attempt failed. -/
def failureMessage (record : Json) : Option Json :=
  (record.get "last_attempt").bind fun attempt =>
    if (attempt.get "outcome").bind asStr = some "failure" then
      (attempt.get "error").bind fun error => error.get "message"
    else none

/-- `render` throws on an accepted response: it converts the viewers, the kinds of the quotes, the messages of the
failures and the warnings. -/
def renderThrows (data : Json) : Bool :=
  let rows := data.entriesOf "sources"
  let records := data.entriesOf "provider_health"
  let names := (rows ++ records).filterMap sourceName
  (data.get "active_viewers").any textThrows ||
    names.any (fun name =>
      (shownRow rows name).any (fun row => (row.get "quote_kind").any textThrows) ||
        (records.find? fun record => record.sourceName = some name).any fun record =>
          (failureMessage record).any textThrows) ||
    (data.entriesOf "warnings").any textThrows

end Json

/-! ### The page -/

inductive PollKind
  | presence
  | price
  deriving DecidableEq

structure Worker where
  busy : Bool
  timer : Option ℕ
  controller : Option ℕ
  deriving DecidableEq

/-- A call of `poll` that waits for its request: for the response, or for the body once the status is known. -/
structure Poll where
  id : ℕ
  kind : PollKind
  owner : ℕ
  includePrice : Bool
  status : Option ℕ
  aborted : Bool
  deriving DecidableEq

/-- An armed timer, which polls. -/
structure Timer where
  id : ℕ
  kind : PollKind
  delay : ℕ
  deriving DecidableEq

/-- The callback in `start`, once its `poll` has returned. -/
structure Startup where
  owner : ℕ
  delay : Option ℕ
  deriving DecidableEq

/-- The page with its workers. `body` is `lastData` as it was received. -/
structure Polling where
  page : Dashboard
  body : Option Json
  generation : ℕ
  workers : PollKind → Worker
  polls : List Poll
  timers : List Timer
  startups : List Startup
  nextId : ℕ

/-- `lastData` stays: an unavailable response cannot erase previously received quotes. -/
def Dashboard.retains (page : Dashboard) (data : DashboardData) : Bool :=
  data.status = "UNAVAILABLE" && page.lastData.any fun last => !last.sources.isEmpty

/-- `response.ok`. -/
def responseOk (status : ℕ) : Bool := 200 ≤ status && status ≤ 299

namespace Poll

/-- The headers are enough to reject the response. -/
def rejects (poll : Poll) (status : ℕ) : Bool :=
  match poll.kind with
  | .presence => !responseOk status
  | .price => !responseOk status && status ≠ 503

/-- The report in a body: the body of a price request, or the `price` that a first heartbeat asks for. -/
def report (poll : Poll) (content : Json) : Option Json :=
  match poll.kind with
  | .presence => if poll.includePrice then (content.get "price").filter Json.truthy else none
  | .price => some content

def abort (poll : Poll) : Poll := { poll with aborted := true }

/-- What `validate`, and for a price request the check of the status, makes of a report. -/
def accepted (poll : Poll) (report : Json) : Option DashboardData :=
  match poll.kind with
  | .presence => validate report
  | .price => poll.status.bind fun status => pollPrice status report

end Poll

namespace Polling

def init : Polling := ⟨⟨false, none, 0, "", ""⟩, none, 0, fun _ => ⟨false, none, none⟩, [], [], [], 0⟩

def setWorker (s : Polling) (kind : PollKind) (worker : Worker) : Polling :=
  { s with workers := Function.update s.workers kind worker }

/-- `worker.timer = setTimeout(() => poll(kind), delay)`. -/
def setTimeout (s : Polling) (kind : PollKind) (delay : ℕ) : Polling :=
  { s.setWorker kind { s.workers kind with timer := some s.nextId } with
    timers := ⟨s.nextId, kind, delay⟩ :: s.timers
    nextId := s.nextId + 1 }

/-- `running && owner === generation`. -/
def current (s : Polling) (poll : Poll) : Bool := s.page.running && poll.owner = s.generation

/-- `render` throws. -/
def throws (s : Polling) : Bool := s.page.running && s.body.any Json.renderThrows

/-- `poll` up to its request, whose number it returns. -/
def poll (s : Polling) (kind : PollKind) (includePrice : Bool) : Polling × Option ℕ :=
  if !s.page.running || (s.workers kind).busy then (s, none)
  else
    ( { s.setWorker kind ⟨true, none, some s.nextId⟩ with
        timers := s.timers.filter fun timer => (s.workers kind).timer ≠ some timer.id
        polls := ⟨s.nextId, kind, s.generation, includePrice, none, false⟩ :: s.polls
        nextId := s.nextId + 1 },
      some s.nextId )

def updatePolls (s : Polling) (which : Poll → Bool) (update : Poll → Poll) : Polling :=
  { s with polls := s.polls.map fun poll => if which poll then update poll else poll }

/-- The `catch` block. -/
def fault (s : Polling) (poll : Poll) : Polling :=
  if s.current poll then
    match poll.kind with
    | .presence =>
      { s with page := { s.page with presenceError := "Viewer heartbeat unavailable. Retrying automatically." } }
    | .price =>
      { s with page := { s.page with
        priceError := "Price update unavailable; retained quotes may be out of date. Retrying automatically." } }
  else s

/-- `receivePrice` with an accepted report. -/
def receivePrice (s : Polling) (report : Json) (data : DashboardData) (now : ℚ) : Polling :=
  { s with
    page := s.page.receivePrice data now
    body := if s.page.retains data then s.body else some report }

/-- The body of a presence request, as text. It is parsed where it may contain the price, and `none` is not JSON. -/
def receiveHeartbeat (s : Polling) (poll : Poll) (content : Option Json) (now : ℚ) : Polling × Option ℕ :=
  if s.current poll then
    let s := { s with page := { s.page with presenceError := "" } }
    if poll.includePrice then
      match content with
      | none | some .null => (s.fault poll, none)
      | some content =>
        match poll.report content with
        | none => (s, none)
        | some report =>
          match poll.accepted report with
          | none =>
            ({ s with page :=
              { s.page with priceError := "Startup price unavailable. Retrying automatically." } }, none)
          | some data =>
            ( s.receivePrice report data now,
              some (match report.get "refreshing" with
                | some (.bool true) => 1000
                | _ => 5000) )
    else (s, none)
  else (s, none)

/-- The body of a price request; `none` is not JSON. -/
def receiveReport (s : Polling) (poll : Poll) (content : Option Json) (now : ℚ) : Polling :=
  match content.bind poll.report with
  | none => s.fault poll
  | some report =>
    match poll.accepted report with
    | none => s.fault poll
    | some data => if s.current poll then s.receivePrice report data now else s

/-- The worker is idle and the request over. -/
def release (s : Polling) (poll : Poll) : Polling :=
  { s.setWorker poll.kind { s.workers poll.kind with busy := false, controller := none } with
    polls := s.polls.erase poll }

/-- The `finally` block and the return. Only `start` includes the price, and only `start` waits for the end. Where
`render` throws, the promise is rejected: there is no timer, and the callback in `start` is not called. -/
def finish (s : Polling) (poll : Poll) (startupPriceDelay : Option ℕ) : Polling :=
  let s := s.release poll
  if s.throws then s
  else
    let s := if s.page.running then s.setTimeout poll.kind (if poll.owner = s.generation then 5000 else 0) else s
    if poll.includePrice then { s with startups := ⟨poll.owner, startupPriceDelay⟩ :: s.startups } else s

/-- What a step did, with the request that it sent. -/
inductive Action
  | started (request : Option ℕ)
  | stopped
  | polled (request : Option ℕ)
  | advanced
  | settled
  | ignored
  deriving DecidableEq

def Action.sent : Action → Option ℕ
  | started request | polled request => request
  | _ => none

/-- The page at the beginning of a visibility period. -/
def begun (s : Polling) : Polling :=
  { s with page := { s.page with running := true }, generation := s.generation + 1 }

def start (s : Polling) (hidden : Bool) : Polling × Action :=
  if s.page.running || hidden then (s, .ignored)
  else if s.begun.throws then (s.begun, .started none)
  else
    match s.begun.poll .presence true with
    | (s, some request) => (s, .started (some request))
    | (s, none) => ({ s with startups := ⟨s.generation, none⟩ :: s.startups }, .started none)

def stop (s : Polling) : Polling × Action :=
  if s.page.running then
    let aborts (poll : Poll) : Bool :=
      (s.workers .presence).controller = some poll.id || (s.workers .price).controller = some poll.id
    ( { s.updatePolls aborts Poll.abort with
        page := { s.page with running := false }
        generation := s.generation + 1
        workers := fun kind => { s.workers kind with timer := none }
        timers := s.timers.filter fun timer =>
          (s.workers .presence).timer ≠ some timer.id && (s.workers .price).timer ≠ some timer.id },
      .stopped )
  else (s, .ignored)

/-- The callback in `start`. -/
def runStartup (s : Polling) (startup : Startup) : Polling × Action :=
  let s := { s with startups := s.startups.erase startup }
  if !s.page.running || startup.owner ≠ s.generation || (s.workers .price).timer.isSome then (s, .ignored)
  else
    match startup.delay with
    | none => ((s.poll .price false).1, .polled (s.poll .price false).2)
    | some delay => (s.setTimeout .price delay, .ignored)

def findPoll (s : Polling) (request : ℕ) : Option Poll := s.polls.find? fun poll => poll.id = request

/-- What can happen to the page. `hidden` is `document.hidden`, `deadline` the timeout of a request. -/
inductive Input
  | visibilitychange (hidden : Bool)
  | pagehide
  | pageshow (hidden : Bool)
  | fire (timer : ℕ)
  | startup (startup : Startup)
  | deadline (request : ℕ)
  | respond (request status : ℕ)
  | fail (request : ℕ)
  | body (request : ℕ) (content : Option Json) (now : ℚ)

/-- The request that an input is about. -/
def Input.request : Input → Option ℕ
  | deadline request | respond request _ | fail request | body request _ _ => some request
  | _ => none

end Polling

/-- The `start` at load is one more `pageshow`. -/
def pollingMachine : Machine Polling Polling.Input Polling.Action where
  step s
    | .visibilitychange hidden => some (if hidden then s.stop else s.start hidden)
    | .pagehide => some s.stop
    | .pageshow hidden => some (s.start hidden)
    | .fire id =>
      (s.timers.find? fun timer => timer.id = id).map fun timer =>
        let s := { s with timers := s.timers.erase timer }
        ((s.poll timer.kind false).1, .polled (s.poll timer.kind false).2)
    | .startup startup => if startup ∈ s.startups then some (s.runStartup startup) else none
    | .deadline request =>
      (s.findPoll request).map fun _ => (s.updatePolls (fun poll => poll.id = request) Poll.abort, .advanced)
    | .respond request status =>
      ((s.findPoll request).filter fun poll => poll.status = none).map fun poll =>
        if poll.rejects status then ((s.fault poll).finish poll none, .settled)
        else
          (s.updatePolls (fun poll => poll.id = request) fun poll => { poll with status := some status }, .advanced)
    | .fail request => (s.findPoll request).map fun poll => ((s.fault poll).finish poll none, .settled)
    | .body request content now =>
      ((s.findPoll request).filter fun poll => poll.status.isSome).map fun poll =>
        match poll.kind with
        | .presence =>
          ( (s.receiveHeartbeat poll content now).1.finish poll (s.receiveHeartbeat poll content now).2, .settled)
        | .price => ((s.receiveReport poll content now).finish poll none, .settled)

/-- The timers of the workers. Their delays are milliseconds. -/
def pollingAlarms : Alarms Polling Polling.Input where
  nextId := Polling.nextId
  rings s
    | .fire id => (s.timers.find? fun timer => timer.id = id).map fun timer => (timer.id, timer.delay)
    | _ => none

end BitcoinPriceTracker

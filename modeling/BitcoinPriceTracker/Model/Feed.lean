import BitcoinPriceTracker.Lib.Machine
import BitcoinPriceTracker.Model.Polling

/-!
# Polling the news

`scheduleFeed`, `refreshFeed`, `startFeed` and `stopFeed` of `dashboard.js`. The page runs one callback at a time, so
a step is what the code does from an event, a timer or a settled promise to the next `await`. `document.hidden`
changes together with its event. Every promise settles at any time or never, whether its request was aborted or not,
and the wall clock shows anything whenever it is read.
-/

namespace BitcoinPriceTracker

/-! ### Headlines -/

/-- What `new URL` makes of a link. -/
structure FeedUrl where
  href : String
  protocol : String

/-- An item of the parsed feed: the trimmed title, the link and the two texts of the date. What is missing or
invalid is `none`. -/
structure FeedItem where
  title : Option String
  url : Option FeedUrl
  published : Option (String × String)

structure Headline where
  title : String
  href : String
  published : Option (String × String)
  deriving DecidableEq

/-- The loop over the items. -/
def collectHeadlines : List Headline → List FeedItem → List Headline
  | entries, [] => entries
  | entries, item :: rest =>
    match item.url, item.title with
    | some url, some title =>
      if title = "" || url.protocol ∉ ["https:", "http:"] || entries.any fun entry => entry.href = url.href then
        collectHeadlines entries rest
      else if 30 ≤ entries.length + 1 then entries ++ [⟨title, url.href, item.published⟩]
      else collectHeadlines (entries ++ [⟨title, url.href, item.published⟩]) rest
    | _, _ => collectHeadlines entries rest

/-! ### The page -/

/-- Where a call of `refreshFeed` waits: for the response, or for the body with the delay that the headers asked
for. -/
inductive FeedStage
  | headers
  | body (retryDelay : ℚ)
  deriving DecidableEq

/-- `retryDelay` so far. -/
def FeedStage.retryDelay : FeedStage → ℚ
  | headers => 300000
  | body retryDelay => retryDelay

/-- A call of `refreshFeed` that waits, with its request. `deadline` is the timer of the request. -/
structure FeedCall where
  id : ℕ
  owner : ℕ
  stage : FeedStage
  aborted : Bool
  deadline : Bool
  deriving DecidableEq

structure FeedTimer where
  id : ℕ
  delay : ℚ
  deriving DecidableEq

/-- The page. `request` is the number of `feedRequest`. -/
structure Feed where
  hidden : Bool
  running : Bool
  generation : ℕ
  request : Option ℕ
  nextCheck : ℚ
  timer : Option ℕ
  lastXml : Option String
  headlines : List Headline
  status : String
  calls : List FeedCall
  timers : List FeedTimer
  nextId : ℕ

/-- What `Date.now()` shows in one callback: in `refreshFeed`, at the end of its request and in `scheduleFeed`. -/
structure Readings where
  check : ℤ
  settle : ℤ
  schedule : ℤ

namespace Feed

def init (hidden : Bool) : Feed :=
  ⟨hidden, false, 0, none, 0, none, none, [], "Loading Bitcoin.com RSS…", [], [], 0⟩

/-- `clearTimeout(feedTimer)`. -/
def clearTimer (s : Feed) : Feed :=
  { s with timer := none, timers := s.timers.filter fun timer => s.timer ≠ some timer.id }

def scheduleFeed (s : Feed) (now : ℤ) : Feed :=
  let s := s.clearTimer
  if s.running && !s.hidden && s.request.isNone then
    { s with
      timer := some s.nextId
      timers := ⟨s.nextId, max 0 (s.nextCheck - now)⟩ :: s.timers
      nextId := s.nextId + 1 }
  else s

/-- `current()`. -/
def current (s : Feed) (call : FeedCall) : Bool := s.running && !s.hidden && call.owner = s.generation

/-- The `catch` block. -/
def fault (s : Feed) (call : FeedCall) (retryDelay : ℚ) : Feed :=
  if s.current call then
    let retry := if retryDelay < 300000 then "retrying shortly" else "retrying in 5 minutes"
    { s with
      status :=
        if s.lastXml.any fun xml => xml ≠ "" then "Bitcoin.com · Showing previous headlines — " ++ retry
        else "Bitcoin news temporarily unavailable — " ++ retry }
  else s

/-- The `finally` block. -/
def finish (s : Feed) (call : FeedCall) (retryDelay : ℚ) (readings : Readings) : Feed :=
  let s := { s with request := none, calls := s.calls.erase call }
  let s := if s.current call then { s with nextCheck := readings.settle + retryDelay } else s
  s.scheduleFeed readings.schedule

/-- The delay for a response: `Retry-After` counts for three kinds of status. -/
def headerDelay (status : ℕ) (retryAfter : F64) : ℚ :=
  match retryAfter with
  | .finite seconds =>
    if (status = 429 || status = 503 || responseOk status) && 0 < seconds then min 30 (max 1 seconds) * 1000
    else 300000
  | _ => 300000

/-- The text for headlines that are shown. -/
def shownStatus (data : Json) : String :=
  if (data.get "refreshing").any Json.truthy then "Bitcoin.com · Refreshing cached headlines"
  else if (data.get "stale").any Json.truthy then "Bitcoin.com · Cached headlines — refresh temporarily unavailable"
  else "Bitcoin.com · RSS · Updates every 5 minutes"

/-- The delay and the page after a body. `parse` is what `DOMParser` makes of a text. -/
def receiveFeed (parse : String → Option (List FeedItem)) (s : Feed) (call : FeedCall) (data : Json) : Feed × ℚ :=
  let retryDelay := if (data.get "refreshing").any Json.truthy then 2000 else call.stage.retryDelay
  match (data.get "xml").bind Json.asStr with
  | none => (s.fault call retryDelay, retryDelay)
  | some xml =>
    if s.lastXml = some xml then ({ s with status := shownStatus data }, retryDelay)
    else
      match (parse xml).map (collectHeadlines []) with
      | none | some [] => (s.fault call retryDelay, retryDelay)
      | some headlines => ({ s with headlines, lastXml := some xml, status := shownStatus data }, retryDelay)

inductive Action
  | requested (request : ℕ)
  | stopped
  | advanced
  | settled
  | ignored
  deriving DecidableEq

def Action.sent : Action → Option ℕ
  | requested request => some request
  | _ => none

/-- The page with a new request. -/
def own (s : Feed) (call : FeedCall) : Feed :=
  { s.clearTimer with request := some call.id, calls := call :: s.calls, nextId := s.nextId + 1 }

/-- `refreshFeed` up to its request. Where the browser cannot send one, the call ends at once. -/
def refreshFeed (s : Feed) (available : Bool) (readings : Readings) : Feed × Action :=
  if !s.running || s.hidden || s.request.isSome then (s, .ignored)
  else if readings.check < s.nextCheck then (s.scheduleFeed readings.schedule, .ignored)
  else
    let call : FeedCall := ⟨s.nextId, s.generation, .headers, false, available⟩
    if available then (s.own call, .requested call.id)
    else (((s.own call).fault call call.stage.retryDelay).finish call call.stage.retryDelay readings, .settled)

def startFeed (s : Feed) (available : Bool) (readings : Readings) : Feed × Action :=
  if s.running || s.hidden then (s, .ignored)
  else { s with running := true, generation := s.generation + 1 }.refreshFeed available readings

def updateCalls (s : Feed) (which : FeedCall → Bool) (update : FeedCall → FeedCall) : Feed :=
  { s with calls := s.calls.map fun call => if which call then update call else call }

def stopFeed (s : Feed) : Feed × Action :=
  if s.running then
    let stopped : Feed := { s.clearTimer with running := false, generation := s.generation + 1 }
    (stopped.updateCalls (fun call => s.request = some call.id) fun call =>
      { call with deadline := false, aborted := true }, .stopped)
  else (s, .ignored)

/-- The headers of a response. -/
def respond (s : Feed) (call : FeedCall) (status : ℕ) (retryAfter : F64) (readings : Readings) : Feed × Action :=
  let retryDelay := headerDelay status retryAfter
  if !s.current call then (s.finish call 300000 readings, .settled)
  else if call.aborted then ((s.fault call 300000).finish call 300000 readings, .settled)
  else if !responseOk status then ((s.fault call retryDelay).finish call retryDelay readings, .settled)
  else
    (s.updateCalls (fun other => other.id = call.id) fun other => { other with stage := .body retryDelay }, .advanced)

/-- The body of a response. -/
def receiveBody (parse : String → Option (List FeedItem)) (s : Feed) (call : FeedCall) (data : Json)
    (readings : Readings) : Feed × Action :=
  let retryDelay := call.stage.retryDelay
  if !s.current call then (s.finish call retryDelay readings, .settled)
  else if call.aborted then ((s.fault call retryDelay).finish call retryDelay readings, .settled)
  else ((s.receiveFeed parse call data).1.finish call (s.receiveFeed parse call data).2 readings, .settled)

def findCall (s : Feed) (request : ℕ) : Option FeedCall := s.calls.find? fun call => call.id = request

/-- What can happen to the page. `hidden` is `document.hidden`, `available` whether the browser can send a request,
and a request fails where the promise of its response or of its body is rejected. -/
inductive Input
  | visibilitychange (hidden available : Bool) (readings : Readings)
  | pagehide
  | pageshow (available : Bool) (readings : Readings)
  | fire (timer : ℕ) (available : Bool) (readings : Readings)
  | deadline (request : ℕ)
  | respond (request status : ℕ) (retryAfter : F64) (readings : Readings)
  | body (request : ℕ) (data : Json) (readings : Readings)
  | fail (request : ℕ) (readings : Readings)

/-- The request that an input is about. -/
def Input.request : Input → Option ℕ
  | deadline request | respond request _ _ _ | body request _ _ | fail request _ => some request
  | _ => none

/-- What `Date.now()` shows where `refreshFeed` compares it with `feedNextCheck`. -/
def Input.check : Input → Option ℤ
  | visibilitychange _ _ readings | pageshow _ readings | fire _ _ readings => some readings.check
  | _ => none

end Feed

/-- The `startFeed` at load is one more `pageshow`. -/
def feedMachine (parse : String → Option (List FeedItem)) : Machine Feed Feed.Input Feed.Action where
  step s
    | .visibilitychange hidden available readings =>
      let s := { s with hidden }
      some (if hidden then s.stopFeed else s.startFeed available readings)
    | .pagehide => some s.stopFeed
    | .pageshow available readings => some (s.startFeed available readings)
    | .fire id available readings =>
      (s.timers.find? fun timer => timer.id = id).map fun timer =>
        { s with timers := s.timers.erase timer }.refreshFeed available readings
    | .deadline request =>
      ((s.findCall request).filter FeedCall.deadline).map fun _ =>
        (s.updateCalls (fun call => call.id = request) fun call => { call with aborted := true, deadline := false },
          .advanced)
    | .respond request status retryAfter readings =>
      ((s.findCall request).filter fun call => call.stage = .headers).map fun call =>
        s.respond call status retryAfter readings
    | .body request data readings =>
      ((s.findCall request).filter fun call => call.stage ≠ .headers).map fun call =>
        s.receiveBody parse call data readings
    | .fail request readings =>
      (s.findCall request).map fun call =>
        ((s.fault call call.stage.retryDelay).finish call call.stage.retryDelay readings, .settled)

end BitcoinPriceTracker

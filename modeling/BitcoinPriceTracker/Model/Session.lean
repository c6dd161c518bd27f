import BitcoinPriceTracker.Model.Feed
import BitcoinPriceTracker.Model.Lifecycle
import BitcoinPriceTracker.Model.Polling

/-!
# A page and its server

A part of `dashboard.js` and the process of `lifecycle.rs`. Every request takes a connection of its own. Its answer is
on its way until the page has read the status and then the body, and each part may be lost. Other clients, the last
heartbeat of a hidden page and the refusals of `limit_requests` are inputs of the process.
-/

namespace BitcoinPriceTracker

/-- An answer and its `retry-after` header. -/
structure Reply where
  answer : Answer
  retryAfter : Option String

/-- A part of the page, as the network sees it: what an open request asks for, the inputs that bring a part of a reply,
and the parts of a reply. -/
structure Client (σ ι α η : Type) where
  machine : Machine σ ι α
  asks : σ → ℕ → Option Request
  heard : ι → Bool
  request : η → ℕ
  hear : η → Reply → ι

structure Session (σ : Type) where
  page : σ
  tracker : Tracker
  /-- The connection of each request that has been sent. -/
  sent : ℕ → Option ℕ
  /-- The `retry-after` header of the response that a connection is about to be given. -/
  headers : ℕ → Option String
  /-- The replies that the connections have been given. -/
  replies : ℕ → Option Reply

inductive SessionInput (ι η : Type)
  | process (input : TrackerInput)
  /-- An event, a timer, or a request that fails. -/
  | page (input : ι)
  | send (request connection : ℕ)
  /-- The middleware refuses the request. -/
  | refuse (request connection : ℕ) (busy : Bool)
  /-- A part of a reply arrives. -/
  | hear (part : η)

/-- The step of each side, with its state before. -/
structure SessionAction (σ ι α : Type) where
  page : Option (σ × ι × α)
  tracker : Option (Tracker × TrackerInput × TrackerAction)

namespace Session

variable {σ ι α η : Type}

def init (page : σ) (db : Database) (now : ℕ) : Session σ :=
  ⟨page, .init db now, fun _ => none, fun _ => none, fun _ => none⟩

/-- The `retry-after` headers after a step of a handler. -/
def retryAfter (headers : ℕ → Option String) : TrackerInput → TrackerAction → ℕ → Option String
  | .refuse connection _, _ => Function.update headers connection (some "1")
  | .update connection, .server (.presence _ _ (.error _)) => Function.update headers connection (some "15")
  | .readNews connection, .news (.responded _ _ response _) => Function.update headers connection response.retryAfter
  | .expire connection, _ => Function.update headers connection none
  | _, _ => headers

/-- The replies after a step of the process. -/
def replied (headers : ℕ → Option String) (replies : ℕ → Option Reply) : TrackerAction → ℕ → Option Reply
  | .answered connection answer => Function.update replies connection (some ⟨answer, headers connection⟩)
  | _ => replies

def processed (s : Session σ) (t : Tracker) (input : TrackerInput) (b : TrackerAction) : Session σ :=
  { s with tracker := t, headers := retryAfter s.headers input b, replies := replied s.headers s.replies b }

def processStep (P : Platform) (path : DbPath) (maxViewers : ℕ) (s : Session σ) (input : TrackerInput) :
    Option (Session σ × SessionAction σ ι α) :=
  ((trackerMachine P path maxViewers).step s.tracker input).map fun r =>
    (s.processed r.1 input r.2, ⟨none, some (s.tracker, input, r.2)⟩)

def pageStep (C : Client σ ι α η) (s : Session σ) (input : ι) : Option (Session σ × SessionAction σ ι α) :=
  (C.machine.step s.page input).map fun r => ({ s with page := r.1 }, ⟨some (s.page, input, r.2), none⟩)

/-- A request reaches a connection, where the handler or the middleware gets it. -/
def sendStep (P : Platform) (path : DbPath) (maxViewers : ℕ) (s : Session σ) (request connection : ℕ)
    (input : TrackerInput) : Option (Session σ × SessionAction σ ι α) :=
  if s.sent request = none then
    { s with sent := Function.update s.sent request (some connection) }.processStep P path maxViewers input
  else none

/-- The reply to a request. -/
def replyTo (s : Session σ) (request : ℕ) : Option Reply := (s.sent request).bind s.replies

end Session

/-- The page hears nothing but what the process has answered. -/
def sessionMachine {σ ι α η : Type} (P : Platform) (path : DbPath) (maxViewers : ℕ) (C : Client σ ι α η) :
    Machine (Session σ) (SessionInput ι η) (SessionAction σ ι α) where
  step s
    | .process input => s.processStep P path maxViewers input
    | .page input => if C.heard input then none else s.pageStep C input
    | .send request connection =>
      (C.asks s.page request).bind fun asked =>
        s.sendStep P path maxViewers request connection (.request connection asked)
    | .refuse request connection busy =>
      (C.asks s.page request).bind fun _ =>
        s.sendStep P path maxViewers request connection (.refuse connection busy)
    | .hear part => (s.replyTo (C.request part)).bind fun reply => s.pageStep C (C.hear part reply)

/-! ### The prices -/

/-- What `fetch` asks for. -/
def Poll.asks (sessionId : String) (poll : Poll) : Request :=
  match poll.kind with
  | .presence => .presence ⟨sessionId, true, poll.includePrice⟩
  | .price => .price

namespace Polling

def Input.heard : Input → Bool
  | respond _ _ | body _ _ _ => true
  | _ => false

inductive Part
  | headers (request : ℕ)
  | body (request : ℕ) (now : ℚ)

def Part.request : Part → ℕ
  | headers request | body request _ => request

def Part.heard : Part → Reply → Input
  | headers request, reply => .respond request reply.answer.status
  | body request now, reply => .body request (some reply.answer.body) now

def client (sessionId : String) : Client Polling Input Action Part where
  machine := pollingMachine
  asks s request := (s.findPoll request).map (Poll.asks sessionId)
  heard := Input.heard
  request := Part.request
  hear := Part.heard

end Polling

/-! ### The news -/

namespace Feed

/-- `Number` of the header, where the server writes digits: a missing one counts as zero. -/
def headerNumber : Option String → F64
  | none => .finite 0
  | some text =>
    if text.toList.all Char.isDigit then
      .finite (text.toList.foldl (fun value digit => 10 * value + (digit.toNat - 48)) 0 : ℕ)
    else .nan

def Input.heard : Input → Bool
  | respond _ _ _ _ | body _ _ _ => true
  | _ => false

inductive Part
  | headers (request : ℕ) (readings : Readings)
  | body (request : ℕ) (readings : Readings)

def Part.request : Part → ℕ
  | headers request _ | body request _ => request

def Part.heard : Part → Reply → Input
  | headers request readings, reply => .respond request reply.answer.status (headerNumber reply.retryAfter) readings
  | body request readings, reply => .body request reply.answer.body readings

def client (parse : String → Option (List FeedItem)) : Client Feed Input Action Part where
  machine := feedMachine parse
  asks s request := (s.findCall request).map fun _ => .news
  heard := Input.heard
  request := Part.request
  hear := Part.heard

end Feed

end BitcoinPriceTracker

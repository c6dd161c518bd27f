import BitcoinPriceTracker.Lib.Machine
import BitcoinPriceTracker.Model.Pricing

/-!
# The news cache

`news.rs`: the bounded transfer of the feed, readers that answer from the cache under its lock and reserve one
refresh, and the detached refresh task. What a fetch brings is an input of the machine; the deadline of the task is
one of its errors.
-/

namespace BitcoinPriceTracker

namespace News

/-! ### Fetching -/

def MAX_FEED_BYTES : ℕ := 2 * 1024 * 1024

/-- The texts of the errors that `fetch_feed` passes on: of `error_for_status` and of `String::from_utf8`. -/
structure ErrorTexts where
  errorForStatus : StatusCode → String
  fromUtf8 : List UInt8 → String

/-- The loop over the chunks of the feed. -/
def readFeed (interrupted : Option ReqwestError) : List UInt8 → List (List UInt8) → Except String (List UInt8)
  | bytes, [] =>
    match interrupted with
    | some error => .error error.diagnostic
    | none => .ok bytes
  | bytes, chunk :: rest =>
    if MAX_FEED_BYTES < bytes.length + chunk.length then .error "RSS response exceeded size limit"
    else readFeed interrupted (bytes ++ chunk) rest

/-- `xml.contains(pattern)`. -/
def contains (xml pattern : String) : Bool := pattern.toList <:+: xml.toList

def decodeFeed (texts : ErrorTexts) (bytes : List UInt8) : Except String String :=
  match String.fromUTF8? ⟨bytes.toArray⟩ with
  | none => .error (texts.fromUtf8 bytes)
  | some xml =>
    if !contains xml "<rss" || !contains xml "<channel" then .error "Upstream did not return an RSS feed" else .ok xml

def fetchFeed (texts : ErrorTexts) (exchange : Except ReqwestError BitcoinPriceTracker.Response) :
    Except String String :=
  match exchange with
  | .error error => .error error.diagnostic
  | .ok response =>
    if 400 ≤ response.status.code && response.status.code < 600 then .error (texts.errorForStatus response.status)
    else
      match readFeed response.interrupted [] response.chunks with
      | .error error => .error error
      | .ok bytes => decodeFeed texts bytes

/-! ### The cache -/

/-- `REFRESH_INTERVAL` of the news. -/
def refreshInterval : ℕ := Duration.fromSecs 300

structure FeedCache where
  checkedAt : Option ℕ
  xml : Option String
  stale : Bool
  refreshing : Bool

/-- `FeedCache::default()`. -/
def FeedCache.default : FeedCache := ⟨none, none, false, false⟩

structure FeedResponse where
  xml : Option String
  stale : Bool
  refreshing : Bool
  deriving DecidableEq

/-- Status, the `retry-after` header and the body. -/
structure Response where
  status : ℕ
  retryAfter : Option String
  body : FeedResponse
  deriving DecidableEq

/-- `cache.checked_at.is_none_or(...)`. -/
def FeedCache.expired (cache : FeedCache) (now : ℕ) : Bool :=
  cache.checkedAt.all fun checkedAt => refreshInterval ≤ now - checkedAt

/-- `news_response` under the lock: the cache after the reservation, whether a refresh is spawned, and the
response. -/
def newsResponse (cache : FeedCache) (now : ℕ) : FeedCache × Bool × Response :=
  let expired := cache.expired now
  let spawns := expired && !cache.refreshing
  let cache := if spawns then { cache with refreshing := true } else cache
  (cache, spawns, {
    status := if cache.xml.isSome then 200 else 503
    retryAfter := if cache.refreshing then some "2" else none
    body := ⟨cache.xml, cache.stale || expired, cache.refreshing⟩ })

/-- The end of the refresh task under the lock. -/
def settle (cache : FeedCache) (result : Except String String) (now : ℕ) : FeedCache :=
  let written :=
    match result with
    | .ok xml => { cache with xml := some xml, stale := false }
    | .error _ => { cache with stale := true }
  { written with checkedAt := some now, refreshing := false }

/-- What `timeout` makes of a fetch that the deadline cuts off. -/
def deadlineExceeded : Except String String := .error "RSS refresh deadline exceeded"

/-- The task waits for its fetch, then for the lock. -/
inductive TaskPoint
  | fetching
  | settling (result : Except String String)

structure State where
  now : ℕ
  cache : FeedCache
  /-- The readers that wait for the lock. -/
  readers : ℕ → Bool
  tasks : ℕ → Option TaskPoint
  nextId : ℕ

def State.init (now : ℕ) : State := ⟨now, .default, fun _ => false, fun _ => none, 0⟩

inductive Input
  | advance (now : ℕ)
  | arrive
  | cancel (reader : ℕ)
  | read (reader : ℕ)
  | fetched (task : ℕ) (result : Except String String)
  | deadline (task : ℕ)
  | settle (task : ℕ)

inductive Action
  | advanced (now : ℕ)
  | arrived (reader : ℕ)
  | cancelled (reader : ℕ)
  | responded (reader now : ℕ) (response : Response) (spawned : Option ℕ)
  | fetched (task : ℕ)
  | settled (task now : ℕ) (result : Except String String)

def State.setTask (s : State) (task : ℕ) (point : Option TaskPoint) : State :=
  { s with tasks := Function.update s.tasks task point }

def State.setReader (s : State) (reader : ℕ) (waiting : Bool) : State :=
  { s with readers := Function.update s.readers reader waiting }

/-- A reader answers; the refresh that it may have reserved gets a task of its own. -/
def State.read (s : State) (reader : ℕ) : State × Action :=
  let (cache, spawns, response) := newsResponse s.cache s.now
  let answered := { s with cache }.setReader reader false
  if spawns then
    ({ answered with nextId := s.nextId + 1 }.setTask s.nextId (some .fetching),
      .responded reader s.now response (some s.nextId))
  else (answered, .responded reader s.now response none)

/-- Readers, their cancellation, the clock and refresh tasks in any order. -/
def machine : Machine State Input Action where
  step s
    | .advance now => if s.now ≤ now then some ({ s with now }, .advanced now) else none
    | .arrive => some ({ s with nextId := s.nextId + 1 }.setReader s.nextId true, .arrived s.nextId)
    | .cancel reader => if s.readers reader then some (s.setReader reader false, .cancelled reader) else none
    | .read reader => if s.readers reader then some (s.read reader) else none
    | .fetched task result =>
      match s.tasks task with
      | some .fetching => some (s.setTask task (some (.settling result)), .fetched task)
      | _ => none
    | .deadline task =>
      match s.tasks task with
      | some .fetching => some (s.setTask task (some (.settling deadlineExceeded)), .fetched task)
      | _ => none
    | .settle task =>
      match s.tasks task with
      | some (.settling result) =>
        some ({ s with cache := News.settle s.cache result s.now }.setTask task none, .settled task s.now result)
      | _ => none

end News

end BitcoinPriceTracker

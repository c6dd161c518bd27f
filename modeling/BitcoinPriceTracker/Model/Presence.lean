import BitcoinPriceTracker.Lib.Machine
import BitcoinPriceTracker.Lib.Keyed
import BitcoinPriceTracker.Model.SourceContract

namespace BitcoinPriceTracker

structure PresencePayload where
  sessionId : String
  active : Bool
  includePrice : Bool
  deriving DecidableEq

/-- The viewers with the instants at which they were last seen. -/
abbrev Viewers := Keyed (String × ℕ) Prod.fst

/-- The viewers map and the atomic `full_refresh_generation`, a 64-bit counter. -/
structure Registry where
  viewers : Viewers
  fullRefreshGeneration : ℕ

def Registry.init : Registry := ⟨.empty, 0⟩

def viewerTtl : ℕ := Duration.fromSecs VIEWER_TTL_SECONDS

def pruneInactiveViewers (viewers : Viewers) (now : ℕ) : Viewers :=
  viewers.filter fun viewer => now - viewer.2 ≤ viewerTtl

/-- `apply_presence_update` at the instant read under the viewers lock: the number of viewers,
as an error where the update is rejected. -/
def applyPresenceUpdate (maxViewers : ℕ) (payload : PresencePayload) (now : ℕ) (registry : Registry) :
    Except ℕ ℕ × Registry :=
  let viewers := pruneInactiveViewers registry.viewers now
  let previouslyEmpty := viewers.length = 0
  if payload.active && !viewers.contains payload.sessionId && maxViewers ≤ viewers.length then
    (.error viewers.length, { registry with viewers := viewers })
  else
    let updated :=
      if payload.active then viewers.put (payload.sessionId, now) else viewers.remove payload.sessionId
    let generation :=
      if payload.active && previouslyEmpty && updated.length ≠ 0 then
        (registry.fullRefreshGeneration + 1) % 2 ^ 64
      else registry.fullRefreshGeneration
    (.ok updated.length, ⟨updated, generation⟩)

def activeViewerCount (now : ℕ) (registry : Registry) : ℕ × Registry :=
  let viewers := pruneInactiveViewers registry.viewers now
  (viewers.length, { registry with viewers := viewers })

/-- `snapshot_age_seconds`. -/
def snapshotAgeSeconds (snapshot : SnapshotRecord) (now : ℤ) : Option ℤ :=
  (checkedSub now snapshot.fetchedAtUnix).filter (0 ≤ ·)

def refreshSkipReason (activeViewers : ℕ) (snapshotAge : Option ℤ) : Option String :=
  if activeViewers = 0 then
    some ("Refresh skipped: no active viewers are currently tracked. " ++
      "Open the dashboard tab to resume updates.")
  else
    match snapshotAge with
    | some age =>
      if age < REFRESH_INTERVAL_SECONDS then
        some ("Refresh skipped: latest snapshot is " ++ toString age ++
          "s old; minimum refresh interval is " ++ toString REFRESH_INTERVAL_SECONDS ++ "s.")
      else none
    | none => none

/-- The length in `is_valid_session_id` is in bytes; every admitted character is one byte. -/
def isValidSessionId (sessionId : String) : Bool :=
  sessionId ≠ "" && sessionId.utf8ByteSize ≤ 128 &&
    sessionId.toList.all fun ch => ch.isAlphanum || ch = '-' || ch = '_'

inductive RegistryInput
  | update (payload : PresencePayload) (now : ℕ)
  | count (now : ℕ)

inductive RegistryAction
  | updated (payload : PresencePayload) (now : ℕ) (result : Except ℕ ℕ)
  | counted (now : ℕ) (viewers : ℕ)
  deriving DecidableEq

/-- The updates and counts in the order in which they take the viewers lock. The instants are
read under the lock, so that they do not decrease. -/
def registryMachine (maxViewers : ℕ) : Machine (Registry × ℕ) RegistryInput RegistryAction where
  step
    | (registry, last), .update payload now =>
      if last ≤ now then
        let (result, registry') := applyPresenceUpdate maxViewers payload now registry
        some ((registry', now), .updated payload now result)
      else none
    | (registry, last), .count now =>
      if last ≤ now then
        let (viewers, registry') := activeViewerCount now registry
        some ((registry', now), .counted now viewers)
      else none

end BitcoinPriceTracker

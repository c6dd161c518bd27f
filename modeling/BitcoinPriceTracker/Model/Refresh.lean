import BitcoinPriceTracker.Lib.Machine
import BitcoinPriceTracker.Model.Errors

/-!
# The refresh coordinator

`refresh.rs`: the gate of the global interval, the deadlines of the providers, the rotation and
the backoff. The operator `Instant + Duration` panics on overflow. A panic unwinds with the
fields as they are at that moment, and the mutex around the coordinator is not poisoned, so
both operations return what a panic leaves behind.
-/

namespace BitcoinPriceTracker

structure RefreshCoordinator where
  nextSource : Fin 4
  lastAttempt : Option ℕ
  nextEligible : UpstreamSource → Option ℕ
  consecutiveFailures : UpstreamSource → ℕ
  completedGeneration : ℕ

structure RefreshPlan where
  sources : List UpstreamSource
  fullRefresh : Bool
  generation : ℕ
  deriving DecidableEq

def refreshInterval : ℕ := Duration.fromSecs REFRESH_INTERVAL_SECONDS

def intervalReason : String :=
  "Refresh skipped: minimum interval since the last attempt has not elapsed."

def waitingReason : String := "Refresh skipped: all providers are waiting before another attempt."

namespace RefreshCoordinator

/-- `RefreshCoordinator::default`. -/
def init : RefreshCoordinator := ⟨0, none, fun _ => none, fun _ => 0, 0⟩

/-- The interval since the last attempt has not elapsed. -/
def tooEarly (c : RefreshCoordinator) (now : ℕ) : Bool :=
  c.lastAttempt.any fun last => now - last < refreshInterval

/-- `next_eligible[index].is_none_or(|eligible| now >= eligible)`. -/
def eligible (c : RefreshCoordinator) (now : ℕ) (source : UpstreamSource) : Bool :=
  (c.nextEligible source).all fun deadline => deadline ≤ now

/-- The loop of `begin`: an ordinary refresh stops at the first eligible provider. -/
def collectSources (fullRefresh : Bool) (eligible : UpstreamSource → Bool) :
    List UpstreamSource → List UpstreamSource
  | [] => []
  | source :: rest =>
    if eligible source then
      if fullRefresh then source :: collectSources fullRefresh eligible rest else [source]
    else collectSources fullRefresh eligible rest

/-- The providers in the order of the loop: from the first one, or from the cursor. -/
def candidates (c : RefreshCoordinator) (fullRefresh : Bool) : List UpstreamSource :=
  (List.finRange 4).map fun offset =>
    UpstreamSource.atIndex (if fullRefresh then offset else c.nextSource + offset)

/-- Installs the deadlines of a granted plan and moves the cursor behind its last provider. -/
def dispatch (deadline : ℕ) (c : RefreshCoordinator) (sources : List UpstreamSource) :
    RefreshCoordinator :=
  sources.foldl (fun c source =>
    { c with
      nextEligible := Function.update c.nextEligible source (some deadline)
      nextSource := source.index + 1 }) c

/-- `RefreshCoordinator::begin`: the plan or the reason of a refusal. An error is a panic. -/
def begin (range : InstantRange) (now requestedGeneration : ℕ) (c : RefreshCoordinator) :
    Except RefreshCoordinator (Except String RefreshPlan × RefreshCoordinator) :=
  if c.tooEarly now then .ok (.error intervalReason, c)
  else
    let fullRefresh := requestedGeneration ≠ c.completedGeneration
    let sources := collectSources fullRefresh (c.eligible now) (c.candidates fullRefresh)
    if sources = [] then .ok (.error waitingReason, c)
    else
      let attempted := { c with lastAttempt := some now }
      match range.checkedAdd now refreshInterval with
      | none => .error attempted
      | some deadline =>
        .ok (.ok ⟨sources, fullRefresh, requestedGeneration⟩, attempted.dispatch deadline sources)

/-- The delay that a failure asks for. -/
def retryDelay (error : ProviderError) (nowUnix : ℤ) : Option ℕ :=
  match error.kind with
  | .http _ (some (.delay duration)) => some duration
  | .http _ (some (.at time)) =>
    (SystemTime.sinceEpoch time).bind fun sinceEpoch =>
      let seconds := max ((Duration.asSecs sinceEpoch : ℤ) - nowUnix) 0
      if seconds < 2 ^ 64 then some (Duration.fromSecs seconds.toNat) else none
  | _ => none

/-- `Duration::from_secs((10_u64 << (count - 1)).min(300))`. -/
def backoff (count : ℕ) : ℕ := Duration.fromSecs (min (10 * 2 ^ (count - 1)) 300)

/-- The deadline after a failure, the `count`-th one in a row; `none` is a panic. -/
def retryDeadline (range : InstantRange) (error : ProviderError) (now : ℕ) (nowUnix : ℤ) (count : ℕ) :
    Option ℕ :=
  let hinted := (retryDelay error nowUnix).bind fun delay => range.checkedAdd now (max delay (backoff count))
  -- `unwrap_or` evaluates `now + backoff` also where the hint is used.
  (range.checkedAdd now (backoff count)).map fun deadline => hinted.getD deadline

/-- `consecutive_failures[index].saturating_add(1).min(6)`. -/
def failureCount (c : RefreshCoordinator) (source : UpstreamSource) : ℕ :=
  min (c.consecutiveFailures source + 1) 6

def setFailures (c : RefreshCoordinator) (source : UpstreamSource) (count : ℕ) : RefreshCoordinator :=
  { c with consecutiveFailures := Function.update c.consecutiveFailures source count }

def setEligible (c : RefreshCoordinator) (source : UpstreamSource) (deadline : ℕ) : RefreshCoordinator :=
  { c with nextEligible := Function.update c.nextEligible source (some deadline) }

def recordFailure (range : InstantRange) (error : ProviderError) (now : ℕ) (nowUnix : ℤ)
    (c : RefreshCoordinator) (source : UpstreamSource) : Except RefreshCoordinator RefreshCoordinator :=
  match retryDeadline range error now nowUnix (c.failureCount source) with
  | none => .error (c.setFailures source (c.failureCount source))
  | some deadline => .ok ((c.setFailures source (c.failureCount source)).setEligible source deadline)

/-- One round of the loop of `complete`. -/
def settle (range : InstantRange) (failures : List ProviderError) (now : ℕ) (nowUnix : ℤ)
    (c : RefreshCoordinator) (source : UpstreamSource) : Except RefreshCoordinator RefreshCoordinator :=
  match failures.find? fun error => error.provider = source with
  | some error => c.recordFailure range error now nowUnix source
  | none => .ok (c.setFailures source 0)

def settleAll (range : InstantRange) (failures : List ProviderError) (now : ℕ) (nowUnix : ℤ) :
    List UpstreamSource → RefreshCoordinator → Except RefreshCoordinator RefreshCoordinator
  | [], c => .ok c
  | source :: rest, c =>
    match c.settle range failures now nowUnix source with
    | .error left => .error left
    | .ok c' => settleAll range failures now nowUnix rest c'

/-- `RefreshCoordinator::complete`. An error is a panic. -/
def complete (range : InstantRange) (plan : RefreshPlan) (failures : List ProviderError) (now : ℕ)
    (nowUnix : ℤ) (c : RefreshCoordinator) : Except RefreshCoordinator RefreshCoordinator :=
  match settleAll range failures now nowUnix plan.sources c with
  | .error left => .error left
  | .ok c' =>
    .ok (if plan.fullRefresh then { c' with completedGeneration := plan.generation } else c')

end RefreshCoordinator

/-! ### Runs of the coordinator -/

/-- The coordinator with the plan that is granted and not yet over, and the latest instant. -/
structure Schedule where
  coordinator : RefreshCoordinator
  outstanding : Option RefreshPlan
  last : ℕ

def Schedule.init : Schedule := ⟨.init, none, 0⟩

inductive RefreshInput
  | begin (now requestedGeneration : ℕ)
  | complete (failures : List ProviderError) (now : ℕ) (nowUnix : ℤ)
  | abandon

inductive RefreshAction
  | granted (plan : RefreshPlan) (now : ℕ)
  | refused (reason : String) (now requestedGeneration : ℕ)
  | beginUnwound (now : ℕ)
  | completed (plan : RefreshPlan) (failures : List ProviderError) (now : ℕ) (nowUnix : ℤ)
  | completionUnwound (plan : RefreshPlan) (now : ℕ)
  | abandoned (plan : RefreshPlan)

/-- A plan is completed or abandoned before the next `begin`; instants do not decrease. -/
def refreshMachine (range : InstantRange) : Machine Schedule RefreshInput RefreshAction where
  step
    | ⟨c, none, last⟩, .begin now requestedGeneration =>
      if last ≤ now then
        match c.begin range now requestedGeneration with
        | .error left => some (⟨left, none, now⟩, .beginUnwound now)
        | .ok (.error reason, c') => some (⟨c', none, now⟩, .refused reason now requestedGeneration)
        | .ok (.ok plan, c') => some (⟨c', some plan, now⟩, .granted plan now)
      else none
    | ⟨c, some plan, last⟩, .complete failures now nowUnix =>
      if last ≤ now then
        match c.complete range plan failures now nowUnix with
        | .error left => some (⟨left, none, now⟩, .completionUnwound plan now)
        | .ok c' => some (⟨c', none, now⟩, .completed plan failures now nowUnix)
      else none
    | ⟨c, some plan, last⟩, .abandon => some (⟨c, none, last⟩, .abandoned plan)
    | _, _ => none

end BitcoinPriceTracker

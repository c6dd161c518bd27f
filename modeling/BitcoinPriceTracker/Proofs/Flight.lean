import BitcoinPriceTracker.Proofs.ServerSteps

namespace BitcoinPriceTracker

/-- The read that an action is about. -/
def ServerAction.reader : ServerAction → Option ℕ
  | readBegan id _ | loaded id _ | counted id _ _ | reportCopied id | cancelled id | decided id
  | generationLoaded id _ | granted id _ _ | refused id _ _ _ | beginUnwound id _ | spawned id _ _
  | ownerDropped id | responded id _ _ => some id
  | _ => none

/-- The steps of the read `id` of a server. -/
inductive ReadStep (s : Server) (id : ℕ) : Option ReadPoint → ServerAction → Option ReadPoint → Prop
  | other {point : Option ReadPoint} {a : ServerAction} (ha : a.reader ≠ some id) : ReadStep s id point a point
  | began {owner : Bool} : ReadStep s id none (.readBegan id owner) (some .loading)
  | loaded {result : Except String StoredPriceState} :
    ReadStep s id (some .loading) (.loaded id result) (some (.counting result))
  | counted {loaded : Except String StoredPriceState} {now viewers : ℕ} {responseNow : ℤ} :
    ReadStep s id (some (.counting loaded)) (.counted id now viewers) (some (.reporting loaded viewers responseNow))
  | reportCopied {loaded : Except String StoredPriceState} {viewers : ℕ} {responseNow : ℤ}
      {report : PriceRefreshReport} :
    ReadStep s id (some (.reporting loaded viewers responseNow)) (.reportCopied id)
      (some (.deciding ⟨loaded, viewers, responseNow, report⟩))
  | cancelled {point : ReadPoint} (h : point.cancellable = true) : ReadStep s id (some point) (.cancelled id) none
  | decided {seen : ReadData} : ReadStep s id (some (.deciding seen)) (.decided id) (some (s.decision id seen))
  | generationLoaded {seen : ReadData} :
    ReadStep s id (some (.generating seen)) (.generationLoaded id s.registry.fullRefreshGeneration)
      (some (.beginning seen s.registry.fullRefreshGeneration))
  | beginUnwound {seen : ReadData} {generation now : ℕ} :
    ReadStep s id (some (.beginning seen generation)) (.beginUnwound id now) none
  | refused {seen : ReadData} {generation now : ℕ} {reason : String} :
    ReadStep s id (some (.beginning seen generation)) (.refused id reason now generation) (some (.refused seen reason))
  | granted {seen : ReadData} {generation now : ℕ} {plan : RefreshPlan} :
    ReadStep s id (some (.beginning seen generation)) (.granted id plan now) (some (.spawning seen plan))
  | spawned {seen : ReadData} {plan : RefreshPlan} {task : ℕ} {reason : Option String} :
    ReadStep s id (some (.spawning seen plan)) (.spawned id task plan) (some (.responding seen true reason))
  | ownerDropped {seen : ReadData} {reason : String} :
    ReadStep s id (some (.refused seen reason)) (.ownerDropped id) (some (.responding seen false (some reason)))
  | responded {seen : ReadData} {refreshing : Bool} {reason : Option String} {status : ℕ} {body : PriceResponse} :
    ReadStep s id (some (.responding seen refreshing reason)) (.responded id status body) none

lemma ReadStep.of_update {s s' : Server} {a : ServerAction} {id : ℕ} {old new : Option ReadPoint} (other : ℕ)
    (hreads : s'.reads = Function.update s.reads id new) (ha : a.reader = some id) (hold : s.reads id = old)
    (h : ReadStep s id old a new) : ReadStep s other (s.reads other) a (s'.reads other) := by
  rw [hreads]
  rcases eq_or_ne other id with rfl | hne
  · rwa [hold, Function.update_self]
  · rw [Function.update_of_ne hne]
    exact .other (by simpa [ha] using hne.symm)

/-- Every step of the server moves each read as its machine does. -/
theorem read_life {P : Platform} {path : DbPath} {maxViewers : ℕ} {s s' : Server} {a : ServerAction}
    (h : Exclusive s) (hs : ServerStep P path maxViewers s a s') (id : ℕ) :
    ReadStep s id (s.reads id) a (s'.reads id) := by
  cases hs with
  | readOwner | readReader => exact .of_update id rfl rfl (h.fresh _ le_rfl) .began
  | loaded hread => exact .of_update id rfl rfl hread .loaded
  | counted hread => exact .of_update id rfl rfl hread .counted
  | reportCopied hread => exact .of_update id rfl rfl hread .reportCopied
  | cancelled hread hpoint => exact .of_update id rfl rfl hread (.cancelled hpoint)
  | decided hread => exact .of_update id rfl rfl hread .decided
  | generationLoaded hread => exact .of_update id rfl rfl hread .generationLoaded
  | beginUnwound hread => exact .of_update id rfl rfl hread .beginUnwound
  | refused hread => exact .of_update id rfl rfl hread .refused
  | granted hread => exact .of_update id rfl rfl hread .granted
  | spawned hread => exact .of_update id rfl rfl hread .spawned
  | ownerDropped hread => exact .of_update id rfl rfl hread .ownerDropped
  | responded hread => exact .of_update id rfl rfl hread .responded
  | _ => exact .other (by simp [ServerAction.reader])

/-- A granted plan on its way, with the read or the task that carries it. -/
inductive Flight
  | granted (read : ℕ) (plan : RefreshPlan)
  | running (task : ℕ) (plan : RefreshPlan) (point : TaskPoint)

def ReadPoint.flight (id : ℕ) : ReadPoint → Option Flight
  | spawning _ plan => some (.granted id plan)
  | _ => none

def Held.flight : Held → Option Flight
  | .read id point => point.flight id
  | .task id running => some (.running id running.plan running.point)

def Server.flight (s : Server) : Option Flight := s.held.bind Held.flight

/-- The actions that are about a granted plan. -/
def ServerAction.ofPlan : ServerAction → Bool
  | granted _ _ _ | spawned _ _ _ | notStopping _ | stoppingSeen _ _ | viewersSeen _ _ _ | noViewers _ _ _
  | requested _ _ _ | collected _ | stored _ _ _ _ | completed _ _ _ _ _ | completionUnwound _ _ _ | published _
  | released _ => true
  | _ => false

/-- The steps of a plan, from its grant until the guard is dropped. -/
inductive FlightStep : Option Flight → ServerAction → Option Flight → Prop
  | other {flight : Option Flight} {a : ServerAction} (ha : a.ofPlan = false) : FlightStep flight a flight
  | granted {id now : ℕ} {plan : RefreshPlan} : FlightStep none (.granted id plan now) (some (.granted id plan))
  | spawned {id task : ℕ} {plan : RefreshPlan} :
    FlightStep (some (.granted id plan)) (.spawned id task plan) (some (.running task plan .spawned))
  | notStopping {id : ℕ} {plan : RefreshPlan} :
    FlightStep (some (.running id plan .spawned)) (.notStopping id) (some (.running id plan .counting))
  | stoppingSeen {id : ℕ} {plan : RefreshPlan} :
    FlightStep (some (.running id plan .spawned)) (.stoppingSeen id plan) none
  | viewersSeen {id now viewers : ℕ} {plan : RefreshPlan} (h : 0 < viewers) :
    FlightStep (some (.running id plan .counting)) (.viewersSeen id now viewers) (some (.running id plan .dispatching))
  | noViewers {id now : ℕ} {plan : RefreshPlan} :
    FlightStep (some (.running id plan .counting)) (.noViewers id now plan) none
  | requested {id now : ℕ} {plan : RefreshPlan} :
    FlightStep (some (.running id plan .dispatching)) (.requested id plan.sources now)
      (some (.running id plan .fetching))
  | collected {id : ℕ} {plan : RefreshPlan} {attempts : UpstreamSource → Attempt} {nowUnix : ℤ} :
    FlightStep (some (.running id plan .fetching)) (.collected id) (some (.running id plan (.storing attempts nowUnix)))
  | stored {id : ℕ} {plan : RefreshPlan} {attempts : UpstreamSource → Attempt} {nowUnix : ℤ}
      {latest : Option SnapshotRecord} {batch : Batch} {result : Except String Unit} :
    FlightStep (some (.running id plan (.storing attempts nowUnix))) (.stored id latest batch result)
      (some (.running id plan (.completing batch result)))
  | completed {id now : ℕ} {plan : RefreshPlan} {batch : Batch} {stored : Except String Unit} {nowUnix : ℤ}
      {report : PriceRefreshReport} :
    FlightStep (some (.running id plan (.completing batch stored))) (.completed id plan batch.failures now nowUnix)
      (some (.running id plan (.reporting report)))
  | completionUnwound {id now : ℕ} {plan : RefreshPlan} {batch : Batch} {stored : Except String Unit} :
    FlightStep (some (.running id plan (.completing batch stored))) (.completionUnwound id plan now) none
  | published {id : ℕ} {plan : RefreshPlan} {report : PriceRefreshReport} :
    FlightStep (some (.running id plan (.reporting report))) (.published id) (some (.running id plan .releasing))
  | released {id : ℕ} {plan : RefreshPlan} :
    FlightStep (some (.running id plan .releasing)) (.released id) none

variable {P : Platform} {path : DbPath} {maxViewers : ℕ} {s s' : Server} {a : ServerAction}

lemma flight_setRead {id : ℕ} {old new : ReadPoint} (hread : s.reads id = some old)
    (hold : old.flight id = none) (hnew : new.flight id = none) :
    (s.setRead id (some new)).flight = s.flight := by
  unfold Server.flight
  rw [Server.held_setRead]
  split
  · next howner => simp [Server.held, howner, hread, Held.flight, hold, hnew]
  · rfl

lemma flight_endRead {id : ℕ} {old : ReadPoint} (hread : s.reads id = some old) (hold : old.flight id = none) :
    (s.endRead id).flight = s.flight := by
  unfold Server.flight
  rw [Server.held_endRead]
  split
  · next howner => simp [Server.held, howner, hread, Held.flight, hold]
  · rfl

lemma flight_setTask (s : Server) (id : ℕ) (task : RefreshTask) :
    (s.setTask id (some task)).flight =
      if s.owner = some (.task id) then some (.running id task.plan task.point) else s.flight := by
  unfold Server.flight
  rw [Server.held_setTask]
  split <;> rfl

lemma flight_endTask (s : Server) (id : ℕ) :
    (s.endTask id).flight = if s.owner = some (.task id) then none else s.flight := by
  unfold Server.flight
  rw [Server.held_endTask]
  split <;> rfl

lemma Exclusive.flight_task (h : Exclusive s) {id : ℕ} {task : RefreshTask} (htask : s.tasks id = some task) :
    s.flight = some (.running id task.plan task.point) := by
  simp [Server.flight, h.held_task htask, Held.flight]

lemma Exclusive.flight_planning (h : Exclusive s) {id : ℕ} {point : ReadPoint} (hread : s.reads id = some point)
    (hplanning : point.planning = true) : s.flight = point.flight id := by
  simp [Server.flight, h.held_read hread hplanning, Held.flight]

lemma decision_flight (id : ℕ) (seen : ReadData) : (s.decision id seen).flight id = none := by
  unfold Server.decision
  dsimp only
  repeat' split
  all_goals rfl

/-- Every step of the server moves the plan in flight as its machine does. -/
theorem flight_step (h : Exclusive s) (hs : ServerStep P path maxViewers s a s') :
    FlightStep s.flight a s'.flight := by
  cases hs with
  | advanced | stopped | presence | badSession => exact .other rfl
  | readOwner howner =>
    have hnone : s.flight = none := by simp [Server.flight, Server.held, howner]
    rw [hnone]
    simpa [Server.flight, Server.held, Held.flight, ReadPoint.flight] using
      (FlightStep.other rfl : FlightStep none (.readBegan s.nextId true) none)
  | readReader =>
    have hsame : ({ s with nextId := s.nextId + 1 }.setRead s.nextId (some .loading)).flight = s.flight := by
      unfold Server.flight
      rw [Server.held_setRead, if_neg h.owner_ne_fresh]
      rfl
    rw [hsame]
    exact .other rfl
  | loaded hread | reportCopied hread | generationLoaded hread =>
    rw [flight_setRead hread rfl rfl]
    exact .other rfl
  | counted hread =>
    rw [flight_setRead (s := { s with registry := (activeViewerCount s.now s.registry).2 }) hread rfl rfl]
    exact .other rfl
  | decided hread =>
    rw [flight_setRead hread rfl (decision_flight _ _)]
    exact .other rfl
  | @cancelled id point hread hpoint =>
    have hidle : point.flight id = none := by
      cases point <;> simp_all [ReadPoint.cancellable, ReadPoint.flight]
    rw [flight_endRead hread hidle]
    exact .other rfl
  | @beginUnwound _ _ _ left hread =>
    rw [flight_endRead (s := { s with coordinator := left }) hread rfl]
    exact .other rfl
  | @refused _ _ _ _ c hread =>
    rw [flight_setRead (s := { s with coordinator := c }) hread rfl rfl]
    exact .other rfl
  | responded hread =>
    rw [flight_endRead hread rfl]
    exact .other rfl
  | ownerDropped hread =>
    have howner := h.planning _ _ hread rfl
    rw [h.flight_planning hread rfl, Server.flight, Server.held_setRead, Server.held_unlock, if_pos howner]
    simpa [howner, ReadPoint.flight] using @FlightStep.other none _ rfl
  | granted hread =>
    have howner := h.planning _ _ hread rfl
    rw [h.flight_planning hread rfl, Server.flight, Server.held_setRead, if_pos howner]
    exact .granted
  | spawned hread =>
    rw [h.flight_planning hread rfl]
    simpa [Server.spawnTask, Server.flight, Server.held, Held.flight, ReadPoint.flight] using FlightStep.spawned
  | notStopping htask hpoint =>
    rw [h.flight_task htask, flight_setTask, if_pos (h.tasks _ _ htask), hpoint]
    exact .notStopping
  | stoppingSeen htask hpoint =>
    rw [h.flight_task htask, flight_endTask, if_pos (h.tasks _ _ htask), hpoint]
    exact .stoppingSeen
  | viewersSeen htask hpoint hsome =>
    rw [h.flight_task htask, flight_setTask, if_pos (h.tasks _ _ htask), hpoint]
    exact .viewersSeen (Nat.pos_of_ne_zero hsome)
  | noViewers htask hpoint =>
    rw [h.flight_task htask, flight_endTask, if_pos (h.tasks _ _ htask), hpoint]
    exact .noViewers
  | requested htask hpoint =>
    rw [h.flight_task htask, flight_setTask, if_pos (h.tasks _ _ htask), hpoint]
    exact .requested
  | collected htask hpoint =>
    rw [h.flight_task htask, flight_setTask, if_pos (h.tasks _ _ htask), hpoint]
    exact .collected
  | stored htask hpoint =>
    rw [h.flight_task htask, flight_setTask, if_pos (h.tasks _ _ htask), hpoint]
    exact .stored
  | completed htask hpoint =>
    rw [h.flight_task htask, flight_setTask, if_pos (h.tasks _ _ htask), hpoint]
    exact .completed
  | completionUnwound htask hpoint =>
    rw [h.flight_task htask, flight_endTask, if_pos (h.tasks _ _ htask), hpoint]
    exact .completionUnwound
  | published htask hpoint =>
    rw [h.flight_task htask, flight_setTask, if_pos (h.tasks _ _ htask), hpoint]
    exact .published
  | released htask hpoint =>
    rw [h.flight_task htask, flight_endTask, if_pos (h.tasks _ _ htask), hpoint]
    exact .released

end BitcoinPriceTracker

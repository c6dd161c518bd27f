import BitcoinPriceTracker.Model.Server

namespace BitcoinPriceTracker

namespace Server

section Projections

variable (s : Server) (id : ℕ) (point : Option ReadPoint) (task : Option RefreshTask) (holder : Owner)

@[simp] lemma setRead_nextId : (s.setRead id point).nextId = s.nextId := rfl
@[simp] lemma setRead_registry : (s.setRead id point).registry = s.registry := rfl
@[simp] lemma setRead_coordinator : (s.setRead id point).coordinator = s.coordinator := rfl
@[simp] lemma setRead_owner : (s.setRead id point).owner = s.owner := rfl
@[simp] lemma setRead_reads : (s.setRead id point).reads = Function.update s.reads id point := rfl
@[simp] lemma setRead_tasks : (s.setRead id point).tasks = s.tasks := rfl

@[simp] lemma setTask_nextId : (s.setTask id task).nextId = s.nextId := rfl
@[simp] lemma setTask_registry : (s.setTask id task).registry = s.registry := rfl
@[simp] lemma setTask_db : (s.setTask id task).db = s.db := rfl
@[simp] lemma setTask_coordinator : (s.setTask id task).coordinator = s.coordinator := rfl
@[simp] lemma setTask_owner : (s.setTask id task).owner = s.owner := rfl
@[simp] lemma setTask_reads : (s.setTask id task).reads = s.reads := rfl
@[simp] lemma setTask_tasks : (s.setTask id task).tasks = Function.update s.tasks id task := rfl

@[simp] lemma unlock_owner : (s.unlock holder).owner = if s.owner = some holder then none else s.owner := rfl
@[simp] lemma unlock_reads : (s.unlock holder).reads = s.reads := rfl

@[simp] lemma endRead_coordinator : (s.endRead id).coordinator = s.coordinator := rfl
@[simp] lemma endRead_owner :
    (s.endRead id).owner = if s.owner = some (.read id) then none else s.owner := rfl
@[simp] lemma endRead_reads : (s.endRead id).reads = Function.update s.reads id none := rfl

@[simp] lemma endTask_registry : (s.endTask id).registry = s.registry := rfl
@[simp] lemma endTask_coordinator : (s.endTask id).coordinator = s.coordinator := rfl
@[simp] lemma endTask_owner :
    (s.endTask id).owner = if s.owner = some (.task id) then none else s.owner := rfl
@[simp] lemma endTask_tasks : (s.endTask id).tasks = Function.update s.tasks id none := rfl

end Projections

end Server

/-- A read that waits at an await can be cancelled. -/
def ReadPoint.cancellable : ReadPoint → Bool
  | loading | counting _ | reporting _ _ _ => true
  | _ => false

/-- The steps of the server by what they do. -/
inductive ServerStep (P : Platform) (path : DbPath) (maxViewers : ℕ) (s : Server) : ServerAction → Server → Prop
  | advanced {now : ℕ} (h : s.now ≤ now) : ServerStep P path maxViewers s (.advanced now) { s with now }
  | stopped : ServerStep P path maxViewers s .stopped { s with stopping := true }
  | presence {payload : PresencePayload} (h : isValidSessionId payload.sessionId = true) :
    ServerStep P path maxViewers s
      (.presence payload s.now (applyPresenceUpdate maxViewers payload s.now s.registry).1)
      { s with registry := (applyPresenceUpdate maxViewers payload s.now s.registry).2 }
  | badSession {payload : PresencePayload} : ServerStep P path maxViewers s (.badSession payload) s
  | readOwner (howner : s.owner = none) :
    ServerStep P path maxViewers s (.readBegan s.nextId true)
      { { s with nextId := s.nextId + 1 }.setRead s.nextId (some .loading) with owner := some (.read s.nextId) }
  | readReader {holder : Owner} (howner : s.owner = some holder) :
    ServerStep P path maxViewers s (.readBegan s.nextId false)
      ({ s with nextId := s.nextId + 1 }.setRead s.nextId (some .loading))
  | loaded {id : ℕ} {F : Faults} (hread : s.reads id = some .loading) :
    ServerStep P path maxViewers s (.loaded id ((loadPriceState P).atomically F s.db).1)
      (s.setRead id (some (.counting ((loadPriceState P).atomically F s.db).1)))
  | counted {id : ℕ} {loaded : Except String StoredPriceState} {responseNow : ℤ}
      (hread : s.reads id = some (.counting loaded)) :
    ServerStep P path maxViewers s (.counted id s.now (activeViewerCount s.now s.registry).1)
      ({ s with registry := (activeViewerCount s.now s.registry).2 }.setRead id
        (some (.reporting loaded (activeViewerCount s.now s.registry).1 responseNow)))
  | reportCopied {id activeViewers : ℕ} {loaded : Except String StoredPriceState} {responseNow : ℤ}
      (hread : s.reads id = some (.reporting loaded activeViewers responseNow)) :
    ServerStep P path maxViewers s (.reportCopied id)
      (s.setRead id (some (.deciding ⟨loaded, activeViewers, responseNow, s.report⟩)))
  | cancelled {id : ℕ} {point : ReadPoint} (hread : s.reads id = some point) (h : point.cancellable = true) :
    ServerStep P path maxViewers s (.cancelled id) (s.endRead id)
  | decided {id : ℕ} {seen : ReadData} (hread : s.reads id = some (.deciding seen)) :
    ServerStep P path maxViewers s (.decided id) (s.setRead id (some (s.decision id seen)))
  | generationLoaded {id : ℕ} {seen : ReadData} (hread : s.reads id = some (.generating seen)) :
    ServerStep P path maxViewers s (.generationLoaded id s.registry.fullRefreshGeneration)
      (s.setRead id (some (.beginning seen s.registry.fullRefreshGeneration)))
  | beginUnwound {id generation : ℕ} {seen : ReadData} {left : RefreshCoordinator}
      (hread : s.reads id = some (.beginning seen generation))
      (h : s.coordinator.begin P.range s.now generation = .error left) :
    ServerStep P path maxViewers s (.beginUnwound id s.now) ({ s with coordinator := left }.endRead id)
  | refused {id generation : ℕ} {seen : ReadData} {reason : String} {c : RefreshCoordinator}
      (hread : s.reads id = some (.beginning seen generation))
      (h : s.coordinator.begin P.range s.now generation = .ok (.error reason, c)) :
    ServerStep P path maxViewers s (.refused id reason s.now generation)
      ({ s with coordinator := c }.setRead id (some (.refused seen reason)))
  | granted {id generation : ℕ} {seen : ReadData} {plan : RefreshPlan} {c : RefreshCoordinator}
      (hread : s.reads id = some (.beginning seen generation))
      (h : s.coordinator.begin P.range s.now generation = .ok (.ok plan, c)) :
    ServerStep P path maxViewers s (.granted id plan s.now)
      ({ s with coordinator := c }.setRead id (some (.spawning seen plan)))
  | spawned {id : ℕ} {seen : ReadData} {plan : RefreshPlan} (hread : s.reads id = some (.spawning seen plan)) :
    ServerStep P path maxViewers s (.spawned id s.nextId plan) (s.spawnTask id seen plan).1
  | ownerDropped {id : ℕ} {seen : ReadData} {reason : String} (hread : s.reads id = some (.refused seen reason)) :
    ServerStep P path maxViewers s (.ownerDropped id)
      ((s.unlock (.read id)).setRead id (some (.responding seen false (some reason))))
  | responded {id status : ℕ} {seen : ReadData} {refreshing : Bool} {reason : Option String} {body : PriceResponse}
      (hread : s.reads id = some (.responding seen refreshing reason)) :
    ServerStep P path maxViewers s (.responded id status body) (s.endRead id)
  | notStopping {id : ℕ} {task : RefreshTask} (htask : s.tasks id = some task) (hpoint : task.point = .spawned)
      (h : s.stopping = false) :
    ServerStep P path maxViewers s (.notStopping id) (s.setTask id (some { task with point := .counting }))
  | stoppingSeen {id : ℕ} {task : RefreshTask} (htask : s.tasks id = some task) (hpoint : task.point = .spawned)
      (h : s.stopping = true) :
    ServerStep P path maxViewers s (.stoppingSeen id task.plan) (s.endTask id)
  | viewersSeen {id : ℕ} {task : RefreshTask} (htask : s.tasks id = some task) (hpoint : task.point = .counting)
      (h : (activeViewerCount s.now s.registry).1 ≠ 0) :
    ServerStep P path maxViewers s (.viewersSeen id s.now (activeViewerCount s.now s.registry).1)
      ({ s with registry := (activeViewerCount s.now s.registry).2 }.setTask id
        (some { task with point := .dispatching }))
  | noViewers {id : ℕ} {task : RefreshTask} (htask : s.tasks id = some task) (hpoint : task.point = .counting)
      (h : (activeViewerCount s.now s.registry).1 = 0) :
    ServerStep P path maxViewers s (.noViewers id s.now task.plan)
      ({ s with registry := (activeViewerCount s.now s.registry).2 }.endTask id)
  | requested {id : ℕ} {task : RefreshTask} (htask : s.tasks id = some task) (hpoint : task.point = .dispatching) :
    ServerStep P path maxViewers s (.requested id task.plan.sources s.now)
      (s.setTask id (some { task with point := .fetching }))
  | collected {id : ℕ} {task : RefreshTask} {attempts : UpstreamSource → Attempt} {nowUnix : ℤ}
      (htask : s.tasks id = some task) (hpoint : task.point = .fetching) :
    ServerStep P path maxViewers s (.collected id)
      (s.setTask id (some { task with point := .storing attempts nowUnix }))
  | stored {id : ℕ} {task : RefreshTask} {attempts : UpstreamSource → Attempt} {nowUnix : ℤ} {F : Faults}
      {batch : Batch} {result : Except String Unit} {db : Database} (htask : s.tasks id = some task)
      (hpoint : task.point = .storing attempts nowUnix)
      (hbatch : batch = refreshBatch P task.snapshot task.plan attempts nowUnix)
      (hstore : (storeRefresh P path batch.snapshot batch.health).atomically F s.db = (result, db)) :
    ServerStep P path maxViewers s (.stored id task.snapshot batch result)
      ({ s with db }.setTask id (some { task with point := .completing batch result }))
  | completed {id : ℕ} {task : RefreshTask} {batch : Batch} {stored : Except String Unit} {nowUnix : ℤ}
      {c : RefreshCoordinator} (htask : s.tasks id = some task) (hpoint : task.point = .completing batch stored)
      (h : s.coordinator.complete P.range task.plan batch.failures s.now nowUnix = .ok c) :
    ServerStep P path maxViewers s (.completed id task.plan batch.failures s.now nowUnix)
      ({ s with coordinator := c }.setTask id
        (some { task with point := .reporting (Server.refreshReport P batch stored) }))
  | completionUnwound {id : ℕ} {task : RefreshTask} {batch : Batch} {stored : Except String Unit} {nowUnix : ℤ}
      {left : RefreshCoordinator} (htask : s.tasks id = some task) (hpoint : task.point = .completing batch stored)
      (h : s.coordinator.complete P.range task.plan batch.failures s.now nowUnix = .error left) :
    ServerStep P path maxViewers s (.completionUnwound id task.plan s.now)
      ({ s with coordinator := left }.endTask id)
  | published {id : ℕ} {task : RefreshTask} {report : PriceRefreshReport} (htask : s.tasks id = some task)
      (hpoint : task.point = .reporting report) :
    ServerStep P path maxViewers s (.published id)
      ({ s with report }.setTask id (some { task with point := .releasing }))
  | released {id : ℕ} {task : RefreshTask} (htask : s.tasks id = some task) (hpoint : task.point = .releasing) :
    ServerStep P path maxViewers s (.released id) (s.endTask id)

variable {P : Platform} {path : DbPath} {maxViewers : ℕ} {s s' : Server} {a : ServerAction}

lemma begin_step {id generation : ℕ} {seen : ReadData} (hread : s.reads id = some (.beginning seen generation))
    (h : s.beginPlan P.range id seen generation = (s', a)) : ServerStep P path maxViewers s a s' := by
  unfold Server.beginPlan at h
  split at h
  · next left hbegin =>
    obtain ⟨rfl, rfl⟩ := Prod.mk.inj h
    exact .beginUnwound hread hbegin
  · next reason c hbegin =>
    obtain ⟨rfl, rfl⟩ := Prod.mk.inj h
    exact .refused hread hbegin
  · next plan c hbegin =>
    obtain ⟨rfl, rfl⟩ := Prod.mk.inj h
    exact .granted hread hbegin

lemma complete_step {id : ℕ} {task : RefreshTask} {batch : Batch} {stored : Except String Unit} {nowUnix : ℤ}
    (htask : s.tasks id = some task) (hpoint : task.point = .completing batch stored)
    (h : s.completePlan P id task batch stored nowUnix = (s', a)) : ServerStep P path maxViewers s a s' := by
  unfold Server.completePlan at h
  split at h
  · next left hcomplete =>
    obtain ⟨rfl, rfl⟩ := Prod.mk.inj h
    exact .completionUnwound htask hpoint hcomplete
  · next c hcomplete =>
    obtain ⟨rfl, rfl⟩ := Prod.mk.inj h
    exact .completed htask hpoint hcomplete

lemma recheck_step {id : ℕ} {task : RefreshTask} (htask : s.tasks id = some task)
    (h : (task.point = .spawned ∧ s.recheckStopping id task = (s', a)) ∨
      (task.point = .counting ∧ s.recheckViewers id task = (s', a))) : ServerStep P path maxViewers s a s' := by
  rcases h with ⟨hpoint, h⟩ | ⟨hpoint, h⟩
  · unfold Server.recheckStopping at h
    split at h
    · next hstopping =>
      obtain ⟨rfl, rfl⟩ := Prod.mk.inj h
      exact .stoppingSeen htask hpoint hstopping
    · next hstopping =>
      obtain ⟨rfl, rfl⟩ := Prod.mk.inj h
      exact .notStopping htask hpoint (by simpa using hstopping)
  · unfold Server.recheckViewers at h
    dsimp only at h
    split at h
    · next hnone =>
      obtain ⟨rfl, rfl⟩ := Prod.mk.inj h
      exact .noViewers htask hpoint hnone
    · next hsome =>
      obtain ⟨rfl, rfl⟩ := Prod.mk.inj h
      exact .viewersSeen htask hpoint hsome

lemma read_step {id : ℕ} {point : ReadPoint} {i : ServerInput} (hread : s.reads id = some point)
    (h : s.readStep P id point i = some (s', a)) : ServerStep P path maxViewers s a s' := by
  cases i with
  | load _ F =>
    cases point with
    | loading =>
      obtain ⟨rfl, rfl⟩ : s.setRead id (some (.counting _)) = s' ∧ ServerAction.loaded id _ = a := by
        simpa [Server.readStep] using h
      exact .loaded hread
    | _ => simp [Server.readStep] at h
  | count _ responseNow =>
    cases point with
    | counting loaded =>
      obtain ⟨rfl, rfl⟩ := Prod.mk.inj (Option.some.inj h)
      exact .counted hread
    | _ => simp [Server.readStep] at h
  | copyReport _ =>
    cases point with
    | reporting loaded activeViewers responseNow =>
      obtain ⟨rfl, rfl⟩ := Prod.mk.inj (Option.some.inj h)
      exact .reportCopied hread
    | _ => simp [Server.readStep] at h
  | cancel _ =>
    cases point with
    | loading | counting _ | reporting _ _ _ =>
      obtain ⟨rfl, rfl⟩ := Prod.mk.inj (Option.some.inj h)
      exact .cancelled hread rfl
    | _ => simp [Server.readStep] at h
  | decide _ =>
    cases point with
    | deciding seen =>
      obtain ⟨rfl, rfl⟩ := Prod.mk.inj (Option.some.inj h)
      exact .decided hread
    | _ => simp [Server.readStep] at h
  | loadGeneration _ =>
    cases point with
    | generating seen =>
      obtain ⟨rfl, rfl⟩ := Prod.mk.inj (Option.some.inj h)
      exact .generationLoaded hread
    | _ => simp [Server.readStep] at h
  | begin _ =>
    cases point with
    | beginning seen generation => exact begin_step hread (Option.some.inj h)
    | _ => simp [Server.readStep] at h
  | spawn _ =>
    cases point with
    | spawning seen plan =>
      obtain ⟨rfl, rfl⟩ := Prod.mk.inj (Option.some.inj h)
      exact .spawned hread
    | _ => simp [Server.readStep] at h
  | dropOwner _ =>
    cases point with
    | refused seen reason =>
      obtain ⟨rfl, rfl⟩ := Prod.mk.inj (Option.some.inj h)
      exact .ownerDropped hread
    | _ => simp [Server.readStep] at h
  | respond _ =>
    cases point with
    | responding seen refreshing reason =>
      obtain ⟨rfl, rfl⟩ := Prod.mk.inj (Option.some.inj h)
      exact .responded hread
    | _ => simp [Server.readStep] at h
  | _ => simp [Server.readStep] at h

lemma task_step {id : ℕ} {task : RefreshTask} {i : ServerInput} (htask : s.tasks id = some task)
    (h : s.taskStep P path id task i = some (s', a)) : ServerStep P path maxViewers s a s' := by
  obtain ⟨snapshot, plan, point⟩ := task
  cases i with
  | recheckStopping _ =>
    cases point with
    | spawned => exact recheck_step htask (.inl ⟨rfl, Option.some.inj h⟩)
    | _ => simp [Server.taskStep] at h
  | recheckViewers _ =>
    cases point with
    | counting => exact recheck_step htask (.inr ⟨rfl, Option.some.inj h⟩)
    | _ => simp [Server.taskStep] at h
  | dispatch _ =>
    cases point with
    | dispatching =>
      obtain ⟨rfl, rfl⟩ := Prod.mk.inj (Option.some.inj h)
      exact .requested htask rfl
    | _ => simp [Server.taskStep] at h
  | collect _ attempts nowUnix =>
    cases point with
    | fetching =>
      obtain ⟨rfl, rfl⟩ := Prod.mk.inj (Option.some.inj h)
      exact .collected htask rfl
    | _ => simp [Server.taskStep] at h
  | store _ F =>
    cases point with
    | storing attempts nowUnix =>
      obtain ⟨rfl, rfl⟩ := Prod.mk.inj (Option.some.inj h)
      exact .stored htask rfl rfl rfl
    | _ => simp [Server.taskStep] at h
  | complete _ nowUnix =>
    cases point with
    | completing batch stored => exact complete_step htask rfl (Option.some.inj h)
    | _ => simp [Server.taskStep] at h
  | publish _ =>
    cases point with
    | reporting report =>
      obtain ⟨rfl, rfl⟩ := Prod.mk.inj (Option.some.inj h)
      exact .published htask rfl
    | _ => simp [Server.taskStep] at h
  | release _ =>
    cases point with
    | releasing =>
      obtain ⟨rfl, rfl⟩ := Prod.mk.inj (Option.some.inj h)
      exact .released htask rfl
    | _ => simp [Server.taskStep] at h
  | _ => simp [Server.taskStep] at h

/-- Every step of the machine is one of the listed ones. -/
theorem server_step {i : ServerInput} (h : (serverMachine P path maxViewers).step s i = some (s', a)) :
    ServerStep P path maxViewers s a s' := by
  cases i with
  | advance now =>
    simp only [serverMachine] at h
    split at h
    · next hnow =>
      obtain ⟨rfl, rfl⟩ := Prod.mk.inj (Option.some.inj h)
      exact .advanced hnow
    · simp at h
  | stop =>
    obtain ⟨rfl, rfl⟩ := Prod.mk.inj (Option.some.inj h)
    exact .stopped
  | presence payload =>
    simp only [serverMachine, Server.updatePresence, Option.some.injEq] at h
    split at h
    · next hvalid =>
      obtain ⟨rfl, rfl⟩ := Prod.mk.inj h
      exact .presence hvalid
    · obtain ⟨rfl, rfl⟩ := Prod.mk.inj h
      exact .badSession
  | read =>
    simp only [serverMachine, Server.beginRead, Option.some.injEq] at h
    split at h
    · next howner =>
      obtain ⟨rfl, rfl⟩ := Prod.mk.inj h
      exact .readOwner howner
    · next holder howner =>
      obtain ⟨rfl, rfl⟩ := Prod.mk.inj h
      exact .readReader howner
  | load id _ | count id _ | copyReport id | cancel id | decide id | loadGeneration id | begin id | spawn id
  | dropOwner id | respond id =>
    obtain ⟨point, hread, hstep⟩ := Option.bind_eq_some_iff.mp h
    exact read_step hread hstep
  | recheckStopping id | recheckViewers id | dispatch id | collect id _ _ | store id _ | complete id _ | publish id
  | release id =>
    obtain ⟨task, htask, hstep⟩ := Option.bind_eq_some_iff.mp h
    exact task_step htask hstep

/-- The read or the task whose step an action is. -/
def ServerAction.actor : ServerAction → Option Owner
  | loaded id _ | counted id _ _ | reportCopied id | cancelled id | decided id | generationLoaded id _
  | granted id _ _ | refused id _ _ _ | beginUnwound id _ | spawned id _ _ | ownerDropped id
  | responded id _ _ => some (.read id)
  | notStopping id | stoppingSeen id _ | viewersSeen id _ _ | noViewers id _ _ | requested id _ _ | collected id
  | stored id _ _ _ | completed id _ _ _ _ | completionUnwound id _ _ | published id | released id => some (.task id)
  | _ => none

lemma actor_of_step {i : ServerInput} (h : (serverMachine P path maxViewers).step s i = some (s', a)) :
    a.actor = i.target := by
  cases i with
  | advance now =>
    simp only [serverMachine] at h
    split at h <;> cases h
    rfl
  | stop =>
    cases h
    rfl
  | presence payload =>
    simp only [serverMachine, Server.updatePresence, Option.some.injEq] at h
    split at h <;> cases h <;> rfl
  | read =>
    simp only [serverMachine, Server.beginRead, Option.some.injEq] at h
    split at h <;> cases h <;> rfl
  | begin id =>
    obtain ⟨point, _, hstep⟩ := Option.bind_eq_some_iff.mp h
    simp only [Server.readStep] at hstep
    split at hstep
    · simp only [Server.beginPlan, Option.some.injEq] at hstep
      split at hstep <;> cases hstep <;> rfl
    · simp at hstep
  | load id _ | count id _ | copyReport id | cancel id | decide id | loadGeneration id | spawn id | dropOwner id
  | respond id =>
    obtain ⟨point, _, hstep⟩ := Option.bind_eq_some_iff.mp h
    simp only [Server.readStep] at hstep
    split at hstep <;> cases hstep <;> rfl
  | recheckStopping id =>
    obtain ⟨task, _, hstep⟩ := Option.bind_eq_some_iff.mp h
    simp only [Server.taskStep] at hstep
    split at hstep
    · simp only [Server.recheckStopping, Option.some.injEq] at hstep
      split at hstep <;> cases hstep <;> rfl
    · simp at hstep
  | recheckViewers id =>
    obtain ⟨task, _, hstep⟩ := Option.bind_eq_some_iff.mp h
    simp only [Server.taskStep] at hstep
    split at hstep
    · simp only [Server.recheckViewers, Option.some.injEq] at hstep
      split at hstep <;> cases hstep <;> rfl
    · simp at hstep
  | complete id _ =>
    obtain ⟨task, _, hstep⟩ := Option.bind_eq_some_iff.mp h
    simp only [Server.taskStep] at hstep
    split at hstep
    · simp only [Server.completePlan, Option.some.injEq] at hstep
      split at hstep <;> cases hstep <;> rfl
    · simp at hstep
  | dispatch id | collect id _ _ | store id _ | publish id | release id =>
    obtain ⟨task, _, hstep⟩ := Option.bind_eq_some_iff.mp h
    simp only [Server.taskStep] at hstep
    split at hstep <;> cases hstep
    rfl

lemma now_le_of_step (hs : ServerStep P path maxViewers s a s') : s.now ≤ s'.now := by
  cases hs with
  | advanced hnow => exact hnow
  | _ => exact le_rfl

/-- From the moment when a read decides to refresh until it drops or hands over the guard. -/
def ReadPoint.planning : ReadPoint → Bool
  | generating _ | beginning _ _ | spawning _ _ | refused _ _ => true
  | _ => false

/-- Who holds the guard, and how far it is. -/
inductive Held
  | read (id : ℕ) (point : ReadPoint)
  | task (id : ℕ) (task : RefreshTask)

namespace Server

def held (s : Server) : Option Held :=
  match s.owner with
  | none => none
  | some (.read id) => (s.reads id).map (.read id)
  | some (.task id) => (s.tasks id).map (.task id)

lemma held_setRead (s : Server) (id : ℕ) (point : Option ReadPoint) :
    (s.setRead id point).held = if s.owner = some (.read id) then point.map (.read id) else s.held := by
  unfold held
  rw [setRead_owner, setRead_reads, setRead_tasks]
  rcases s.owner with _ | ⟨other⟩ | ⟨other⟩
  · simp
  · by_cases h : other = id
    · subst h
      simp
    · simp [h]
  · simp

lemma held_setTask (s : Server) (id : ℕ) (task : Option RefreshTask) :
    (s.setTask id task).held = if s.owner = some (.task id) then task.map (.task id) else s.held := by
  unfold held
  rw [setTask_owner, setTask_reads, setTask_tasks]
  rcases s.owner with _ | ⟨other⟩ | ⟨other⟩
  · simp
  · simp
  · by_cases h : other = id
    · subst h
      simp
    · simp [h]

lemma held_unlock (s : Server) (holder : Owner) :
    (s.unlock holder).held = if s.owner = some holder then none else s.held := by
  unfold held unlock
  by_cases h : s.owner = some holder
  · simp [h]
  · simp [h]

lemma held_endRead (s : Server) (id : ℕ) :
    (s.endRead id).held = if s.owner = some (.read id) then none else s.held := by
  rw [endRead, held_setRead, unlock_owner, held_unlock]
  split <;> simp_all

lemma held_endTask (s : Server) (id : ℕ) :
    (s.endTask id).held = if s.owner = some (.task id) then none else s.held := by
  rw [endTask, held_setTask, unlock_owner, held_unlock]
  split <;> simp_all

end Server

/-- Whoever plans a refresh or runs one holds the guard, and a guard that is held has a holder
that will drop it. -/
structure Exclusive (s : Server) : Prop where
  planning : ∀ id point, s.reads id = some point → point.planning = true → s.owner = some (.read id)
  tasks : ∀ id task, s.tasks id = some task → s.owner = some (.task id)
  live : s.owner.isSome = true → s.held.isSome = true
  fresh : ∀ id, s.nextId ≤ id → s.reads id = none

namespace Exclusive

variable (h : Exclusive s)
include h

lemma held_task {id : ℕ} {task : RefreshTask} (htask : s.tasks id = some task) :
    s.held = some (.task id task) := by
  simp [Server.held, h.tasks id task htask, htask]

lemma held_read {id : ℕ} {point : ReadPoint} (hread : s.reads id = some point) (hpoint : point.planning = true) :
    s.held = some (.read id point) := by
  simp [Server.held, h.planning id point hread hpoint, hread]

lemma owner_ne_fresh : s.owner ≠ some (.read s.nextId) := by
  intro howner
  have hlive := h.live (by simp [howner])
  simp [Server.held, howner, h.fresh s.nextId le_rfl] at hlive

lemma no_task {id : ℕ} (howner : s.owner = some (.read id)) (task : ℕ) : s.tasks task = none := by
  by_contra hne
  obtain ⟨other, hother⟩ := Option.ne_none_iff_exists'.mp hne
  have := h.tasks task other hother
  simp [howner] at this

end Exclusive

lemma Exclusive.of_eq (h : Exclusive s) (howner : s'.owner = s.owner) (hreads : s'.reads = s.reads)
    (htasks : s'.tasks = s.tasks) (hnext : s'.nextId = s.nextId) : Exclusive s' where
  planning := by
    rw [howner, hreads]
    exact h.planning
  tasks := by
    rw [howner, htasks]
    exact h.tasks
  live := by
    rw [Server.held, howner, hreads, htasks]
    exact h.live
  fresh := by
    rw [hnext, hreads]
    exact h.fresh

lemma Exclusive.withRegistry (h : Exclusive s) (registry : Registry) : Exclusive { s with registry } :=
  h.of_eq rfl rfl rfl rfl

lemma Exclusive.withDb (h : Exclusive s) (db : Database) : Exclusive { s with db } :=
  h.of_eq rfl rfl rfl rfl

lemma Exclusive.withCoordinator (h : Exclusive s) (coordinator : RefreshCoordinator) :
    Exclusive { s with coordinator } :=
  h.of_eq rfl rfl rfl rfl

lemma Exclusive.withReport (h : Exclusive s) (report : PriceRefreshReport) : Exclusive { s with report } :=
  h.of_eq rfl rfl rfl rfl

lemma Exclusive.setRead (h : Exclusive s) {id : ℕ} {old new : ReadPoint} (hread : s.reads id = some old)
    (hnew : new.planning = true → s.owner = some (.read id)) : Exclusive (s.setRead id (some new)) where
  planning other point hother hplanning := by
    rw [Server.setRead_reads, Function.update_apply] at hother
    split at hother
    · next heq =>
      subst heq
      obtain rfl := Option.some.inj hother
      exact hnew hplanning
    · exact h.planning other point hother hplanning
  tasks := h.tasks
  live howner := by
    rw [Server.held_setRead]
    split
    · rfl
    · exact h.live howner
  fresh other hother := by
    rw [Server.setRead_reads, Function.update_apply]
    split
    · next heq =>
      subst heq
      simp [h.fresh other hother] at hread
    · exact h.fresh other hother

lemma Exclusive.unlock (h : Exclusive s) {id : ℕ} {old new : ReadPoint} (hread : s.reads id = some old)
    (hnew : new.planning = false) : Exclusive ((s.unlock (.read id)).setRead id (some new)) where
  planning other point hother hplanning := by
    rw [Server.setRead_reads, Function.update_apply] at hother
    split at hother
    · next heq =>
      obtain rfl := Option.some.inj hother
      simp [hnew] at hplanning
    · next hne =>
      have howner := h.planning other point hother hplanning
      simp [howner, hne]
  tasks other task hother := by
    have howner := h.tasks other task hother
    simp [howner]
  live howner := by
    rw [Server.held_setRead, Server.held_unlock]
    simp only [Server.setRead_owner, Server.unlock_owner] at howner ⊢
    split at howner
    · simp at howner
    · next hne => simpa [hne] using h.live howner
  fresh := (h.setRead hread fun hplanning : new.planning = true => by simp [hnew] at hplanning).fresh

lemma Exclusive.endRead (h : Exclusive s) (id : ℕ) : Exclusive (s.endRead id) where
  planning other point hother hplanning := by
    rw [Server.endRead_reads, Function.update_apply] at hother
    split at hother
    · simp at hother
    · next hne =>
      have howner := h.planning other point hother hplanning
      simp [howner, hne]
  tasks other task hother := by
    have howner := h.tasks other task hother
    simp [howner]
  live howner := by
    rw [Server.held_endRead]
    rw [Server.endRead_owner] at howner
    split at howner
    · simp at howner
    · next hne => simpa [hne] using h.live howner
  fresh other hother := by
    rw [Server.endRead_reads, Function.update_apply]
    split
    · rfl
    · exact h.fresh other hother

lemma Exclusive.setTask (h : Exclusive s) {id : ℕ} {old : RefreshTask} (htask : s.tasks id = some old)
    (new : RefreshTask) : Exclusive (s.setTask id (some new)) where
  planning := h.planning
  tasks other task hother := by
    rw [Server.setTask_tasks, Function.update_apply] at hother
    split at hother
    · next heq => exact heq ▸ h.tasks id old htask
    · exact h.tasks other task hother
  live howner := by
    rw [Server.held_setTask]
    split
    · rfl
    · exact h.live howner
  fresh := h.fresh

lemma Exclusive.endTask (h : Exclusive s) {id : ℕ} {old : RefreshTask} (htask : s.tasks id = some old) :
    Exclusive (s.endTask id) where
  planning other point hother hplanning := by
    have howner := h.planning other point hother hplanning
    simp [howner]
  tasks other task hother := by
    rw [Server.endTask_tasks, Function.update_apply] at hother
    split at hother
    · simp at hother
    · next hne =>
      have howner := h.tasks other task hother
      rw [h.tasks id old htask] at howner
      exact absurd (Owner.task.inj (Option.some.inj howner)).symm hne
  live howner := by
    rw [Server.held_endTask]
    rw [Server.endTask_owner] at howner
    split at howner
    · simp at howner
    · next hne => simpa [hne] using h.live howner
  fresh := h.fresh

lemma Exclusive.beginOwner (h : Exclusive s) (howner : s.owner = none) : Exclusive
    { { s with nextId := s.nextId + 1 }.setRead s.nextId (some .loading) with owner := some (.read s.nextId) } where
  planning id point hread hplanning := by
    simp only [Server.setRead_reads, Function.update_apply] at hread
    split at hread
    · obtain rfl := Option.some.inj hread
      simp [ReadPoint.planning] at hplanning
    · simpa [howner] using h.planning id point hread hplanning
  tasks id task htask := by simpa [howner] using h.tasks id task htask
  live _ := by simp [Server.held]
  fresh id hid := by
    simp only [Server.setRead_reads, Function.update_apply]
    split
    · next heq =>
      subst heq
      simp at hid
    · exact h.fresh id (by simp at hid; omega)

lemma Exclusive.beginReader (h : Exclusive s) :
    Exclusive ({ s with nextId := s.nextId + 1 }.setRead s.nextId (some .loading)) where
  planning id point hread hplanning := by
    simp only [Server.setRead_reads, Function.update_apply] at hread
    split at hread
    · obtain rfl := Option.some.inj hread
      simp [ReadPoint.planning] at hplanning
    · exact h.planning id point hread hplanning
  tasks := h.tasks
  live howner := by
    rw [Server.held_setRead, if_neg h.owner_ne_fresh]
    exact h.live howner
  fresh id hid := by
    simp only [Server.setRead_reads, Function.update_apply]
    split
    · next heq =>
      subst heq
      simp at hid
    · exact h.fresh id (by simp at hid; omega)

lemma Exclusive.spawnTask (h : Exclusive s) {id : ℕ} {seen : ReadData} {plan : RefreshPlan}
    (hread : s.reads id = some (.spawning seen plan)) : Exclusive (s.spawnTask id seen plan).1 where
  planning other point hother hplanning := by
    simp only [Server.spawnTask, Server.setTask_reads, Server.setRead_reads, Function.update_apply] at hother
    split at hother
    · obtain rfl := Option.some.inj hother
      simp [ReadPoint.planning] at hplanning
    · next hne =>
      have howner := h.planning other point hother hplanning
      rw [h.planning id _ hread rfl] at howner
      exact absurd (Owner.read.inj (Option.some.inj howner)).symm hne
  tasks other task hother := by
    simp only [Server.spawnTask, Server.setTask_tasks, Server.setRead_tasks, Function.update_apply] at hother
    split at hother
    · next heq => simp [Server.spawnTask, heq]
    · simp [h.no_task (h.planning id _ hread rfl)] at hother
  live _ := by simp [Server.held, Server.spawnTask]
  fresh other hother := by
    have hlt : id < s.nextId := by
      by_contra hge
      simp [h.fresh id (by omega)] at hread
    simp only [Server.spawnTask, Server.setTask_nextId, Server.setRead_nextId, Server.setTask_reads,
      Server.setRead_reads, Function.update_apply] at hother ⊢
    rw [if_neg (by omega)]
    exact h.fresh other (by omega)

/-- A read that decides to refresh holds the guard, and its stored state was readable. -/
lemma decision_planning {id : ℕ} {seen : ReadData} (h : (s.decision id seen).planning = true) :
    s.owner = some (.read id) ∧ s.decision id seen = .generating seen ∧ ∃ stored, seen.loaded = .ok stored := by
  revert h
  unfold Server.decision
  cases hloaded : seen.loaded with
  | error e => simp [ReadPoint.planning]
  | ok stored =>
    dsimp only
    split
    · simp [ReadPoint.planning]
    · split
      · simp [ReadPoint.planning]
      · split
        · next howns => exact fun _ => ⟨by simpa using howns, rfl, stored, rfl⟩
        · simp [ReadPoint.planning]

lemma Exclusive.init (db : Database) (now : ℕ) : Exclusive (.init db now) where
  planning id point h := by simp [Server.init] at h
  tasks id task h := by simp [Server.init] at h
  live h := by simp [Server.init] at h
  fresh id _ := rfl

lemma Exclusive.step (h : Exclusive s) (hs : ServerStep P path maxViewers s a s') : Exclusive s' := by
  cases hs with
  | advanced | stopped | presence => exact h.of_eq rfl rfl rfl rfl
  | badSession => exact h
  | readOwner howner => exact h.beginOwner howner
  | readReader => exact h.beginReader
  | loaded hread | reportCopied hread => exact h.setRead hread (by simp [ReadPoint.planning])
  | counted hread =>
    exact (h.withRegistry _).setRead hread (by simp [ReadPoint.planning])
  | cancelled | responded => exact h.endRead _
  | decided hread => exact h.setRead hread fun hplanning => (decision_planning hplanning).1
  | generationLoaded hread => exact h.setRead hread fun _ => h.planning _ _ hread rfl
  | beginUnwound => exact (h.withCoordinator _).endRead _
  | refused hread | granted hread =>
    exact (h.withCoordinator _).setRead hread
      fun _ => h.planning _ _ hread rfl
  | spawned hread => exact h.spawnTask hread
  | ownerDropped hread => exact h.unlock hread rfl
  | notStopping htask | requested htask | collected htask => exact h.setTask htask _
  | viewersSeen htask =>
    apply (h.withRegistry _).setTask
    exact htask
  | stored htask =>
    apply (h.withDb _).setTask
    exact htask
  | completed htask =>
    apply (h.withCoordinator _).setTask
    exact htask
  | published htask =>
    apply (h.withReport _).setTask
    exact htask
  | stoppingSeen htask | released htask => exact h.endTask htask
  | noViewers htask => exact (h.withRegistry _).endTask htask
  | completionUnwound htask => exact (h.withCoordinator _).endTask htask

theorem Exclusive.run {db : Database} {now : ℕ} {history : List ServerAction}
    (h : (serverMachine P path maxViewers).Run (.init db now) history s) : Exclusive s :=
  h.invariant (P := fun _ s => Exclusive s) (.init db now)
    fun _ _ _ _ _ _ ih hs => ih.step (server_step hs)

end BitcoinPriceTracker

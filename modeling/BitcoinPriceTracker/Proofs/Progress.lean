import BitcoinPriceTracker.Lib.Potential
import BitcoinPriceTracker.Model.Admission
import BitcoinPriceTracker.Proofs.CleanShutdown
import BitcoinPriceTracker.Proofs.NewsCache

namespace BitcoinPriceTracker

/-- The steps of a read up to its response. -/
def ReadPoint.steps : ReadPoint → ℕ
  | loading => 8
  | counting _ => 7
  | reporting _ _ _ => 6
  | deciding _ => 5
  | generating _ => 4
  | beginning _ _ => 3
  | spawning _ _ | refused _ _ => 2
  | responding _ _ _ => 1

/-- The steps of a refresh task. -/
def TaskPoint.steps : TaskPoint → ℕ
  | spawned => 8
  | counting => 7
  | dispatching => 6
  | fetching => 5
  | storing _ _ => 4
  | completing _ _ => 3
  | reporting _ => 2
  | releasing => 1

/-- The steps of a read with those of the task that it may still spawn. -/
def ReadPoint.work (point : ReadPoint) : ℕ :=
  match point with
  | refused _ _ | responding _ _ _ => point.steps
  | _ => point.steps + 8

def Flight.work : Flight → ℕ
  | granted _ _ => 0
  | running _ _ point => point.steps

def Server.work (s : Server) : ℕ := total ReadPoint.work s.nextId s.reads + s.flight.elim 0 Flight.work

def News.TaskPoint.steps : News.TaskPoint → ℕ
  | fetching => 2
  | settling _ => 1

def News.State.work (s : News.State) : ℕ := total News.TaskPoint.steps s.nextId s.tasks

/-- The steps of a handler up to the end of its connection, with those of its read. -/
def Handler.steps (server : Server) : Handler → ℕ
  | waiting => 12
  | updating _ => 11
  | starting _ => 10
  | reading id _ => 1 + (server.reads id).elim 0 ReadPoint.steps
  | news _ | checking | other => 2
  | answering _ => 1

/-- The steps of a handler with those that it may still bring about, except for those of a read that has begun. -/
def Handler.work : Handler → ℕ
  | waiting => 20
  | updating _ => 19
  | starting _ => 18
  | news _ => 4
  | checking | other => 2
  | reading _ _ | answering _ => 1

def Phase.steps : Phase → ℕ
  | accepting => 3
  | draining => 2
  | locking => 1
  | returned | failed => 0

def Tracker.work (t : Tracker) : ℕ :=
  total Handler.work t.nextConnection t.connections + t.server.work + t.news.work + t.phase.steps

variable {P : Platform} {path : DbPath} {maxViewers : ℕ} {s s' : Server} {a : ServerAction}

/-- The steps of the task that an action spawns. -/
def ServerAction.spawnedSteps : ServerAction → ℕ
  | spawned _ _ _ => 8
  | _ => 0

lemma decision_work (id : ℕ) (seen : ReadData) : (s.decision id seen).steps ≤ 4 ∧ (s.decision id seen).work ≤ 12 := by
  unfold Server.decision
  dsimp only
  repeat' split
  all_goals exact ⟨by simp [ReadPoint.steps], by simp [ReadPoint.work, ReadPoint.steps]⟩

/-- A step of a read takes one from its steps, and one and the steps of a spawned task from its work. -/
lemma ReadStep.work {id : ℕ} {old new : Option ReadPoint} (hs : ReadStep s id old a new)
    (ha : a.actor = some (.read id)) :
    ∃ point, old = some point ∧ new.elim 0 ReadPoint.steps + 1 ≤ point.steps ∧
      new.elim 0 ReadPoint.work + 1 + a.spawnedSteps ≤ point.work := by
  cases hs with
  | other hother => exact absurd (reader_of_read ha) hother
  | began => simp [ServerAction.actor] at ha
  | @decided seen =>
    obtain ⟨hsteps, hwork⟩ := decision_work (s := s) id seen
    refine ⟨_, rfl, ?_, ?_⟩
    · change (s.decision id seen).steps + 1 ≤ 5
      omega
    · change (s.decision id seen).work + 1 + 0 ≤ 13
      omega
  | @cancelled point hpoint =>
    refine ⟨point, rfl, ?_, ?_⟩
    · cases point <;> simp_all [ReadPoint.cancellable, ReadPoint.steps]
    · cases point <;> simp_all [ReadPoint.cancellable, ReadPoint.work, ReadPoint.steps, ServerAction.spawnedSteps]
  | _ =>
    exact ⟨_, rfl, by simp [ReadPoint.steps],
      by simp [ReadPoint.work, ReadPoint.steps, ServerAction.spawnedSteps]⟩

lemma FlightStep.work {flight flight' : Option Flight} (hs : FlightStep flight a flight') :
    flight'.elim 0 Flight.work ≤ flight.elim 0 Flight.work + a.spawnedSteps := by
  cases hs with
  | other => simp
  | _ => simp [Flight.work, TaskPoint.steps, ServerAction.spawnedSteps]

lemma FlightStep.task_work {flight flight' : Option Flight} {id : ℕ} (hs : FlightStep flight a flight')
    (ha : a.actor = some (.task id)) : flight'.elim 0 Flight.work + 1 ≤ flight.elim 0 Flight.work := by
  cases hs with
  | other hother => cases a <;> simp_all [ServerAction.actor, ServerAction.ofPlan]
  | granted | spawned => simp [ServerAction.actor] at ha
  | _ => simp [Flight.work, TaskPoint.steps]

lemma nextId_step (hs : ServerStep P path maxViewers s a s') (hbegan : ∀ id owner, a ≠ .readBegan id owner) :
    s'.nextId = s.nextId ∨ s'.nextId = s.nextId + 1 := by
  cases hs with
  | readOwner | readReader => exact absurd rfl (hbegan _ _)
  | spawned => exact .inr rfl
  | _ => exact .inl rfl

lemma total_reads (hexclusive : Exclusive s) (hs : ServerStep P path maxViewers s a s')
    (hbegan : ∀ id owner, a ≠ .readBegan id owner) :
    total ReadPoint.work s'.nextId s'.reads = total ReadPoint.work s.nextId s'.reads := by
  rcases nextId_step hs hbegan with heq | heq
  · rw [heq]
  · rw [heq]
    apply total_succ
    have hfresh := hexclusive.fresh s.nextId le_rfl
    have hlife := read_life hexclusive hs s.nextId
    rw [hfresh] at hlife
    generalize s'.reads s.nextId = new at hlife
    cases hlife with
    | other => rfl
    | began => exact absurd rfl (hbegan _ _)

lemma Server.read_work {id : ℕ} (hexclusive : Exclusive s) (hs : ServerStep P path maxViewers s a s')
    (ha : a.actor = some (.read id)) : s'.work + 1 ≤ s.work := by
  obtain ⟨point, hread, _, hwork⟩ := (read_life hexclusive hs id).work ha
  have hbegan : ∀ other owner, a ≠ .readBegan other owner := by
    rintro other owner rfl
    simp [ServerAction.actor] at ha
  have hid : id < s.nextId := by
    by_contra hge
    rw [hexclusive.fresh id (not_lt.mp hge)] at hread
    cases hread
  have hreads : s'.reads = Function.update s.reads id (s'.reads id) := by
    funext other
    by_cases hother : other = id
    · rw [hother, Function.update_self]
    · rw [Function.update_of_ne hother]
      exact reads_kept hexclusive hs (by simpa [reader_of_read ha] using Ne.symm hother)
  have htotal := total_update ReadPoint.work s.reads hid (s'.reads id)
  rw [← hreads, hread] at htotal
  have hflight := (flight_step hexclusive hs).work
  have hsame := total_reads hexclusive hs hbegan
  simp only [Option.elim_some] at htotal
  unfold Server.work
  omega

lemma Server.total_kept (hexclusive : Exclusive s) (hs : ServerStep P path maxViewers s a s')
    (hreader : a.reader = none) : total ReadPoint.work s'.nextId s'.reads = total ReadPoint.work s.nextId s.reads := by
  have hreads : s'.reads = s.reads := by
    funext other
    exact reads_kept hexclusive hs (by simp [hreader])
  rw [total_reads hexclusive hs, hreads]
  rintro id owner rfl
  simp [ServerAction.reader] at hreader

lemma Server.task_work {id : ℕ} (hexclusive : Exclusive s) (hs : ServerStep P path maxViewers s a s')
    (ha : a.actor = some (.task id)) : s'.work + 1 ≤ s.work := by
  have htotal := Server.total_kept hexclusive hs (reader_of_task ha)
  have hflight := (flight_step hexclusive hs).task_work ha
  unfold Server.work
  omega

lemma Server.idle_work (hexclusive : Exclusive s) (hs : ServerStep P path maxViewers s a s') (ha : a.actor = none)
    (hbegan : ∀ id owner, a ≠ .readBegan id owner) : s'.work ≤ s.work := by
  have hreader : a.reader = none := by
    cases a <;> simp_all [ServerAction.actor, ServerAction.reader]
  have hspawned : a.spawnedSteps = 0 := by
    cases a <;> simp_all [ServerAction.actor, ServerAction.spawnedSteps]
  have htotal := Server.total_kept hexclusive hs hreader
  have hflight := (flight_step hexclusive hs).work
  unfold Server.work
  omega

lemma Server.began_work (hexclusive : Exclusive s)
    (h : (serverMachine P path maxViewers).step s .read = some (s', a)) :
    s'.work ≤ s.work + 16 ∧ s'.reads = Function.update s.reads s.nextId (some .loading) ∧ s'.nextId = s.nextId + 1 := by
  have hflight := (flight_step hexclusive (server_step h)).work
  have hreads : s'.reads = Function.update s.reads s.nextId (some .loading) ∧ s'.nextId = s.nextId + 1 ∧
      a.spawnedSteps = 0 := by
    simp only [serverMachine, Server.beginRead, Option.some.injEq] at h
    split at h <;> cases h <;> exact ⟨rfl, rfl, rfl⟩
  obtain ⟨hreads, hnext, hspawned⟩ := hreads
  have htotal := total_append ReadPoint.work s.reads s.nextId (some .loading)
  rw [← hreads, ← hnext] at htotal
  refine ⟨?_, hreads, hnext⟩
  simp only [Option.elim_some, ReadPoint.work, ReadPoint.steps] at htotal
  unfold Server.work
  omega

namespace News

/-- Numbers that are not given yet belong to nobody. -/
structure State.Fresh (s : State) : Prop where
  readers : ∀ id, s.nextId ≤ id → s.readers id = false
  tasks : ∀ id, s.nextId ≤ id → s.tasks id = none

variable {s s' : State} {i : Input} {a : Action}

lemma State.Fresh.lt (h : s.Fresh) {task : ℕ} {point : TaskPoint} (htask : s.tasks task = some point) :
    task < s.nextId := by
  by_contra hge
  rw [h.tasks task (not_lt.mp hge)] at htask
  cases htask

lemma State.Fresh.setTask (h : s.Fresh) {task : ℕ} (htask : task < s.nextId) (cache : FeedCache)
    (point : Option TaskPoint) : ({ s with cache }.setTask task point).Fresh where
  readers := h.readers
  tasks id hid := by
    have hid : s.nextId ≤ id := hid
    simpa [State.setTask, show id ≠ task by omega] using h.tasks id hid

lemma work_setTask {task : ℕ} {point : TaskPoint} (htask : s.tasks task = some point) (hlt : task < s.nextId)
    (cache : FeedCache) (new : Option TaskPoint) :
    ({ s with cache }.setTask task new).work + point.steps = s.work + new.elim 0 TaskPoint.steps := by
  have htotal := total_update TaskPoint.steps s.tasks hlt new
  rw [htask] at htotal
  exact htotal

lemma work_settling {task : ℕ} (htask : s.tasks task = some .fetching) (hlt : task < s.nextId)
    (result : Except String String) : (s.setTask task (some (.settling result))).work + 1 ≤ s.work :=
  (Nat.succ.inj (work_setTask htask hlt s.cache (some (.settling result)))).le

/-- The steps of the task that a reader may spawn. -/
def Input.spawnedSteps : Input → ℕ
  | read _ => 2
  | _ => 0

lemma news_step (h : s.Fresh) (hs : machine.step s i = some (s', a)) : s'.Fresh ∧
    (∀ reader, s.readers reader = true → i ≠ .read reader → i ≠ .cancel reader → s'.readers reader = true) ∧
    s'.work + i.isWork.toNat ≤ s.work + i.spawnedSteps := by
  cases i with
  | advance now =>
    simp only [machine] at hs
    split at hs <;> cases hs
    exact ⟨⟨h.readers, h.tasks⟩, fun _ hreader _ _ => hreader, by simp [State.work, Input.isWork]⟩
  | arrive =>
    cases hs
    refine ⟨⟨fun id hid => ?_, fun id hid => ?_⟩, fun reader hreader _ _ => ?_, ?_⟩
    · have hid : s.nextId + 1 ≤ id := hid
      simpa [State.setReader, show id ≠ s.nextId by omega] using h.readers id (by omega)
    · have hid : s.nextId + 1 ≤ id := hid
      exact h.tasks id (by omega)
    · by_cases hnew : reader = s.nextId
      · simp [State.setReader, hnew]
      · simpa [State.setReader, hnew] using hreader
    · have htotal := total_succ TaskPoint.steps (h.tasks s.nextId le_rfl)
      simp [State.work, State.setReader, Input.isWork, htotal]
  | cancel reader =>
    simp only [machine] at hs
    split at hs <;> cases hs
    refine ⟨⟨fun id hid => ?_, h.tasks⟩, fun other hother _ hcancel => ?_,
      by simp [State.work, State.setReader, Input.isWork]⟩
    · by_cases hsame : id = reader
      · simp [State.setReader, hsame]
      · simpa [State.setReader, hsame] using h.readers id hid
    · have hne : other ≠ reader := by
        rintro rfl
        exact hcancel rfl
      simpa [State.setReader, hne] using hother
  | read reader =>
    simp only [machine] at hs
    split at hs
    · next hreader =>
      have hlt : reader < s.nextId := by
        by_contra hge
        simp [h.readers reader (not_lt.mp hge)] at hreader
      have hreaders (other : ℕ) (hother : s.readers other = true) (hne : Input.read reader ≠ .read other) :
          Function.update s.readers reader false other = true := by
        rwa [Function.update_of_ne (by rintro rfl; exact hne rfl)]
      have hfresh (id : ℕ) (hid : s.nextId ≤ id) : Function.update s.readers reader false id = false := by
        rw [Function.update_of_ne (by omega)]
        exact h.readers id hid
      cases hspawns : s.cache.expired s.now && !s.cache.refreshing with
      | true =>
        rw [read_spawns reader hspawns] at hs
        cases hs
        refine ⟨⟨fun id hid => ?_, fun id hid => ?_⟩, fun other hother hne _ => hreaders other hother hne, ?_⟩
        · have hid : s.nextId + 1 ≤ id := hid
          exact hfresh id (by omega)
        · have hid : s.nextId + 1 ≤ id := hid
          simpa [State.setTask, State.setReader, show id ≠ s.nextId by omega] using h.tasks id (by omega)
        · have htotal := total_append TaskPoint.steps s.tasks s.nextId (some .fetching)
          simp only [State.work, State.setTask, State.setReader, Input.isWork, Input.spawnedSteps, htotal]
          simp [TaskPoint.steps]
      | false =>
        rw [read_quiet reader hspawns] at hs
        cases hs
        exact ⟨⟨hfresh, h.tasks⟩, fun other hother hne _ => hreaders other hother hne,
          by simp [State.work, State.setReader, Input.isWork, Input.spawnedSteps]⟩
    · simp at hs
  | fetched task _ | deadline task =>
    simp only [machine] at hs
    split at hs
    · next htask =>
      cases hs
      have hlt := h.lt htask
      exact ⟨h.setTask hlt s.cache _, fun _ hreader _ _ => hreader, work_settling htask hlt _⟩
    · simp at hs
  | settle task =>
    simp only [machine] at hs
    split at hs
    · next result htask =>
      cases hs
      have hlt := h.lt htask
      exact ⟨h.setTask hlt _ _, fun _ hreader _ _ => hreader, (work_setTask htask hlt _ none).le⟩
    · simp at hs

end News

/-- The read or the reader of the news that a handler waits for. -/
def Handler.awaits : Handler → Option (ℕ ⊕ ℕ)
  | reading id _ => some (.inl id)
  | news reader => some (.inr reader)
  | _ => none

def Tracker.Holds (t : Tracker) : ℕ ⊕ ℕ → Prop
  | .inl id => (t.server.reads id).isSome = true
  | .inr reader => t.news.readers reader = true

/-- What a handler waits for is there, and for no other handler. -/
structure Attached (t : Tracker) : Prop where
  fresh : t.news.Fresh
  live : ∀ connection token, (t.connections connection).bind Handler.awaits = some token → t.Holds token
  apart : ∀ connection other token, (t.connections connection).bind Handler.awaits = some token →
    (t.connections other).bind Handler.awaits = some token → connection = other

/-- A step of the handler `old` of a connection: what it leaves to the others, what it waits for next and what it
takes from the steps that are left. -/
structure Moved (t t' : Tracker) (connection : ℕ) (old : Handler) (new : Option Handler) : Prop where
  connections : t'.connections = Function.update t.connections connection new
  next : t'.nextConnection = t.nextConnection
  phase : t'.phase = t.phase
  fresh : t'.news.Fresh
  reads : ∀ id, (t.server.reads id).isSome = true → old.awaits ≠ some (.inl id) →
    t'.server.reads id = t.server.reads id
  readers : ∀ reader, t.news.readers reader = true → old.awaits ≠ some (.inr reader) →
    t'.news.readers reader = true
  awaits : ∀ token, new.bind Handler.awaits = some token → t'.Holds token ∧
    (old.awaits = some token ∨ ¬t.Holds token)
  steps : new.elim 0 (Handler.steps t'.server) + 1 ≤ old.steps t.server
  work : new.elim 0 Handler.work + t'.server.work + t'.news.work + 1 ≤ old.work + t.server.work + t.news.work

/-- The clock moves. -/
def TrackerInput.ticks : TrackerInput → Bool
  | advance _ => true
  | _ => false

/-- A step of the process accepts a connection, is one of the handler of a connection, or leaves the connections and
what they wait for as they are. -/
inductive ProcessStep (t t' : Tracker) (input : TrackerInput) : Prop
  | accepted (hinput : input = .accept)
      (ht : t' = { t with nextConnection := t.nextConnection + 1 }.setConnection t.nextConnection (some .waiting)) :
    ProcessStep t t' input
  | kept (hinput : input.connection = none) (hconnections : t'.connections = t.connections)
      (hnext : t'.nextConnection = t.nextConnection) (hfresh : t'.news.Fresh)
      (hreads : ∀ id, (t.server.reads id).isSome = true → t'.server.reads id = t.server.reads id)
      (hreaders : ∀ reader, t.news.readers reader = true → t'.news.readers reader = true)
      (hfailed : t'.phase = .failed → t.phase = .failed ∨ input = .drainTimeout ∨ input = .lockTimeout)
      (hwork : (!input.ticks).toNat + t'.server.work + t'.news.work + t'.phase.steps ≤
        t.server.work + t.news.work + t.phase.steps) :
    ProcessStep t t' input
  | moved {connection : ℕ} {old : Handler} {new : Option Handler} (hinput : input.connection = some connection)
      (hold : t.connections connection = some old) (hmoved : Moved t t' connection old new) :
    ProcessStep t t' input

lemma not_cancelled {i : ServerInput} (h : (serverMachine P path maxViewers).step s i = some (s', a))
    (hi : i.cancels = false) (id : ℕ) : a ≠ .cancelled id := by
  rintro rfl
  have htarget : some (.read id) = i.target := actor_of_step h
  cases i with
  | cancel => simp [ServerInput.cancels] at hi
  | begin =>
    obtain ⟨point, _, hstep⟩ := Option.bind_eq_some_iff.mp h
    simp only [Server.readStep] at hstep
    split at hstep
    · simp only [Server.beginPlan, Option.some.injEq] at hstep
      split at hstep <;> cases hstep
    · simp at hstep
  | load | count | copyReport | decide | loadGeneration | spawn | dropOwner | respond =>
    obtain ⟨point, _, hstep⟩ := Option.bind_eq_some_iff.mp h
    simp only [Server.readStep] at hstep
    split at hstep <;> cases hstep
  | _ => simp [ServerInput.target] at htarget

lemma afterRead_cases {id : ℕ} (hs : ServerStep P path maxViewers s a s') (ha : a.actor = some (.read id))
    (hcancelled : a ≠ .cancelled id) (activeViewers : Option ℕ) (server : Server) :
    Tracker.afterRead id activeViewers a = some (.reading id activeViewers) ∧ (s'.reads id).isSome = true ∨
      (Tracker.afterRead id activeViewers a).bind Handler.awaits = none ∧
        (Tracker.afterRead id activeViewers a).elim 0 (Handler.steps server) ≤ 1 ∧
        (Tracker.afterRead id activeViewers a).elim 0 Handler.work ≤ 1 := by
  cases hs with
  | responded =>
    refine .inr ?_
    cases activeViewers <;> exact ⟨rfl, le_rfl, le_rfl⟩
  | beginUnwound => exact .inr ⟨rfl, Nat.zero_le 1, Nat.zero_le 1⟩
  | cancelled =>
    obtain rfl : _ = id := by simpa [ServerAction.actor] using ha
    exact absurd rfl hcancelled
  | loaded | counted | reportCopied | decided | generationLoaded | refused | granted | spawned | ownerDropped =>
    obtain rfl : _ = id := by simpa [ServerAction.actor] using ha
    exact .inl ⟨rfl, by simp [Server.spawnTask]⟩
  | _ => simp [ServerAction.actor] at ha

lemma afterUpdate_cases (payload : PresencePayload) (a : ServerAction) (server : Server) :
    (Tracker.afterUpdate payload a).awaits = none ∧ (Tracker.afterUpdate payload a).steps server ≤ 10 ∧
      (Tracker.afterUpdate payload a).work ≤ 18 := by
  unfold Tracker.afterUpdate
  repeat' split
  all_goals exact ⟨rfl, by simp [Handler.steps], by simp [Handler.work]⟩

section Moves

variable {t t' : Tracker} {b : TrackerAction} {connection : ℕ}

lemma Moved.plain (h : Attached t) {old : Handler} {new : Option Handler} (hnew : new.bind Handler.awaits = none)
    (hsteps : new.elim 0 (Handler.steps t.server) + 1 ≤ old.steps t.server)
    (hwork : new.elim 0 Handler.work + 1 ≤ old.work) : Moved t (t.setConnection connection new) connection old new where
  connections := rfl
  next := rfl
  phase := rfl
  fresh := h.fresh
  reads _ _ _ := rfl
  readers _ hreader _ := hreader
  awaits token htoken := by
    rw [hnew] at htoken
    cases htoken
  steps := hsteps
  work := by
    change _ + t.server.work + t.news.work + 1 ≤ _
    omega

lemma Moved.ofNews (h : Attached t) {old : Handler} {new : Option Handler} {news : News.State} {i : News.Input}
    {a : News.Action} (hs : News.machine.step t.news i = some (news, a))
    (hi : ∀ reader, i = .read reader ∨ i = .cancel reader → old.awaits = some (.inr reader))
    (hnew : ∀ token, new.bind Handler.awaits = some token →
      Tracker.Holds { t with news } token ∧ (old.awaits = some token ∨ ¬t.Holds token))
    (hsteps : new.elim 0 (Handler.steps t.server) + 1 ≤ old.steps t.server)
    (hwork : new.elim 0 Handler.work + i.spawnedSteps + 1 ≤ old.work + i.isWork.toNat) :
    Moved t ({ t with news }.setConnection connection new) connection old new := by
  obtain ⟨hfresh, hreaders, hnews⟩ := News.news_step h.fresh hs
  refine ⟨rfl, rfl, rfl, hfresh, fun _ _ _ => rfl, fun reader hreader hne => ?_, hnew, hsteps, ?_⟩
  · exact hreaders reader hreader (fun heq => hne (hi reader (.inl heq))) fun heq => hne (hi reader (.inr heq))
  · change _ + t.server.work + news.work + 1 ≤ _
    omega

lemma Moved.ofRead (h : Attached t) (hexclusive : Exclusive t.server) {id : ℕ} {activeViewers : Option ℕ}
    {new : Option Handler} {server : Server} {a : ServerAction} (hs : ServerStep P path maxViewers t.server a server)
    (ha : a.actor = some (.read id))
    (hnew : new = some (.reading id activeViewers) ∧ (server.reads id).isSome = true ∨
      new.bind Handler.awaits = none ∧ new.elim 0 (Handler.steps server) ≤ 1 ∧ new.elim 0 Handler.work ≤ 1) :
    Moved t ({ t with server }.setConnection connection new) connection (.reading id activeViewers) new := by
  obtain ⟨point, hread, hsteps, _⟩ := (read_life hexclusive hs id).work ha
  have hwork := Server.read_work hexclusive hs ha
  refine ⟨rfl, rfl, rfl, h.fresh, fun other _ hother => ?_, fun _ hreader _ => hreader, fun token htoken => ?_, ?_, ?_⟩
  · have hne : other ≠ id := by
      rintro rfl
      exact hother rfl
    exact reads_kept hexclusive hs (by simpa [reader_of_read ha] using Ne.symm hne)
  · rcases hnew with ⟨rfl, hlive⟩ | ⟨hnone, _⟩
    · obtain rfl : Sum.inl id = token := Option.some.inj htoken
      exact ⟨hlive, .inl rfl⟩
    · rw [hnone] at htoken
      cases htoken
  · change new.elim 0 (Handler.steps server) + 1 ≤ 1 + (t.server.reads id).elim 0 ReadPoint.steps
    rw [hread, Option.elim_some]
    rcases hnew with ⟨rfl, _⟩ | ⟨_, hone, _⟩
    · change 1 + (server.reads id).elim 0 ReadPoint.steps + 1 ≤ _
      omega
    · omega
  · change new.elim 0 Handler.work + server.work + t.news.work + 1 ≤ 1 + t.server.work + t.news.work
    rcases hnew with ⟨rfl, _⟩ | ⟨_, _, hone⟩
    · change 1 + server.work + t.news.work + 1 ≤ _
      omega
    · omega

lemma dropHandler_moves (h : Attached t) (hexclusive : Exclusive t.server) {handler : Handler} {left : Option Handler}
    (hold : t.connections connection = some handler)
    (hleft : left = none ∨ left = some (.answering .deadline) ∧ Tracker.timed handler = true)
    (hdrop : t.dropHandler (serverMachine P path maxViewers).step connection left handler = some (t', b)) :
    Moved t t' connection handler left := by
  have hawaits : left.bind Handler.awaits = none := by
    rcases hleft with rfl | ⟨rfl, _⟩ <;> rfl
  have hsteps (server : Server) : left.elim 0 (Handler.steps server) ≤ 1 := by
    rcases hleft with rfl | ⟨rfl, _⟩
    · exact Nat.zero_le 1
    · exact le_rfl
  have hwork : left.elim 0 Handler.work ≤ 1 := by
    rcases hleft with rfl | ⟨rfl, _⟩
    · exact Nat.zero_le 1
    · exact le_rfl
  have hlight : (∃ answer, handler = .answering answer) → left = none := by
    rintro ⟨answer, rfl⟩
    exact hleft.resolve_right (by simp [Tracker.timed])
  cases handler with
  | starting => simp [Tracker.dropHandler] at hdrop
  | reading id activeViewers =>
    obtain ⟨⟨server, a⟩, hs, heq⟩ := Option.map_eq_some_iff.mp hdrop
    cases heq
    exact .ofRead h hexclusive (server_step hs) (actor_of_step hs) (.inr ⟨hawaits, hsteps _, hwork⟩)
  | news reader =>
    obtain ⟨⟨news, a⟩, hs, heq⟩ := Option.map_eq_some_iff.mp hdrop
    cases heq
    refine .ofNews h hs (by simp [Handler.awaits]) (by simp [hawaits]) ?_ ?_
    · have hone := hsteps t.server
      simp only [Handler.steps]
      omega
    · simp only [Handler.work, News.Input.spawnedSteps]
      omega
  | answering answer =>
    cases hdrop
    obtain rfl := hlight ⟨answer, rfl⟩
    exact .plain h rfl le_rfl le_rfl
  | waiting | updating | checking | other =>
    cases hdrop
    have hone := hsteps t.server
    refine .plain h hawaits ?_ ?_
    · simp only [Handler.steps]
      omega
    · simp only [Handler.work]
      omega

lemma route_moves (h : Attached t) {request : Request} (hroute : t.route connection request = some (t', b)) :
    ∃ new, Moved t t' connection .waiting new := by
  cases request with
  | news =>
    obtain ⟨rfl, rfl⟩ := Prod.mk.inj (Option.some.inj hroute)
    refine ⟨_, .ofNews h (i := .arrive) rfl (by simp) (fun token htoken => ?_) (by simp [Handler.steps])
      (by simp [Handler.work, News.Input.spawnedSteps, News.Input.isWork])⟩
    obtain rfl : Sum.inr t.news.nextId = token := Option.some.inj htoken
    exact ⟨by simp [Tracker.Holds, News.State.setReader], .inr (by simp [Tracker.Holds, h.fresh.readers])⟩
  | price | presence | health | other =>
    cases hroute
    exact ⟨_, .plain h rfl (by simp [Handler.steps]) (by simp [Handler.work])⟩

lemma task_kept {input : TrackerInput} (h : Attached t) (hexclusive : Exclusive t.server) {task : ℕ} {server : Server}
    {a : ServerAction} (hs : ServerStep P path maxViewers t.server a server) (ha : a.actor = some (.task task))
    (hinput : input.connection = none) : ProcessStep t { t with server } input := by
  have hwork := Server.task_work hexclusive hs ha
  refine .kept hinput rfl rfl h.fresh (fun id _ => ?_) (fun _ hreader => hreader) .inl ?_
  · exact reads_kept hexclusive hs (by simp [reader_of_task ha])
  · have hone := Bool.toNat_le (!input.ticks)
    change _ + server.work + t.news.work + t.phase.steps ≤ _
    omega

lemma ProcessStep.ofAdvance {now : ℕ} (h : Attached t)
    (hstep : (trackerMachine P path maxViewers).step t (.advance now) = some (t', b)) :
    ProcessStep t t' (.advance now) := by
  obtain ⟨⟨server, a⟩, hs, hnews⟩ := Option.bind_eq_some_iff.mp hstep
  obtain ⟨⟨news, c⟩, hn, heq⟩ := Option.map_eq_some_iff.mp hnews
  cases heq
  have hserver : server = { t.server with now } := by
    simp only [serverMachine] at hs
    split at hs <;> cases hs
    rfl
  obtain ⟨hfresh, hreaders, hwork⟩ := News.news_step h.fresh hn
  subst hserver
  refine .kept rfl rfl rfl hfresh (fun _ _ => rfl) (fun reader hreader =>
    hreaders reader hreader (by simp) (by simp)) .inl ?_
  change 0 + t.server.work + news.work + t.phase.steps ≤ _
  simp only [News.Input.isWork, News.Input.spawnedSteps, Bool.toNat_false] at hwork
  omega

lemma ProcessStep.ofUpdate (h : Attached t) (hexclusive : Exclusive t.server)
    (hstep : (trackerMachine P path maxViewers).step t (.update connection) = some (t', b)) :
    ProcessStep t t' (.update connection) := by
  simp only [trackerMachine] at hstep
  split at hstep
  · next payload hold =>
    obtain ⟨⟨server, a⟩, hs, heq⟩ := Option.map_eq_some_iff.mp hstep
    cases heq
    have hreader : a.reader = none ∧ ∀ id owner, a ≠ .readBegan id owner := by
      simp only [serverMachine, Server.updatePresence, Option.some.injEq] at hs
      split at hs <;> cases hs <;> exact ⟨rfl, by simp⟩
    have hwork := Server.idle_work hexclusive (server_step hs) (actor_of_step hs) hreader.2
    obtain ⟨hawaits, hsteps, hnew⟩ := afterUpdate_cases payload a server
    refine .moved rfl hold ⟨rfl, rfl, rfl, h.fresh, fun id _ _ => ?_, fun _ hreader _ => hreader,
      fun token htoken => ?_, ?_, ?_⟩
    · exact reads_kept hexclusive (server_step hs) (by simp [hreader.1])
    · simp [hawaits] at htoken
    · exact Nat.succ_le_succ hsteps
    · change (Tracker.afterUpdate payload a).work + server.work + t.news.work + 1 ≤ 19 + t.server.work + t.news.work
      omega
  · simp at hstep

lemma ProcessStep.ofStart (h : Attached t) (hexclusive : Exclusive t.server)
    (hstep : (trackerMachine P path maxViewers).step t (.start connection) = some (t', b)) :
    ProcessStep t t' (.start connection) := by
  simp only [trackerMachine] at hstep
  split at hstep
  · next activeViewers hold =>
    obtain ⟨⟨server, a⟩, hs, heq⟩ := Option.map_eq_some_iff.mp hstep
    cases heq
    obtain ⟨hwork, hreads, _⟩ := Server.began_work hexclusive hs
    have hfresh := hexclusive.fresh t.server.nextId le_rfl
    refine .moved rfl hold ⟨rfl, rfl, rfl, h.fresh, fun id hlive _ => ?_, fun _ hreader _ => hreader,
      fun token htoken => ?_, ?_, ?_⟩
    · change server.reads id = _
      rw [hreads, Function.update_of_ne]
      rintro rfl
      simp [hfresh] at hlive
    · obtain rfl : Sum.inl t.server.nextId = token := Option.some.inj htoken
      exact ⟨by simp [Tracker.Holds, Tracker.setConnection, hreads], .inr (by simp [Tracker.Holds, hfresh])⟩
    · simp [Handler.steps, Tracker.setConnection, hreads, ReadPoint.steps]
    · change 1 + server.work + t.news.work + 1 ≤ 18 + t.server.work + t.news.work
      omega
  · simp at hstep

lemma ProcessStep.ofRead {i : ServerInput} (h : Attached t) (hexclusive : Exclusive t.server)
    (hstep : (trackerMachine P path maxViewers).step t (.read connection i) = some (t', b)) :
    ProcessStep t t' (.read connection i) := by
  simp only [trackerMachine] at hstep
  split at hstep
  · next id activeViewers hold =>
    split at hstep
    · next hi =>
      obtain ⟨⟨server, a⟩, hs, heq⟩ := Option.map_eq_some_iff.mp hstep
      cases heq
      have ha : a.actor = some (.read id) := (actor_of_step hs).trans hi.1
      exact .moved rfl hold (.ofRead h hexclusive (server_step hs) ha
        (afterRead_cases (server_step hs) ha (not_cancelled hs hi.2 id) activeViewers server))
    · simp at hstep
  · simp at hstep

lemma ProcessStep.ofReadNews (h : Attached t)
    (hstep : (trackerMachine P path maxViewers).step t (.readNews connection) = some (t', b)) :
    ProcessStep t t' (.readNews connection) := by
  simp only [trackerMachine] at hstep
  split at hstep
  · next reader hold =>
    obtain ⟨⟨news, a⟩, hs, heq⟩ := Option.map_eq_some_iff.mp hstep
    cases heq
    have hresponded : ∃ answer, Tracker.afterNews reader a = .answering answer := by
      simp only [News.machine] at hs
      split at hs
      · simp only [Option.some.injEq, News.State.read] at hs
        split at hs <;> cases hs <;> exact ⟨_, rfl⟩
      · simp at hs
    obtain ⟨answer, hanswer⟩ := hresponded
    rw [hanswer]
    exact .moved rfl hold (.ofNews h hs (by simp [Handler.awaits]) (by simp [Handler.awaits]) le_rfl
      (by simp [Handler.work, News.Input.spawnedSteps]))
  · simp at hstep

lemma ProcessStep.ofNewsWork {i : News.Input} (h : Attached t)
    (hstep : (trackerMachine P path maxViewers).step t (.newsWork i) = some (t', b)) :
    ProcessStep t t' (.newsWork i) := by
  simp only [trackerMachine] at hstep
  split at hstep
  · next hi =>
    obtain ⟨⟨news, a⟩, hs, heq⟩ := Option.map_eq_some_iff.mp hstep
    cases heq
    obtain ⟨hfresh, hreaders, hwork⟩ := News.news_step h.fresh hs
    have hspawned : i.spawnedSteps = 0 ∧ (∀ reader, i ≠ .read reader) ∧ ∀ reader, i ≠ .cancel reader := by
      cases i <;> simp_all [News.Input.isWork, News.Input.spawnedSteps]
    refine .kept rfl rfl rfl hfresh (fun _ _ => rfl)
      (fun reader hreader => hreaders reader hreader (hspawned.2.1 reader) (hspawned.2.2 reader)) .inl ?_
    change 1 + t.server.work + news.work + t.phase.steps ≤ _
    rw [hi, Bool.toNat_true, hspawned.1] at hwork
    omega
  · simp at hstep

lemma process_step {input : TrackerInput} (h : Attached t) (hexclusive : Exclusive t.server)
    (hstep : (trackerMachine P path maxViewers).step t input = some (t', b)) : ProcessStep t t' input := by
  cases input with
  | advance => exact .ofAdvance h hstep
  | accept =>
    simp only [trackerMachine] at hstep
    split at hstep <;> cases hstep
    exact .accepted rfl rfl
  | request connection request =>
    simp only [trackerMachine] at hstep
    split at hstep
    · next hold =>
      obtain ⟨new, hmoved⟩ := route_moves h hstep
      exact .moved rfl hold hmoved
    · simp at hstep
  | refuse connection busy =>
    simp only [trackerMachine] at hstep
    split at hstep <;> cases hstep
    exact .moved rfl (by assumption) (.plain h rfl (by simp [Handler.steps]) (by simp [Handler.work]))
  | update => exact .ofUpdate h hexclusive hstep
  | start => exact .ofStart h hexclusive hstep
  | read => exact .ofRead h hexclusive hstep
  | readNews => exact .ofReadNews h hstep
  | check connection F =>
    simp only [trackerMachine] at hstep
    split at hstep <;> cases hstep
    exact .moved rfl (by assumption) (.plain h rfl (by simp [Handler.steps]) (by simp [Handler.work]))
  | answer connection =>
    simp only [trackerMachine] at hstep
    split at hstep <;> cases hstep
    exact .moved rfl (by assumption) (.plain h rfl le_rfl le_rfl)
  | expire connection =>
    obtain ⟨handler, hold, hexpire⟩ := Option.bind_eq_some_iff.mp hstep
    split at hexpire
    · next htimed => exact .moved rfl hold (dropHandler_moves h hexclusive hold (.inr ⟨rfl, htimed⟩) hexpire)
    · simp at hexpire
  | close connection =>
    obtain ⟨handler, hold, hclose⟩ := Option.bind_eq_some_iff.mp hstep
    exact .moved rfl hold (dropHandler_moves h hexclusive hold (.inl rfl) hclose)
  | work i =>
    simp only [trackerMachine] at hstep
    split at hstep
    · next htarget =>
      obtain ⟨⟨server, a⟩, hs, heq⟩ := Option.map_eq_some_iff.mp hstep
      cases heq
      exact task_kept h hexclusive (server_step hs) ((actor_of_step hs).trans htarget) rfl
    · simp at hstep
  | newsWork => exact .ofNewsWork h hstep
  | shutdown =>
    simp only [trackerMachine] at hstep
    split at hstep
    · next hphase =>
      cases hstep
      refine .kept rfl rfl rfl h.fresh (fun _ _ => rfl) (fun _ hreader => hreader) (by simp) ?_
      change 1 + t.server.work + t.news.work + 2 ≤ t.server.work + t.news.work + t.phase.steps
      rw [hphase]
      simp only [Phase.steps]
      omega
    · simp at hstep
  | drained | drainTimeout | lock | lockTimeout =>
    simp only [trackerMachine] at hstep
    split at hstep
    · next hphase =>
      cases hstep
      refine .kept rfl rfl rfl h.fresh (fun _ _ => rfl) (fun _ hreader => hreader) (by simp) ?_
      simp only [TrackerInput.ticks, Bool.not_false, Bool.toNat_true, hphase, Phase.steps]
      omega
    · simp at hstep

lemma Moved.holds {old : Handler} {new : Option Handler} (hs : Moved t t' connection old new) {token : ℕ ⊕ ℕ}
    (hlive : t.Holds token) (hne : old.awaits ≠ some token) : t'.Holds token := by
  cases token with
  | inl id =>
    change (t'.server.reads id).isSome = true
    rwa [hs.reads id hlive hne]
  | inr reader => exact hs.readers reader hlive hne

lemma Attached.step {input : TrackerInput} (h : Attached t) (hs : ProcessStep t t' input) : Attached t' := by
  cases hs with
  | accepted _ ht =>
    subst ht
    have hwaits (other : ℕ) (token : ℕ ⊕ ℕ)
        (htoken : (Function.update t.connections t.nextConnection (some .waiting) other).bind Handler.awaits =
          some token) : (t.connections other).bind Handler.awaits = some token := by
      by_cases hother : other = t.nextConnection
      · rw [hother, Function.update_self] at htoken
        cases htoken
      · rwa [Function.update_of_ne hother] at htoken
    exact ⟨h.fresh, fun other token htoken => h.live other token (hwaits other token htoken),
      fun first second token hfirst hsecond =>
        h.apart first second token (hwaits first token hfirst) (hwaits second token hsecond)⟩
  | kept _ hconnections _ hfresh hreads hreaders =>
    refine ⟨hfresh, fun other token htoken => ?_, fun first second token hfirst hsecond => ?_⟩
    · rw [hconnections] at htoken
      have hlive := h.live other token htoken
      cases token with
      | inl id =>
        change (t'.server.reads id).isSome = true
        rwa [hreads id hlive]
      | inr reader => exact hreaders reader hlive
    · rw [hconnections] at hfirst hsecond
      exact h.apart first second token hfirst hsecond
  | @moved connection old new _ hold hmoved =>
    -- What the handler waits for next, no other handler has waited for.
    have hself (other : ℕ) (token : ℕ ⊕ ℕ) (hnew : new.bind Handler.awaits = some token)
        (hother : (t.connections other).bind Handler.awaits = some token) : connection = other := by
      rcases (hmoved.awaits token hnew).2 with hsame | hdead
      · exact h.apart connection other token (by rw [hold]; exact hsame) hother
      · exact absurd (h.live other token hother) hdead
    refine ⟨hmoved.fresh, fun other token htoken => ?_, fun first second token hfirst hsecond => ?_⟩
    · rw [hmoved.connections] at htoken
      by_cases hother : other = connection
      · rw [hother, Function.update_self] at htoken
        exact (hmoved.awaits token htoken).1
      · rw [Function.update_of_ne hother] at htoken
        refine hmoved.holds (h.live other token htoken) fun hsame => hother ?_
        exact h.apart other connection token htoken (by rw [hold]; exact hsame)
    · rw [hmoved.connections] at hfirst hsecond
      by_cases hone : first = connection
      · subst hone
        by_cases htwo : second = first
        · exact htwo.symm
        · rw [Function.update_self] at hfirst
          rw [Function.update_of_ne htwo] at hsecond
          exact hself second token hfirst hsecond
      · rw [Function.update_of_ne hone] at hfirst
        by_cases htwo : second = connection
        · rw [htwo, Function.update_self] at hsecond
          rw [htwo]
          exact (hself first token hsecond hfirst).symm
        · rw [Function.update_of_ne htwo] at hsecond
          exact h.apart first second token hfirst hsecond

end Moves

section Runs

variable {db : Database} {start : ℕ} {t t' : Tracker} {trace : List (Tracker × TrackerInput × TrackerAction)}

/-- What holds in every state that the process reaches. -/
structure Coherent (t : Tracker) : Prop where
  exclusive : Exclusive t.server
  connected : Connected t
  attached : Attached t

lemma Coherent.init (db : Database) (start : ℕ) : Coherent (.init db start) where
  exclusive := .init db start
  connected := ⟨fun id point hread => by simp [Tracker.init, Server.init] at hread, fun _ _ => rfl, fun _ _ => rfl,
    fun _ => rfl⟩
  attached := ⟨⟨fun _ _ => rfl, fun _ _ => rfl⟩, fun connection token htoken => by simp [Tracker.init] at htoken,
    fun connection other token htoken => by simp [Tracker.init] at htoken⟩

lemma Coherent.step {input : TrackerInput} {b : TrackerAction} (h : Coherent t)
    (hs : (trackerMachine P path maxViewers).step t input = some (t', b)) : Coherent t' := by
  have hexclusive : Exclusive t'.server := by
    have hview := (tracker_step hs).view
    cases hb : serverView b with
    | none =>
      rw [hb] at hview
      rw [hview]
      exact h.exclusive
    | some a =>
      rw [hb] at hview
      obtain ⟨i, hserver⟩ := hview
      exact h.exclusive.step (server_step hserver)
  exact ⟨hexclusive, h.connected.step h.exclusive (tracker_step hs),
    h.attached.step (process_step h.attached h.exclusive hs)⟩

theorem Coherent.run (h : (trackerMachine P path maxViewers).traced.Run (.init db start) trace t) : Coherent t :=
  h.invariant (P := fun _ t => Coherent t) (.init db start) fun _ _ _ _ _ _ ih hs => by
    obtain ⟨b, hstep, _⟩ := Machine.traced_step.mp hs
    exact ih.step hstep

lemma Coherent.lt (h : Coherent t) {connection : ℕ} {handler : Handler}
    (hold : t.connections connection = some handler) :
    connection < t.nextConnection := by
  by_contra hge
  rw [h.connected.fresh connection (not_lt.mp hge)] at hold
  cases hold

/-- Every step but the clock's takes one from the work, and an accepted connection brings twenty. -/
lemma Coherent.work_step {input : TrackerInput} {b : TrackerAction} (h : Coherent t)
    (hs : (trackerMachine P path maxViewers).step t input = some (t', b)) :
    (!input.ticks).toNat + t'.work + 21 * t.nextConnection ≤ t.work + 21 * t'.nextConnection := by
  have hone := Bool.toNat_le (!input.ticks)
  unfold Tracker.work
  cases process_step h.attached h.exclusive hs with
  | accepted _ ht =>
    subst ht
    have htotal := total_append Handler.work t.connections t.nextConnection (some .waiting)
    change _ + (total Handler.work (t.nextConnection + 1)
      (Function.update t.connections t.nextConnection (some .waiting)) +
      t.server.work + t.news.work + t.phase.steps) + _ ≤ _ + 21 * (t.nextConnection + 1)
    simp only [Option.elim_some, Handler.work] at htotal
    omega
  | kept _ hconnections hnext _ _ _ _ hwork =>
    rw [hconnections, hnext]
    omega
  | @moved connection old new _ hold hmoved =>
    have htotal := total_update Handler.work t.connections (h.lt hold) new
    rw [hold, Option.elim_some] at htotal
    have hwork := hmoved.work
    rw [hmoved.connections, hmoved.next, hmoved.phase]
    omega

/-- The steps that the task of a connection has left, from its accept on. -/
def Tracker.ownSteps (t : Tracker) (connection : ℕ) : ℕ :=
  (t.connections connection).elim (if t.nextConnection ≤ connection then 12 else 0) (Handler.steps t.server)

lemma ownSteps_kept {connection : ℕ} (hconnection : t'.connections connection = t.connections connection)
    (hnext : t'.nextConnection = t.nextConnection)
    (hreads : ∀ id activeViewers, t.connections connection = some (.reading id activeViewers) →
      t'.server.reads id = t.server.reads id) : t'.ownSteps connection = t.ownSteps connection := by
  unfold Tracker.ownSteps
  rw [hconnection, hnext]
  cases hold : t.connections connection with
  | none => rfl
  | some handler =>
    cases handler with
    | reading id activeViewers => simp [Handler.steps, hreads id activeViewers hold]
    | _ => rfl

/-- A step of the task of a connection takes one from the steps that it has left, any other step none. -/
lemma Coherent.own_step {input : TrackerInput} {b : TrackerAction} (h : Coherent t) (connection : ℕ)
    (hs : (trackerMachine P path maxViewers).step t input = some (t', b)) :
    (decide (input.connection = some connection)).toNat + t'.ownSteps connection ≤ t.ownSteps connection := by
  have hlive {id : ℕ} {activeViewers : Option ℕ} (hold : t.connections connection = some (.reading id activeViewers)) :
      (t.server.reads id).isSome = true := h.attached.live connection (.inl id) (by simp [hold, Handler.awaits])
  cases process_step h.attached h.exclusive hs with
  | accepted hinput ht =>
    subst hinput ht
    by_cases hnew : connection = t.nextConnection
    · subst hnew
      have hnone := h.connected.fresh t.nextConnection le_rfl
      simp [Tracker.ownSteps, Tracker.setConnection, hnone, Handler.steps, TrackerInput.connection]
    · have hbound : t.nextConnection + 1 ≤ connection ↔ t.nextConnection ≤ connection := by omega
      simp [Tracker.ownSteps, Tracker.setConnection, hnew, TrackerInput.connection, hbound]
  | kept hinput hconnections hnext _ hreads =>
    rw [ownSteps_kept (by rw [hconnections]) hnext fun id activeViewers hold => hreads id (hlive hold)]
    simp [hinput]
  | @moved other old new hinput hold hmoved =>
    by_cases hsame : connection = other
    · subst hsame
      have hlt := h.lt hold
      have hsteps := hmoved.steps
      have hleft : t'.ownSteps connection = new.elim 0 (Handler.steps t'.server) := by
        unfold Tracker.ownSteps
        rw [hmoved.connections, Function.update_self, hmoved.next, if_neg (by omega)]
      have hbefore : t.ownSteps connection = old.steps t.server := by
        unfold Tracker.ownSteps
        rw [hold, Option.elim_some]
      have hone := Bool.toNat_le (decide (input.connection = some connection))
      omega
    · rw [ownSteps_kept (by rw [hmoved.connections, Function.update_of_ne hsame]) hmoved.next]
      · simp [hinput, Ne.symm hsame]
      · intro id activeViewers hread
        refine hmoved.reads id (hlive hread) fun hawaits => hsame ?_
        exact h.attached.apart connection other (.inl id) (by simp [hread, Handler.awaits])
          (by rw [hold]; exact hawaits)

/-- A step that is not forced by a time limit, a refusal or a client that goes away. The answer to a request for an
asset ends its connection. -/
def TrackerInput.Unforced (t : Tracker) : TrackerInput → Prop
  | advance _ | accept | refuse _ _ | expire _ | drainTimeout | lockTimeout | newsWork (.deadline _) => False
  | close connection => t.connections connection = some .other
  | _ => True

variable (P path maxViewers) in
lemma read_enabled {id : ℕ} {point : ReadPoint} (hread : s.reads id = some point) :
    ∃ i : ServerInput, i.target = some (.read id) ∧ i.cancels = false ∧
      ((serverMachine P path maxViewers).step s i).isSome = true := by
  have henabled (i : ServerInput) (htarget : i.target = some (.read id)) (hcancels : i.cancels = false)
      (hsome : (s.readStep P id point i).isSome = true) (hstep : (serverMachine P path maxViewers).step s i =
        (s.reads id).bind fun point => s.readStep P id point i) :
      ∃ i : ServerInput, i.target = some (.read id) ∧ i.cancels = false ∧
        ((serverMachine P path maxViewers).step s i).isSome = true :=
    ⟨i, htarget, hcancels, by rwa [hstep, hread, Option.bind_some]⟩
  cases point with
  | loading => exact henabled (.load id []) rfl rfl rfl rfl
  | counting => exact henabled (.count id 0) rfl rfl rfl rfl
  | reporting => exact henabled (.copyReport id) rfl rfl rfl rfl
  | deciding => exact henabled (.decide id) rfl rfl rfl rfl
  | generating => exact henabled (.loadGeneration id) rfl rfl rfl rfl
  | beginning => exact henabled (.begin id) rfl rfl rfl rfl
  | spawning => exact henabled (.spawn id) rfl rfl rfl rfl
  | refused => exact henabled (.dropOwner id) rfl rfl rfl rfl
  | responding => exact henabled (.respond id) rfl rfl rfl rfl

variable (P path maxViewers) in
lemma task_enabled {id : ℕ} {task : RefreshTask} (htask : s.tasks id = some task) :
    ∃ i : ServerInput, i.target = some (.task id) ∧ ((serverMachine P path maxViewers).step s i).isSome = true := by
  obtain ⟨snapshot, plan, point⟩ := task
  have henabled (i : ServerInput) (htarget : i.target = some (.task id))
      (hsome : (s.taskStep P path id ⟨snapshot, plan, point⟩ i).isSome = true)
      (hstep : (serverMachine P path maxViewers).step s i =
        (s.tasks id).bind fun task => s.taskStep P path id task i) :
      ∃ i : ServerInput, i.target = some (.task id) ∧ ((serverMachine P path maxViewers).step s i).isSome = true :=
    ⟨i, htarget, by rwa [hstep, htask, Option.bind_some]⟩
  cases point with
  | spawned => exact henabled (.recheckStopping id) rfl rfl rfl
  | counting => exact henabled (.recheckViewers id) rfl rfl rfl
  | dispatching => exact henabled (.dispatch id) rfl rfl rfl
  | fetching => exact henabled (.collect id (fun _ => ⟨0, .error ⟨false, "connection refused"⟩, 0⟩) 0) rfl rfl rfl
  | storing => exact henabled (.store id []) rfl rfl rfl
  | completing => exact henabled (.complete id 0) rfl rfl rfl
  | reporting => exact henabled (.publish id) rfl rfl rfl
  | releasing => exact henabled (.release id) rfl rfl rfl

variable (P path maxViewers) in
/-- A handler has a next step of its own, whatever the others do. -/
lemma Coherent.enabled (h : Coherent t) {connection : ℕ} {handler : Handler}
    (hold : t.connections connection = some handler) :
    ∃ input : TrackerInput, input.connection = some connection ∧ input.Unforced t ∧
      ((trackerMachine P path maxViewers).step t input).isSome = true := by
  have hlive (token : ℕ ⊕ ℕ) (hawaits : handler.awaits = some token) : t.Holds token :=
    h.attached.live connection token (by rw [hold]; exact hawaits)
  cases handler with
  | waiting => exact ⟨.request connection .health, rfl, trivial, by simp [trackerMachine, hold, Tracker.route]⟩
  | updating => exact ⟨.update connection, rfl, trivial, by simp [trackerMachine, hold, serverMachine]⟩
  | starting => exact ⟨.start connection, rfl, trivial, by simp [trackerMachine, hold, serverMachine]⟩
  | reading id activeViewers =>
    obtain ⟨point, hread⟩ := Option.isSome_iff_exists.mp (hlive (.inl id) rfl)
    obtain ⟨i, htarget, hcancels, hsome⟩ := read_enabled P path maxViewers hread
    refine ⟨.read connection i, rfl, trivial, ?_⟩
    simp [trackerMachine, hold, htarget, hcancels, hsome]
  | news reader =>
    have hreader : t.news.readers reader = true := hlive (.inr reader) rfl
    exact ⟨.readNews connection, rfl, trivial, by simp [trackerMachine, hold, News.machine, hreader]⟩
  | checking => exact ⟨.check connection [], rfl, trivial, by simp [trackerMachine, hold]⟩
  | other => exact ⟨.close connection, rfl, hold, by simp [trackerMachine, hold, Tracker.dropHandler]⟩
  | answering => exact ⟨.answer connection, rfl, trivial, by simp [trackerMachine, hold]⟩

lemma Coherent.unforced_step {input : TrackerInput} {b : TrackerAction} (h : Coherent t) (hinput : input.Unforced t)
    (hs : (trackerMachine P path maxViewers).step t input = some (t', b)) :
    t'.work < t.work ∧ (t'.phase = .failed → t.phase = .failed) := by
  have hpaid := h.work_step hs
  have hticks : input.ticks = false := by
    cases input with
    | advance => exact hinput.elim
    | _ => rfl
  rw [hticks, Bool.not_false, Bool.toNat_true] at hpaid
  cases process_step h.attached h.exclusive hs with
  | accepted haccept =>
    subst haccept
    exact hinput.elim
  | kept _ _ hnext _ _ _ hfailed =>
    refine ⟨by omega, fun hphase => ?_⟩
    rcases hfailed hphase with hbefore | rfl | rfl
    · exact hbefore
    · exact hinput.elim
    · exact hinput.elim
  | moved _ _ hmoved =>
    have hnext := hmoved.next
    exact ⟨by omega, fun hphase => hmoved.phase ▸ hphase⟩

variable (P path maxViewers) in
lemma Coherent.progress (h : Coherent t) (hfailed : t.phase ≠ .failed) (hreturned : t.phase ≠ .returned) :
    ∃ input : TrackerInput, input.Unforced t ∧ ((trackerMachine P path maxViewers).step t input).isSome = true := by
  cases hphase : t.phase with
  | accepting => exact ⟨.shutdown, trivial, by simp [trackerMachine, hphase, serverMachine]⟩
  | draining =>
    by_cases hidle : t.idle = true
    · exact ⟨.drained, trivial, by simp [trackerMachine, hphase, hidle]⟩
    · have hopen : ∃ connection, t.connections connection ≠ none := by
        by_contra hnone
        refine hidle (List.all_eq_true.mpr fun connection _ => Option.isNone_iff_eq_none.mpr ?_)
        by_contra hne
        exact hnone ⟨connection, hne⟩
      obtain ⟨connection, hne⟩ := hopen
      obtain ⟨handler, hold⟩ := Option.ne_none_iff_exists'.mp hne
      obtain ⟨input, _, hinput, hsome⟩ := h.enabled P path maxViewers hold
      exact ⟨input, hinput, hsome⟩
  | locking =>
    -- No handler is left, so that the guard can only be with a refresh task.
    cases howner : t.server.owner with
    | none => exact ⟨.lock, trivial, by simp [trackerMachine, hphase, howner]⟩
    | some owner =>
      have hheld := h.exclusive.live (by simp [howner])
      cases owner with
      | read id =>
        simp only [Server.held, howner, Option.isSome_map] at hheld
        obtain ⟨point, hread⟩ := Option.isSome_iff_exists.mp hheld
        obtain ⟨connection, activeViewers, hconnection⟩ := h.connected.reads id point hread
        simp [h.connected.quiet (.inl hphase) connection] at hconnection
      | task id =>
        simp only [Server.held, howner, Option.isSome_map] at hheld
        obtain ⟨task, htask⟩ := Option.isSome_iff_exists.mp hheld
        obtain ⟨i, htarget, hsome⟩ := task_enabled P path maxViewers htask
        refine ⟨.work i, trivial, ?_⟩
        simp [trackerMachine, htarget, hsome]
  | returned => exact absurd hphase hreturned
  | failed => exact absurd hphase hfailed

/-- Connections, handlers, refresh tasks, ends of connections and the shutdown in any order. In every state that is
reached, each handler has a next step of its own (no handler waits for the guard, a provider or another handler), and
it has taken twelve at most. Whatever the order, all steps but the clock's are at most twenty-one for each accepted
connection and three for the shutdown; and unless a time limit has failed the process already, it can go on to its
return without one, with every handler that has a request to answer coming to its own end. -/
theorem progress_law (P : Platform) (path : DbPath) (maxViewers : ℕ) {db : Database} {start : ℕ}
    {trace : List (Tracker × TrackerInput × TrackerAction)} {t : Tracker}
    (h : (trackerMachine P path maxViewers).traced.Run (.init db start) trace t) :
    (∀ connection handler, t.connections connection = some handler → ∃ input : TrackerInput,
      input.connection = some connection ∧ input.Unforced t ∧
        ((trackerMachine P path maxViewers).step t input).isSome = true) ∧
    (∀ connection, trace.countP (fun entry => decide (entry.2.1.connection = some connection)) ≤ 12) ∧
    trace.countP (fun entry => !entry.2.1.ticks) ≤ 21 * t.nextConnection + 3 ∧
    (t.phase ≠ .failed → ∃ inputs rest last,
      (trackerMachine P path maxViewers).traced.exec [] t inputs = some (rest, last) ∧ last.phase = .returned ∧
        ∀ entry ∈ rest, entry.2.1.Unforced entry.1) := by
  have hsound := Coherent.run h
  refine ⟨fun connection handler hold => hsound.enabled P path maxViewers hold, fun connection => ?_, ?_,
    fun hphase => ?_⟩
  · have hpaid := h.countP_le (fun input => decide (input.connection = some connection))
      (fun t => t.ownSteps connection) (fun _ => 0)
      fun _ _ _ _ _ hrun hs => (Coherent.run hrun).own_step connection hs
    have hstart : (Tracker.init db start).ownSteps connection = 12 := rfl
    simp only [hstart] at hpaid
    omega
  · have hpaid := h.countP_le (fun input => !input.ticks) Tracker.work (fun t => 21 * t.nextConnection)
      fun _ _ _ _ _ hrun hs => (Coherent.run hrun).work_step hs
    have hstart : (Tracker.init db start).work = 3 := rfl
    have hnone : (Tracker.init db start).nextConnection = 0 := rfl
    simp only [hstart, hnone] at hpaid
    omega
  · refine Machine.exists_exec (fun t => Coherent t ∧ t.phase ≠ .failed) Tracker.work ?_ t ⟨hsound, hphase⟩
    rintro s ⟨hs, hfailed⟩ hreturned
    obtain ⟨input, hinput, hsome⟩ := hs.progress P path maxViewers hfailed hreturned
    obtain ⟨⟨s', b⟩, hstep⟩ := Option.isSome_iff_exists.mp hsome
    obtain ⟨hlower, hkept⟩ := hs.unforced_step hinput hstep
    exact ⟨input, s', b, hinput, hstep, ⟨hs.step hstep, fun hnow => hfailed (hkept hnow)⟩, hlower⟩

/-- A shutdown that begins while a refresh asks its providers and a second read has just begun. -/
def lateShutdown : List TrackerInput :=
  [.accept, .request 0 (.presence ⟨"a", true, true⟩), .update 0, .start 0, .read 0 (.load 0 []),
    .read 0 (.count 0 1000), .read 0 (.copyReport 0), .read 0 (.decide 0), .read 0 (.loadGeneration 0),
    .read 0 (.begin 0), .read 0 (.spawn 0), .work (.recheckStopping 1), .work (.recheckViewers 1), .work (.dispatch 1),
    .accept, .request 1 .price, .start 1, .shutdown]

/-- It can come to its end without a time limit. -/
theorem progress_law_late_shutdown : ∃ trace t,
    (trackerMachine .plain ⟨none, "tracker.db"⟩ 1).traced.Run (.init (.current .empty seededHealth) 0) trace t ∧
      t.phase = .draining ∧ (t.server.tasks 1).isSome = true ∧ (t.server.reads 2).isSome = true ∧
      ∃ inputs rest last, (trackerMachine .plain ⟨none, "tracker.db"⟩ 1).traced.exec [] t inputs = some (rest, last) ∧
        last.phase = .returned ∧ ∀ entry ∈ rest, entry.2.1.Unforced entry.1 := by
  obtain ⟨trace, t, hrun, hphase, htask, hread⟩ : ∃ trace t,
      (trackerMachine .plain ⟨none, "tracker.db"⟩ 1).traced.Run (.init (.current .empty seededHealth) 0) trace t ∧
        t.phase = .draining ∧ (t.server.tasks 1).isSome = true ∧ (t.server.reads 2).isSome = true :=
    ⟨_, _, Machine.run_of_exec lateShutdown rfl, rfl, rfl, rfl⟩
  have hlaw := progress_law .plain _ 1 hrun
  exact ⟨trace, t, hrun, hphase, htask, hread, hlaw.2.2.2 (by simp [hphase])⟩

end Runs

end BitcoinPriceTracker

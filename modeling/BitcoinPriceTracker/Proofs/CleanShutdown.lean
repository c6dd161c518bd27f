import BitcoinPriceTracker.Model.Lifecycle
import BitcoinPriceTracker.Proofs.SingleFlight

namespace BitcoinPriceTracker

variable {P : Platform} {path : DbPath} {maxViewers : ℕ} {s s' : Server} {a : ServerAction} {i : ServerInput}
  {history : List ServerAction} {db : Database} {start : ℕ}

lemma task_life (hs : ServerStep P path maxViewers s a s') (id : ℕ) :
    (a.actor = some (.task id) ∧ s'.nextId = s.nextId ∧ (∃ task, s.tasks id = some task ∧
        (task.point = .spawned ∨ ∀ plan, a ≠ .stoppingSeen id plan)) ∧
      (∀ plan, a = .stoppingSeen id plan → s'.tasks id = none) ∧
      ∀ task, s'.tasks id = some task → task.point ≠ .spawned) ∨
    (a.actor ≠ some (.task id) ∧ s.nextId ≤ s'.nextId ∧
      (s'.tasks id = s.tasks id ∨ s.nextId = id ∧ id < s'.nextId)) := by
  cases hs with
  | readOwner | readReader => exact .inr ⟨by simp [ServerAction.actor], by simp, .inl rfl⟩
  | @spawned _ seen plan =>
    refine .inr ⟨by simp [ServerAction.actor], by simp [Server.spawnTask], ?_⟩
    by_cases hid : s.nextId = id
    · exact .inr ⟨hid, by simp [Server.spawnTask, ← hid]⟩
    · exact .inl (by simp [Server.spawnTask, Ne.symm hid])
  | @notStopping other task htask hpoint | @viewersSeen other task htask hpoint | @requested other task htask hpoint
  | @collected other task _ _ htask hpoint | @stored other task _ _ _ _ _ _ htask hpoint
  | @completed other task _ _ _ _ htask hpoint | @published other task _ htask hpoint
  | @noViewers other task htask hpoint | @completionUnwound other task _ _ _ _ htask hpoint
  | @released other task htask hpoint =>
    by_cases hid : id = other
    · subst hid
      exact .inl ⟨rfl, rfl, ⟨task, htask, .inr (by simp)⟩, by simp, by simp⟩
    · exact .inr ⟨by simpa [ServerAction.actor] using Ne.symm hid, le_rfl, .inl (by simp [hid])⟩
  | @stoppingSeen other task htask hpoint =>
    by_cases hid : id = other
    · subst hid
      exact .inl ⟨rfl, rfl, ⟨task, htask, .inl hpoint⟩, by simp, by simp⟩
    · exact .inr ⟨by simpa [ServerAction.actor] using Ne.symm hid, le_rfl, .inl (by simp [hid])⟩
  | _ => exact .inr ⟨by simp [ServerAction.actor], le_rfl, .inl rfl⟩

/-- A task looks at the stop flag once, before anything else. -/
structure Rechecked (history : List ServerAction) (s : Server) : Prop where
  fresh : ∀ id, s.nextId ≤ id → s.tasks id = none ∧ ∀ b ∈ history, b.actor ≠ some (.task id)
  waiting : ∀ id task, s.tasks id = some task → task.point = .spawned → ∀ b ∈ history, b.actor ≠ some (.task id)
  ended : ∀ id plan, .stoppingSeen id plan ∈ history → s.tasks id = none

lemma Rechecked.step (h : Rechecked history s) (hs : ServerStep P path maxViewers s a s') :
    Rechecked (a :: history) s' := by
  refine ⟨fun id hid => ?_, fun id task htask hpoint => ?_, fun id plan hmem => ?_⟩
  · rcases task_life hs id with ⟨_, hnext, ⟨task, htask, _⟩, _⟩ | ⟨ha, hnext, htasks⟩
    · rw [(h.fresh id (by omega)).1] at htask
      cases htask
    · obtain ⟨hnone, hquiet⟩ := h.fresh id (by omega)
      refine ⟨?_, List.forall_mem_cons.mpr ⟨ha, hquiet⟩⟩
      rcases htasks with hsame | ⟨_, hlt⟩
      · rw [hsame, hnone]
      · omega
  · rcases task_life hs id with ⟨_, _, _, _, hpast⟩ | ⟨ha, hnext, htasks⟩
    · exact absurd hpoint (hpast task htask)
    · refine List.forall_mem_cons.mpr ⟨ha, ?_⟩
      rcases htasks with hsame | ⟨rfl, _⟩
      · exact h.waiting id task (hsame ▸ htask) hpoint
      · exact (h.fresh _ le_rfl).2
  · rcases task_life hs id with ⟨ha, _, ⟨task, htask, _⟩, hended, _⟩ | ⟨ha, _, htasks⟩
    · rcases List.mem_cons.mp hmem with rfl | hmem
      · exact hended plan rfl
      · rw [h.ended id plan hmem] at htask
        cases htask
    · rcases List.mem_cons.mp hmem with rfl | hmem
      · simp [ServerAction.actor] at ha
      · rcases htasks with hsame | ⟨rfl, _⟩
        · rw [hsame, h.ended id plan hmem]
        · exact absurd rfl ((h.fresh _ le_rfl).2 _ hmem)

theorem Rechecked.run (h : (serverMachine P path maxViewers).Run (.init db start) history s) : Rechecked history s :=
  h.invariant (P := fun history s => Rechecked history s)
    ⟨fun id _ => ⟨rfl, by simp⟩, fun id task htask => by simp [Server.init] at htask, by simp⟩
    fun _ _ _ _ _ _ ih hs => ih.step (server_step hs)

lemma stoppingSeen_silent (h : (serverMachine P path maxViewers).Run (.init db start) history s) {task : ℕ}
    {plan : RefreshPlan} (hseen : .stoppingSeen task plan ∈ history) (sources : List UpstreamSource) (now : ℕ) :
    .requested task sources now ∉ history := by
  revert hseen
  refine h.invariant (P := fun history _ => .stoppingSeen task plan ∈ history → .requested task sources now ∉ history)
    (by simp) ?_
  intro history s i s' a hrun ih hs hseen hrequested
  have hrechecked := Rechecked.run hrun
  rcases List.mem_cons.mp hseen with rfl | hbefore
  · rcases task_life (server_step hs) task with ⟨_, _, ⟨running, htask, hpoint⟩, _⟩ | ⟨ha, _⟩
    · have hspawned := hpoint.resolve_right fun hnot => hnot plan rfl
      rcases List.mem_cons.mp hrequested with heq | hrequested
      · cases heq
      · exact hrechecked.waiting task running htask hspawned _ hrequested rfl
    · simp [ServerAction.actor] at ha
  · rcases List.mem_cons.mp hrequested with rfl | hrequested
    · rcases task_life (server_step hs) task with ⟨_, _, ⟨running, htask, _⟩, _⟩ | ⟨ha, _⟩
      · rw [hrechecked.ended task plan hbefore] at htask
        cases htask
      · simp [ServerAction.actor] at ha
    · exact ih hbefore hrequested

/-- The transaction of the batch is over and its plan completed. -/
def Finished (newer : List ServerAction) (task : ℕ) : Prop :=
  (∃ latest batch result, .stored task latest batch result ∈ newer) ∧
    ∃ plan failures now nowUnix, .completed task plan failures now nowUnix ∈ newer

/-- The batch of a task is on its way. -/
def Flight.Batch (newer : List ServerAction) (task : ℕ) : Flight → Prop
  | running id _ .fetching | running id _ (.storing _ _) => id = task
  | running id _ (.completing _ _) => id = task ∧ ∃ latest batch result, .stored task latest batch result ∈ newer
  | _ => False

lemma Finished.mono {newer : List ServerAction} {task : ℕ} (h : Finished newer task) (a : ServerAction) :
    Finished (a :: newer) task := by
  obtain ⟨⟨latest, batch, result, hstored⟩, plan, failures, now, nowUnix, hcompleted⟩ := h
  exact ⟨⟨latest, batch, result, List.mem_cons_of_mem _ hstored⟩,
    plan, failures, now, nowUnix, List.mem_cons_of_mem _ hcompleted⟩

lemma FlightStep.batch {flight flight' : Option Flight} {newer : List ServerAction} {task : ℕ}
    (hs : FlightStep flight a flight') (ha : ∀ id plan now, a ≠ .completionUnwound id plan now)
    (h : Finished newer task ∨ ∃ f, flight = some f ∧ f.Batch newer task) :
    Finished (a :: newer) task ∨ ∃ f, flight' = some f ∧ f.Batch (a :: newer) task := by
  rcases h with hfinished | ⟨f, rfl, hbatch⟩
  · exact .inl (hfinished.mono a)
  · cases hs with
    | other =>
      refine .inr ⟨f, rfl, ?_⟩
      rcases f with ⟨read, plan⟩ | ⟨id, plan, point⟩
      · exact hbatch
      · cases point with
        | completing =>
          obtain ⟨rfl, latest, batch, result, hstored⟩ := hbatch
          exact ⟨rfl, latest, batch, result, List.mem_cons_of_mem _ hstored⟩
        | _ => exact hbatch
    | collected => exact .inr ⟨_, rfl, hbatch⟩
    | stored =>
      obtain rfl : _ = task := hbatch
      exact .inr ⟨_, rfl, rfl, _, _, _, List.mem_cons_self⟩
    | completed =>
      obtain ⟨rfl, latest, batch, result, hstored⟩ := hbatch
      exact .inl ⟨⟨latest, batch, result, List.mem_cons_of_mem _ hstored⟩, _, _, _, _, List.mem_cons_self⟩
    | completionUnwound => exact absurd rfl (ha _ _ _)
    | _ => exact hbatch.elim

lemma requested_finished (h : (serverMachine P path maxViewers).Run (.init db start) history s)
    (hpanic : ∀ id plan now, .completionUnwound id plan now ∉ history) :
    ∀ newer older task sources now, history = newer ++ .requested task sources now :: older →
      Finished newer task ∨ ∃ f, s.flight = some f ∧ f.Batch newer task := by
  revert hpanic
  refine h.invariant (P := fun history s => (∀ id plan now, .completionUnwound id plan now ∉ history) →
    ∀ newer older task sources now, history = newer ++ .requested task sources now :: older →
      Finished newer task ∨ ∃ f, s.flight = some f ∧ f.Batch newer task) ?_ ?_
  · intro _ newer older task sources now hhistory
    simp at hhistory
  · intro history s i s' a hrun ih hs hpanic newer older task sources now hhistory
    have hflight := flight_step (Exclusive.run hrun) (server_step hs)
    cases newer with
    | nil =>
      obtain ⟨rfl, rfl⟩ := List.cons.inj hhistory
      generalize s.flight = flight at hflight
      generalize s'.flight = flight' at hflight ⊢
      cases hflight with
      | other ha => simp [ServerAction.ofPlan] at ha
      | requested => exact .inr ⟨_, rfl, rfl⟩
    | cons b newer =>
      obtain ⟨rfl, rfl⟩ := List.cons.inj hhistory
      refine hflight.batch (fun id plan now heq => hpanic id plan now (heq ▸ List.mem_cons_self)) ?_
      exact ih (fun id plan now hmem => hpanic id plan now (List.mem_cons_of_mem _ hmem)) newer older task sources
        now rfl

lemma reads_kept (hexclusive : Exclusive s) (hs : ServerStep P path maxViewers s a s') {id : ℕ}
    (ha : a.reader ≠ some id) : s'.reads id = s.reads id := by
  have hlife := read_life hexclusive hs id
  generalize s.reads id = old at hlife
  generalize s'.reads id = new at hlife
  cases hlife with
  | other => rfl
  | _ => simp [ServerAction.reader] at ha

lemma stopping_step (hs : ServerStep P path maxViewers s a s') (h : s.stopping = true ∨ a = .stopped) :
    s'.stopping = true := by
  cases hs with
  | stopped => rfl
  | _ => exact h.resolve_right (by simp)

lemma notStopping_step {task : ℕ} (hs : ServerStep P path maxViewers s (.notStopping task) s') :
    s.stopping = false := by
  cases hs with
  | notStopping _ _ hnot => exact hnot

lemma reader_of_read {id : ℕ} (ha : a.actor = some (.read id)) : a.reader = some id := by
  cases a <;> simp_all [ServerAction.actor, ServerAction.reader]

lemma reader_of_task {id : ℕ} (ha : a.actor = some (.task id)) : a.reader = none := by
  cases a <;> simp_all [ServerAction.actor, ServerAction.reader]

/-- What the tracker does, with what the invariants need of it. -/
inductive TrackerStep (P : Platform) (path : DbPath) (maxViewers : ℕ) (t : Tracker) : TrackerAction → Tracker → Prop
  | advanced {now : ℕ} {news : News.State} (hnow : t.server.now ≤ now) :
    TrackerStep P path maxViewers t (.server (.advanced now)) { t with server := { t.server with now }, news }
  | worked {i : ServerInput} {task : ℕ} {server : Server} {a : ServerAction} (ha : a.actor = some (.task task))
      (hs : (serverMachine P path maxViewers).step t.server i = some (server, a)) :
    TrackerStep P path maxViewers t (.server a) { t with server }
  | newsWorked {news : News.State} {a : News.Action} :
    TrackerStep P path maxViewers t (.news a) { t with news }
  | accepted (hphase : t.phase = .accepting) :
    TrackerStep P path maxViewers t (.accepted t.nextConnection)
      ({ t with nextConnection := t.nextConnection + 1 }.setConnection t.nextConnection (some .waiting))
  | moved {connection : ℕ} {old : Handler} {new : Option Handler} {news : News.State} {b : TrackerAction}
      (hold : t.connections connection = some old) (hidle : ∀ id activeViewers, old ≠ .reading id activeViewers)
      (hb : ∀ a, b ≠ .server a ∧ b ≠ .stopSet ∧ b ≠ .returned) :
    TrackerStep P path maxViewers t b ({ t with news }.setConnection connection new)
  | updated {connection : ℕ} {new : Handler} {payload : PresencePayload} {server : Server} {a : ServerAction}
      (hold : t.connections connection = some (.updating payload))
      (hs : (serverMachine P path maxViewers).step t.server (.presence payload) = some (server, a)) :
    TrackerStep P path maxViewers t (.server a) ({ t with server }.setConnection connection (some new))
  | started {connection : ℕ} {activeViewers : Option ℕ} {server : Server} {a : ServerAction}
      (hold : t.connections connection = some (.starting activeViewers))
      (hs : (serverMachine P path maxViewers).step t.server .read = some (server, a)) :
    TrackerStep P path maxViewers t (.server a)
      ({ t with server }.setConnection connection (some (.reading t.server.nextId activeViewers)))
  | read {connection id : ℕ} {activeViewers : Option ℕ} {i : ServerInput} {new : Option Handler} {server : Server}
      {a : ServerAction} (hold : t.connections connection = some (.reading id activeViewers))
      (ha : a.actor = some (.read id)) (hs : (serverMachine P path maxViewers).step t.server i = some (server, a))
      (hnew : ∀ point, server.reads id = some point → new = some (.reading id activeViewers)) :
    TrackerStep P path maxViewers t (.server a) ({ t with server }.setConnection connection new)
  | stopSet (hphase : t.phase = .accepting) :
    TrackerStep P path maxViewers t .stopSet { t with server := { t.server with stopping := true }, phase := .draining }
  | drained (hphase : t.phase = .draining) (hidle : t.idle = true) :
    TrackerStep P path maxViewers t .drained { t with phase := .locking }
  | failed (hphase : t.phase = .draining ∨ t.phase = .locking) :
    TrackerStep P path maxViewers t .failed { t with phase := .failed }
  | returned (hphase : t.phase = .locking) (howner : t.server.owner = none) :
    TrackerStep P path maxViewers t .returned { t with phase := .returned }

variable {t t' : Tracker} {b : TrackerAction}

lemma afterRead_reading (hs : ServerStep P path maxViewers s a s') {id : ℕ} {activeViewers : Option ℕ}
    (ha : a.actor = some (.read id)) (point : ReadPoint) (hread : s'.reads id = some point) :
    Tracker.afterRead id activeViewers a = some (.reading id activeViewers) := by
  cases hs with
  | responded | beginUnwound =>
    obtain rfl : _ = id := by simpa [ServerAction.actor] using ha
    simp at hread
  | _ => rfl

lemma dropHandler_step {connection : ℕ} {handler : Handler} {left : Option Handler}
    (hold : t.connections connection = some handler)
    (h : t.dropHandler (serverMachine P path maxViewers).step connection left handler = some (t', b)) :
    TrackerStep P path maxViewers t b t' := by
  cases handler with
  | starting => simp [Tracker.dropHandler] at h
  | reading id =>
    obtain ⟨⟨server, a⟩, hs, heq⟩ := Option.map_eq_some_iff.mp h
    cases heq
    refine .read hold (actor_of_step hs) hs fun point hread => ?_
    obtain ⟨_, _, hstep⟩ := Option.bind_eq_some_iff.mp hs
    simp only [Server.readStep] at hstep
    split at hstep <;> cases hstep <;> simp at hread
  | news reader =>
    obtain ⟨⟨news, a⟩, hs, heq⟩ := Option.map_eq_some_iff.mp h
    cases heq
    exact .moved hold (by simp) (by simp)
  | waiting | updating | checking | other | answering =>
    cases h
    exact .moved hold (by simp) (by simp)

lemma route_step {connection : ℕ} {route : Request} (hold : t.connections connection = some .waiting)
    (h : t.route connection route = some (t', b)) : TrackerStep P path maxViewers t b t' := by
  cases route with
  | news =>
    obtain ⟨rfl, rfl⟩ := Prod.mk.inj (Option.some.inj h)
    exact .moved hold (by simp) (by simp)
  | price | presence | health | other =>
    cases h
    exact .moved hold (by simp) (by simp)

lemma TrackerStep.ofAdvance {now : ℕ} (h : (trackerMachine P path maxViewers).step t (.advance now) = some (t', b)) :
    TrackerStep P path maxViewers t b t' := by
  obtain ⟨⟨server, a⟩, hs, hnews⟩ := Option.bind_eq_some_iff.mp h
  obtain ⟨⟨news, c⟩, _, heq⟩ := Option.map_eq_some_iff.mp hnews
  cases heq
  simp only [serverMachine] at hs
  split at hs <;> cases hs
  exact .advanced (by assumption)

lemma TrackerStep.ofUpdate {connection : ℕ}
    (h : (trackerMachine P path maxViewers).step t (.update connection) = some (t', b)) :
    TrackerStep P path maxViewers t b t' := by
  simp only [trackerMachine] at h
  split at h
  · next payload hold =>
    obtain ⟨⟨server, a⟩, hs, heq⟩ := Option.map_eq_some_iff.mp h
    cases heq
    exact .updated hold hs
  · simp at h

lemma TrackerStep.ofStart {connection : ℕ}
    (h : (trackerMachine P path maxViewers).step t (.start connection) = some (t', b)) :
    TrackerStep P path maxViewers t b t' := by
  simp only [trackerMachine] at h
  split at h
  · next hold =>
    obtain ⟨⟨server, a⟩, hs, heq⟩ := Option.map_eq_some_iff.mp h
    cases heq
    exact .started hold hs
  · simp at h

lemma TrackerStep.ofRead {connection : ℕ} {i : ServerInput}
    (h : (trackerMachine P path maxViewers).step t (.read connection i) = some (t', b)) :
    TrackerStep P path maxViewers t b t' := by
  simp only [trackerMachine] at h
  split at h
  · next id activeViewers hold =>
    split at h
    · next hi =>
      obtain ⟨⟨server, a⟩, hs, heq⟩ := Option.map_eq_some_iff.mp h
      cases heq
      have ha := (actor_of_step hs).trans hi.1
      exact .read hold ha hs (afterRead_reading (server_step hs) ha)
    · simp at h
  · simp at h

lemma TrackerStep.ofReadNews {connection : ℕ}
    (h : (trackerMachine P path maxViewers).step t (.readNews connection) = some (t', b)) :
    TrackerStep P path maxViewers t b t' := by
  simp only [trackerMachine] at h
  split at h
  · next reader hold =>
    obtain ⟨⟨news, a⟩, hs, heq⟩ := Option.map_eq_some_iff.mp h
    cases heq
    exact .moved hold (by simp) (by simp)
  · simp at h

lemma TrackerStep.ofWork {i : ServerInput} (h : (trackerMachine P path maxViewers).step t (.work i) = some (t', b)) :
    TrackerStep P path maxViewers t b t' := by
  simp only [trackerMachine] at h
  split at h
  · next task hi =>
    obtain ⟨⟨server, a⟩, hs, heq⟩ := Option.map_eq_some_iff.mp h
    cases heq
    exact .worked ((actor_of_step hs).trans hi) hs
  · simp at h

lemma TrackerStep.ofNewsWork {i : News.Input}
    (h : (trackerMachine P path maxViewers).step t (.newsWork i) = some (t', b)) :
    TrackerStep P path maxViewers t b t' := by
  simp only [trackerMachine] at h
  split at h
  · obtain ⟨⟨news, a⟩, hs, heq⟩ := Option.map_eq_some_iff.mp h
    cases heq
    exact .newsWorked
  · simp at h

lemma TrackerStep.ofDrained (h : (trackerMachine P path maxViewers).step t .drained = some (t', b)) :
    TrackerStep P path maxViewers t b t' := by
  simp only [trackerMachine] at h
  split at h
  · next hboth =>
    cases h
    exact .drained hboth.1 hboth.2
  · simp at h

lemma TrackerStep.ofLock (h : (trackerMachine P path maxViewers).step t .lock = some (t', b)) :
    TrackerStep P path maxViewers t b t' := by
  simp only [trackerMachine] at h
  split at h
  · next hboth =>
    cases h
    exact .returned hboth.1 hboth.2
  · simp at h

lemma tracker_step {input : TrackerInput}
    (h : (trackerMachine P path maxViewers).step t input = some (t', b)) : TrackerStep P path maxViewers t b t' := by
  cases input with
  | advance => exact .ofAdvance h
  | accept =>
    simp only [trackerMachine] at h
    split at h <;> cases h
    exact .accepted (by assumption)
  | request connection route =>
    simp only [trackerMachine] at h
    split at h
    · exact route_step (by assumption) h
    · simp at h
  | refuse connection busy | check connection F | answer connection =>
    simp only [trackerMachine] at h
    split at h <;> cases h
    exact .moved (by assumption) (by simp) (by simp)
  | update => exact .ofUpdate h
  | start => exact .ofStart h
  | read => exact .ofRead h
  | readNews => exact .ofReadNews h
  | expire connection =>
    obtain ⟨handler, hold, hexpire⟩ := Option.bind_eq_some_iff.mp h
    split at hexpire
    · exact dropHandler_step hold hexpire
    · simp at hexpire
  | close connection =>
    obtain ⟨handler, hold, hclose⟩ := Option.bind_eq_some_iff.mp h
    exact dropHandler_step hold hclose
  | work => exact .ofWork h
  | newsWork => exact .ofNewsWork h
  | shutdown =>
    simp only [trackerMachine] at h
    split at h <;> cases h
    exact .stopSet (by assumption)
  | drained => exact .ofDrained h
  | drainTimeout =>
    simp only [trackerMachine] at h
    split at h <;> cases h
    exact .failed (.inl (by assumption))
  | lock => exact .ofLock h
  | lockTimeout =>
    simp only [trackerMachine] at h
    split at h <;> cases h
    exact .failed (.inr (by assumption))

/-- The step of the server in a step of the process. -/
def serverView : TrackerAction → Option ServerAction
  | .server a => some a
  | .stopSet => some .stopped
  | _ => none

lemma mem_serverView {b : ServerAction} {history : List TrackerAction} (h : b ∈ history.filterMap serverView) :
    b = .stopped ∨ .server b ∈ history := by
  obtain ⟨c, hc, hview⟩ := List.mem_filterMap.mp h
  cases c with
  | server a => exact .inr (Option.some.inj hview ▸ hc)
  | stopSet => exact .inl (Option.some.inj hview).symm
  | _ => simp [serverView] at hview

section Process

variable {history : List TrackerAction}

lemma TrackerStep.view (hs : TrackerStep P path maxViewers t b t') :
    match serverView b with
    | some a => ∃ i, (serverMachine P path maxViewers).step t.server i = some (t'.server, a)
    | none => t'.server = t.server := by
  cases hs with
  | @advanced now _ hnow => exact ⟨.advance now, if_pos hnow⟩
  | worked _ hs | updated _ hs | started _ hs | read _ _ hs => exact ⟨_, hs⟩
  | moved _ _ hb =>
    cases b with
    | server a => exact absurd rfl (hb a).1
    | stopSet => exact absurd rfl (hb .stopped).2.1
    | _ => rfl
  | stopSet => exact ⟨.stop, rfl⟩
  | newsWorked | accepted | drained | failed | returned => rfl

/-- What the server does in a run of the process is a run of the server. -/
theorem tracker_refines (h : (trackerMachine P path maxViewers).Run (.init db start) history t) :
    (serverMachine P path maxViewers).Run (.init db start) (history.filterMap serverView) t.server := by
  have hrefines := h.refines (N := serverMachine P path maxViewers) (.init db start) serverView
    (fun _ t s => t.server = s) rfl
    (by
      rintro older t input t' b _ _ rfl hs
      have hview := (tracker_step hs).view
      cases hb : serverView b with
      | none =>
        rw [hb] at hview
        exact hview
      | some a =>
        rw [hb] at hview
        obtain ⟨i, hserver⟩ := hview
        exact ⟨i, t'.server, hserver, rfl⟩)
  obtain ⟨_, hrun, rfl⟩ := hrefines
  exact hrun

structure Connected (t : Tracker) : Prop where
  reads : ∀ id point, t.server.reads id = some point →
    ∃ connection activeViewers, t.connections connection = some (.reading id activeViewers)
  fresh : ∀ connection, t.nextConnection ≤ connection → t.connections connection = none
  quiet : t.phase = .locking ∨ t.phase = .returned → ∀ connection, t.connections connection = none
  released : t.phase = .returned → t.server.owner = none

lemma Connected.setConnection (h : Connected t) {connection : ℕ} {old : Handler} {new : Option Handler}
    (server : Server) (news : News.State) (hold : t.connections connection = some old)
    (hreads : ∀ id point, server.reads id = some point → (∃ activeViewers, new = some (.reading id activeViewers)) ∨
      (∀ activeViewers, old ≠ .reading id activeViewers) ∧ ∃ point, t.server.reads id = some point) :
    Connected ({ t with server, news }.setConnection connection new) := by
  have hopen : ¬(t.phase = .locking ∨ t.phase = .returned) := by
    intro hphase
    rw [h.quiet hphase connection] at hold
    cases hold
  refine ⟨fun id point hread => ?_, fun other hother => ?_, fun hphase => absurd hphase hopen,
    fun hphase => absurd (.inr hphase) hopen⟩
  · rcases hreads id point hread with ⟨activeViewers, rfl⟩ | ⟨hne, point', hbefore⟩
    · exact ⟨connection, activeViewers, by simp [Tracker.setConnection]⟩
    · obtain ⟨other, activeViewers, hother⟩ := h.reads id point' hbefore
      have hdistinct : other ≠ connection := by
        rintro rfl
        exact hne activeViewers (Option.some.inj (hold.symm.trans hother))
      exact ⟨other, activeViewers, by simp [Tracker.setConnection, hdistinct, hother]⟩
  · have hnone := h.fresh other hother
    have hdistinct : other ≠ connection := by
      rintro rfl
      rw [hnone] at hold
      cases hold
    simpa [Tracker.setConnection, hdistinct] using hnone

lemma Connected.step (h : Connected t) (hexclusive : Exclusive t.server) (hs : TrackerStep P path maxViewers t b t') :
    Connected t' := by
  cases hs with
  | advanced | newsWorked => exact ⟨h.reads, h.fresh, h.quiet, h.released⟩
  | @worked _ task server a ha hs =>
    refine ⟨fun id point hread => ?_, h.fresh, h.quiet, fun hphase => ?_⟩
    · rw [reads_kept hexclusive (server_step hs) (by simp [reader_of_task ha])] at hread
      exact h.reads id point hread
    · rcases task_life (server_step hs) task with ⟨_, _, ⟨running, htask, _⟩, _⟩ | ⟨hne, _⟩
      · have howner := hexclusive.tasks task running htask
        rw [h.released hphase] at howner
        cases howner
      · exact absurd ha hne
  | accepted hphase =>
    refine ⟨fun id point hread => ?_, fun other hother => ?_, fun hstopped => ?_, fun hstopped => ?_⟩
    · obtain ⟨connection, activeViewers, hconnection⟩ := h.reads id point hread
      have hdistinct : connection ≠ t.nextConnection := by
        rintro rfl
        rw [h.fresh _ le_rfl] at hconnection
        cases hconnection
      exact ⟨connection, activeViewers, by simp [Tracker.setConnection, hdistinct, hconnection]⟩
    · have hle : t.nextConnection + 1 ≤ other := hother
      simpa [Tracker.setConnection, show other ≠ t.nextConnection by omega] using h.fresh other (by omega)
    · simp [Tracker.setConnection, hphase] at hstopped
    · simp [Tracker.setConnection, hphase] at hstopped
  | moved hold hidle =>
    exact h.setConnection t.server _ hold fun id point hread => .inr ⟨hidle id, point, hread⟩
  | updated hold hs =>
    refine h.setConnection _ t.news hold fun id point hread => .inr ⟨by simp, point, ?_⟩
    simp only [serverMachine, Server.updatePresence, Option.some.injEq] at hs
    split at hs <;> cases hs <;> exact hread
  | @started connection activeViewers server a hold hs =>
    refine h.setConnection _ t.news hold fun id point hread => ?_
    simp only [serverMachine, Server.beginRead, Option.some.injEq] at hs
    by_cases hid : id = t.server.nextId
    · exact .inl ⟨activeViewers, by rw [hid]⟩
    · refine .inr ⟨by simp, point, ?_⟩
      split at hs <;> cases hs <;> simpa [hid] using hread
  | @read connection other activeViewers _ _ _ _ hold ha hs hnew =>
    refine h.setConnection _ t.news hold fun id point hread => ?_
    by_cases hid : id = other
    · subst hid
      exact .inl ⟨activeViewers, hnew point hread⟩
    · refine .inr ⟨fun _ => by simpa using fun heq => absurd heq.symm hid, point, ?_⟩
      rwa [reads_kept hexclusive (server_step hs) (by simpa [reader_of_read ha] using Ne.symm hid)] at hread
  | stopSet => exact ⟨h.reads, h.fresh, by simp, by simp⟩
  | drained _ hidle =>
    refine ⟨h.reads, h.fresh, fun _ connection => ?_, by simp⟩
    by_cases hlt : connection < t.nextConnection
    · exact Option.isNone_iff_eq_none.mp (List.all_eq_true.mp hidle connection (List.mem_range.mpr hlt))
    · exact h.fresh connection (by omega)
  | failed => exact ⟨h.reads, h.fresh, by simp, by simp⟩
  | returned hphase howner => exact ⟨h.reads, h.fresh, fun _ => h.quiet (.inl hphase), fun _ => howner⟩

theorem Connected.run (h : (trackerMachine P path maxViewers).Run (.init db start) history t) : Connected t :=
  h.invariant (P := fun _ t => Connected t)
    ⟨fun id point hread => by simp [Tracker.init, Server.init] at hread, fun _ _ => rfl, fun _ _ => rfl, fun _ => rfl⟩
    fun _ _ _ _ _ hrun ih hs => ih.step (Exclusive.run (tracker_refines hrun)) (tracker_step hs)

/-- What can still happen after the return: the clock moves, and a refresh of the news ends. -/
def TrackerAction.afterReturn : TrackerAction → Prop
  | server a => ∃ now, a = .advanced now
  | news _ => True
  | _ => False

lemma Connected.returned_step (h : Connected t) (hexclusive : Exclusive t.server) (hphase : t.phase = .returned)
    (hs : TrackerStep P path maxViewers t b t') : b.afterReturn ∧ t'.phase = .returned := by
  have hquiet := h.quiet (.inr hphase)
  cases hs with
  | advanced => exact ⟨⟨_, rfl⟩, hphase⟩
  | newsWorked => exact ⟨trivial, hphase⟩
  | @worked _ task server a ha hs =>
    rcases task_life (server_step hs) task with ⟨_, _, ⟨running, htask, _⟩, _⟩ | ⟨hne, _⟩
    · have howner := hexclusive.tasks task running htask
      rw [h.released hphase] at howner
      cases howner
    · exact absurd ha hne
  | moved hold | updated hold | started hold | read hold => simp [hquiet] at hold
  | accepted hother | stopSet hother | drained hother | failed hother | returned hother => simp [hphase] at hother

lemma returned_quiet (h : (trackerMachine P path maxViewers).Run (.init db start) history t) :
    ∀ newer older, history = newer ++ .returned :: older →
      t.phase = .returned ∧ ∀ b ∈ newer, b.afterReturn := by
  refine h.invariant (P := fun history t => ∀ newer older, history = newer ++ .returned :: older →
    t.phase = .returned ∧ ∀ b ∈ newer, b.afterReturn) (by simp) ?_
  intro history t input t' b hrun ih hs newer older hhistory
  cases newer with
  | nil =>
    obtain ⟨rfl, rfl⟩ := List.cons.inj hhistory
    cases tracker_step hs with
    | returned => exact ⟨rfl, by simp⟩
    | moved _ _ hb => exact absurd rfl (hb .stopped).2.2
  | cons c newer =>
    obtain ⟨rfl, rfl⟩ := List.cons.inj hhistory
    obtain ⟨hphase, hafter⟩ := ih newer older rfl
    obtain ⟨hadvanced, hreturned⟩ :=
      (Connected.run hrun).returned_step (Exclusive.run (tracker_refines hrun)) hphase (tracker_step hs)
    exact ⟨hreturned, List.forall_mem_cons.mpr ⟨hadvanced, hafter⟩⟩

lemma stopSet_stopping (h : (trackerMachine P path maxViewers).Run (.init db start) history t) :
    .stopSet ∈ history → t.server.stopping = true := by
  refine h.invariant (P := fun history t => .stopSet ∈ history → t.server.stopping = true) (by simp) ?_
  intro history t input t' b _ ih hs hmem
  have hview := (tracker_step hs).view
  rcases List.mem_cons.mp hmem with rfl | hmem
  · obtain ⟨i, hserver⟩ := hview
    exact stopping_step (server_step hserver) (.inr rfl)
  · have hstopping := ih hmem
    cases hb : serverView b with
    | none =>
      rw [hb] at hview
      exact hview ▸ hstopping
    | some a =>
      rw [hb] at hview
      obtain ⟨i, hserver⟩ := hview
      exact stopping_step (server_step hserver) (.inl hstopping)

/-- The look at the flag that comes before a request comes before the flag is set. -/
lemma requested_before_stop (h : (trackerMachine P path maxViewers).Run (.init db start) history t)
    {newer older : List TrackerAction} {task now : ℕ} {sources : List UpstreamSource}
    (hhistory : history = newer ++ .server (.requested task sources now) :: older) :
    ∃ middle earlier, older = middle ++ .server (.notStopping task) :: earlier ∧ .stopSet ∉ earlier := by
  subst hhistory
  obtain ⟨before, _, after, hbefore, hs, _⟩ := h.event
  obtain ⟨i, hserver⟩ := (tracker_step hs).view
  obtain ⟨middle, earlier, _, _, _, _, _, holder, hsublist, _⟩ := requested_after (tracker_refines hbefore) hserver
  have hmem : .notStopping task ∈ older.filterMap serverView := by
    rw [holder]
    exact List.mem_append_right _ (List.mem_cons_of_mem _ (hsublist.subset List.mem_cons_self))
  obtain ⟨later, first, rfl⟩ := List.append_of_mem ((mem_serverView hmem).resolve_left (by simp))
  refine ⟨later, first, rfl, fun hset => ?_⟩
  obtain ⟨looking, _, _, hlooking, hlook, _⟩ := hbefore.event
  obtain ⟨j, hlooked⟩ := (tracker_step hlook).view
  have hstopping := stopSet_stopping hlooking hset
  simp [notStopping_step (server_step hlooked)] at hstopping

/-- Connections, handlers, refresh tasks, ends of connections and the shutdown in any order, without a panic of
a refresh task. Where `serve_tracker_until` returns `Ok`, no handler runs, nobody holds the guard, no refresh
task is left, and every batch with a request has ended its transaction and is completed; from then on the
server only sees the clock move. A task that issues a request has looked at the stop flag before it was set, and
a task that saw it set issues none. -/
theorem clean_shutdown_law (P : Platform) (path : DbPath) (maxViewers : ℕ) {db : Database} {start : ℕ}
    {history : List TrackerAction} {t : Tracker}
    (h : (trackerMachine P path maxViewers).Run (.init db start) history t)
    (hpanic : ∀ task plan now, .server (.completionUnwound task plan now) ∉ history) :
    (∀ newer older, history = newer ++ .returned :: older →
      (∀ connection, t.connections connection = none) ∧ (∀ id, t.server.reads id = none) ∧
      t.server.owner = none ∧ (∀ task, t.server.tasks task = none) ∧
      (∀ later earlier task sources now, older = later ++ .server (.requested task sources now) :: earlier →
        (∃ latest batch result, .server (.stored task latest batch result) ∈ later) ∧
        ∃ plan failures at' nowUnix, .server (.completed task plan failures at' nowUnix) ∈ later) ∧
      ∀ b ∈ newer, b.afterReturn) ∧
    (∀ newer older task sources now, history = newer ++ .server (.requested task sources now) :: older →
      ∃ middle earlier, older = middle ++ .server (.notStopping task) :: earlier ∧ .stopSet ∉ earlier) ∧
    ∀ task plan, .server (.stoppingSeen task plan) ∈ history →
      ∀ sources now, .server (.requested task sources now) ∉ history := by
  refine ⟨fun newer older hhistory => ?_, fun _ _ _ _ _ => requested_before_stop h, ?_⟩
  · obtain ⟨hphase, hafter⟩ := returned_quiet h newer older hhistory
    have hconnected := Connected.run h
    have hexclusive := Exclusive.run (tracker_refines h)
    have hquiet := hconnected.quiet (.inr hphase)
    have howner := hconnected.released hphase
    refine ⟨hquiet, fun id => ?_, howner, fun task => ?_, ?_, hafter⟩
    · by_contra hne
      obtain ⟨point, hread⟩ := Option.ne_none_iff_exists'.mp hne
      obtain ⟨connection, _, hreading⟩ := hconnected.reads id point hread
      simp [hquiet connection] at hreading
    · by_contra hne
      obtain ⟨running, htask⟩ := Option.ne_none_iff_exists'.mp hne
      simp [hexclusive.tasks task running htask] at howner
    · rintro later earlier task sources now rfl
      subst hhistory
      obtain ⟨before, _, after, hbefore, hs, _⟩ := h.event
      have hidle : before.server.flight = none := by
        cases tracker_step hs with
        | returned _ hnone => simp [Server.flight, Server.held, hnone]
        | moved _ _ hb => exact absurd rfl (hb .stopped).2.2
      have hreturned : ∀ id plan unwound, .completionUnwound id plan unwound ∉
          (later ++ .server (.requested task sources now) :: earlier).filterMap serverView := by
        intro id plan unwound hmem
        have hunwound := (mem_serverView hmem).resolve_left (by simp)
        exact hpanic id plan unwound (List.mem_append_right _ (List.mem_cons_of_mem _ hunwound))
      rcases requested_finished (tracker_refines hbefore) hreturned (later.filterMap serverView)
        (earlier.filterMap serverView) task sources now (by simp [serverView]) with hfinished | ⟨f, hf, _⟩
      · obtain ⟨⟨latest, batch, result, hstored⟩, plan, failures, at', nowUnix, hcompleted⟩ := hfinished
        exact ⟨⟨latest, batch, result, (mem_serverView hstored).resolve_left (by simp)⟩,
          plan, failures, at', nowUnix, (mem_serverView hcompleted).resolve_left (by simp)⟩
      · simp [hidle] at hf
  · intro task plan hseen sources now hrequested
    exact stoppingSeen_silent (tracker_refines h)
      (List.mem_filterMap.mpr ⟨_, hseen, rfl⟩) sources now (List.mem_filterMap.mpr ⟨_, hrequested, rfl⟩)

def TrackerAction.isUnwound : TrackerAction → Bool
  | server (.completionUnwound _ _ _) => true
  | _ => false

def TrackerAction.isRequestOf (task : ℕ) : TrackerAction → Bool
  | server (.requested id _ _) => id = task
  | _ => false

lemma TrackerAction.isRequestOf_iff {task : ℕ} {b : TrackerAction} :
    b.isRequestOf task = true ↔ ∃ sources now, b = .server (.requested task sources now) := by
  constructor
  · intro h
    unfold isRequestOf at h
    split at h
    · next id sources now =>
      obtain rfl : id = task := of_decide_eq_true h
      exact ⟨sources, now, rfl⟩
    · simp at h
  · rintro ⟨sources, now, rfl⟩
    exact decide_eq_true rfl

def TrackerAction.isRefresh : TrackerAction → Bool
  | server a => a.refreshes
  | _ => false

def TrackerAction.isReturn : TrackerAction → Bool
  | returned => true
  | _ => false

/-- The stop flag is set while the first refresh waits for its providers. -/
def lateBatch : List TrackerInput :=
  [.accept, .request 0 (.presence ⟨"a", true, true⟩), .update 0, .start 0, .read 0 (.load 0 []),
    .read 0 (.count 0 1000), .read 0 (.copyReport 0), .read 0 (.decide 0), .read 0 (.loadGeneration 0),
    .read 0 (.begin 0), .read 0 (.spawn 0), .work (.recheckStopping 1), .work (.recheckViewers 1),
    .work (.dispatch 1), .shutdown, .read 0 (.respond 0), .close 0, .drained,
    .work (.collect 1 (someProviders "50000.5" 1000) 1005), .work (.store 1 []), .work (.complete 1 1005),
    .work (.publish 1), .work (.release 1), .lock]

/-- Its prices are stored before the return. -/
theorem clean_shutdown_law_late_batch :
    ∃ older t, (trackerMachine .plain ⟨none, "tracker.db"⟩ 1).Run (.init (.current storedTables seededHealth) 0)
        (.returned :: older) t ∧
      older.any TrackerAction.isRefresh = true ∧ t.server.owner = none ∧
      ∃ later earlier sources now latest batch result,
        older = later ++ .server (.requested 1 sources now) :: earlier ∧
        .server (.stored 1 latest batch result) ∈ later := by
  have hchecked : ((trackerMachine .plain ⟨none, "tracker.db"⟩ 1).exec [] (.init (.current storedTables seededHealth) 0)
      lateBatch).any (fun r => r.1.head?.any TrackerAction.isReturn && r.1.all (fun b => !b.isUnwound) &&
        r.1.tail.any TrackerAction.isRefresh && r.1.tail.any (TrackerAction.isRequestOf 1)) = true := by
    decide +kernel
  obtain ⟨⟨_ | ⟨b, older⟩, t⟩, hexec, hshown⟩ := (Option.any_eq_true _ _).mp hchecked
  · simp at hshown
  simp only [List.head?_cons, List.tail_cons, Option.any_some, Bool.and_eq_true] at hshown
  obtain ⟨⟨⟨hreturn, hpanic⟩, hrefresh⟩, hrequest⟩ := hshown
  obtain rfl : b = .returned := by
    unfold TrackerAction.isReturn at hreturn
    split at hreturn
    · rfl
    · simp at hreturn
  have hrun := Machine.run_of_exec _ hexec
  have hlaw := clean_shutdown_law .plain _ 1 hrun fun task plan now hmem => by
    simpa [TrackerAction.isUnwound] using List.all_eq_true.mp hpanic _ hmem
  obtain ⟨_, _, howner, _, hfinished, _⟩ := hlaw.1 [] older rfl
  obtain ⟨b, hmem, hb⟩ := List.any_eq_true.mp hrequest
  obtain ⟨sources, now, rfl⟩ := TrackerAction.isRequestOf_iff.mp hb
  obtain ⟨later, earlier, rfl⟩ := List.append_of_mem hmem
  obtain ⟨⟨latest, batch, result, hstored⟩, _⟩ := hfinished later earlier 1 sources now rfl
  exact ⟨_, t, hrun, hrefresh, howner, later, earlier, sources, now, latest, batch, result, rfl, hstored⟩

end Process

end BitcoinPriceTracker

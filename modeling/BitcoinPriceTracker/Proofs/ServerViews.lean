import BitcoinPriceTracker.Model.StoreRuns
import BitcoinPriceTracker.Proofs.CoordinatorSteps
import BitcoinPriceTracker.Proofs.FetchedBatch
import BitcoinPriceTracker.Proofs.Flight
import BitcoinPriceTracker.Proofs.StoreSteps
import BitcoinPriceTracker.Proofs.ViewerRegistry

namespace BitcoinPriceTracker

variable {P : Platform} {path : DbPath} {maxViewers : ℕ} {s s' : Server} {a : ServerAction}

/-- The plan that the coordinator waits for: a granted one until it is completed or given up. -/
def Flight.outstanding : Flight → Option RefreshPlan
  | granted _ plan => some plan
  | running _ plan point =>
    match point with
    | .reporting _ | .releasing => none
    | _ => some plan

def Server.outstanding (s : Server) : Option RefreshPlan := s.flight.bind Flight.outstanding

/-- The step that the coordinator sees. -/
def refreshView : ServerAction → Option RefreshAction
  | .granted _ plan now => some (.granted plan now)
  | .refused _ reason now generation => some (.refused reason now generation)
  | .beginUnwound _ now => some (.beginUnwound now)
  | .completed _ plan failures now nowUnix => some (.completed plan failures now nowUnix)
  | .completionUnwound _ plan now => some (.completionUnwound plan now)
  | .stoppingSeen _ plan | .noViewers _ _ plan => some (.abandoned plan)
  | _ => none

lemma FlightStep.outstanding {flight flight' : Option Flight} (h : FlightStep flight a flight') :
    match a with
    | .granted _ plan _ =>
      flight.bind Flight.outstanding = none ∧ flight'.bind Flight.outstanding = some plan
    | .stoppingSeen _ plan | .noViewers _ _ plan | .completed _ plan _ _ _ | .completionUnwound _ plan _ =>
      flight.bind Flight.outstanding = some plan ∧ flight'.bind Flight.outstanding = none
    | _ => flight'.bind Flight.outstanding = flight.bind Flight.outstanding := by
  cases h with
  | other ha =>
    revert ha
    cases a <;> simp [ServerAction.ofPlan]
  | _ => simp [Flight.outstanding]

lemma refresh_unseen (h : Exclusive s) (hs : ServerStep P path maxViewers s a s') (ha : refreshView a = none) :
    s'.coordinator = s.coordinator ∧ s'.outstanding = s.outstanding := by
  constructor
  · cases hs with
    | beginUnwound | refused | granted | completed | completionUnwound => simp [refreshView] at ha
    | _ => rfl
  · have houtstanding := (flight_step h hs).outstanding
    unfold Server.outstanding
    cases a <;> simp_all [refreshView]

lemma refresh_seen (h : Exclusive s) (hs : ServerStep P path maxViewers s a s') {b : RefreshAction}
    (ha : refreshView a = some b) {last : ℕ} (hlast : last ≤ s.now) :
    ∃ i last', (refreshMachine P.range).step ⟨s.coordinator, s.outstanding, last⟩ i =
        some (⟨s'.coordinator, s'.outstanding, last'⟩, b) ∧ last' ≤ s'.now := by
  have hflight := (flight_step h hs).outstanding
  unfold Server.outstanding
  cases hs with
  | @beginUnwound id generation seen left hread hbegin =>
    obtain rfl := Option.some.inj ha
    have hidle : s.flight = none := h.flight_planning hread rfl
    refine ⟨.begin s.now generation, s.now, ?_, le_rfl⟩
    rw [hflight, hidle]
    simp [refreshMachine, hlast, hbegin]
  | @refused id generation seen reason c hread hbegin =>
    obtain rfl := Option.some.inj ha
    have hidle : s.flight = none := h.flight_planning hread rfl
    refine ⟨.begin s.now generation, s.now, ?_, le_rfl⟩
    rw [hflight, hidle]
    simp [refreshMachine, hlast, hbegin]
  | @granted id generation seen plan c hread hbegin =>
    obtain rfl := Option.some.inj ha
    refine ⟨.begin s.now generation, s.now, ?_, le_rfl⟩
    rw [hflight.1, hflight.2]
    simp [refreshMachine, hlast, hbegin]
  | stoppingSeen | noViewers =>
    obtain rfl := Option.some.inj ha
    refine ⟨.abandon, last, ?_, hlast⟩
    rw [hflight.1, hflight.2]
    rfl
  | @completed id task batch stored nowUnix c htask hpoint hcomplete =>
    obtain rfl := Option.some.inj ha
    refine ⟨.complete batch.failures s.now nowUnix, s.now, ?_, le_rfl⟩
    rw [hflight.1, hflight.2]
    simp [refreshMachine, hlast, hcomplete]
  | @completionUnwound id task batch stored nowUnix left htask hpoint hcomplete =>
    obtain rfl := Option.some.inj ha
    refine ⟨.complete batch.failures s.now nowUnix, s.now, ?_, le_rfl⟩
    rw [hflight.1, hflight.2]
    simp [refreshMachine, hlast, hcomplete]
  | _ => simp [refreshView] at ha

/-- What the coordinator sees of a run of the server is a run of the refresh machine. -/
theorem refresh_refines {db : Database} {start : ℕ} {history : List ServerAction}
    (h : (serverMachine P path maxViewers).Run (.init db start) history s) :
    ∃ last ≤ s.now, (refreshMachine P.range).Run .init (history.filterMap refreshView)
      ⟨s.coordinator, s.outstanding, last⟩ := by
  have hrefines := h.refines (N := refreshMachine P.range) .init refreshView
    (fun _ s t => ∃ last ≤ s.now, t = ⟨s.coordinator, s.outstanding, last⟩) ⟨0, Nat.zero_le _, rfl⟩
    (by
      rintro older s i s' a t hrun ⟨last, hlast, rfl⟩ hs
      have hexclusive := Exclusive.run hrun
      cases hview : refreshView a with
      | none =>
        obtain ⟨hcoordinator, houtstanding⟩ := refresh_unseen hexclusive (server_step hs) hview
        exact ⟨last, hlast.trans (now_le_of_step (server_step hs)), by rw [hcoordinator, houtstanding]⟩
      | some b =>
        obtain ⟨j, last', hstep, hlast'⟩ := refresh_seen hexclusive (server_step hs) hview hlast
        exact ⟨j, _, hstep, last', hlast', rfl⟩)
  obtain ⟨_, hrun, last, hlast, rfl⟩ := hrefines
  exact ⟨last, hlast, hrun⟩

/-- The update or the count that the viewers map sees. -/
def registryView : ServerAction → Option RegistryAction
  | .presence payload now result => some (.updated payload now result)
  | .counted _ now viewers | .viewersSeen _ now viewers => some (.counted now viewers)
  | .noViewers _ now _ => some (.counted now 0)
  | _ => none

lemma registry_unseen (hs : ServerStep P path maxViewers s a s') (ha : registryView a = none) :
    s'.registry = s.registry ∧ s.now ≤ s'.now := by
  cases hs with
  | advanced hnow => exact ⟨rfl, hnow⟩
  | presence | counted | viewersSeen | noViewers => simp [registryView] at ha
  | _ => exact ⟨rfl, le_rfl⟩

lemma registry_seen (hs : ServerStep P path maxViewers s a s') {b : RegistryAction} (ha : registryView a = some b)
    {last : ℕ} (hlast : last ≤ s.now) :
    ∃ i last', (registryMachine maxViewers).step (s.registry, last) i = some ((s'.registry, last'), b) ∧
      last' ≤ s'.now := by
  cases hs with
  | @presence payload _ =>
    obtain rfl := Option.some.inj ha
    exact ⟨.update payload s.now, s.now, by simp [registryMachine, hlast], le_rfl⟩
  | counted | viewersSeen =>
    obtain rfl := Option.some.inj ha
    exact ⟨.count s.now, s.now, by simp [registryMachine, hlast], le_rfl⟩
  | noViewers _ _ hnone =>
    obtain rfl := Option.some.inj ha
    exact ⟨.count s.now, s.now, by simp [registryMachine, hlast, hnone], le_rfl⟩
  | _ => simp [registryView] at ha

/-- What the viewers map sees of a run of the server is a run of the registry machine. -/
theorem registry_refines {db : Database} {start : ℕ} {history : List ServerAction}
    (h : (serverMachine P path maxViewers).Run (.init db start) history s) :
    ∃ last ≤ s.now, (registryMachine maxViewers).Run (Registry.init, 0) (history.filterMap registryView)
      (s.registry, last) := by
  have hrefines := h.refines (N := registryMachine maxViewers) (Registry.init, 0) registryView
    (fun _ s t => ∃ last ≤ s.now, t = (s.registry, last)) ⟨0, Nat.zero_le _, rfl⟩
    (by
      rintro older s i s' a t hrun ⟨last, hlast, rfl⟩ hs
      cases hview : registryView a with
      | none =>
        obtain ⟨hregistry, hnow⟩ := registry_unseen (server_step hs) hview
        exact ⟨last, hlast.trans hnow, by rw [hregistry]⟩
      | some b =>
        obtain ⟨j, last', hstep, hlast'⟩ := registry_seen (server_step hs) hview hlast
        exact ⟨j, _, hstep, last', hlast', rfl⟩)
  obtain ⟨_, hrun, last, hlast, rfl⟩ := hrefines
  exact ⟨last, hlast, hrun⟩

/-- The accepted presence updates of a run of the server, most recent first. -/
def beatsOf (history : List ServerAction) : List Heartbeat := acceptedBeats (history.filterMap registryView)

/-- The activations of a run of the server: accepted active heartbeats that found no live session. -/
def activationsOf (history : List ServerAction) : ℕ := activations (history.filterMap registryView)

/-- The counter counts activations, and a count finds the sessions that are live by the accepted
updates alone. -/
theorem registry_counts {db : Database} {start : ℕ} {history : List ServerAction}
    (h : (serverMachine P path maxViewers).Run (.init db start) history s) :
    s.registry.fullRefreshGeneration = activationsOf history % 2 ^ 64 ∧
      (activeViewerCount s.now s.registry).1 = (live (beatsOf history) s.now).card := by
  obtain ⟨last, hlast, hrun⟩ := registry_refines h
  obtain ⟨⟨ideal, _⟩, hideal, rfl, hgeneration, htracks⟩ := registryMachine_refines maxViewers hrun
  obtain rfl : ideal = _ := ideal_run_state maxViewers hideal
  exact ⟨hgeneration, (htracks.prune hlast).length⟩

/-- What a read has loaded. -/
def ReadPoint.loaded : ReadPoint → Option (Except String StoredPriceState)
  | loading => none
  | counting loaded | reporting loaded _ _ => some loaded
  | deciding seen | generating seen | beginning seen _ | spawning seen _ | refused seen _
  | responding seen _ _ => some seen.loaded

/-- The transaction of the task is still to come. -/
def TaskPoint.unstored : TaskPoint → Bool
  | spawned | counting | dispatching | fetching | storing _ _ => true
  | _ => false

/-- What the holder of the guard has read is what is stored. -/
def Held.Captured (P : Platform) (db : Database) : Held → Prop
  | .read _ point => ∀ stored, point.loaded = some (.ok stored) → BitcoinPriceTracker.loaded P db = .ok stored
  | .task _ running => running.point.unstored = true →
      ∃ stored, BitcoinPriceTracker.loaded P db = .ok stored ∧ stored.snapshot = running.snapshot

structure Captured (P : Platform) (s : Server) : Prop where
  held : ∀ held, s.held = some held → held.Captured P s.db
  readable : ∀ id point, s.reads id = some point → point.planning = true →
    ∃ stored, point.loaded = some (.ok stored)

lemma Captured.of_eq (h : Captured P s) (hheld : s'.held = s.held) (hreads : s'.reads = s.reads)
    (hdb : s'.db = s.db) : Captured P s' where
  held := by
    rw [hheld, hdb]
    exact h.held
  readable := by
    rw [hreads]
    exact h.readable

lemma Captured.setRead (h : Captured P s) {id : ℕ} {old new : ReadPoint} (hread : s.reads id = some old)
    (hloaded : ∀ stored, new.loaded = some (.ok stored) → s.owner = some (.read id) →
      old.loaded = some (.ok stored) ∨ BitcoinPriceTracker.loaded P s.db = .ok stored)
    (hnew : new.planning = true → ∃ stored, new.loaded = some (.ok stored)) :
    Captured P (s.setRead id (some new)) where
  held held hheld := by
    rw [Server.held_setRead] at hheld
    split at hheld
    · next howner =>
      obtain rfl := Option.some.inj hheld
      intro stored hstored
      rcases hloaded stored hstored howner with hold | hdb
      · exact h.held (.read id old) (by simp [Server.held, howner, hread]) stored hold
      · exact hdb
    · exact h.held held hheld
  readable other point hother hplanning := by
    rw [Server.setRead_reads, Function.update_apply] at hother
    split at hother
    · obtain rfl := Option.some.inj hother
      exact hnew hplanning
    · exact h.readable other point hother hplanning

lemma Captured.endRead (h : Captured P s) (id : ℕ) : Captured P (s.endRead id) where
  held held hheld := by
    rw [Server.held_endRead] at hheld
    split at hheld
    · simp at hheld
    · exact h.held held hheld
  readable other point hother hplanning := by
    rw [Server.endRead_reads, Function.update_apply] at hother
    split at hother
    · simp at hother
    · exact h.readable other point hother hplanning

lemma Captured.setTask (h : Captured P s) {id : ℕ} {new : RefreshTask} (howner : s.owner = some (.task id))
    (hnew : (Held.task id new).Captured P s.db) : Captured P (s.setTask id (some new)) where
  held held hheld := by
    rw [Server.held_setTask, if_pos howner] at hheld
    exact Option.some.inj hheld ▸ hnew
  readable := h.readable

lemma Captured.endTask (h : Captured P s) {id : ℕ} (howner : s.owner = some (.task id)) :
    Captured P (s.endTask id) where
  held held hheld := by
    rw [Server.held_endTask, if_pos howner] at hheld
    simp at hheld
  readable := h.readable

lemma decision_loaded (id : ℕ) (seen : ReadData) : (s.decision id seen).loaded = some seen.loaded := by
  unfold Server.decision
  dsimp only
  repeat' split
  all_goals rfl

lemma Captured.step (h : Captured P s) (hexclusive : Exclusive s) (hs : ServerStep P path maxViewers s a s') :
    Captured P s' := by
  cases hs with
  | advanced | stopped | presence => exact h.of_eq rfl rfl rfl
  | badSession => exact h
  | readOwner howner =>
    refine ⟨fun held hheld => ?_, fun id point hread hplanning => ?_⟩
    · obtain rfl : Held.read s.nextId .loading = held := by simpa [Server.held] using hheld
      intro stored hstored
      simp [ReadPoint.loaded] at hstored
    · simp only [Server.setRead_reads, Function.update_apply] at hread
      split at hread
      · obtain rfl := Option.some.inj hread
        simp [ReadPoint.planning] at hplanning
      · exact h.readable id point hread hplanning
  | readReader =>
    refine ⟨fun held hheld => ?_, fun id point hread hplanning => ?_⟩
    · rw [Server.held_setRead, if_neg hexclusive.owner_ne_fresh] at hheld
      exact h.held held hheld
    · simp only [Server.setRead_reads, Function.update_apply] at hread
      split at hread
      · obtain rfl := Option.some.inj hread
        simp [ReadPoint.planning] at hplanning
      · exact h.readable id point hread hplanning
  | loaded hread =>
    refine h.setRead hread (fun stored hstored _ => .inr ?_) (by simp [ReadPoint.planning])
    exact loaded_of_atomically (Option.some.inj hstored)
  | counted hread =>
    exact (h.of_eq rfl rfl rfl : Captured P { s with registry := (activeViewerCount s.now s.registry).2 }).setRead
      hread (fun stored hstored _ => .inl hstored) (by simp [ReadPoint.planning])
  | reportCopied hread =>
    exact h.setRead hread (fun stored hstored _ => .inl hstored) (by simp [ReadPoint.planning])
  | cancelled | responded => exact h.endRead _
  | decided hread =>
    refine h.setRead hread (fun stored hstored _ => .inl ?_) fun hplanning => ?_
    · rwa [decision_loaded] at hstored
    · obtain ⟨_, _, stored, hloaded⟩ := decision_planning hplanning
      exact ⟨stored, by rw [decision_loaded, hloaded]⟩
  | generationLoaded hread =>
    have hreadable := h.readable _ _ hread rfl
    exact h.setRead hread (fun stored hstored _ => .inl hstored) fun _ => hreadable
  | @beginUnwound _ _ _ left =>
    exact (h.of_eq rfl rfl rfl : Captured P { s with coordinator := left }).endRead _
  | @refused _ _ _ _ c hread | @granted _ _ _ _ c hread =>
    have hreadable := h.readable _ _ hread rfl
    exact (h.of_eq rfl rfl rfl : Captured P { s with coordinator := c }).setRead hread
      (fun stored hstored _ => .inl hstored) fun _ => hreadable
  | @spawned id seen plan hread =>
    refine ⟨fun held hheld => ?_, fun other point hother hplanning => ?_⟩
    · obtain rfl : Held.task s.nextId ⟨(storedOf seen.loaded).1.snapshot, plan, .spawned⟩ = held := by
        simpa [Server.held, Server.spawnTask] using hheld
      obtain ⟨stored, hloaded⟩ := h.readable id _ hread rfl
      refine fun _ => ⟨stored, h.held _ (hexclusive.held_read hread rfl) stored hloaded, ?_⟩
      rw [Option.some.inj hloaded]
      rfl
    · simp only [Server.spawnTask, Server.setTask_reads, Server.setRead_reads, Function.update_apply] at hother
      split at hother
      · obtain rfl := Option.some.inj hother
        simp [ReadPoint.planning] at hplanning
      · exact h.readable other point hother hplanning
  | @ownerDropped id seen reason hread =>
    have howner := hexclusive.planning id _ hread rfl
    refine ⟨fun held hheld => ?_, fun other point hother hplanning => ?_⟩
    · simp [Server.held_setRead, Server.held_unlock, howner] at hheld
    · simp only [Server.setRead_reads, Server.unlock_reads, Function.update_apply] at hother
      split at hother
      · obtain rfl := Option.some.inj hother
        simp [ReadPoint.planning] at hplanning
      · exact h.readable other point hother hplanning
  | notStopping htask hpoint | requested htask hpoint | collected htask hpoint =>
    have hheld := h.held _ (hexclusive.held_task htask)
    exact h.setTask (hexclusive.tasks _ _ htask) fun _ => hheld (by rw [hpoint]; rfl)
  | viewersSeen htask hpoint =>
    have hheld := h.held _ (hexclusive.held_task htask)
    exact (h.of_eq rfl rfl rfl : Captured P { s with registry := (activeViewerCount s.now s.registry).2 }).setTask
      (hexclusive.tasks _ _ htask) fun _ => hheld (by rw [hpoint]; rfl)
  | stored htask =>
    -- The only step that changes the database: the task does not use its snapshot any more.
    refine ⟨fun held hheld => ?_, h.readable⟩
    rw [Server.held_setTask, if_pos (hexclusive.tasks _ _ htask)] at hheld
    obtain rfl := Option.some.inj hheld
    exact fun hpoint => by simp [TaskPoint.unstored] at hpoint
  | @completed id task batch stored nowUnix c htask =>
    exact (h.of_eq rfl rfl rfl : Captured P { s with coordinator := c }).setTask (hexclusive.tasks _ _ htask)
      fun hpoint => by simp [TaskPoint.unstored] at hpoint
  | @published id task report htask =>
    exact (h.of_eq rfl rfl rfl : Captured P { s with report }).setTask (hexclusive.tasks _ _ htask)
      fun hpoint => by simp [TaskPoint.unstored] at hpoint
  | stoppingSeen htask | released htask => exact h.endTask (hexclusive.tasks _ _ htask)
  | noViewers htask =>
    exact (h.of_eq rfl rfl rfl : Captured P { s with registry := (activeViewerCount s.now s.registry).2 }).endTask
      (hexclusive.tasks _ _ htask)
  | @completionUnwound _ _ _ _ _ left htask =>
    exact (h.of_eq rfl rfl rfl : Captured P { s with coordinator := left }).endTask (hexclusive.tasks _ _ htask)

theorem Captured.run {db : Database} {start : ℕ} {history : List ServerAction}
    (h : (serverMachine P path maxViewers).Run (.init db start) history s) : Captured P s :=
  h.invariant (P := fun _ s => Captured P s)
    ⟨fun held hheld => by simp [Server.held, Server.init] at hheld,
      fun id point hread => by simp [Server.init] at hread⟩
    fun _ _ _ _ _ hrun ih hs => ih.step (Exclusive.run hrun) (server_step hs)

/-- The batch that the store sees. -/
def storeView : ServerAction → Option StoreAction
  | .stored _ _ batch result => some (.stored batch result)
  | _ => none

lemma store_unseen (hs : ServerStep P path maxViewers s a s') (ha : storeView a = none) : s'.db = s.db := by
  cases hs with
  | stored => simp [storeView] at ha
  | _ => rfl

/-- What the database sees of a run of the server is a run of the store: every batch merges with the
snapshot that is stored when it commits. -/
theorem store_refines {db : Database} {start : ℕ} {history : List ServerAction}
    (h : (serverMachine P path maxViewers).Run (.init db start) history s) :
    (storeMachine P path).Run ⟨db, none⟩ (history.filterMap storeView) ⟨s.db, none⟩ := by
  have hrefines := h.refines (N := storeMachine P path) ⟨db, none⟩ storeView
    (fun _ s t => t = ⟨s.db, none⟩) rfl
    (by
      rintro older s i s' a t hrun rfl hs
      cases hview : storeView a with
      | none => exact (store_unseen (server_step hs) hview) ▸ rfl
      | some b =>
        have hcaptured := Captured.run hrun
        have hexclusive := Exclusive.run hrun
        cases server_step hs with
        | @stored id task attempts nowUnix F batch result db' htask hpoint hbatch hstore =>
          obtain rfl := Option.some.inj hview
          obtain ⟨stored, hloaded, hsnapshot⟩ :=
            hcaptured.held _ (hexclusive.held_task htask) (by rw [hpoint]; rfl)
          obtain ⟨_, heval⟩ := load_of_loaded hloaded
          refine ⟨.batch task.plan attempts nowUnix F, _, ?_, rfl⟩
          simp [storeMachine, heval, hsnapshot, ← hbatch, hstore]
        | _ => simp [storeView] at hview)
  obtain ⟨_, hrun, rfl⟩ := hrefines
  exact hrun

/-- A viewer opens the dashboard, and its read refreshes all providers. -/
def oneRefresh (attempts : UpstreamSource → Attempt) : List ServerInput :=
  [.presence ⟨"a", true, true⟩, .read, .load 0 [], .count 0 1000, .copyReport 0, .decide 0, .loadGeneration 0,
    .begin 0, .spawn 0, .respond 0, .recheckStopping 1, .recheckViewers 1, .dispatch 1, .collect 1 attempts 1005,
    .store 1 [], .complete 1 1005, .publish 1, .release 1]

/-- Its next heartbeat refreshes the provider whose turn it is. -/
def nextRefresh (attempts : UpstreamSource → Attempt) (F : Faults) : List ServerInput :=
  [.advance (Duration.fromSecs 10), .presence ⟨"a", true, true⟩, .read, .load 2 [], .count 2 1016, .copyReport 2,
    .decide 2, .loadGeneration 2, .begin 2, .spawn 2, .respond 2, .recheckStopping 3, .recheckViewers 3, .dispatch 3,
    .collect 3 attempts 1018, .store 3 F, .complete 3 1018, .publish 3, .release 3]

/-- A batch with a success is committed. -/
def ServerAction.refreshes : ServerAction → Bool
  | stored _ _ batch (.ok _) => !batch.refreshed.isEmpty
  | _ => false

end BitcoinPriceTracker

import BitcoinPriceTracker.Model.Lifecycle
import BitcoinPriceTracker.Proofs.Diagnostics
import BitcoinPriceTracker.Proofs.StoreSteps

namespace BitcoinPriceTracker

open Tx

section TwoRuns

variable (P : Platform) (parseJson : List UInt8 → Except JsonError Json)
  (decodeStrings : String → Except JsonError (List String))
  (hdecode : ∀ text, (decodeStrings text).toOption = (P.decodeStrings text).toOption)

/-- Inputs without a diagnostic text. -/
def ServerInput.plain : ServerInput → Bool
  | load _ _ | collect _ _ _ | store _ _ => false
  | _ => true

inductive ServerInput.Same (P P' : Platform) : ServerInput → ServerInput → Prop
  | plain {i : ServerInput} (h : i.plain = true) : Same P P' i i
  | load {id : ℕ} {F G : Faults} (h : SameFaults F G) : Same P P' (.load id F) (.load id G)
  | collect {task : ℕ} {attempts attempts' : UpstreamSource → Attempt} {nowUnix : ℤ}
      (h : ∀ source, (attempts source).Same P P' source (attempts' source)) :
    Same P P' (.collect task attempts nowUnix) (.collect task attempts' nowUnix)
  | store {task : ℕ} {F G : Faults} (h : SameFaults F G) : Same P P' (.store task F) (.store task G)

inductive ServerAction.Same : ServerAction → ServerAction → Prop
  | same (a : ServerAction) : Same a a
  | loaded {id : ℕ} {result result' : Except String StoredPriceState} (h : result.toOption = result'.toOption) :
    Same (.loaded id result) (.loaded id result')
  | stored {task : ℕ} {latest : Option SnapshotRecord} {batch batch' : Batch} {result result' : Except String Unit}
      (hbatch : batch.Same batch') (h : result.toOption = result'.toOption) :
    Same (.stored task latest batch result) (.stored task latest batch' result')
  | completed {task : ℕ} {plan : RefreshPlan} {failures failures' : List ProviderError} {now : ℕ} {nowUnix : ℤ}
      (h : failures.map ProviderError.withoutDiagnostic = failures'.map ProviderError.withoutDiagnostic) :
    Same (.completed task plan failures now nowUnix) (.completed task plan failures' now nowUnix)

inductive ReadData.Same : ReadData → ReadData → Prop
  | mk {loaded loaded' : Except String StoredPriceState} {activeViewers : ℕ} {responseNow : ℤ}
      {report : PriceRefreshReport} (h : loaded.toOption = loaded'.toOption) :
    Same ⟨loaded, activeViewers, responseNow, report⟩ ⟨loaded', activeViewers, responseNow, report⟩

inductive ReadPoint.Same : ReadPoint → ReadPoint → Prop
  | loading : Same .loading .loading
  | counting {loaded loaded' : Except String StoredPriceState} (h : loaded.toOption = loaded'.toOption) :
    Same (.counting loaded) (.counting loaded')
  | reporting {loaded loaded' : Except String StoredPriceState} {activeViewers : ℕ} {responseNow : ℤ}
      (h : loaded.toOption = loaded'.toOption) :
    Same (.reporting loaded activeViewers responseNow) (.reporting loaded' activeViewers responseNow)
  | deciding {seen seen' : ReadData} (h : seen.Same seen') : Same (.deciding seen) (.deciding seen')
  | generating {seen seen' : ReadData} (h : seen.Same seen') : Same (.generating seen) (.generating seen')
  | beginning {seen seen' : ReadData} {generation : ℕ} (h : seen.Same seen') :
    Same (.beginning seen generation) (.beginning seen' generation)
  | spawning {seen seen' : ReadData} {plan : RefreshPlan} (h : seen.Same seen') :
    Same (.spawning seen plan) (.spawning seen' plan)
  | refused {seen seen' : ReadData} {reason : String} (h : seen.Same seen') :
    Same (.refused seen reason) (.refused seen' reason)
  | responding {seen seen' : ReadData} {refreshing : Bool} {reason : Option String} (h : seen.Same seen') :
    Same (.responding seen refreshing reason) (.responding seen' refreshing reason)

inductive TaskPoint.Same (P P' : Platform) : TaskPoint → TaskPoint → Prop
  | spawned : Same P P' .spawned .spawned
  | counting : Same P P' .counting .counting
  | dispatching : Same P P' .dispatching .dispatching
  | fetching : Same P P' .fetching .fetching
  | storing {attempts attempts' : UpstreamSource → Attempt} {nowUnix : ℤ}
      (h : ∀ source, (attempts source).Same P P' source (attempts' source)) :
    Same P P' (.storing attempts nowUnix) (.storing attempts' nowUnix)
  | completing {batch batch' : Batch} {stored stored' : Except String Unit} (hbatch : batch.Same batch')
      (h : stored.toOption = stored'.toOption) : Same P P' (.completing batch stored) (.completing batch' stored')
  | reporting {report : PriceRefreshReport} : Same P P' (.reporting report) (.reporting report)
  | releasing : Same P P' .releasing .releasing

inductive RefreshTask.Same (P P' : Platform) : RefreshTask → RefreshTask → Prop
  | mk {snapshot : Option SnapshotRecord} {plan : RefreshPlan} {point point' : TaskPoint} (h : point.Same P P' point') :
    Same P P' ⟨snapshot, plan, point⟩ ⟨snapshot, plan, point'⟩

/-- Only the reads and the tasks hold diagnostic texts. -/
inductive Server.Same (P P' : Platform) (s : Server) : Server → Prop
  | mk {reads : ℕ → Option ReadPoint} {tasks : ℕ → Option RefreshTask}
      (hreads : ∀ id, Option.Rel ReadPoint.Same (s.reads id) (reads id))
      (htasks : ∀ id, Option.Rel (RefreshTask.Same P P') (s.tasks id) (tasks id)) :
    Same P P' s { s with reads, tasks }

variable {P parseJson decodeStrings hdecode} {s s' : Server} {P' : Platform}

lemma rel_update {α β : Type} {R : α → β → Prop} {f : ℕ → Option α} {g : ℕ → Option β}
    (h : ∀ id, Option.Rel R (f id) (g id)) (id : ℕ) {a : Option α} {b : Option β} (hab : Option.Rel R a b) (other : ℕ) :
    Option.Rel R (Function.update f id a other) (Function.update g id b other) := by
  rw [Function.update_apply, Function.update_apply]
  split
  · exact hab
  · exact h other

lemma Server.Same.setRead (h : s.Same P P' s') (id : ℕ) {point point' : Option ReadPoint}
    (hpoint : Option.Rel ReadPoint.Same point point') : (s.setRead id point).Same P P' (s'.setRead id point') := by
  obtain ⟨hreads, htasks⟩ := h
  exact .mk (s := s.setRead id point) (rel_update hreads id hpoint) htasks

lemma Server.Same.setTask (h : s.Same P P' s') (id : ℕ) {task task' : Option RefreshTask}
    (htask : Option.Rel (RefreshTask.Same P P') task task') : (s.setTask id task).Same P P' (s'.setTask id task') := by
  obtain ⟨hreads, htasks⟩ := h
  exact .mk (s := s.setTask id task) hreads (rel_update htasks id htask)

lemma Server.Same.unlock (h : s.Same P P' s') (holder : Owner) : (s.unlock holder).Same P P' (s'.unlock holder) := by
  obtain ⟨hreads, htasks⟩ := h
  exact .mk (s := s.unlock holder) hreads htasks

lemma Server.Same.endRead (h : s.Same P P' s') (id : ℕ) : (s.endRead id).Same P P' (s'.endRead id) :=
  (h.unlock _).setRead id .none

lemma Server.Same.endTask (h : s.Same P P' s') (id : ℕ) : (s.endTask id).Same P P' (s'.endTask id) :=
  (h.unlock _).setTask id .none

/-- Both disabled, or both enabled with results that differ in texts. -/
def SameStep (P P' : Platform) : Option (Server × ServerAction) → Option (Server × ServerAction) → Prop :=
  Option.Rel fun r r' => r.1.Same P P' r'.1 ∧ r.2.Same r'.2

lemma storedOf_same {loaded loaded' : Except String StoredPriceState} (h : loaded.toOption = loaded'.toOption) :
    storedOf loaded = storedOf loaded' := by
  cases loaded with
  | error e =>
    cases loaded' with
    | error e' => rfl
    | ok stored => simp [Except.toOption] at h
  | ok stored =>
    cases loaded' with
    | error e => simp [Except.toOption] at h
    | ok stored' => rw [Option.some.inj h]

lemma priceResponse_same {loaded loaded' : Except String StoredPriceState} (h : loaded.toOption = loaded'.toOption)
    (context : ReadContext) (responseNow : ℤ) :
    priceResponse loaded context responseNow = priceResponse loaded' context responseNow := by
  simp only [priceResponse, storedOf_same h]

lemma decision_same (h : s.Same P P' s') (id : ℕ) {seen seen' : ReadData} (hseen : seen.Same seen') :
    (s.decision id seen).Same (s'.decision id seen') := by
  obtain ⟨hreads, htasks⟩ := h
  obtain ⟨hloaded⟩ := hseen
  rename_i loaded loaded' activeViewers responseNow report
  cases loaded with
  | error e =>
    cases loaded' with
    | error e' => exact .responding (.mk rfl)
    | ok stored => simp [Except.toOption] at hloaded
  | ok stored =>
    cases loaded' with
    | error e => simp [Except.toOption] at hloaded
    | ok stored' =>
      obtain rfl := Option.some.inj hloaded
      unfold Server.decision
      dsimp only
      repeat' split
      all_goals first | exact .responding (.mk rfl) | exact .generating (.mk rfl)

lemma beginPlan_same (h : s.Same P P' s') (range : InstantRange) (id generation : ℕ) {seen seen' : ReadData}
    (hseen : seen.Same seen') :
    (s.beginPlan range id seen generation).1.Same P P' (s'.beginPlan range id seen' generation).1 ∧
      (s.beginPlan range id seen generation).2.Same (s'.beginPlan range id seen' generation).2 := by
  obtain ⟨hreads, htasks⟩ := h
  have hcoordinator : ∀ c, Server.Same P P' { s with coordinator := c }
      { s with coordinator := c, reads := _, tasks := _ } :=
    fun c => .mk hreads htasks
  unfold Server.beginPlan
  dsimp only
  split
  · exact ⟨(hcoordinator _).endRead id, .same _⟩
  · exact ⟨(hcoordinator _).setRead id (.some (.refused hseen)), .same _⟩
  · exact ⟨(hcoordinator _).setRead id (.some (.spawning hseen)), .same _⟩

lemma spawnTask_same (h : s.Same P P' s') (id : ℕ) {seen seen' : ReadData} (plan : RefreshPlan)
    (hseen : seen.Same seen') :
    (s.spawnTask id seen plan).1.Same P P' (s'.spawnTask id seen' plan).1 ∧
      (s.spawnTask id seen plan).2.Same (s'.spawnTask id seen' plan).2 := by
  obtain ⟨hreads, htasks⟩ := h
  have hstored : storedOf seen.loaded = storedOf seen'.loaded := by
    obtain ⟨hloaded⟩ := hseen
    exact storedOf_same hloaded
  have hmoved : Server.Same P P' { s with owner := some (.task s.nextId), nextId := s.nextId + 1 }
      { s with owner := some (.task s.nextId), nextId := s.nextId + 1, reads := _, tasks := _ } := .mk hreads htasks
  unfold Server.spawnTask
  rw [hstored]
  exact ⟨(hmoved.setRead id (.some (.responding hseen))).setTask s.nextId (.some (.mk .spawned)), .same _⟩

lemma respond_same (h : s.Same P P' s') (id : ℕ) {seen seen' : ReadData} (refreshing : Bool) (reason : Option String)
    (hseen : seen.Same seen') :
    (s.respond id seen refreshing reason).1.Same P P' (s'.respond id seen' refreshing reason).1 ∧
      (s.respond id seen refreshing reason).2.Same (s'.respond id seen' refreshing reason).2 := by
  obtain ⟨hloaded⟩ := hseen
  unfold Server.respond
  dsimp only
  rw [priceResponse_same hloaded]
  exact ⟨h.endRead id, .same _⟩

lemma load_same (h : s.Same P (P.withJson parseJson decodeStrings hdecode) s') {point point' : ReadPoint}
    (hpoint : point.Same point') (id : ℕ) {F G : Faults} (hF : SameFaults F G) :
    SameStep P (P.withJson parseJson decodeStrings hdecode) (s.readStep P id point (.load id F))
      (s'.readStep (P.withJson parseJson decodeStrings hdecode) id point' (.load id G)) := by
  cases hpoint with
  | loading =>
    have hloaded := ((loadPriceState_agree P parseJson hdecode).atomically hF s.db).1
    have hdb : s'.db = s.db := by
      obtain ⟨hreads, htasks⟩ := h
      rfl
    simp only [Server.readStep, hdb]
    exact .some ⟨h.setRead id (.some (.counting hloaded)), .loaded hloaded⟩
  | _ => exact .none

lemma readStep_same (h : s.Same P (P.withJson parseJson decodeStrings hdecode) s') {point point' : ReadPoint}
    (hpoint : point.Same point') (id : ℕ) {i : ServerInput} (hi : i.plain = true) :
    SameStep P (P.withJson parseJson decodeStrings hdecode) (s.readStep P id point i)
      (s'.readStep (P.withJson parseJson decodeStrings hdecode) id point' i) := by
  cases i with
  | load | collect | store => simp [ServerInput.plain] at hi
  | count _ responseNow =>
    cases hpoint with
    | counting hloaded =>
      obtain ⟨hreads, htasks⟩ := h
      have hpruned : Server.Same P (P.withJson parseJson decodeStrings hdecode)
          { s with registry := (activeViewerCount s.now s.registry).2 }
          { s with registry := (activeViewerCount s.now s.registry).2, reads := _, tasks := _ } := .mk hreads htasks
      exact .some ⟨hpruned.setRead id (.some (.reporting hloaded)), .same _⟩
    | _ => exact .none
  | copyReport =>
    cases hpoint with
    | reporting hloaded =>
      have hreport : s'.report = s.report := by
        obtain ⟨hreads, htasks⟩ := h
        rfl
      simp only [Server.readStep, hreport]
      exact .some ⟨h.setRead id (.some (.deciding (.mk hloaded))), .same _⟩
    | _ => exact .none
  | cancel =>
    cases hpoint with
    | loading | counting | reporting => exact .some ⟨h.endRead id, .same _⟩
    | _ => exact .none
  | decide =>
    cases hpoint with
    | deciding hseen => exact .some ⟨h.setRead id (.some (decision_same h id hseen)), .same _⟩
    | _ => exact .none
  | loadGeneration =>
    cases hpoint with
    | generating hseen =>
      have hregistry : s'.registry = s.registry := by
        obtain ⟨hreads, htasks⟩ := h
        rfl
      simp only [Server.readStep, hregistry]
      exact .some ⟨h.setRead id (.some (.beginning hseen)), .same _⟩
    | _ => exact .none
  | begin =>
    cases hpoint with
    | beginning hseen => exact .some (beginPlan_same h P.range id _ hseen)
    | _ => exact .none
  | spawn =>
    cases hpoint with
    | spawning hseen => exact .some (spawnTask_same h id _ hseen)
    | _ => exact .none
  | dropOwner =>
    cases hpoint with
    | refused hseen => exact .some ⟨(h.unlock _).setRead id (.some (.responding hseen)), .same _⟩
    | _ => exact .none
  | respond =>
    cases hpoint with
    | responding hseen => exact .some (respond_same h id _ _ hseen)
    | _ => exact .none
  | _ => exact .none

lemma storeBatch_same (h : s.Same P (P.withJson parseJson decodeStrings hdecode) s') (path : DbPath) (id : ℕ)
    (snapshot : Option SnapshotRecord) (plan : RefreshPlan) (point point' : TaskPoint) {F G : Faults}
    (hF : SameFaults F G) {attempts attempts' : UpstreamSource → Attempt} (nowUnix : ℤ)
    (hattempts : ∀ source,
      (attempts source).Same P (P.withJson parseJson decodeStrings hdecode) source (attempts' source)) :
    let r := s.storeBatch P path F id ⟨snapshot, plan, point⟩ attempts nowUnix
    let r' := s'.storeBatch (P.withJson parseJson decodeStrings hdecode) path G id ⟨snapshot, plan, point'⟩ attempts'
      nowUnix
    r.1.Same P (P.withJson parseJson decodeStrings hdecode) r'.1 ∧ r.2.Same r'.2 := by
  have hbatch := refreshBatch_same P parseJson decodeStrings hdecode snapshot plan nowUnix hattempts
  obtain ⟨hreads, htasks⟩ := h
  obtain ⟨hresult, hdb⟩ := (storeRefresh_agree P path (refreshBatch P snapshot plan attempts nowUnix).snapshot
    (refreshBatch P snapshot plan attempts nowUnix).health).atomically hF s.db
  unfold Server.storeBatch
  dsimp only
  rw [← hbatch.snapshot, ← hbatch.health]
  change Server.Same _ _ _ (Server.setTask { s with
      db := ((storeRefresh P path _ _).atomically G s.db).2, reads := _, tasks := _ } _ _) ∧ _
  rw [← hdb]
  have hstored : Server.Same P (P.withJson parseJson decodeStrings hdecode)
      { s with db := ((storeRefresh P path (refreshBatch P snapshot plan attempts nowUnix).snapshot
        (refreshBatch P snapshot plan attempts nowUnix).health).atomically F s.db).2 } _ := .mk hreads htasks
  exact ⟨hstored.setTask id (.some (.mk (.completing hbatch hresult))), .stored hbatch hresult⟩

lemma refreshReport_same {batch batch' : Batch} {stored stored' : Except String Unit} (hbatch : batch.Same batch')
    (hstored : stored.toOption = stored'.toOption) :
    Server.refreshReport P batch stored =
      Server.refreshReport (P.withJson parseJson decodeStrings hdecode) batch' stored' := by
  have hfailures : batch.failures.map (ProviderError.display P) =
      batch'.failures.map (ProviderError.display (P.withJson parseJson decodeStrings hdecode)) :=
    map_display_eq hbatch.failures
  unfold Server.refreshReport
  rw [hfailures, hbatch.refreshed]
  cases stored with
  | error e =>
    cases stored' with
    | error e' => rfl
    | ok done => simp [Except.toOption] at hstored
  | ok done =>
    cases stored' with
    | error e => simp [Except.toOption] at hstored
    | ok done' => rfl

lemma completePlan_same (h : s.Same P (P.withJson parseJson decodeStrings hdecode) s') (id : ℕ)
    (snapshot : Option SnapshotRecord) (plan : RefreshPlan) (point point' : TaskPoint) {batch batch' : Batch}
    {stored stored' : Except String Unit} (nowUnix : ℤ) (hbatch : batch.Same batch')
    (hstored : stored.toOption = stored'.toOption) :
    let r := s.completePlan P id ⟨snapshot, plan, point⟩ batch stored nowUnix
    let r' := s'.completePlan (P.withJson parseJson decodeStrings hdecode) id ⟨snapshot, plan, point'⟩ batch' stored'
      nowUnix
    r.1.Same P (P.withJson parseJson decodeStrings hdecode) r'.1 ∧ r.2.Same r'.2 := by
  obtain ⟨hreads, htasks⟩ := h
  have hcoordinator : ∀ c, Server.Same P (P.withJson parseJson decodeStrings hdecode) { s with coordinator := c }
      { s with coordinator := c, reads := _, tasks := _ } := fun c => .mk hreads htasks
  have hreport : Server.refreshReport P batch stored =
      Server.refreshReport (P.withJson parseJson decodeStrings hdecode) batch' stored' :=
    refreshReport_same hbatch hstored
  have hsame := RefreshCoordinator.complete_same hbatch.failures P.range plan s.now nowUnix s.coordinator
  have hrange : (P.withJson parseJson decodeStrings hdecode).range = P.range := rfl
  cases hcomplete : s.coordinator.complete P.range plan batch'.failures s.now nowUnix with
  | error left =>
    simp only [Server.completePlan, hrange, hsame, hcomplete]
    exact ⟨(hcoordinator left).endTask id, .same _⟩
  | ok c =>
    simp only [Server.completePlan, hrange, hsame, hcomplete, hreport]
    exact ⟨(hcoordinator c).setTask id (.some (.mk .reporting)), .completed hbatch.failures⟩

lemma recheck_same (h : s.Same P P' s') (id : ℕ) (snapshot : Option SnapshotRecord) (plan : RefreshPlan)
    (point point' : TaskPoint) :
    ((s.recheckStopping id ⟨snapshot, plan, point⟩).1.Same P P' (s'.recheckStopping id ⟨snapshot, plan, point'⟩).1 ∧
      (s.recheckStopping id ⟨snapshot, plan, point⟩).2.Same (s'.recheckStopping id ⟨snapshot, plan, point'⟩).2) ∧
    (s.recheckViewers id ⟨snapshot, plan, point⟩).1.Same P P' (s'.recheckViewers id ⟨snapshot, plan, point'⟩).1 ∧
      (s.recheckViewers id ⟨snapshot, plan, point⟩).2.Same (s'.recheckViewers id ⟨snapshot, plan, point'⟩).2 := by
  have hkept := h
  obtain ⟨hreads, htasks⟩ := h
  have hpruned : Server.Same P P' { s with registry := (activeViewerCount s.now s.registry).2 }
      { s with registry := (activeViewerCount s.now s.registry).2, reads := _, tasks := _ } := .mk hreads htasks
  constructor
  · unfold Server.recheckStopping
    dsimp only
    split
    · exact ⟨hkept.endTask id, .same _⟩
    · exact ⟨hkept.setTask id (.some (.mk .counting)), .same _⟩
  · unfold Server.recheckViewers
    dsimp only
    split
    · exact ⟨hpruned.endTask id, .same _⟩
    · exact ⟨hpruned.setTask id (.some (.mk .dispatching)), .same _⟩

lemma taskStep_same (h : s.Same P (P.withJson parseJson decodeStrings hdecode) s') (path : DbPath) (id : ℕ)
    {task task' : RefreshTask} (htask : task.Same P (P.withJson parseJson decodeStrings hdecode) task')
    {i i' : ServerInput} (hi : i.Same P (P.withJson parseJson decodeStrings hdecode) i') :
    SameStep P (P.withJson parseJson decodeStrings hdecode) (s.taskStep P path id task i)
      (s'.taskStep (P.withJson parseJson decodeStrings hdecode) path id task' i') := by
  obtain ⟨hpoint⟩ := htask
  cases hi with
  | load hF => exact .none
  | collect hattempts =>
    cases hpoint with
    | fetching => exact .some ⟨h.setTask id (.some (.mk (.storing hattempts))), .same _⟩
    | _ => exact .none
  | store hF =>
    cases hpoint with
    | storing hattempts => exact .some (storeBatch_same h path id _ _ _ _ hF _ hattempts)
    | _ => exact .none
  | @plain i hi =>
    cases i with
    | load | collect | store => simp [ServerInput.plain] at hi
    | recheckStopping =>
      cases hpoint with
      | spawned => exact .some (recheck_same h id _ _ _ _).1
      | _ => exact .none
    | recheckViewers =>
      cases hpoint with
      | counting => exact .some (recheck_same h id _ _ _ _).2
      | _ => exact .none
    | dispatch =>
      cases hpoint with
      | dispatching =>
        have hnow : s'.now = s.now := by
          obtain ⟨hreads, htasks⟩ := h
          rfl
        simp only [Server.taskStep, hnow]
        exact .some ⟨h.setTask id (.some (.mk .fetching)), .same _⟩
      | _ => exact .none
    | complete =>
      cases hpoint with
      | completing hbatch hstored => exact .some (completePlan_same h id _ _ _ _ _ hbatch hstored)
      | _ => exact .none
    | publish =>
      cases hpoint with
      | @reporting report =>
        obtain ⟨hreads, htasks⟩ := h
        have hpublished : Server.Same P (P.withJson parseJson decodeStrings hdecode) { s with report }
            { s with report, reads := _, tasks := _ } := .mk hreads htasks
        exact .some ⟨hpublished.setTask id (.some (.mk .releasing)), .same _⟩
      | _ => exact .none
    | release =>
      cases hpoint with
      | releasing => exact .some ⟨h.endTask id, .same _⟩
      | _ => exact .none
    | _ => exact .none

lemma Server.Same.reads (h : s.Same P P' s') (id : ℕ) : Option.Rel ReadPoint.Same (s.reads id) (s'.reads id) := by
  obtain ⟨hreads, htasks⟩ := h
  exact hreads id

lemma Server.Same.tasks (h : s.Same P P' s') (id : ℕ) :
    Option.Rel (RefreshTask.Same P P') (s.tasks id) (s'.tasks id) := by
  obtain ⟨hreads, htasks⟩ := h
  exact htasks id

lemma rel_bind {α β γ δ : Type} {R : α → β → Prop} {S : γ → δ → Prop} {a : Option α} {b : Option β}
    (h : Option.Rel R a b) {f : α → Option γ} {g : β → Option δ} (hfg : ∀ x y, R x y → Option.Rel S (f x) (g y)) :
    Option.Rel S (a.bind f) (b.bind g) := by
  cases h with
  | none => exact .none
  | some hxy => exact hfg _ _ hxy

lemma rel_mono {α β : Type} {R S : α → β → Prop} {a : Option α} {b : Option β} (h : Option.Rel R a b)
    (hRS : ∀ x y, R x y → S x y) : Option.Rel S a b := by
  cases h with
  | none => exact .none
  | some hxy => exact .some (hRS _ _ hxy)

lemma rel_map {α β γ δ : Type} {R : α → β → Prop} {S : γ → δ → Prop} {a : Option α} {b : Option β}
    (h : Option.Rel R a b) {f : α → γ} {g : β → δ} (hfg : ∀ x y, R x y → S (f x) (g y)) :
    Option.Rel S (a.map f) (b.map g) := by
  cases h with
  | none => exact .none
  | some hxy => exact .some (hfg _ _ hxy)

lemma presence_same (h : s.Same P P' s') (maxViewers : ℕ) (payload : PresencePayload) :
    (s.updatePresence maxViewers payload).1.Same P P' (s'.updatePresence maxViewers payload).1 ∧
      (s.updatePresence maxViewers payload).2.Same (s'.updatePresence maxViewers payload).2 := by
  have hkept := h
  obtain ⟨hreads, htasks⟩ := h
  unfold Server.updatePresence
  split
  · have hupdated : Server.Same P P' { s with registry := (applyPresenceUpdate maxViewers payload s.now s.registry).2 }
        { s with registry := (applyPresenceUpdate maxViewers payload s.now s.registry).2, reads := _, tasks := _ } :=
      .mk hreads htasks
    exact ⟨hupdated, .same _⟩
  · exact ⟨hkept, .same _⟩

lemma beginRead_same (h : s.Same P P' s') :
    s.beginRead.1.Same P P' s'.beginRead.1 ∧ s.beginRead.2.Same s'.beginRead.2 := by
  obtain ⟨hreads, htasks⟩ := h
  have hbegun : Server.Same P P' { s with nextId := s.nextId + 1 }
      { s with nextId := s.nextId + 1, reads := _, tasks := _ } := .mk hreads htasks
  unfold Server.beginRead
  dsimp only
  split
  · have howned : Server.Same P P' { s with nextId := s.nextId + 1, owner := some (.read s.nextId) }
        { s with nextId := s.nextId + 1, owner := some (.read s.nextId), reads := _, tasks := _ } := .mk hreads htasks
    exact ⟨howned.setRead s.nextId (.some .loading), .same _⟩
  · exact ⟨hbegun.setRead s.nextId (.some .loading), .same _⟩

/-- A step of the server in both runs. -/
theorem serverStep_same (h : s.Same P (P.withJson parseJson decodeStrings hdecode) s') (path : DbPath) (maxViewers : ℕ)
    {i i' : ServerInput} (hi : i.Same P (P.withJson parseJson decodeStrings hdecode) i') :
    SameStep P (P.withJson parseJson decodeStrings hdecode) ((serverMachine P path maxViewers).step s i)
      ((serverMachine (P.withJson parseJson decodeStrings hdecode) path maxViewers).step s' i') := by
  cases hi with
  | @load id F G hF => exact rel_bind (h.reads id) fun point point' hpoint => load_same h hpoint id hF
  | @collect id attempts attempts' nowUnix hattempts =>
    exact rel_bind (h.tasks id) fun task task' htask => taskStep_same h path id htask (.collect hattempts)
  | @store id F G hF =>
    exact rel_bind (h.tasks id) fun task task' htask => taskStep_same h path id htask (.store hF)
  | @plain i hi =>
    cases i with
    | load | collect | store => simp [ServerInput.plain] at hi
    | advance now =>
      obtain ⟨hreads, htasks⟩ := h
      simp only [serverMachine]
      split
      · exact .some ⟨.mk (s := { s with now }) hreads htasks, .same _⟩
      · exact .none
    | stop =>
      obtain ⟨hreads, htasks⟩ := h
      exact .some ⟨.mk (s := { s with stopping := true }) hreads htasks, .same _⟩
    | presence payload => exact .some (presence_same h maxViewers payload)
    | read => exact .some (beginRead_same h)
    | count id | copyReport id | cancel id | decide id | loadGeneration id | begin id | spawn id | dropOwner id
    | respond id => exact rel_bind (h.reads id) fun point point' hpoint => readStep_same h hpoint id rfl
    | recheckStopping id | recheckViewers id | dispatch id | complete id | publish id | release id =>
      exact rel_bind (h.tasks id) fun task task' htask => taskStep_same h path id htask (.plain rfl)

namespace News

inductive Input.Same : Input → Input → Prop
  | same (i : Input) : Same i i
  | fetched {task : ℕ} {result result' : Except String String} (h : result.toOption = result'.toOption) :
    Same (.fetched task result) (.fetched task result')

inductive Action.Same : Action → Action → Prop
  | same (a : Action) : Same a a
  | settled {task now : ℕ} {result result' : Except String String} (h : result.toOption = result'.toOption) :
    Same (.settled task now result) (.settled task now result')

inductive TaskPoint.Same : TaskPoint → TaskPoint → Prop
  | fetching : Same .fetching .fetching
  | settling {result result' : Except String String} (h : result.toOption = result'.toOption) :
    Same (.settling result) (.settling result')

inductive State.Same (s : State) : State → Prop
  | mk {tasks : ℕ → Option TaskPoint} (h : ∀ task, Option.Rel TaskPoint.Same (s.tasks task) (tasks task)) :
    Same s { s with tasks }

lemma settle_same {result result' : Except String String} (h : result.toOption = result'.toOption) (cache : FeedCache)
    (now : ℕ) : settle cache result now = settle cache result' now := by
  cases result with
  | error e =>
    cases result' with
    | error e' => rfl
    | ok xml => simp [Except.toOption] at h
  | ok xml =>
    cases result' with
    | error e => simp [Except.toOption] at h
    | ok xml' => rw [Option.some.inj h]

/-- A step of the news: both runs stand still, or both move. -/
def SameStep : Option (State × Action) → Option (State × Action) → Prop :=
  Option.Rel fun r r' => r.1.Same r'.1 ∧ r.2.Same r'.2

variable {s : State} {tasks : ℕ → Option TaskPoint}

lemma State.Same.setTask (h : ∀ task, Option.Rel TaskPoint.Same (s.tasks task) (tasks task)) (task : ℕ)
    {point point' : Option TaskPoint} (hpoint : Option.Rel TaskPoint.Same point point') :
    (s.setTask task point).Same (State.setTask { s with tasks } task point') :=
  .mk (s := s.setTask task point) (rel_update h task hpoint)

lemma fetched_same (h : ∀ task, Option.Rel TaskPoint.Same (s.tasks task) (tasks task)) (task : ℕ)
    {result result' : Except String String} (hresult : result.toOption = result'.toOption) :
    SameStep (machine.step s (.fetched task result)) (machine.step { s with tasks } (.fetched task result')) := by
  have hrel := h task
  simp only [machine]
  generalize s.tasks task = point at hrel
  generalize tasks task = point' at hrel
  cases hrel with
  | none => exact .none
  | some hpoint =>
    cases hpoint with
    | fetching => exact .some ⟨.setTask h task (.some (.settling hresult)), .same _⟩
    | settling => exact .none

lemma settleStep_same (h : ∀ task, Option.Rel TaskPoint.Same (s.tasks task) (tasks task)) (task : ℕ) :
    SameStep (machine.step s (.settle task)) (machine.step { s with tasks } (.settle task)) := by
  have hrel := h task
  simp only [machine]
  generalize s.tasks task = point at hrel
  generalize tasks task = point' at hrel
  cases hrel with
  | none => exact .none
  | some hpoint =>
    cases hpoint with
    | fetching => exact .none
    | @settling result result' hresult =>
      dsimp only
      rw [settle_same hresult]
      exact .some ⟨.setTask (s := { s with cache := settle s.cache result' s.now }) h task .none, .settled hresult⟩

lemma read_same (h : ∀ task, Option.Rel TaskPoint.Same (s.tasks task) (tasks task)) (reader : ℕ) :
    (s.read reader).1.Same (State.read { s with tasks } reader).1 ∧
      (s.read reader).2.Same (State.read { s with tasks } reader).2 := by
  unfold State.read
  dsimp only
  split
  · refine ⟨.mk (s := State.setTask
      { State.setReader { s with cache := (newsResponse s.cache s.now).1 } reader false with
        nextId := s.nextId + 1 } s.nextId (some .fetching)) ?_, .same _⟩
    exact rel_update h s.nextId (.some .fetching)
  · exact ⟨.mk (s := State.setReader { s with cache := (newsResponse s.cache s.now).1 } reader false) h, .same _⟩

theorem step_same {s s' : State} (h : s.Same s') {i i' : Input} (hi : i.Same i') :
    SameStep (machine.step s i) (machine.step s' i') := by
  obtain ⟨htasks⟩ := h
  cases hi with
  | fetched hresult => exact fetched_same htasks _ hresult
  | same =>
    cases i with
    | advance now =>
      simp only [machine]
      split
      · exact .some ⟨.mk (s := { s with now }) htasks, .same _⟩
      · exact .none
    | arrive => exact .some ⟨.mk (s := { s with nextId := s.nextId + 1 }.setReader s.nextId true) htasks, .same _⟩
    | cancel reader =>
      simp only [machine]
      split
      · exact .some ⟨.mk (s := s.setReader reader false) htasks, .same _⟩
      · exact .none
    | read reader =>
      simp only [machine]
      split
      · exact .some (read_same htasks reader)
      · exact .none
    | fetched task result => exact fetched_same htasks task rfl
    | deadline task => exact fetched_same htasks task rfl
    | settle task => exact settleStep_same htasks task

end News

/-- Inputs without a diagnostic text. -/
def TrackerInput.plain : TrackerInput → Bool
  | .read _ _ | .check _ _ | .work _ | .newsWork _ => false
  | _ => true

inductive TrackerInput.Same (P P' : Platform) : TrackerInput → TrackerInput → Prop
  | plain {i : TrackerInput} (h : i.plain = true) : Same P P' i i
  | read {connection : ℕ} {i i' : ServerInput} (h : i.Same P P' i') :
    Same P P' (.read connection i) (.read connection i')
  | check {connection : ℕ} {F G : Faults} (h : SameFaults F G) : Same P P' (.check connection F) (.check connection G)
  | work {i i' : ServerInput} (h : i.Same P P' i') : Same P P' (.work i) (.work i')
  | newsWork {i i' : News.Input} (h : i.Same i') : Same P P' (.newsWork i) (.newsWork i')

inductive TrackerAction.Same : TrackerAction → TrackerAction → Prop
  | same (a : TrackerAction) : Same a a
  | server {a a' : ServerAction} (h : a.Same a') : Same (.server a) (.server a')
  | news {a a' : News.Action} (h : a.Same a') : Same (.news a) (.news a')

/-- Handlers hold no diagnostic text: what a handler has loaded is with its read. -/
inductive Tracker.Same (P P' : Platform) (t : Tracker) : Tracker → Prop
  | mk {server : Server} {news : News.State} (hserver : t.server.Same P P' server) (hnews : t.news.Same news) :
    Same P P' t { t with server, news }

lemma Tracker.Same.db {t t' : Tracker} (h : t.Same P P' t') : t.server.db = t'.server.db := by
  obtain ⟨⟨hreads, htasks⟩, hnews⟩ := h
  rfl

/-- A step of the process: both runs stand still, or both move. -/
def SameMove (P P' : Platform) : Option (Tracker × TrackerAction) → Option (Tracker × TrackerAction) → Prop :=
  Option.Rel fun r r' => r.1.Same P P' r'.1 ∧ r.2.Same r'.2

/-- The steps of an input in both runs. -/
def BothMove (P P' : Platform) (path : DbPath) (maxViewers : ℕ) (t t' : Tracker) (i i' : TrackerInput) : Prop :=
  SameMove P P' ((trackerMachine P path maxViewers).step t i) ((trackerMachine P' path maxViewers).step t' i')

lemma ServerInput.Same.target {i i' : ServerInput} (h : i.Same P P' i') : i.target = i'.target := by
  cases h <;> rfl

lemma ServerInput.Same.cancels {i i' : ServerInput} (h : i.Same P P' i') : i.cancels = i'.cancels := by
  cases h <;> rfl

lemma News.Input.Same.isWork {i i' : News.Input} (h : i.Same i') : i.isWork = i'.isWork := by
  cases h <;> rfl

lemma afterUpdate_same (payload : PresencePayload) {a a' : ServerAction} (h : a.Same a') :
    Tracker.afterUpdate payload a = Tracker.afterUpdate payload a' := by
  cases h <;> rfl

lemma afterRead_same (id : ℕ) (activeViewers : Option ℕ) {a a' : ServerAction} (h : a.Same a') :
    Tracker.afterRead id activeViewers a = Tracker.afterRead id activeViewers a' := by
  cases h <;> rfl

lemma afterNews_same (reader : ℕ) {a a' : News.Action} (h : a.Same a') :
    Tracker.afterNews reader a = Tracker.afterNews reader a' := by
  cases h <;> rfl

lemma health_same {loaded loaded' : Except String StoredPriceState} (h : loaded.toOption = loaded'.toOption) :
    Answer.health loaded = Answer.health loaded' := by
  cases loaded with
  | error e =>
    cases loaded' with
    | error e' => rfl
    | ok stored => simp [Except.toOption] at h
  | ok stored =>
    cases loaded' with
    | error e => simp [Except.toOption] at h
    | ok stored' => rfl

section Steps

variable {t : Tracker} {server : Server} {news : News.State}

lemma serverMove {r r' : Option (Server × ServerAction)} (hstep : SameStep P P' r r') (hnews : t.news.Same news)
    (connection : ℕ) (f : ServerAction → Option Handler) (hf : ∀ a a', a.Same a' → f a = f a') :
    SameMove P P'
      (r.map fun r => ({ t with server := r.1 }.setConnection connection (f r.2), .server r.2))
      (r'.map fun r => ({ t with server := r.1, news }.setConnection connection (f r.2), .server r.2)) := by
  refine rel_map hstep fun r r' hboth => ⟨?_, .server hboth.2⟩
  dsimp only
  rw [hf _ _ hboth.2]
  exact .mk (t := { t with server := r.1 }.setConnection connection (f r'.2)) hboth.1 hnews

lemma newsMove {r r' : Option (News.State × News.Action)} (hstep : News.SameStep r r')
    (hserver : t.server.Same P P' server) (connection : ℕ) (f : News.Action → Option Handler)
    (hf : ∀ a a', a.Same a' → f a = f a') :
    SameMove P P'
      (r.map fun r => ({ t with news := r.1 }.setConnection connection (f r.2), .news r.2))
      (r'.map fun r => ({ t with server, news := r.1 }.setConnection connection (f r.2), .news r.2)) := by
  refine rel_map hstep fun r r' hboth => ⟨?_, .news hboth.2⟩
  dsimp only
  rw [hf _ _ hboth.2]
  exact .mk (t := { t with news := r.1 }.setConnection connection (f r'.2)) hserver hboth.1

lemma handlerMove (hserver : t.server.Same P P' server) (hnews : t.news.Same news) (connection : ℕ)
    (handler : Option Handler) (a : TrackerAction) :
    SameMove P P' (some (t.setConnection connection handler, a))
      (some (Tracker.setConnection { t with server, news } connection handler, a)) :=
  .some ⟨.mk (t := t.setConnection connection handler) hserver hnews, .same a⟩

lemma dropHandler_same (hserver : t.server.Same P (P.withJson parseJson decodeStrings hdecode) server)
    (hnews : t.news.Same news) (path : DbPath) (maxViewers connection : ℕ) (left : Option Handler) (handler : Handler) :
    SameMove P (P.withJson parseJson decodeStrings hdecode)
      (t.dropHandler (serverMachine P path maxViewers).step connection left handler)
      (Tracker.dropHandler (serverMachine (P.withJson parseJson decodeStrings hdecode) path maxViewers).step
        { t with server, news } connection left handler) := by
  cases handler with
  | reading id =>
    exact serverMove (serverStep_same hserver path maxViewers (.plain rfl)) hnews connection (fun _ => left)
      fun _ _ _ => rfl
  | news reader =>
    exact newsMove (News.step_same hnews (.same _)) hserver connection (fun _ => left) fun _ _ _ => rfl
  | starting => exact .none
  | _ => exact handlerMove hserver hnews connection left _

lemma route_same (hserver : t.server.Same P P' server) (hnews : t.news.Same news) (connection : ℕ) (r : Request) :
    SameMove P P' (t.route connection r) (Tracker.route { t with server, news } connection r) := by
  cases r with
  | news =>
    have hid : news.nextId = t.news.nextId := by
      obtain ⟨htasks⟩ := hnews
      rfl
    simp only [Tracker.route, hid]
    exact newsMove (News.step_same hnews (.same _)) hserver connection (fun _ => some (.news t.news.nextId))
      fun _ _ _ => rfl
  | _ => exact handlerMove hserver hnews connection _ _

lemma phaseMove (hserver : t.server.Same P P' server) (hnews : t.news.Same news) (enabled : Prop) [Decidable enabled]
    (phase : Phase) (a : TrackerAction) :
    SameMove P P' (if enabled then some ({ t with phase }, a) else none)
      (if enabled then some ({ t with server, news, phase }, a) else none) := by
  split
  · exact .some ⟨.mk (t := { t with phase }) hserver hnews, .same a⟩
  · exact .none

section Inputs

variable (hserver : t.server.Same P (P.withJson parseJson decodeStrings hdecode) server) (hnews : t.news.Same news)
  (path : DbPath) (maxViewers : ℕ)

include hserver hnews

lemma advance_same (now : ℕ) :
    BothMove P (P.withJson parseJson decodeStrings hdecode) path maxViewers t { t with server, news }
      (.advance now) (.advance now) := by
  have hserve := serverStep_same hserver path maxViewers (.plain (i := .advance now) rfl)
  have hfeed := News.step_same hnews (.same (.advance now))
  exact rel_bind hserve fun r r' hboth => rel_map hfeed fun feed feed' hfeed =>
    ⟨.mk (t := { t with server := r.1, news := feed.1 }) hboth.1 hfeed.1, .server hboth.2⟩

lemma read_same (connection : ℕ) {i i' : ServerInput}
    (hi : i.Same P (P.withJson parseJson decodeStrings hdecode) i') :
    BothMove P (P.withJson parseJson decodeStrings hdecode) path maxViewers t { t with server, news }
      (.read connection i) (.read connection i') := by
  simp only [BothMove, trackerMachine, hi.target, hi.cancels]
  split
  · split
    · exact serverMove (serverStep_same hserver path maxViewers hi) hnews connection _ fun _ _ =>
      afterRead_same _ _
    · exact .none
  · exact .none

lemma check_same (connection : ℕ) {F G : Faults} (hF : SameFaults F G) :
    BothMove P (P.withJson parseJson decodeStrings hdecode) path maxViewers t { t with server, news }
      (.check connection F) (.check connection G) := by
  have hdb : server.db = t.server.db := by
    obtain ⟨hreads, htasks⟩ := hserver
    rfl
  have hhealth := health_same ((loadPriceState_agree P parseJson hdecode).atomically hF t.server.db).1
  simp only [BothMove, trackerMachine, hdb, hhealth]
  split
  · exact handlerMove hserver hnews connection _ _
  · exact .none

lemma work_same {i i' : ServerInput} (hi : i.Same P (P.withJson parseJson decodeStrings hdecode) i') :
    BothMove P (P.withJson parseJson decodeStrings hdecode) path maxViewers t { t with server, news }
      (.work i) (.work i') := by
  simp only [BothMove, trackerMachine, hi.target]
  split
  · exact rel_map (serverStep_same hserver path maxViewers hi) fun r r' hboth =>
      ⟨.mk (t := { t with server := r.1 }) hboth.1 hnews, .server hboth.2⟩
  · exact .none

lemma newsWork_same {i i' : News.Input} (hi : i.Same i') :
    BothMove P (P.withJson parseJson decodeStrings hdecode) path maxViewers t { t with server, news }
      (.newsWork i) (.newsWork i') := by
  simp only [BothMove, trackerMachine, hi.isWork]
  split
  · exact rel_map (News.step_same hnews hi) fun r r' hboth =>
      ⟨.mk (t := { t with news := r.1 }) hserver hboth.1, .news hboth.2⟩
  · exact .none

lemma update_same (connection : ℕ) :
    BothMove P (P.withJson parseJson decodeStrings hdecode) path maxViewers t { t with server, news }
      (.update connection) (.update connection) := by
  simp only [BothMove, trackerMachine]
  split
  · rename_i payload _
    exact serverMove (serverStep_same hserver path maxViewers (.plain rfl)) hnews connection
      (fun a => some (Tracker.afterUpdate payload a)) fun _ _ h => congrArg some (afterUpdate_same payload h)
  · exact .none

lemma start_same (connection : ℕ) :
    BothMove P (P.withJson parseJson decodeStrings hdecode) path maxViewers t { t with server, news }
      (.start connection) (.start connection) := by
  have hid : server.nextId = t.server.nextId := by
    obtain ⟨hreads, htasks⟩ := hserver
    rfl
  simp only [BothMove, trackerMachine, hid]
  split
  · rename_i activeViewers _
    exact serverMove (serverStep_same hserver path maxViewers (.plain rfl)) hnews connection
      (fun _ => some (.reading t.server.nextId activeViewers)) fun _ _ _ => rfl
  · exact .none

lemma readNews_same (connection : ℕ) :
    BothMove P (P.withJson parseJson decodeStrings hdecode) path maxViewers t { t with server, news }
      (.readNews connection) (.readNews connection) := by
  simp only [BothMove, trackerMachine]
  split
  · rename_i reader _
    exact newsMove (News.step_same hnews (.same _)) hserver connection
      (fun a => some (Tracker.afterNews reader a)) fun _ _ h => congrArg some (afterNews_same reader h)
  · exact .none

lemma expire_same (connection : ℕ) :
    BothMove P (P.withJson parseJson decodeStrings hdecode) path maxViewers t { t with server, news }
      (.expire connection) (.expire connection) := by
  simp only [BothMove, trackerMachine]
  generalize t.connections connection = handler
  cases handler with
  | none => exact .none
  | some handler =>
    dsimp only [Option.bind_some]
    split
    · exact dropHandler_same hserver hnews path maxViewers connection _ handler
    · exact .none

lemma close_same (connection : ℕ) :
    BothMove P (P.withJson parseJson decodeStrings hdecode) path maxViewers t { t with server, news }
      (.close connection) (.close connection) := by
  simp only [BothMove, trackerMachine]
  generalize t.connections connection = handler
  cases handler with
  | none => exact .none
  | some handler => exact dropHandler_same hserver hnews path maxViewers connection _ handler

lemma accept_same :
    BothMove P (P.withJson parseJson decodeStrings hdecode) path maxViewers t { t with server, news }
      .accept .accept := by
  simp only [BothMove, trackerMachine]
  split
  · exact .some ⟨.mk (t := { t with nextConnection := t.nextConnection + 1 }.setConnection t.nextConnection
      (some .waiting)) hserver hnews, .same _⟩
  · exact .none

lemma shutdown_same :
    BothMove P (P.withJson parseJson decodeStrings hdecode) path maxViewers t { t with server, news }
      .shutdown .shutdown := by
  simp only [BothMove, trackerMachine]
  split
  · exact rel_map (serverStep_same hserver path maxViewers (.plain rfl)) fun r r' hboth =>
      ⟨.mk (t := { t with server := r.1, phase := .draining }) hboth.1 hnews, .same _⟩
  · exact .none

lemma drained_same :
    BothMove P (P.withJson parseJson decodeStrings hdecode) path maxViewers t { t with server, news }
      .drained .drained := by
  have hidle : Tracker.idle { t with server, news } = t.idle := rfl
  simp only [BothMove, trackerMachine, hidle]
  exact phaseMove hserver hnews _ _ _

lemma lock_same :
    BothMove P (P.withJson parseJson decodeStrings hdecode) path maxViewers t { t with server, news } .lock .lock := by
  have howner : server.owner = t.server.owner := by
    obtain ⟨hreads, htasks⟩ := hserver
    rfl
  simp only [BothMove, trackerMachine, howner]
  exact phaseMove hserver hnews _ _ _

lemma plain_same {i : TrackerInput} (hi : i.plain = true) :
    BothMove P (P.withJson parseJson decodeStrings hdecode) path maxViewers t { t with server, news } i i := by
  cases i with
  | read | check | work | newsWork => simp [TrackerInput.plain] at hi
  | advance now => exact advance_same hserver hnews path maxViewers now
  | accept => exact accept_same hserver hnews path maxViewers
  | request connection r =>
    simp only [BothMove, trackerMachine]
    split
    · exact route_same hserver hnews connection r
    · exact .none
  | refuse connection busy =>
    simp only [BothMove, trackerMachine]
    split
    · exact handlerMove hserver hnews connection _ _
    · exact .none
  | update connection => exact update_same hserver hnews path maxViewers connection
  | start connection => exact start_same hserver hnews path maxViewers connection
  | readNews connection => exact readNews_same hserver hnews path maxViewers connection
  | expire connection => exact expire_same hserver hnews path maxViewers connection
  | answer connection =>
    simp only [BothMove, trackerMachine]
    split
    · exact handlerMove hserver hnews connection _ _
    · exact .none
  | close connection => exact close_same hserver hnews path maxViewers connection
  | shutdown => exact shutdown_same hserver hnews path maxViewers
  | drained => exact drained_same hserver hnews path maxViewers
  | drainTimeout => exact phaseMove hserver hnews _ _ _
  | lock => exact lock_same hserver hnews path maxViewers
  | lockTimeout => exact phaseMove hserver hnews _ _ _

end Inputs

end Steps

/-- A step of the process in both runs. -/
theorem trackerStep_same {t t' : Tracker} (h : t.Same P (P.withJson parseJson decodeStrings hdecode) t')
    (path : DbPath) (maxViewers : ℕ) {i i' : TrackerInput}
    (hi : i.Same P (P.withJson parseJson decodeStrings hdecode) i') :
    SameMove P (P.withJson parseJson decodeStrings hdecode) ((trackerMachine P path maxViewers).step t i)
      ((trackerMachine (P.withJson parseJson decodeStrings hdecode) path maxViewers).step t' i') := by
  obtain ⟨hserver, hnews⟩ := h
  cases hi with
  | read hi => exact read_same hserver hnews path maxViewers _ hi
  | check hF => exact check_same hserver hnews path maxViewers _ hF
  | work hi => exact work_same hserver hnews path maxViewers hi
  | newsWork hi => exact newsWork_same hserver hnews path maxViewers hi
  | plain hi => exact plain_same hserver hnews path maxViewers hi

end TwoRuns

/-- What the clients receive. -/
def answers (history : List TrackerAction) : List (ℕ × Answer) :=
  history.filterMap fun
    | .answered connection answer => some (connection, answer)
    | _ => none

lemma answers_same {history history' : List TrackerAction} (h : List.Forall₂ TrackerAction.Same history history') :
    answers history = answers history' := by
  induction h with
  | nil => rfl
  | cons ha _ ih =>
    unfold answers at ih ⊢
    rw [List.filterMap_cons, List.filterMap_cons, ih]
    cases ha <;> rfl

/-- Two runs with the same inputs up to diagnostic texts go equally far, send the same answers and leave the same
rows. -/
theorem diagnostics_noninterference (P : Platform) (parseJson : List UInt8 → Except JsonError Json)
    (decodeStrings : String → Except JsonError (List String))
    (hdecode : ∀ text, (decodeStrings text).toOption = (P.decodeStrings text).toOption) (path : DbPath)
    (maxViewers : ℕ) (db : Database) (start : ℕ) {inputs inputs' : List TrackerInput}
    (h : List.Forall₂ (TrackerInput.Same P (P.withJson parseJson decodeStrings hdecode)) inputs inputs') :
    Option.Rel (fun r r' => answers r.1 = answers r'.1 ∧ r.2.server.db = r'.2.server.db)
      ((trackerMachine P path maxViewers).exec [] (.init db start) inputs)
      ((trackerMachine (P.withJson parseJson decodeStrings hdecode) path maxViewers).exec [] (.init db start)
        inputs') := by
  have hinit : Tracker.Same P (P.withJson parseJson decodeStrings hdecode) (.init db start) (.init db start) :=
    .mk (t := .init db start) (.mk (s := .init db start) (fun _ => .none) fun _ => .none)
      (.mk (s := .init start) fun _ => .none)
  have hstep : ∀ t t' i i', Tracker.Same P (P.withJson parseJson decodeStrings hdecode) t t' →
      TrackerInput.Same P (P.withJson parseJson decodeStrings hdecode) i i' →
      SameMove P (P.withJson parseJson decodeStrings hdecode) ((trackerMachine P path maxViewers).step t i)
        ((trackerMachine (P.withJson parseJson decodeStrings hdecode) path maxViewers).step t' i') :=
    fun t t' i i' hsame hi => trackerStep_same hsame path maxViewers hi
  exact rel_mono (Machine.exec_related hstep h .nil hinit) fun r r' hboth => ⟨answers_same hboth.1, hboth.2.db⟩

/-- A refresh that fails with the text `transport` and whose store fails with the text `storage`, then a reader
and a health check. -/
def diagnosedInputs (transport storage : String) : List TrackerInput :=
  [.accept, .request 0 (.presence ⟨"a", true, true⟩), .update 0, .start 0, .read 0 (.load 0 []),
    .read 0 (.count 0 1000), .read 0 (.copyReport 0), .read 0 (.decide 0), .read 0 (.loadGeneration 0),
    .read 0 (.begin 0), .read 0 (.spawn 0), .read 0 (.respond 0), .answer 0, .work (.recheckStopping 1),
    .work (.recheckViewers 1), .work (.dispatch 1),
    .work (.collect 1 (fun _ => ⟨1000, .error ⟨true, transport⟩, 1005⟩) 1005), .work (.store 1 [some storage]),
    .work (.complete 1 1005), .work (.publish 1), .work (.release 1), .accept, .request 1 .price, .start 1,
    .read 1 (.load 2 []), .read 1 (.count 2 1006), .read 1 (.copyReport 2), .read 1 (.decide 2),
    .read 1 (.loadGeneration 2), .read 1 (.begin 2), .read 1 (.dropOwner 2), .read 1 (.respond 2), .answer 1, .accept,
    .request 2 .health, .check 2 [some storage], .answer 2]

lemma diagnosedInputs_same (P P' : Platform) (transport transport' storage storage' : String)
    (h : ∀ source, Attempt.Same P P' source ⟨1000, .error ⟨true, transport⟩, 1005⟩
      ⟨1000, .error ⟨true, transport'⟩, 1005⟩) :
    List.Forall₂ (TrackerInput.Same P P') (diagnosedInputs transport storage)
      (diagnosedInputs transport' storage') := by
  unfold diagnosedInputs
  repeat' apply List.Forall₂.cons
  all_goals first
    | exact .nil
    | exact .plain rfl
    | exact .read (.plain rfl)
    | exact .read (.load rfl)
    | exact .work (.plain rfl)
    | exact .work (.collect h)
    | exact .work (.store rfl)
    | exact .check rfl

theorem diagnostics_noninterference_failures :
    let outcome := fun inputs => (trackerMachine .plain ⟨none, "tracker.db"⟩ 1).exec []
      (.init (.current .empty seededHealth) 0) inputs
    ((outcome (diagnosedInputs "connection timed out" "disk I/O error")).map fun r =>
        (answers r.1).map fun answered => (answered.1, answered.2.status)) = some [(2, 503), (1, 503), (0, 200)] ∧
      Option.Rel (fun r r' => answers r.1 = answers r'.1 ∧ r.2.server.db = r'.2.server.db)
        (outcome (diagnosedInputs "connection timed out" "disk I/O error"))
        ((trackerMachine (Platform.plain.withJson (fun _ => .error ⟨"EOF while parsing a value"⟩)
            Platform.plain.decodeStrings fun _ => rfl) ⟨none, "tracker.db"⟩ 1).exec []
          (.init (.current .empty seededHealth) 0) (diagnosedInputs "operation timed out" "database is locked")) :=
  ⟨rfl, diagnostics_noninterference .plain _ _ (fun _ => rfl) _ _ _ _
    (diagnosedInputs_same _ _ _ _ _ _ fun source => ⟨rfl, rfl, by cases source <;> rfl⟩)⟩

end BitcoinPriceTracker

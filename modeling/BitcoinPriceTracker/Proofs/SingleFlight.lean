import BitcoinPriceTracker.Proofs.RefreshSchedule
import BitcoinPriceTracker.Proofs.ServerViews

namespace BitcoinPriceTracker

variable {P : Platform} {path : DbPath} {maxViewers : ℕ} {s s' : Server} {a : ServerAction}
  {history : List ServerAction}

/-- What a read has loaded is in the history. -/
def ReadPoint.Recorded (history : List ServerAction) (id : ℕ) (point : ReadPoint) : Prop :=
  ∀ result, point.loaded = some result → .loaded id result ∈ history

lemma ReadStep.recorded {id : ℕ} {old new : Option ReadPoint} (hs : ReadStep s id old a new)
    (h : ∀ point, old = some point → point.Recorded history id) :
    ∀ point, new = some point → point.Recorded (a :: history) id := by
  have hkeep : ∀ {old new : ReadPoint}, old.Recorded history id → new.loaded = old.loaded →
      new.Recorded (a :: history) id := fun hold hloaded result hresult =>
    List.mem_cons_of_mem _ (hold result (hloaded ▸ hresult))
  rintro point rfl
  cases hs with
  | other => exact hkeep (h point rfl) rfl
  | began => exact fun result hresult => by simp [ReadPoint.loaded] at hresult
  | loaded =>
    intro result hresult
    obtain rfl := Option.some.inj hresult
    exact List.mem_cons_self
  | decided => exact hkeep (h _ rfl) (decision_loaded id _)
  | counted | reportCopied | generationLoaded | refused | granted | spawned | ownerDropped => exact hkeep (h _ rfl) rfl

lemma reads_recorded {db : Database} {start : ℕ}
    (h : (serverMachine P path maxViewers).Run (.init db start) history s) :
    ∀ id point, s.reads id = some point → point.Recorded history id := by
  refine h.invariant (P := fun history s => ∀ id point, s.reads id = some point → point.Recorded history id)
    (fun id point hread => by simp [Server.init] at hread) ?_
  intro history s i s' a hrun ih hs id
  exact (read_life (Exclusive.run hrun) (server_step hs) id).recorded (ih id)

lemma ReadStep.spawning {id : ℕ} {seen : ReadData} {plan : RefreshPlan} {new : Option ReadPoint}
    (hs : ReadStep s id (some (.spawning seen plan)) a new) :
    new = some (.spawning seen plan) ∨ ∃ task, a = .spawned id task plan := by
  cases hs with
  | other => exact .inl rfl
  | cancelled hpoint => simp [ReadPoint.cancellable] at hpoint
  | spawned => exact .inr ⟨_, rfl⟩

/-- A granted plan is with the read that asked for it until its task is spawned. -/
lemma granted_spawned {db : Database} {start : ℕ}
    (h : (serverMachine P path maxViewers).Run (.init db start) history s) :
    ∀ newer older id plan now, history = newer ++ .granted id plan now :: older →
      (∃ task, .spawned id task plan ∈ newer) ∨ ∃ seen, s.reads id = some (.spawning seen plan) := by
  refine h.invariant
    (P := fun history s => ∀ newer older id plan now, history = newer ++ .granted id plan now :: older →
    (∃ task, .spawned id task plan ∈ newer) ∨ ∃ seen, s.reads id = some (.spawning seen plan)) ?_ ?_
  · intro newer older id plan now hhistory
    simp at hhistory
  · intro history s i s' a hrun ih hs newer older id plan now hhistory
    cases newer with
    | nil =>
      obtain ⟨rfl, rfl⟩ := List.cons.inj hhistory
      cases server_step hs with
      | @granted _ _ seen _ _ hread => exact .inr ⟨seen, by simp⟩
    | cons b newer =>
      obtain ⟨rfl, rfl⟩ := List.cons.inj hhistory
      rcases ih newer older id plan now rfl with ⟨task, hspawned⟩ | ⟨seen, hread⟩
      · exact .inl ⟨task, List.mem_cons_of_mem _ hspawned⟩
      · have hlife := read_life (Exclusive.run hrun) (server_step hs) id
        rw [hread] at hlife
        rcases hlife.spawning with hkept | ⟨task, rfl⟩
        · exact .inr ⟨seen, hkept⟩
        · exact .inl ⟨task, List.mem_cons_self⟩

/-- What has happened to a plan before its requests, most recent first. -/
def Flight.Recorded (history : List ServerAction) : Flight → Prop
  | granted read plan => ∃ now, .granted read plan now ∈ history
  | running task plan .spawned =>
    ∃ read now, List.Sublist [.spawned read task plan, .granted read plan now] history
  | running task plan .counting =>
    ∃ read now, List.Sublist [.notStopping task, .spawned read task plan, .granted read plan now] history
  | running task plan .dispatching =>
    ∃ middle older seenAt viewers, history = middle ++ .viewersSeen task seenAt viewers :: older ∧ 0 < viewers ∧
      ∃ read now, List.Sublist [.notStopping task, .spawned read task plan, .granted read plan now] older
  | _ => True

lemma Flight.Recorded.mono {flight : Flight} (h : flight.Recorded history) (a : ServerAction) :
    flight.Recorded (a :: history) := by
  rcases flight with ⟨read, plan⟩ | ⟨task, plan, point⟩
  · obtain ⟨now, hmem⟩ := h
    exact ⟨now, List.mem_cons_of_mem _ hmem⟩
  · cases point with
    | spawned | counting =>
      obtain ⟨read, now, hsublist⟩ := h
      exact ⟨read, now, hsublist.cons a⟩
    | dispatching =>
      obtain ⟨middle, older, seenAt, viewers, rfl, hrest⟩ := h
      exact ⟨a :: middle, older, seenAt, viewers, rfl, hrest⟩
    | _ => trivial

lemma FlightStep.recorded {flight flight' : Option Flight} (hs : FlightStep flight a flight')
    (h : ∀ f, flight = some f → f.Recorded history) : ∀ f, flight' = some f → f.Recorded (a :: history) := by
  rintro f rfl
  cases hs with
  | other => exact (h f rfl).mono a
  | granted => exact ⟨_, List.mem_cons_self⟩
  | spawned =>
    obtain ⟨now, hmem⟩ := h _ rfl
    exact ⟨_, now, (List.singleton_sublist.mpr hmem).cons_cons _⟩
  | notStopping =>
    obtain ⟨read, now, hsublist⟩ := h _ rfl
    exact ⟨read, now, hsublist.cons_cons _⟩
  | viewersSeen hviewers =>
    obtain ⟨read, now, hsublist⟩ := h _ rfl
    exact ⟨[], history, _, _, rfl, hviewers, read, now, hsublist⟩
  | requested | collected | stored | completed | published => trivial

lemma flight_recorded {db : Database} {start : ℕ}
    (h : (serverMachine P path maxViewers).Run (.init db start) history s) :
    ∀ f, s.flight = some f → f.Recorded history := by
  refine h.invariant (P := fun history s => ∀ f, s.flight = some f → f.Recorded history)
    (fun f hf => by simp [Server.flight, Server.held, Server.init] at hf) ?_
  intro history s i s' a hrun ih hs
  exact (flight_step (Exclusive.run hrun) (server_step hs)).recorded ih

/-- A plan is granted. -/
def ServerAction.grants : ServerAction → Bool
  | granted _ _ _ => true
  | _ => false

/-- The guard of a plan is dropped. -/
def ServerAction.lands : ServerAction → Bool
  | stoppingSeen _ _ | noViewers _ _ _ | completionUnwound _ _ _ | released _ => true
  | _ => false

lemma flights_counted {db : Database} {start : ℕ}
    (h : (serverMachine P path maxViewers).Run (.init db start) history s) :
    history.countP ServerAction.grants = history.countP ServerAction.lands + if s.flight.isSome then 1 else 0 := by
  refine h.invariant (P := fun history s => history.countP ServerAction.grants =
    history.countP ServerAction.lands + if s.flight.isSome then 1 else 0)
    (by simp [Server.flight, Server.held, Server.init]) ?_
  intro history s i s' a hrun ih hs
  have hflight := flight_step (Exclusive.run hrun) (server_step hs)
  rw [List.countP_cons, List.countP_cons, ih]
  generalize s.flight = flight at hflight ⊢
  generalize s'.flight = flight' at hflight ⊢
  cases hflight with
  | other ha =>
    revert ha
    cases a <;> simp [ServerAction.ofPlan, ServerAction.grants, ServerAction.lands]
  | _ => simp [ServerAction.grants, ServerAction.lands]

/-- A request to a provider, up to an instant. -/
def ServerAction.requests (source : UpstreamSource) (horizon : ℕ) : ServerAction → Bool
  | requested _ sources now => source ∈ sources && now ≤ horizon
  | _ => false

/-- The instants at which plans were granted, most recent first. -/
def grantsOf (history : List ServerAction) : List ℕ := grantInstants (history.filterMap refreshView)

lemma grantsOf_granted (id now : ℕ) (plan : RefreshPlan) (history : List ServerAction) :
    grantsOf (.granted id plan now :: history) = now :: grantsOf history := rfl

lemma grantsOf_cons (ha : a.grants = false) (history : List ServerAction) :
    grantsOf (a :: history) = grantsOf history := by
  cases a with
  | granted => simp [ServerAction.grants] at ha
  | _ => rfl

/-- The requests of the plan are still to come. -/
def Flight.waiting : Flight → Bool
  | granted _ _ | running _ _ .spawned | running _ _ .counting | running _ _ .dispatching => true
  | _ => false

lemma FlightStep.waiting {flight flight' : Option Flight} (h : FlightStep flight a flight') :
    match a with
    | .granted _ _ _ => flight.any Flight.waiting = false
    | .requested _ _ _ => flight.any Flight.waiting = true ∧ flight'.any Flight.waiting = false
    | _ => flight'.any Flight.waiting = true → flight.any Flight.waiting = true := by
  cases h with
  | other ha =>
    revert ha
    cases a <;> simp [ServerAction.ofPlan]
  | _ => simp [Flight.waiting]

/-- Every request up to an instant belongs to a plan that was granted by then. -/
structure Budgeted (source : UpstreamSource) (horizon : ℕ) (history : List ServerAction) (s : Server) : Prop where
  past : ∀ now ∈ grantsOf history, now ≤ s.now
  paid : history.countP (ServerAction.requests source horizon) +
      (if s.flight.any Flight.waiting = true ∧ ∀ now ∈ (grantsOf history).head?, now ≤ horizon then 1 else 0) ≤
    (grantsOf history).countP (· ≤ horizon)

lemma Budgeted.step {source : UpstreamSource} {horizon : ℕ} (h : Budgeted source horizon history s)
    (hexclusive : Exclusive s) (hs : ServerStep P path maxViewers s a s') :
    Budgeted source horizon (a :: history) s' := by
  have hwaiting := (flight_step hexclusive hs).waiting
  have hnow := now_le_of_step hs
  cases hgrants : a.grants with
  | true =>
    cases hs with
    | @granted id generation seen plan c hread hbegin =>
      dsimp only at hwaiting
      refine ⟨fun now hmem => ?_, ?_⟩
      · rcases List.mem_cons.mp hmem with rfl | hmem
        · exact le_rfl
        · exact h.past now hmem
      · have hpaid := h.paid
        rw [grantsOf_granted, List.countP_cons, List.countP_cons]
        simp only [hwaiting, Bool.false_eq_true, false_and, if_false, Nat.add_zero] at hpaid
        simp only [ServerAction.requests, Bool.false_eq_true, if_false, List.head?_cons, Option.mem_some_iff,
          forall_eq', decide_eq_true_eq, Nat.add_zero]
        split <;> split <;> omega
    | _ => simp [ServerAction.grants] at hgrants
  | false =>
    have hpast : ∀ now ∈ grantsOf (a :: history), now ≤ s'.now := by
      rw [grantsOf_cons hgrants]
      exact fun now hmem => (h.past now hmem).trans hnow
    by_cases hrequested : ∃ task sources now, a = .requested task sources now
    · obtain ⟨task, sources, now, rfl⟩ := hrequested
      obtain ⟨hbefore, hafter⟩ := hwaiting
      have hinstant : now = s.now := by
        cases hs
        rfl
      refine ⟨hpast, ?_⟩
      rw [grantsOf_cons hgrants, List.countP_cons]
      have hpaid := h.paid
      simp only [hbefore, true_and] at hpaid
      simp only [hafter, Bool.false_eq_true, false_and, if_false, ServerAction.requests, Bool.and_eq_true,
        decide_eq_true_eq, Nat.add_zero]
      by_cases hcounted : source ∈ sources ∧ now ≤ horizon
      · have hgranted : ∀ now ∈ (grantsOf history).head?, now ≤ horizon := fun earlier hmem =>
          (h.past earlier (List.mem_of_mem_head? hmem)).trans (hinstant ▸ hcounted.2)
        rw [if_pos hgranted] at hpaid
        rwa [if_pos hcounted]
      · rw [if_neg hcounted]
        omega
    · obtain ⟨hother, hnone⟩ : (s'.flight.any Flight.waiting = true → s.flight.any Flight.waiting = true) ∧
          a.requests source horizon = false := by
        cases a with
        | granted => simp [ServerAction.grants] at hgrants
        | requested task sources now => exact absurd ⟨task, sources, now, rfl⟩ hrequested
        | _ => exact ⟨hwaiting, rfl⟩
      refine ⟨hpast, ?_⟩
      rw [grantsOf_cons hgrants, List.countP_cons, hnone]
      refine le_trans (Nat.add_le_add_left ?_ _) h.paid
      split
      · next hboth => rw [if_pos ⟨hother hboth.1, hboth.2⟩]
      · exact Nat.zero_le _

theorem Budgeted.run {db : Database} {start : ℕ} (source : UpstreamSource) (horizon : ℕ)
    (h : (serverMachine P path maxViewers).Run (.init db start) history s) : Budgeted source horizon history s :=
  h.invariant (P := fun history s => Budgeted source horizon history s)
    ⟨fun now hmem => by simp [grantsOf, grantInstants] at hmem, by simp [Server.flight, Server.held, Server.init]⟩
    fun _ _ _ _ _ hrun ih hs => ih.step (Exclusive.run hrun) (server_step hs)

lemma countP_spaced {d first : ℕ} (hd : 0 < d) {instants : List ℕ}
    (hspaced : instants.Pairwise fun later earlier => earlier + d ≤ later) (hfirst : ∀ now ∈ instants, first ≤ now)
    (n : ℕ) : instants.countP (· ≤ first + n * d) ≤ n + 1 := by
  induction instants generalizing n with
  | nil => simp
  | cons latest rest ih =>
    obtain ⟨hlatest, hrest⟩ := List.pairwise_cons.mp hspaced
    have hle := ih hrest fun now hmem => hfirst now (List.mem_cons_of_mem _ hmem)
    rw [List.countP_cons]
    by_cases hcounted : latest ≤ first + n * d
    · simp only [hcounted, decide_true, if_true]
      cases n with
      | zero =>
        -- Nothing fits before the first instant.
        have hnil : rest = [] := List.eq_nil_iff_forall_not_mem.mpr fun now hmem => by
          have := hlatest now hmem
          have := hfirst now (List.mem_cons_of_mem _ hmem)
          omega
        simp [hnil]
      | succ m =>
        have hshift : rest.countP (· ≤ first + (m + 1) * d) = rest.countP (· ≤ first + m * d) := by
          refine List.countP_congr fun now hmem => ?_
          have := hlatest now hmem
          simp only [decide_eq_true_eq]
          rw [Nat.add_mul, Nat.one_mul] at hcounted ⊢
          omega
        have := hle m
        omega
    · simp only [hcounted, decide_false, Bool.false_eq_true, if_false, Nat.add_zero]
      exact hle n

lemma mem_grantsOf {now : ℕ} : now ∈ grantsOf history ↔ ∃ id plan, .granted id plan now ∈ history := by
  simp only [grantsOf, mem_grantInstants, List.mem_filterMap]
  constructor
  · rintro ⟨plan, a, hmem, ha⟩
    cases a with
    | granted id plan' now' =>
      obtain ⟨rfl, rfl⟩ := RefreshAction.granted.inj (Option.some.inj ha)
      exact ⟨id, _, hmem⟩
    | _ => simp [refreshView] at ha
  · rintro ⟨id, plan, hmem⟩
    exact ⟨plan, _, hmem, rfl⟩

lemma requests_le {db : Database} {start : ℕ} {newer older : List ServerAction} {id first : ℕ} {plan : RefreshPlan}
    (h : (serverMachine P path maxViewers).Run (.init db start) (newer ++ .granted id plan first :: older) s)
    (holder : ∀ id plan now, .granted id plan now ∉ older) (source : UpstreamSource) (n : ℕ) :
    (newer ++ .granted id plan first :: older).countP
      (ServerAction.requests source (first + Duration.fromSecs (10 * n))) ≤ n + 1 := by
  obtain ⟨_, _, hrefresh⟩ := refresh_refines h
  have hspaced := grantInstants_spaced hrefresh
  change (grantsOf (newer ++ .granted id plan first :: older)).Pairwise _ at hspaced
  have hnone : grantsOf older = [] := List.eq_nil_iff_forall_not_mem.mpr fun now hmem => by
    obtain ⟨id, plan, hgranted⟩ := mem_grantsOf.mp hmem
    exact holder id plan now hgranted
  have hgrants : grantsOf (newer ++ .granted id plan first :: older) = grantsOf newer ++ [first] := by
    rw [← hnone]
    simp [grantsOf, grantInstants, refreshView]
  have hfirst : ∀ now ∈ grantsOf (newer ++ .granted id plan first :: older), first ≤ now := by
    rw [hgrants] at hspaced ⊢
    intro now hmem
    rcases List.mem_append.mp hmem with hnewer | hlast
    · exact le_of_add_le_left ((List.pairwise_append.mp hspaced).2.2 now hnewer first List.mem_cons_self)
    · exact (List.mem_singleton.mp hlast).ge
  have hinterval : Duration.fromSecs (10 * n) = n * refreshInterval := by
    simp only [refreshInterval, Duration.fromSecs, REFRESH_INTERVAL_SECONDS]
    ring
  have hcount := countP_spaced (d := refreshInterval)
    (by norm_num [refreshInterval, Duration.fromSecs, REFRESH_INTERVAL_SECONDS]) hspaced hfirst n
  rw [hinterval]
  exact (le_of_add_le_left (Budgeted.run source _ h).paid).trans hcount

def Flight.plan : Flight → RefreshPlan
  | granted _ plan | running _ plan _ => plan

/-- A read between `begin` and `spawn`, or a task until it drops the guard, carries its plan. -/
def Server.carries (s : Server) : Owner → RefreshPlan → Prop
  | .read id, plan => ∃ seen, s.reads id = some (.spawning seen plan)
  | .task id, plan => ∃ running, s.tasks id = some running ∧ running.plan = plan

lemma Exclusive.carries (h : Exclusive s) {carrier carrier' : Owner} {plan plan' : RefreshPlan}
    (hplan : s.carries carrier plan) (hplan' : s.carries carrier' plan') : carrier = carrier' ∧ plan = plan' := by
  have hflight : ∀ {carrier plan}, s.carries carrier plan →
      s.owner = some carrier ∧ s.flight.map Flight.plan = some plan := by
    rintro (id | id) plan hplan
    · obtain ⟨seen, hread⟩ := hplan
      exact ⟨h.planning id _ hread rfl, by rw [h.flight_planning hread rfl]; rfl⟩
    · obtain ⟨running, htask, rfl⟩ := hplan
      exact ⟨h.tasks id _ htask, by rw [h.flight_task htask]; rfl⟩
  have hfirst := hflight hplan
  have hsecond := hflight hplan'
  exact ⟨Option.some.inj (hfirst.1.symm.trans hsecond.1), Option.some.inj (hfirst.2.symm.trans hsecond.2)⟩

lemma mem_beatsOf {beat : Heartbeat} (h : beat ∈ beatsOf history) :
    ∃ payload viewers, .presence payload beat.seen (.ok viewers) ∈ history ∧ beat.active = payload.active := by
  simp only [beatsOf, acceptedBeats, List.mem_filterMap] at h
  obtain ⟨b, ⟨a, hmem, hview⟩, hbeat⟩ := h
  cases a with
  | presence payload now result =>
    obtain rfl := Option.some.inj hview
    cases result with
    | error n => simp at hbeat
    | ok viewers =>
      obtain rfl := Option.some.inj hbeat
      exact ⟨payload, viewers, hmem, rfl⟩
  | counted | viewersSeen | noViewers =>
    obtain rfl := Option.some.inj hview
    simp at hbeat
  | _ => simp [registryView] at hview

/-- What a request to a provider has behind it. -/
lemma requested_after {db : Database} {start : ℕ} {older : List ServerAction} {task now : ℕ}
    {sources : List UpstreamSource} {before after : Server} {i : ServerInput}
    (h : (serverMachine P path maxViewers).Run (.init db start) older before)
    (hs : (serverMachine P path maxViewers).step before i = some (after, .requested task sources now)) :
    ∃ middle earlier seenAt viewers read plan grantedAt,
      older = middle ++ .viewersSeen task seenAt viewers :: earlier ∧
      List.Sublist [.notStopping task, .spawned read task plan, .granted read plan grantedAt] earlier ∧
      sources = plan.sources ∧ viewers = (live (beatsOf earlier) seenAt).card ∧ 0 < viewers := by
  have hflight := flight_step (Exclusive.run h) (server_step hs)
  have hrecorded := flight_recorded h
  generalize before.flight = flight at hflight hrecorded
  generalize after.flight = flight' at hflight
  cases hflight with
  | other ha => simp [ServerAction.ofPlan] at ha
  | @requested _ _ plan =>
    obtain ⟨middle, earlier, seenAt, viewers, rfl, hviewers, read, grantedAt, hsublist⟩ := hrecorded _ rfl
    refine ⟨middle, earlier, seenAt, viewers, read, plan, grantedAt, rfl, hsublist, rfl, ?_, hviewers⟩
    obtain ⟨counting, j, counted, hcounting, hcount, _⟩ := h.event
    cases server_step hcount with
    | viewersSeen => exact (registry_counts hcounting).2

/-- Reads, cancellations, presence updates, the clock, the stop signal and refresh tasks in any order.
One plan at most is between its grant and the release of its guard. A plan is granted to a read whose
own load succeeded, and nothing but the spawn of its task ends that read. A request belongs to a task
that saw the stop flag down and then a live session, after its grant. So without an admitted session
there is no request, and in the first `n` intervals of 10 s after the first grant a provider gets
`n + 1` requests at most. -/
theorem single_flight_law (P : Platform) (path : DbPath) (maxViewers : ℕ) {db : Database} {start : ℕ}
    {history : List ServerAction} {s : Server}
    (h : (serverMachine P path maxViewers).Run (.init db start) history s) :
    (history.countP ServerAction.grants ≤ history.countP ServerAction.lands + 1 ∧
      ∀ carrier carrier' plan plan', s.carries carrier plan → s.carries carrier' plan' →
        carrier = carrier' ∧ plan = plan') ∧
    (∀ newer older id plan now, history = newer ++ .granted id plan now :: older →
      ∃ stored, .loaded id (.ok stored) ∈ older) ∧
    (∀ newer older id plan now, history = newer ++ .granted id plan now :: older →
      (∃ task, .spawned id task plan ∈ newer) ∨ ∃ seen, s.reads id = some (.spawning seen plan) ∧
        ((serverMachine P path maxViewers).step s (.spawn id)).isSome ∧
        ∀ i s' a, (serverMachine P path maxViewers).step s i = some (s', a) →
          s'.reads id = s.reads id ∨ ∃ task, a = .spawned id task plan) ∧
    (∀ newer older task sources now, history = newer ++ .requested task sources now :: older →
      ∃ middle earlier seenAt viewers read plan grantedAt,
        older = middle ++ .viewersSeen task seenAt viewers :: earlier ∧
        List.Sublist [.notStopping task, .spawned read task plan, .granted read plan grantedAt] earlier ∧
        sources = plan.sources ∧ viewers = (live (beatsOf earlier) seenAt).card ∧
        ∃ session seen, latestOf (beatsOf earlier) session = some ⟨session, true, seen⟩ ∧
          seenAt - seen ≤ Duration.fromSecs 15) ∧
    ((∀ payload now viewers, .presence payload now (.ok viewers) ∈ history → payload.active = false) →
      ∀ task sources now, .requested task sources now ∉ history) ∧
    ∀ newer older id plan first, history = newer ++ .granted id plan first :: older →
      (∀ id plan now, .granted id plan now ∉ older) → ∀ source n,
        history.countP (ServerAction.requests source (first + Duration.fromSecs (10 * n))) ≤ n + 1 := by
  refine ⟨⟨?_, fun _ _ _ _ => (Exclusive.run h).carries⟩, ?_, ?_, ?_, ?_, ?_⟩
  · rw [flights_counted h]
    split <;> omega
  · rintro newer older id plan now rfl
    obtain ⟨before, i, after, hbefore, hs, _⟩ := h.event
    cases server_step hs with
    | granted hread =>
      obtain ⟨stored, hstored⟩ := (Captured.run hbefore).readable id _ hread rfl
      exact ⟨stored, reads_recorded hbefore id _ hread _ hstored⟩
  · intro newer older id plan now hhistory
    rcases granted_spawned h newer older id plan now hhistory with hspawned | ⟨seen, hread⟩
    · exact .inl hspawned
    · refine .inr ⟨seen, hread, ?_, fun i s' a hs => ?_⟩
      · simp [serverMachine, ServerInput.target, hread, Server.readStep]
      · have hlife := read_life (Exclusive.run h) (server_step hs) id
        rw [hread] at hlife ⊢
        exact hlife.spawning
  · rintro newer older task sources now rfl
    obtain ⟨before, i, after, hbefore, hs, _⟩ := h.event
    obtain ⟨middle, earlier, seenAt, viewers, read, plan, grantedAt, holder, hsublist, hsources, hcount, hviewers⟩ :=
      requested_after hbefore hs
    refine ⟨middle, earlier, seenAt, viewers, read, plan, grantedAt, holder, hsublist, hsources, hcount, ?_⟩
    obtain ⟨session, hsession⟩ := Finset.card_pos.mp (hcount ▸ hviewers)
    obtain ⟨seen, hbeat, hage⟩ := mem_live.mp hsession
    exact ⟨session, seen, hbeat, hage⟩
  · intro hnone task sources now hmem
    obtain ⟨newer, older, rfl⟩ := List.append_of_mem hmem
    obtain ⟨before, i, after, hbefore, hs, _⟩ := h.event
    obtain ⟨middle, earlier, seenAt, viewers, _, _, _, rfl, _, _, hcount, hviewers⟩ := requested_after hbefore hs
    obtain ⟨session, hsession⟩ := Finset.card_pos.mp (hcount ▸ hviewers)
    obtain ⟨seen, hbeat, _⟩ := mem_live.mp hsession
    obtain ⟨payload, n, hpresence, hactive⟩ := mem_beatsOf (latestOf_session hbeat).1
    have hinactive := hnone payload seen n (by simp [hpresence])
    simp [hinactive] at hactive
  · rintro newer older id plan first rfl hfirst source n
    exact requests_le h hfirst source n

/-- One viewer and two plans, 10 s apart: CoinGecko gets two requests, and answers both. -/
theorem single_flight_law_twice :
    ∃ history s, (serverMachine .plain ⟨none, "tracker.db"⟩ 1).Run
        (.init (.current storedTables seededHealth) 0) history s ∧
      history.countP ServerAction.refreshes = 2 ∧
      history.countP (ServerAction.requests .coinGecko (Duration.fromSecs 10)) = 2 ∧
      history.countP (ServerAction.requests .coinGecko (0 + Duration.fromSecs (10 * 1))) ≤ 1 + 1 ∧
      history.countP ServerAction.grants ≤ history.countP ServerAction.lands + 1 := by
  have hchecked : ((serverMachine .plain ⟨none, "tracker.db"⟩ 1).exec [] (.init (.current storedTables seededHealth) 0)
      ((oneRefresh (someProviders "50000.5" 1000)).take 8)).any (fun r =>
        grantsOf r.1 = [0] && r.1.head?.any ServerAction.grants && r.1.tail.countP ServerAction.grants = 0 &&
        ((serverMachine .plain ⟨none, "tracker.db"⟩ 1).exec [] r.2
          ((oneRefresh (someProviders "50000.5" 1000)).drop 8 ++ nextRefresh (someProviders "51000.5" 1015) [])).any
          fun r' => (r'.1 ++ r.1).countP ServerAction.refreshes = 2 &&
            (r'.1 ++ r.1).countP (ServerAction.requests .coinGecko (Duration.fromSecs 10)) = 2) = true := by
    decide +kernel
  obtain ⟨⟨_ | ⟨a, older⟩, middle⟩, hfirst, hshown⟩ := (Option.any_eq_true _ _).mp hchecked
  · simp at hshown
  simp only [List.head?_cons, List.tail_cons, Option.any_some, Bool.and_eq_true, decide_eq_true_eq] at hshown
  obtain ⟨⟨⟨hinstants, hgrants⟩, hnone⟩, hrest⟩ := hshown
  obtain ⟨⟨newer, s⟩, hsecond, hcounts⟩ := (Option.any_eq_true _ _).mp hrest
  simp only [Bool.and_eq_true, decide_eq_true_eq] at hcounts
  obtain ⟨id, plan, now, rfl⟩ : ∃ id plan now, a = .granted id plan now := by
    unfold ServerAction.grants at hgrants
    split at hgrants
    · exact ⟨_, _, _, rfl⟩
    · simp at hgrants
  obtain ⟨rfl, _⟩ : now = 0 ∧ _ := List.cons.inj hinstants
  have hrun := (Machine.run_of_exec _ hfirst).trans (Machine.run_of_exec _ hsecond)
  have hlaw := single_flight_law .plain _ 1 hrun
  refine ⟨_, s, hrun, hcounts.1, hcounts.2, hlaw.2.2.2.2.2 newer older id plan 0 rfl ?_ .coinGecko 1, hlaw.1.1⟩
  intro id' plan' now' hmem
  exact List.countP_eq_zero.mp (of_decide_eq_true hnone) _ hmem rfl

end BitcoinPriceTracker

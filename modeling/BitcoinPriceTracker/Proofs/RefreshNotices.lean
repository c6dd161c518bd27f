import BitcoinPriceTracker.Proofs.CleanShutdown

namespace BitcoinPriceTracker

variable {P : Platform} {path : DbPath} {maxViewers : ℕ} {s s' : Server} {a : ServerAction}
  {history : List ServerAction} {db : Database} {start : ℕ}

/-- The report of the batch that a task has stored or failed to store. -/
def storedReport (P : Platform) (task : ℕ) : List ServerAction → Option PriceRefreshReport
  | [] => none
  | .stored id _ batch result :: older =>
    if id = task then some (Server.refreshReport P batch result) else storedReport P task older
  | _ :: older => storedReport P task older

/-- The report of the refresh that was published last. -/
def reportOf (P : Platform) : List ServerAction → PriceRefreshReport
  | [] => .default
  | .published task :: older => (storedReport P task older).getD .default
  | _ :: older => reportOf P older

lemma storedReport_cons {task : ℕ} (ha : ∀ latest batch result, a ≠ .stored task latest batch result) :
    storedReport P task (a :: history) = storedReport P task history := by
  cases a with
  | stored id latest batch result =>
    have hne : id ≠ task := by
      rintro rfl
      exact ha latest batch result rfl
    exact if_neg hne
  | _ => rfl

lemma reportOf_cons (ha : ∀ task, a ≠ .published task) : reportOf P (a :: history) = reportOf P history := by
  cases a with
  | published task => exact absurd rfl (ha task)
  | _ => rfl

/-- A task that has ended its transaction carries its own report. -/
def TaskPoint.Reported (P : Platform) (history : List ServerAction) (id : ℕ) : TaskPoint → Prop
  | .completing batch result => storedReport P id history = some (Server.refreshReport P batch result)
  | .reporting report => storedReport P id history = some report
  | _ => True

structure Reported (P : Platform) (history : List ServerAction) (s : Server) : Prop where
  current : s.report = reportOf P history
  tasks : ∀ id task, s.tasks id = some task → task.point.Reported P history id

lemma TaskPoint.Reported.cons {id : ℕ} {point : TaskPoint} (h : point.Reported P history id)
    (ha : ∀ latest batch result, a ≠ .stored id latest batch result) : point.Reported P (a :: history) id := by
  cases point <;> simp_all [TaskPoint.Reported, storedReport_cons]

lemma Reported.keep (h : Reported P history s) (hreport : s'.report = s.report)
    (ha : ∀ id latest batch result, a ≠ .stored id latest batch result) (hpublished : ∀ id, a ≠ .published id)
    (htasks : ∀ id task, s'.tasks id = some task → s.tasks id = some task ∨ task.point.Reported P [] id) :
    Reported P (a :: history) s' := by
  refine ⟨by rw [hreport, h.current, reportOf_cons hpublished], fun id task htask => ?_⟩
  rcases htasks id task htask with hsame | hearly
  · exact (h.tasks id task hsame).cons (ha id)
  · obtain ⟨snapshot, plan, point⟩ := task
    cases point <;> simp_all [TaskPoint.Reported, storedReport]

lemma tasks_update {tasks : ℕ → Option RefreshTask} {id : ℕ} {new : RefreshTask}
    (hnew : new.point.Reported P [] id) :
    ∀ other task, Function.update tasks id (some new) other = some task →
      tasks other = some task ∨ task.point.Reported P [] other := by
  intro other task htask
  rcases eq_or_ne other id with rfl | hne
  · rw [Function.update_self] at htask
    obtain rfl := Option.some.inj htask
    exact .inr hnew
  · exact .inl (by simpa [hne] using htask)

lemma tasks_end {tasks : ℕ → Option RefreshTask} {id : ℕ} :
    ∀ other task, Function.update tasks id none other = some task →
      tasks other = some task ∨ task.point.Reported P [] other := by
  intro other task htask
  rcases eq_or_ne other id with rfl | hne
  · simp at htask
  · exact .inl (by simpa [hne] using htask)

lemma Reported.step (h : Reported P history s) (hs : ServerStep P path maxViewers s a s') :
    Reported P (a :: history) s' := by
  cases hs with
  | @stored id task attempts nowUnix F batch result db htask hpoint hbatch hstore =>
    refine ⟨h.current, fun other running hrunning => ?_⟩
    rcases eq_or_ne other id with rfl | hne
    · simp only [Server.setTask_tasks, Function.update_self, Option.some.injEq] at hrunning
      subst hrunning
      simp [TaskPoint.Reported, storedReport]
    · refine (h.tasks other running (by simpa [hne] using hrunning)).cons fun latest batch' result' heq => ?_
      cases heq
      exact hne rfl
  | @completed id task batch stored nowUnix c htask hpoint hcomplete =>
    refine ⟨h.current, fun other running hrunning => ?_⟩
    rcases eq_or_ne other id with rfl | hne
    · simp only [Server.setTask_tasks, Function.update_self, Option.some.injEq] at hrunning
      subst hrunning
      have hstored := h.tasks other task htask
      rw [hpoint] at hstored
      exact (storedReport_cons (by simp)).trans hstored
    · exact (h.tasks other running (by simpa [hne] using hrunning)).cons (by simp)
  | @published id task report htask hpoint =>
    have hstored := h.tasks id task htask
    rw [hpoint] at hstored
    refine ⟨(congrArg (fun stored : Option PriceRefreshReport => stored.getD .default) hstored).symm,
      fun other running hrunning => ?_⟩
    rcases eq_or_ne other id with rfl | hne
    · simp only [Server.setTask_tasks, Function.update_self, Option.some.injEq] at hrunning
      subst hrunning
      trivial
    · exact (h.tasks other running (by simpa [hne] using hrunning)).cons (by simp)
  | spawned => exact h.keep rfl (by simp) (by simp) (tasks_update trivial)
  | notStopping | viewersSeen | requested | collected => exact h.keep rfl (by simp) (by simp) (tasks_update trivial)
  | stoppingSeen | noViewers | completionUnwound | released => exact h.keep rfl (by simp) (by simp) tasks_end
  | _ => exact h.keep rfl (by simp) (by simp) fun _ _ htask => .inl htask

theorem Reported.run (h : (serverMachine P path maxViewers).Run (.init db start) history s) : Reported P history s :=
  h.invariant (P := fun history s => Reported P history s)
    ⟨rfl, fun id task htask => by simp [Server.init] at htask⟩ fun _ _ _ _ _ _ ih hs => ih.step (server_step hs)

/-- What a read has seen, with the events behind it. -/
structure ReadData.Seen (P : Platform) (history : List ServerAction) (id : ℕ) (seen : ReadData) : Prop where
  loaded : .loaded id seen.loaded ∈ history
  counted : ∃ now, .counted id now seen.activeViewers ∈ history
  report : ∃ newer older, history = newer ++ .reportCopied id :: older ∧ seen.report = reportOf P older

/-- The reason of `refresh_skip_reason` for what a read has seen. -/
def ReadData.skipReason (seen : ReadData) (stored : StoredPriceState) : Option String :=
  refreshSkipReason seen.activeViewers
    (stored.snapshot.bind fun snapshot => snapshotAgeSeconds snapshot seen.responseNow)

/-- The read may refresh, if it has the guard. -/
def ReadData.MayRefresh (older : List ServerAction) (seen : ReadData) : Prop :=
  .stopped ∉ older ∧ ∃ stored, seen.loaded = .ok stored ∧ seen.skipReason stored = none

def Unspawned (history : List ServerAction) (id : ℕ) : Prop := ∀ task plan, .spawned id task plan ∉ history

/-- The flag and the reason of a response, by the events before and after the decision of the read. `owner` is what
`try_lock_owned` has given it. -/
inductive Notice (newer older : List ServerAction) (id : ℕ) (seen : ReadData) (owner : Bool) : Bool → String → Prop
  | unread {error : String} (hloaded : seen.loaded = .error error) (hquiet : Unspawned newer id) :
    Notice newer older id seen owner (!owner) "Refresh skipped: stored price data could not be read."
  | stopping {stored : StoredPriceState} (hloaded : seen.loaded = .ok stored) (hstopped : .stopped ∈ older)
      (hquiet : Unspawned newer id) :
    Notice newer older id seen owner (!owner) "Refresh skipped: server is shutting down."
  | skipped {stored : StoredPriceState} {reason : String} (hloaded : seen.loaded = .ok stored)
      (hstopped : .stopped ∉ older) (hreason : seen.skipReason stored = some reason) (hquiet : Unspawned newer id) :
    Notice newer older id seen owner (!owner) reason
  | busy (hopen : seen.MayRefresh older) (howner : owner = false) (hquiet : Unspawned newer id) :
    Notice newer older id seen owner true "Refresh skipped: another refresh is in progress."
  | refused {reason : String} {now generation : ℕ} (hopen : seen.MayRefresh older) (howner : owner = true)
      (hreason : reason = intervalReason ∨ reason = waitingReason)
      (hrefused : .refused id reason now generation ∈ newer) (hquiet : Unspawned newer id) :
    Notice newer older id seen owner false reason
  | scheduled {task : ℕ} {plan : RefreshPlan} (hopen : seen.MayRefresh older) (howner : owner = true)
      (hspawned : .spawned id task plan ∈ newer) :
    Notice newer older id seen owner true "Refresh scheduled in the background."

/-- A read that has not decided yet still has the guard where it got it. -/
def Undecided (history : List ServerAction) (holder : Option Owner) (id : ℕ) (owner : Bool) : Prop :=
  Unspawned history id ∧ (holder = some (.read id) ↔ owner = true)

/-- A read has decided, with the events before and after. -/
def Decided (P : Platform) (history : List ServerAction) (id : ℕ) (seen : ReadData)
    (after : List ServerAction → List ServerAction → Prop) : Prop :=
  ∃ newer older, history = newer ++ .decided id :: older ∧ seen.Seen P older id ∧ Unspawned older id ∧ after newer older

/-- The events behind a read at some point. -/
def ReadPoint.Behind (P : Platform) (history : List ServerAction) (holder : Option Owner) (id : ℕ) (owner : Bool) :
    ReadPoint → Prop
  | .loading => Undecided history holder id owner
  | .counting loaded => Undecided history holder id owner ∧ .loaded id loaded ∈ history
  | .reporting loaded viewers _ =>
    Undecided history holder id owner ∧ .loaded id loaded ∈ history ∧ ∃ now, .counted id now viewers ∈ history
  | .deciding seen => Undecided history holder id owner ∧ seen.Seen P history id
  | .generating seen | .beginning seen _ | .spawning seen _ =>
    Decided P history id seen fun newer older => owner = true ∧ seen.MayRefresh older ∧ Unspawned newer id
  | .refused seen reason =>
    Decided P history id seen fun newer older => owner = true ∧ seen.MayRefresh older ∧ Unspawned newer id ∧
      (reason = intervalReason ∨ reason = waitingReason) ∧ ∃ now generation, .refused id reason now generation ∈ newer
  | .responding seen refreshing reason =>
    Decided P history id seen fun newer older =>
      ∃ text, reason = some text ∧ Notice newer older id seen owner refreshing text

lemma Unspawned.cons {id : ℕ} (h : Unspawned history id) (ha : ∀ task plan, a ≠ .spawned id task plan) :
    Unspawned (a :: history) id := fun task plan hmem => by
  rcases List.mem_cons.mp hmem with heq | hmem
  · exact ha task plan heq.symm
  · exact h task plan hmem

lemma ReadData.Seen.cons {id : ℕ} {seen : ReadData} (h : seen.Seen P history id) : seen.Seen P (a :: history) id where
  loaded := List.mem_cons_of_mem _ h.loaded
  counted := h.counted.imp fun _ => List.mem_cons_of_mem _
  report := by
    obtain ⟨newer, older, rfl, hreport⟩ := h.report
    exact ⟨a :: newer, older, rfl, hreport⟩

lemma Notice.cons {newer older : List ServerAction} {id : ℕ} {seen : ReadData} {owner refreshing : Bool} {text : String}
    (h : Notice newer older id seen owner refreshing text) (ha : ∀ task plan, a ≠ .spawned id task plan) :
    Notice (a :: newer) older id seen owner refreshing text := by
  cases h with
  | unread hloaded hquiet => exact .unread hloaded (hquiet.cons ha)
  | stopping hloaded hstopped hquiet => exact .stopping hloaded hstopped (hquiet.cons ha)
  | skipped hloaded hstopped hreason hquiet => exact .skipped hloaded hstopped hreason (hquiet.cons ha)
  | busy hopen howner hquiet => exact .busy hopen howner (hquiet.cons ha)
  | refused hopen howner hreason hrefused hquiet =>
    exact .refused hopen howner hreason (List.mem_cons_of_mem _ hrefused) (hquiet.cons ha)
  | scheduled hopen howner hspawned => exact .scheduled hopen howner (List.mem_cons_of_mem _ hspawned)

lemma Decided.cons {id : ℕ} {seen : ReadData} {after after' : List ServerAction → List ServerAction → Prop}
    (h : Decided P history id seen after) (hafter : ∀ newer older, after newer older → after' (a :: newer) older) :
    Decided P (a :: history) id seen after' := by
  obtain ⟨newer, older, rfl, hseen, hquiet, hrest⟩ := h
  exact ⟨a :: newer, older, rfl, hseen, hquiet, hafter newer older hrest⟩

lemma Undecided.cons {holder holder' : Option Owner} {id : ℕ} {owner : Bool} (h : Undecided history holder id owner)
    (ha : ∀ task plan, a ≠ .spawned id task plan) (hholder : holder' = some (.read id) ↔ holder = some (.read id)) :
    Undecided (a :: history) holder' id owner := ⟨h.1.cons ha, hholder.trans h.2⟩

lemma ReadPoint.Behind.cons {holder holder' : Option Owner} {id : ℕ} {owner : Bool} {point : ReadPoint}
    (h : point.Behind P history holder id owner) (ha : ∀ task plan, a ≠ .spawned id task plan)
    (hholder : holder' = some (.read id) ↔ holder = some (.read id)) :
    point.Behind P (a :: history) holder' id owner := by
  cases point with
  | loading => exact Undecided.cons h ha hholder
  | counting loaded => exact ⟨h.1.cons ha hholder, List.mem_cons_of_mem _ h.2⟩
  | reporting loaded viewers responseNow =>
    exact ⟨h.1.cons ha hholder, List.mem_cons_of_mem _ h.2.1, h.2.2.imp fun _ => List.mem_cons_of_mem _⟩
  | deciding seen => exact ⟨h.1.cons ha hholder, h.2.cons⟩
  | generating seen | beginning seen generation | spawning seen plan =>
    exact Decided.cons h fun newer older hrest => ⟨hrest.1, hrest.2.1, hrest.2.2.cons ha⟩
  | refused seen reason =>
    refine Decided.cons h fun newer older hrest => ?_
    obtain ⟨howner, hopen, hquiet, hreason, now, generation, hrefused⟩ := hrest
    exact ⟨howner, hopen, hquiet.cons ha, hreason, now, generation, List.mem_cons_of_mem _ hrefused⟩
  | responding seen refreshing reason =>
    refine Decided.cons h fun newer older hrest => ?_
    obtain ⟨text, htext, hnotice⟩ := hrest
    exact ⟨text, htext, hnotice.cons ha⟩

/-- The coordinator has two reasons for a refusal. -/
lemma begin_reason {c c' : RefreshCoordinator} {range : InstantRange} {now generation : ℕ} {reason : String}
    (h : c.begin range now generation = .ok (.error reason, c')) :
    reason = intervalReason ∨ reason = waitingReason := by
  simp only [RefreshCoordinator.begin] at h
  split at h
  · cases h
    exact .inl rfl
  · split at h
    · cases h
      exact .inr rfl
    · split at h <;> cases h

lemma Notice.scheduled_iff {newer older : List ServerAction} {id : ℕ} {seen : ReadData} {owner refreshing : Bool}
    {text : String} (h : Notice newer older id seen owner refreshing text) :
    text = "Refresh scheduled in the background." ↔ ∃ task plan, .spawned id task plan ∈ newer := by
  have hnone : Unspawned newer id → ¬∃ task plan, .spawned id task plan ∈ newer := by
    rintro hquiet ⟨task, plan, hmem⟩
    exact hquiet task plan hmem
  cases h with
  | unread _ hquiet | stopping _ _ hquiet | busy _ _ hquiet => exact iff_of_false (by decide) (hnone hquiet)
  | refused _ _ hreason _ hquiet =>
    refine iff_of_false ?_ (hnone hquiet)
    rcases hreason with rfl | rfl <;> decide
  | skipped _ _ hreason hquiet =>
    refine iff_of_false ?_ (hnone hquiet)
    rintro rfl
    unfold ReadData.skipReason refreshSkipReason at hreason
    split at hreason
    · exact absurd (Option.some.inj hreason) (by decide)
    · split at hreason
      · next age _ =>
        split at hreason
        · have hchars := congrArg String.toList (Option.some.inj hreason)
          simp only [String.toList_append, List.append_assoc] at hchars
          have hstart : "Refresh skipped: latest snapshot is ".toList <+:
              "Refresh scheduled in the background.".toList := ⟨_, hchars⟩
          exact absurd hstart (by decide)
        · simp at hreason
      · simp at hreason
  | scheduled _ _ hspawned => exact iff_of_true rfl ⟨_, _, hspawned⟩

lemma Notice.refreshing_iff {newer older : List ServerAction} {id : ℕ} {seen : ReadData} {owner refreshing : Bool}
    {text : String} (h : Notice newer older id seen owner refreshing text) :
    refreshing = true ↔ owner = false ∨ ∃ task plan, .spawned id task plan ∈ newer := by
  have hnone : Unspawned newer id → ¬∃ task plan, .spawned id task plan ∈ newer := by
    rintro hquiet ⟨task, plan, hmem⟩
    exact hquiet task plan hmem
  cases h with
  | unread _ hquiet | stopping _ _ hquiet | skipped _ _ _ hquiet => simp [hnone hquiet]
  | busy _ howner hquiet => simp [howner]
  | refused _ howner _ _ hquiet => simp [howner, hnone hquiet]
  | scheduled _ howner hspawned => exact iff_of_true rfl (.inr ⟨_, _, hspawned⟩)

lemma owner_kept (h : Exclusive s) (hs : ServerStep P path maxViewers s a s') {id : ℕ} {point : ReadPoint}
    (hread : s.reads id = some point) (ha : a.reader ≠ some id) :
    s'.owner = some (.read id) ↔ s.owner = some (.read id) := by
  cases hs with
  | readOwner howner =>
    have hne : s.nextId ≠ id := by
      rintro rfl
      rw [h.fresh _ le_rfl] at hread
      cases hread
    simp [howner, hne]
  | @cancelled other | @beginUnwound other | @responded other | @ownerDropped other =>
    have hne : other ≠ id := by simpa [ServerAction.reader] using ha
    by_cases hown : s.owner = some (.read other)
    · simp [hown, hne]
    · simp [hown]
  | @spawned other seen plan hother =>
    have hne : other ≠ id := by simpa [ServerAction.reader] using ha
    have howner := h.planning other _ hother rfl
    simp [Server.spawnTask, howner, hne]
  | @stoppingSeen task | @noViewers task | @completionUnwound task | @released task =>
    by_cases hown : s.owner = some (.task task)
    · simp [hown]
    · simp [hown]
  | _ => rfl

lemma decision_behind {id : ℕ} {owner : Bool} {seen : ReadData}
    (h : (ReadPoint.deciding seen).Behind P history s.owner id owner)
    (hstopping : s.stopping = true ↔ .stopped ∈ history) :
    (s.decision id seen).Behind P (.decided id :: history) s.owner id owner := by
  obtain ⟨⟨hquiet, howner⟩, hseen⟩ := h
  have howns : decide (s.owner = some (.read id)) = owner := by
    cases owner <;> simpa using howner
  have hdecided : ∀ after : List ServerAction → List ServerAction → Prop, after [] history →
      Decided P (.decided id :: history) id seen after := fun after hafter =>
    ⟨[], history, rfl, hseen, hquiet, hafter⟩
  have hnone : Unspawned [] id := by simp [Unspawned]
  unfold Server.decision
  rw [howns]
  cases hloaded : seen.loaded with
  | error error => exact hdecided _ ⟨_, rfl, .unread hloaded hnone⟩
  | ok stored =>
    dsimp only
    split
    · next hstop => exact hdecided _ ⟨_, rfl, .stopping hloaded (hstopping.mp hstop) hnone⟩
    · next hstop =>
      have hstopped : .stopped ∉ history := fun hmem => hstop (hstopping.mpr hmem)
      split
      · next reason hreason => exact hdecided _ ⟨_, rfl, .skipped hloaded hstopped hreason hnone⟩
      · next hreason =>
        have hopen : seen.MayRefresh history := ⟨hstopped, stored, hloaded, hreason⟩
        split
        · next hown => exact hdecided _ ⟨hown, hopen, hnone⟩
        · next hown => exact hdecided _ ⟨_, rfl, .busy hopen (by simpa using hown) hnone⟩

/-- The events behind all reads of a server. -/
structure Noticed (P : Platform) (history : List ServerAction) (s : Server) : Prop where
  fresh : ∀ id, s.nextId ≤ id → ∀ b ∈ history, b.reader ≠ some id
  stopping : s.stopping = true ↔ .stopped ∈ history
  reads : ∀ id point, s.reads id = some point → ∃ owner : Bool,
    .readBegan id owner ∈ history ∧ .readBegan id (!owner) ∉ history ∧ point.Behind P history s.owner id owner

lemma Noticed.began (h : Noticed P history s) {owner : Bool} {holder : Option Owner}
    (hholder : holder = some (.read s.nextId) ↔ owner = true) :
    ∃ owner' : Bool, .readBegan s.nextId owner' ∈ ServerAction.readBegan s.nextId owner :: history ∧
      .readBegan s.nextId (!owner') ∉ ServerAction.readBegan s.nextId owner :: history ∧
      ReadPoint.loading.Behind P (.readBegan s.nextId owner :: history) holder s.nextId owner' := by
  have hquiet := h.fresh s.nextId le_rfl
  refine ⟨owner, List.mem_cons_self, ?_, fun task plan hmem => ?_, hholder⟩
  · intro hmem
    rcases List.mem_cons.mp hmem with heq | hmem
    · simp at heq
    · exact hquiet _ hmem rfl
  · rcases List.mem_cons.mp hmem with heq | hmem
    · cases heq
    · exact hquiet _ hmem rfl

lemma Noticed.advance (h : Noticed P history s) {id : ℕ} {old new point : ReadPoint} {reads : ℕ → Option ReadPoint}
    {holder : Option Owner} (hold : s.reads id = some old) (hreads : reads = Function.update s.reads id (some new))
    (hread : reads id = some point) (ha : ∀ owner, a ≠ .readBegan id owner)
    (hnew : ∀ owner, old.Behind P history s.owner id owner → new.Behind P (a :: history) holder id owner) :
    ∃ owner : Bool, .readBegan id owner ∈ a :: history ∧ .readBegan id (!owner) ∉ a :: history ∧
      point.Behind P (a :: history) holder id owner := by
  obtain ⟨owner, hbegan, honly, hbehind⟩ := h.reads id old hold
  obtain rfl : new = point := by
    rw [hreads, Function.update_self] at hread
    exact Option.some.inj hread
  refine ⟨owner, List.mem_cons_of_mem _ hbegan, fun hmem => ?_, hnew owner hbehind⟩
  rcases List.mem_cons.mp hmem with heq | hmem
  · exact ha _ heq.symm
  · exact honly hmem

lemma Noticed.reads_step (h : Noticed P history s) (hexclusive : Exclusive s) (hreported : Reported P history s)
    (hs : ServerStep P path maxViewers s a s') (id : ℕ) (point : ReadPoint) (hread : s'.reads id = some point) :
    ∃ owner : Bool, .readBegan id owner ∈ a :: history ∧ .readBegan id (!owner) ∉ a :: history ∧
      point.Behind P (a :: history) s'.owner id owner := by
  by_cases ha : a.reader = some id
  · cases hs with
    | readOwner howner =>
      obtain rfl : s.nextId = id := by simpa [ServerAction.reader] using ha
      obtain rfl : .loading = point := by simpa using hread
      exact h.began (by simp)
    | @readReader holder howner =>
      obtain rfl : s.nextId = id := by simpa [ServerAction.reader] using ha
      obtain rfl : .loading = point := by simpa using hread
      exact h.began (by simpa using hexclusive.owner_ne_fresh)
    | @loaded other F hold =>
      obtain rfl : other = id := by simpa [ServerAction.reader] using ha
      refine h.advance hold rfl hread (by simp) fun owner hbehind => ?_
      exact ⟨Undecided.cons hbehind (by simp) .rfl, List.mem_cons_self⟩
    | @counted other loaded responseNow hold =>
      obtain rfl : other = id := by simpa [ServerAction.reader] using ha
      refine h.advance hold rfl hread (by simp) fun owner hbehind => ?_
      exact ⟨hbehind.1.cons (by simp) .rfl, List.mem_cons_of_mem _ hbehind.2, s.now, List.mem_cons_self⟩
    | @reportCopied other viewers loaded responseNow hold =>
      obtain rfl : other = id := by simpa [ServerAction.reader] using ha
      refine h.advance hold rfl hread (by simp) fun owner hbehind => ?_
      exact ⟨hbehind.1.cons (by simp) .rfl, List.mem_cons_of_mem _ hbehind.2.1,
        hbehind.2.2.imp fun _ => List.mem_cons_of_mem _, [], history, rfl, hreported.current⟩
    | @decided other seen hold =>
      obtain rfl : other = id := by simpa [ServerAction.reader] using ha
      exact h.advance hold rfl hread (by simp) fun owner hbehind => decision_behind hbehind h.stopping
    | @generationLoaded other seen hold =>
      obtain rfl : other = id := by simpa [ServerAction.reader] using ha
      refine h.advance hold rfl hread (by simp) fun owner hbehind => ?_
      exact Decided.cons hbehind fun newer older hrest => ⟨hrest.1, hrest.2.1, hrest.2.2.cons (by simp)⟩
    | @granted other generation seen plan c hold =>
      obtain rfl : other = id := by simpa [ServerAction.reader] using ha
      refine h.advance hold rfl hread (by simp) fun owner hbehind => ?_
      exact Decided.cons hbehind fun newer older hrest => ⟨hrest.1, hrest.2.1, hrest.2.2.cons (by simp)⟩
    | @refused other generation seen reason c hold hbegin =>
      obtain rfl : other = id := by simpa [ServerAction.reader] using ha
      refine h.advance hold rfl hread (by simp) fun owner hbehind => ?_
      exact Decided.cons hbehind fun newer older hrest =>
        ⟨hrest.1, hrest.2.1, hrest.2.2.cons (by simp), begin_reason hbegin, s.now, generation, List.mem_cons_self⟩
    | @spawned other seen plan hold =>
      obtain rfl : other = id := by simpa [ServerAction.reader] using ha
      refine h.advance hold rfl hread (by simp) fun owner hbehind => ?_
      exact Decided.cons hbehind fun newer older hrest =>
        ⟨_, rfl, .scheduled hrest.2.1 hrest.1 List.mem_cons_self⟩
    | @ownerDropped other seen reason hold =>
      obtain rfl : other = id := by simpa [ServerAction.reader] using ha
      refine h.advance hold rfl hread (by simp) fun owner hbehind => ?_
      refine Decided.cons hbehind fun newer older hrest => ?_
      obtain ⟨howner, hopen, hquiet, hreason, now, generation, hrefused⟩ := hrest
      exact ⟨reason, rfl, .refused hopen howner hreason (List.mem_cons_of_mem _ hrefused) (hquiet.cons (by simp))⟩
    | @cancelled other | @beginUnwound other | @responded other =>
      obtain rfl : other = id := by simpa [ServerAction.reader] using ha
      simp at hread
    | _ => simp [ServerAction.reader] at ha
  · rw [reads_kept hexclusive hs ha] at hread
    obtain ⟨owner, hbegan, honly, hbehind⟩ := h.reads id point hread
    refine ⟨owner, List.mem_cons_of_mem _ hbegan, ?_, hbehind.cons ?_ (owner_kept hexclusive hs hread ha)⟩
    · rintro (_ | ⟨_, hmem⟩)
      · exact ha rfl
      · exact honly hmem
    · rintro task plan rfl
      exact ha rfl

lemma reader_lt (h : Exclusive s) (hs : ServerStep P path maxViewers s a s') :
    s.nextId ≤ s'.nextId ∧ ∀ id, a.reader = some id → id < s'.nextId := by
  have hlt : ∀ {id : ℕ} {point : ReadPoint}, s.reads id = some point → id < s.nextId := by
    intro id point hread
    by_contra hge
    rw [h.fresh id (not_lt.mp hge)] at hread
    cases hread
  cases hs with
  | readOwner | readReader => exact ⟨Nat.le_succ _, fun id hid => by simp_all [ServerAction.reader]⟩
  | spawned hread =>
    refine ⟨Nat.le_succ _, fun id hid => ?_⟩
    obtain rfl := Option.some.inj hid
    exact (hlt hread).trans (Nat.lt_succ_self _)
  | loaded hread | counted hread | reportCopied hread | cancelled hread | decided hread | generationLoaded hread
  | beginUnwound hread | refused hread | granted hread | ownerDropped hread | responded hread =>
    refine ⟨le_rfl, fun id hid => ?_⟩
    obtain rfl := Option.some.inj hid
    exact hlt hread
  | _ => exact ⟨le_rfl, fun id hid => by simp [ServerAction.reader] at hid⟩

lemma stopped_iff (hs : ServerStep P path maxViewers s a s') (h : s.stopping = true ↔ .stopped ∈ history) :
    s'.stopping = true ↔ .stopped ∈ a :: history := by
  cases hs with
  | stopped => simp
  | _ => exact h.trans (by simp)

theorem Noticed.run (h : (serverMachine P path maxViewers).Run (.init db start) history s) : Noticed P history s := by
  refine h.invariant (P := fun history s => Noticed P history s)
    ⟨by simp, by simp [Server.init], fun id point hread => by simp [Server.init] at hread⟩ ?_
  intro history s i s' a hrun ih hs
  have hexclusive := Exclusive.run hrun
  have hstep := server_step hs
  obtain ⟨hnext, hreader⟩ := reader_lt hexclusive hstep
  refine ⟨fun id hge b hmem => ?_, stopped_iff hstep ih.stopping, ih.reads_step hexclusive (Reported.run hrun) hstep⟩
  rcases List.mem_cons.mp hmem with rfl | hmem
  · exact fun hid => absurd (hreader id hid) (not_lt.mpr hge)
  · exact ih.fresh id (hnext.trans hge) b hmem

lemma respond_step {i : ServerInput} {id status : ℕ} {body : PriceResponse}
    (h : (serverMachine P path maxViewers).step s i = some (s', .responded id status body)) :
    ∃ seen refreshing reason, s.reads id = some (.responding seen refreshing reason) ∧
      (status, body) =
        priceResponse seen.loaded ⟨seen.report, seen.activeViewers, refreshing, reason⟩ seen.responseNow := by
  have hactor := actor_of_step h
  cases i with
  | respond other =>
    obtain ⟨point, hread, hstep⟩ := Option.bind_eq_some_iff.mp h
    obtain rfl : id = other := by simpa [ServerAction.actor, ServerInput.target] using hactor
    cases point with
    | responding seen refreshing reason =>
      simp only [Server.readStep, Server.respond, Option.some.injEq, Prod.mk.injEq, ServerAction.responded.injEq,
        true_and] at hstep
      obtain ⟨_, rfl, rfl⟩ := hstep
      exact ⟨seen, refreshing, reason, hread, rfl⟩
    | _ => simp [Server.readStep] at hstep
  | begin other =>
    obtain ⟨point, _, hstep⟩ := Option.bind_eq_some_iff.mp h
    cases point with
    | beginning seen generation =>
      simp only [Server.readStep, Server.beginPlan, Option.some.injEq] at hstep
      split at hstep <;> simp at hstep
    | _ => simp [Server.readStep] at hstep
  | load other | count other | copyReport other | cancel other | decide other | loadGeneration other | spawn other
  | dropOwner other =>
    obtain ⟨point, _, hstep⟩ := Option.bind_eq_some_iff.mp h
    cases point <;> simp [Server.readStep, Server.spawnTask] at hstep
  | _ => simp [ServerAction.actor, ServerInput.target] at hactor

/-- Reads, cancellations, refreshes, presence updates and the shutdown in any order. A response is assembled from what
its read has seen, with the report of the refresh that was published last when the read looked; it always gives a
reason, which names what kept the read from a refresh, and it announces a refresh exactly where the read has spawned
one. The flag `refreshing` is set exactly where it has, or where the guard was taken when the read began. -/
theorem refresh_notice_law (P : Platform) (path : DbPath) (maxViewers : ℕ) {db : Database} {start : ℕ} {s : Server}
    {newer older : List ServerAction} {id status : ℕ} {body : PriceResponse}
    (h : (serverMachine P path maxViewers).Run (.init db start) (newer ++ .responded id status body :: older) s) :
    (∃ seen owner later earlier reason, older = later ++ .decided id :: earlier ∧
      .readBegan id owner ∈ older ∧ .readBegan id (!owner) ∉ older ∧ seen.Seen P earlier id ∧
      Notice later earlier id seen owner body.refreshing reason ∧
      (status, body) =
        priceResponse seen.loaded ⟨seen.report, seen.activeViewers, body.refreshing, some reason⟩ seen.responseNow) ∧
    (body.refreshing = true ↔ .readBegan id false ∈ older ∨ ∃ task plan, .spawned id task plan ∈ older) ∧
    (body.refreshSkippedReason = some "Refresh scheduled in the background." ↔
      ∃ task plan, .spawned id task plan ∈ older) := by
  obtain ⟨before, i, after, hbefore, hs, _⟩ := h.event
  obtain ⟨seen, refreshing, reason, hread, hbody⟩ := respond_step hs
  obtain ⟨owner, hbegan, honly, later, earlier, rfl, hseen, hquiet, text, rfl, hnotice⟩ :=
    (Noticed.run hbefore).reads id _ hread
  have hflag : body.refreshing = refreshing := congrArg (fun r => r.2.refreshing) hbody
  have htext : body.refreshSkippedReason = some text := congrArg (fun r => r.2.refreshSkippedReason) hbody
  rw [hflag, htext]
  have hspawned : (∃ task plan, .spawned id task plan ∈ later ++ .decided id :: earlier) ↔
      ∃ task plan, .spawned id task plan ∈ later := by
    constructor
    · rintro ⟨task, plan, hmem⟩
      simp only [List.mem_append, List.mem_cons, reduceCtorEq, false_or] at hmem
      exact ⟨task, plan, hmem.resolve_right (hquiet task plan)⟩
    · rintro ⟨task, plan, hmem⟩
      exact ⟨task, plan, List.mem_append_left _ hmem⟩
  refine ⟨⟨seen, owner, later, earlier, text, rfl, hbegan, honly, hseen, hnotice, hbody⟩, ?_, ?_⟩
  · rw [hspawned, hnotice.refreshing_iff]
    refine or_congr ?_ .rfl
    cases owner with
    | true => exact iff_of_false (by simp) honly
    | false => exact iff_of_true rfl hbegan
  · rw [hspawned, ← hnotice.scheduled_iff, Option.some.injEq]

def ServerAction.spawns (id : ℕ) : ServerAction → Bool
  | spawned read _ _ => read = id
  | _ => false

/-- The first viewer of a new server starts a refresh and is told so. -/
theorem refresh_notice_law_first_read :
    ∃ older s status body, (serverMachine .plain ⟨none, "tracker.db"⟩ 1).Run (.init (.current .empty seededHealth) 0)
        ([] ++ .responded 0 status body :: older) s ∧
      body.refreshing = true ∧ body.refreshSkippedReason = some "Refresh scheduled in the background." := by
  obtain ⟨older, s, status, body, hrun, hspawned⟩ :
      ∃ older s status body, (serverMachine .plain ⟨none, "tracker.db"⟩ 1).Run
          (.init (.current .empty seededHealth) 0) ([] ++ .responded 0 status body :: older) s ∧
        older.any (ServerAction.spawns 0) = true :=
    ⟨_, _, _, _, Machine.run_of_exec
      ((oneRefresh fun _ => ⟨1000, .error ⟨true, "operation timed out"⟩, 1005⟩).take 10) rfl, rfl⟩
  obtain ⟨_, hflag, hreason⟩ := refresh_notice_law .plain _ 1 hrun
  have hmem : ∃ task plan, .spawned 0 task plan ∈ older := by
    obtain ⟨b, hb, hspawns⟩ := List.any_eq_true.mp hspawned
    cases b with
    | spawned id task plan =>
      obtain rfl : id = 0 := of_decide_eq_true hspawns
      exact ⟨task, plan, hb⟩
    | _ => simp [ServerAction.spawns] at hspawns
  exact ⟨older, s, status, body, hrun, hflag.mpr (.inr hmem), hreason.mpr hmem⟩

end BitcoinPriceTracker

import BitcoinPriceTracker.Model.News

namespace BitcoinPriceTracker

namespace News

/-- The completed refreshes, most recent first. -/
def completions : List Action → List (ℕ × Except String String)
  | [] => []
  | .settled _ now result :: older => (now, result) :: completions older
  | _ :: older => completions older

/-- The bodies of the successful refreshes, most recent first. -/
def bodies (history : List Action) : List String :=
  (completions history).filterMap fun completion => completion.2.toOption

/-- A refresh has been spawned and is not completed. -/
def inFlight : List Action → Bool
  | [] => false
  | .responded _ _ _ (some _) :: _ => true
  | .settled _ _ _ :: _ => false
  | _ :: older => inFlight older

/-- The cache that a run of completions leaves. -/
def summary (history : List Action) (refreshing : Bool) : FeedCache where
  checkedAt := (completions history).head?.map Prod.fst
  xml := (bodies history).head?
  stale := (completions history).head?.any fun completion => completion.2.toOption.isNone
  refreshing := refreshing

lemma settle_summary (task now : ℕ) (result : Except String String) (history : List Action) (refreshing : Bool) :
    settle (summary history refreshing) result now = summary (.settled task now result :: history) false := by
  cases result <;> rfl

structure Invariant (history : List Action) (s : State) : Prop where
  cache : s.cache = summary history (inFlight history)
  past : ∀ completion ∈ completions history, completion.1 ≤ s.now
  flight : s.cache.refreshing = true ↔ ∃ task, (s.tasks task).isSome = true
  single : ∀ task task', (s.tasks task).isSome = true → (s.tasks task').isSome = true → task = task'

lemma invariant_init (now : ℕ) : Invariant [] (State.init now) where
  cache := rfl
  past := by simp [completions]
  flight := by simp [State.init, FeedCache.default]
  single := by simp [State.init]

lemma Invariant.progress {history : List Action} {s : State} (h : Invariant history s) {task : ℕ}
    {old new : TaskPoint} (htask : s.tasks task = some old) (a : Action)
    (ha : completions (a :: history) = completions history) (hflight : inFlight (a :: history) = inFlight history) :
    Invariant (a :: history) (s.setTask task (some new)) := by
  have hsame : ∀ other, ((s.setTask task (some new)).tasks other).isSome = (s.tasks other).isSome := by
    intro other
    by_cases hother : other = task
    · subst hother
      simp [State.setTask, htask]
    · simp [State.setTask, hother]
  refine ⟨?_, ?_, ?_, ?_⟩
  · have hcache := h.cache
    simp only [summary, bodies, ha, hflight] at hcache ⊢
    exact hcache
  · rw [ha]
    exact h.past
  · simp only [hsame]
    exact h.flight
  · simp only [hsame]
    exact h.single

lemma read_spawns {s : State} (reader : ℕ) (h : (s.cache.expired s.now && !s.cache.refreshing) = true) :
    s.read reader = ({ { s with cache := { s.cache with refreshing := true } }.setReader reader false with
        nextId := s.nextId + 1 }.setTask s.nextId (some .fetching),
      .responded reader s.now (newsResponse s.cache s.now).2.2 (some s.nextId)) := by
  simp only [State.read, newsResponse, h, if_true]

lemma read_quiet {s : State} (reader : ℕ) (h : (s.cache.expired s.now && !s.cache.refreshing) = false) :
    s.read reader = (s.setReader reader false, .responded reader s.now (newsResponse s.cache s.now).2.2 none) := by
  simp only [State.read, newsResponse, h, Bool.false_eq_true, if_false]

lemma Invariant.step {history : List Action} {s s' : State} {i : Input} {a : Action} (h : Invariant history s)
    (hs : machine.step s i = some (s', a)) : Invariant (a :: history) s' := by
  cases i with
  | advance now =>
    simp only [machine] at hs
    split at hs
    · next hnow =>
      cases hs
      exact ⟨h.cache, fun completion hmem => (h.past completion hmem).trans hnow, h.flight, h.single⟩
    · simp at hs
  | arrive =>
    cases hs
    exact ⟨h.cache, h.past, h.flight, h.single⟩
  | cancel reader =>
    simp only [machine] at hs
    split at hs <;> cases hs
    exact ⟨h.cache, h.past, h.flight, h.single⟩
  | fetched task result =>
    simp only [machine] at hs
    split at hs <;> cases hs
    exact h.progress (by assumption) _ rfl rfl
  | deadline task =>
    simp only [machine] at hs
    split at hs <;> cases hs
    exact h.progress (by assumption) _ rfl rfl
  | read reader =>
    simp only [machine] at hs
    split at hs
    · cases hspawns : s.cache.expired s.now && !s.cache.refreshing with
      | true =>
        rw [read_spawns reader hspawns] at hs
        cases hs
        -- The flag was down, so that no task was in flight.
        have hidle : ∀ task, s.tasks task = none := by
          intro task
          by_contra hne
          have hrefreshing := h.flight.mpr ⟨task, Option.isSome_iff_ne_none.mpr hne⟩
          simp [hrefreshing] at hspawns
        have honly : ∀ task, (Function.update s.tasks s.nextId (some TaskPoint.fetching) task).isSome = true →
            task = s.nextId := by
          intro task htask
          by_contra hne
          simp [hne, hidle] at htask
        refine ⟨?_, h.past, ⟨fun _ => ⟨s.nextId, by simp [State.setTask]⟩, fun _ => rfl⟩, ?_⟩
        · change { s.cache with refreshing := true } = summary history true
          rw [h.cache]
          rfl
        · exact fun task task' htask htask' => (honly task htask).trans (honly task' htask').symm
      | false =>
        rw [read_quiet reader hspawns] at hs
        cases hs
        exact ⟨h.cache, h.past, h.flight, h.single⟩
    · simp at hs
  | settle task =>
    simp only [machine] at hs
    split at hs
    · next result htask =>
      cases hs
      have hidle : ∀ other, Function.update s.tasks task none other = none := by
        intro other
        by_cases hother : other = task
        · simp [hother]
        · rw [Function.update_of_ne hother]
          by_contra hne
          exact hother (h.single other task (Option.isSome_iff_ne_none.mpr hne) (by simp [htask]))
      refine ⟨?_, ?_, ?_, ?_⟩
      · change settle s.cache result s.now = _
        rw [h.cache, settle_summary task]
        rfl
      · exact List.forall_mem_cons.mpr ⟨le_rfl, h.past⟩
      · simp [State.setTask, hidle, settle]
      · intro other _ hother
        simp [State.setTask, hidle] at hother
    · simp at hs

theorem Invariant.run {start : ℕ} {history : List Action} {s : State} (h : machine.Run (.init start) history s) :
    Invariant history s :=
  h.invariant (P := Invariant) (invariant_init start) fun _ _ _ _ _ _ ih hs => ih.step hs

lemma responded_step {s s' : State} {i : Input} {reader now : ℕ} {response : Response} {spawned : Option ℕ}
    (hs : machine.step s i = some (s', .responded reader now response spawned)) :
    now = s.now ∧ response = (newsResponse s.cache s.now).2.2 ∧ s'.cache = (newsResponse s.cache s.now).1 ∧
      (spawned.isSome = true → s.cache.expired s.now = true ∧ s.cache.refreshing = false) := by
  cases i with
  | read other =>
    simp only [machine] at hs
    split at hs
    · cases hspawns : s.cache.expired s.now && !s.cache.refreshing with
      | true =>
        rw [read_spawns other hspawns] at hs
        cases hs
        have hcache : (newsResponse s.cache s.now).1 = { s.cache with refreshing := true } := if_pos hspawns
        exact ⟨rfl, rfl, hcache.symm, fun _ => by simpa using hspawns⟩
      | false =>
        rw [read_quiet other hspawns] at hs
        cases hs
        have hcache : (newsResponse s.cache s.now).1 = s.cache := if_neg (by simp [hspawns])
        exact ⟨rfl, rfl, hcache.symm, by simp⟩
    · simp at hs
  | advance now =>
    simp only [machine] at hs
    split at hs <;> cases hs
  | arrive => cases hs
  | cancel reader =>
    simp only [machine] at hs
    split at hs <;> cases hs
  | fetched task result | deadline task | settle task =>
    simp only [machine] at hs
    split at hs <;> cases hs

lemma expired_iff {history : List Action} {refreshing : Bool} {now : ℕ} :
    (summary history refreshing).expired now = true ↔
      ∀ completion ∈ (completions history).head?, completion.1 + refreshInterval ≤ now := by
  have hpos : 0 < refreshInterval := by norm_num [refreshInterval, Duration.fromSecs]
  simp only [FeedCache.expired, summary]
  cases completions history with
  | nil => simp
  | cons completion rest =>
    simp only [List.head?_cons, Option.map_some, Option.all_some, decide_eq_true_eq, Option.mem_some_iff, forall_eq']
    omega

lemma response_fields (cache : FeedCache) (now : ℕ) :
    (newsResponse cache now).2.2.body.xml = cache.xml ∧
      (newsResponse cache now).2.2.body.refreshing = (newsResponse cache now).1.refreshing ∧
      (newsResponse cache now).2.2.retryAfter = if (newsResponse cache now).1.refreshing then some "2" else none := by
  refine ⟨?_, rfl, rfl⟩
  simp only [newsResponse]
  split <;> rfl

lemma fresh_response {history : List Action} {refreshing : Bool} {now : ℕ}
    (hpast : ∀ completion ∈ completions history, completion.1 ≤ now)
    (hfresh : (newsResponse (summary history refreshing) now).2.2.body.stale = false) :
    ∃ checkedAt xml rest, completions history = (checkedAt, .ok xml) :: rest ∧
      (newsResponse (summary history refreshing) now).2.2.body.xml = some xml ∧ checkedAt ≤ now ∧
      now < checkedAt + refreshInterval := by
  obtain ⟨hstale, hexpired⟩ : (summary history refreshing).stale = false ∧
      (summary history refreshing).expired now = false := by
    simp only [newsResponse, Bool.or_eq_false_iff] at hfresh
    exact ⟨by split at hfresh <;> exact hfresh.1, hfresh.2⟩
  have hrecent := expired_iff.not.mp (Bool.not_eq_true _ ▸ hexpired)
  cases hcompletions : completions history with
  | nil => simp [hcompletions] at hrecent
  | cons completion rest =>
    obtain ⟨checkedAt, result⟩ := completion
    simp only [hcompletions, List.head?_cons, Option.mem_some_iff, forall_eq', not_le] at hrecent
    cases result with
    | error error => simp [summary, hcompletions, Except.toOption] at hstale
    | ok xml =>
      refine ⟨checkedAt, xml, rest, rfl, ?_, hpast (checkedAt, .ok xml) (by simp [hcompletions]), hrecent⟩
      have hxml : (summary history refreshing).xml = some xml := by
        simp [summary, bodies, hcompletions, Except.toOption]
      simp only [newsResponse]
      split <;> exact hxml

/-- What a read answers, by the completions before it. Where no refresh is in flight afterwards, the last completion
is recent and its outcome is the flag. -/
structure Served (older : List Action) (reader now : ℕ) (response : Response) (spawned : Option ℕ) : Prop where
  xml : response.body.xml = (bodies older).head?
  refreshing : response.body.refreshing = inFlight (.responded reader now response spawned :: older)
  retryAfter : response.retryAfter = if response.body.refreshing then some "2" else none
  status : response.status = if response.body.xml.isSome then 200 else 503
  settled : response.body.refreshing = false → ∃ checkedAt result rest,
    completions older = (checkedAt, result) :: rest ∧ now < checkedAt + refreshInterval ∧
    response.body.stale = result.toOption.isNone

lemma not_expired {cache : FeedCache} {now : ℕ} (h : (newsResponse cache now).1.refreshing = false) :
    cache.expired now = false := by
  by_contra hne
  rw [Bool.not_eq_false] at hne
  cases hrefreshing : cache.refreshing <;> simp [newsResponse, hne, hrefreshing] at h

lemma settled_response {history : List Action} {refreshing : Bool} {now : ℕ}
    (hidle : (newsResponse (summary history refreshing) now).1.refreshing = false) :
    ∃ checkedAt result rest, completions history = (checkedAt, result) :: rest ∧ now < checkedAt + refreshInterval ∧
      (newsResponse (summary history refreshing) now).2.2.body.stale = result.toOption.isNone := by
  have hexpired := not_expired hidle
  have hrecent := expired_iff.not.mp (Bool.not_eq_true _ ▸ hexpired)
  cases hcompletions : completions history with
  | nil => simp [hcompletions] at hrecent
  | cons completion rest =>
    obtain ⟨checkedAt, result⟩ := completion
    simp only [hcompletions, List.head?_cons, Option.mem_some_iff, forall_eq', not_le] at hrecent
    refine ⟨checkedAt, result, rest, rfl, hrecent, ?_⟩
    have hstale : (summary history refreshing).stale = result.toOption.isNone := by simp [summary, hcompletions]
    rw [← hstale]
    simp only [newsResponse, hexpired, Bool.or_false, Bool.false_and, Bool.false_eq_true, if_false]

theorem served_of_run {start : ℕ} {newer older : List Action} {reader now : ℕ} {response : Response}
    {spawned : Option ℕ} {s : State}
    (h : machine.Run (.init start) (newer ++ .responded reader now response spawned :: older) s) :
    Served older reader now response spawned := by
  obtain ⟨before, i, after, hbefore, hs, _⟩ := h.event
  obtain ⟨rfl, rfl, hafter, -⟩ := responded_step hs
  obtain ⟨hxml, hrefreshing, hheader⟩ := response_fields before.cache before.now
  have hflight := congrArg FeedCache.refreshing (Invariant.run (hbefore.next hs)).cache
  rw [hafter] at hflight
  have hcache := (Invariant.run hbefore).cache
  refine ⟨hxml.trans (congrArg FeedCache.xml hcache), hrefreshing.trans hflight, hrefreshing ▸ hheader, ?_,
    fun hidle => ?_⟩
  · rw [hxml]
    simp only [newsResponse]
    split <;> rfl
  · rw [hrefreshing] at hidle
    rw [hcache] at hidle ⊢
    exact settled_response hidle

lemma bodies_append (newer older : List Action) : ∃ later, bodies (newer ++ older) = later ++ bodies older := by
  induction newer with
  | nil => exact ⟨[], rfl⟩
  | cons a newer ih =>
    obtain ⟨later, hlater⟩ := ih
    cases a with
    | settled task now result =>
      cases result with
      | ok xml => exact ⟨xml :: later, by rw [List.cons_append, List.cons_append, ← hlater]; rfl⟩
      | error error => exact ⟨later, hlater⟩
    | _ => exact ⟨later, hlater⟩

/-- Readers, cancellations, the clock and completions in any order, from the empty cache. The flag is up exactly
while a refresh task is in flight, and there is one at most. A refresh starts 300 s after every completion. The
cache holds the body of the last success and never loses it. A response that is not stale has the body of the
last completion, which succeeded less than 300 s before, and a response has status 200 exactly where a refresh
has succeeded. Every response carries the cached body and says whether a refresh is in flight after the read, with
the header if there is one. -/
theorem news_cache_law {start : ℕ} {history : List Action} {s : State} (h : machine.Run (.init start) history s) :
    ((s.cache.refreshing = true ↔ ∃ task, (s.tasks task).isSome = true) ∧
      ∀ task task', (s.tasks task).isSome = true → (s.tasks task').isSome = true → task = task') ∧
    (∀ newer older reader now response task, history = newer ++ .responded reader now response (some task) :: older →
      ∀ completion ∈ (completions older).head?, completion.1 + Duration.fromSecs 300 ≤ now) ∧
    s.cache.xml = (bodies history).head? ∧
    (∀ newer older, history = newer ++ older → (bodies older).head?.isSome = true → s.cache.xml.isSome = true) ∧
    ∀ newer older reader now response spawned, history = newer ++ .responded reader now response spawned :: older →
      (response.body.stale = false → ∃ checkedAt xml rest, completions older = (checkedAt, .ok xml) :: rest ∧
        response.body.xml = some xml ∧ checkedAt ≤ now ∧ now < checkedAt + Duration.fromSecs 300) ∧
      (response.status = 200 ↔ ∃ xml, xml ∈ bodies older) ∧
      response.body.xml = (bodies older).head? ∧
      response.body.refreshing = inFlight (.responded reader now response spawned :: older) ∧
      response.retryAfter = if response.body.refreshing then some "2" else none := by
  have hinv := Invariant.run h
  refine ⟨⟨hinv.flight, hinv.single⟩, ?_, ?_, ?_, ?_⟩
  · rintro newer older reader now response task rfl completion hmem
    obtain ⟨before, i, after, hbefore, hs, _⟩ := h.event
    obtain ⟨rfl, -, -, hspawned⟩ := responded_step hs
    have hexpired := (hspawned rfl).1
    rw [(Invariant.run hbefore).cache] at hexpired
    exact expired_iff.mp hexpired completion hmem
  · rw [hinv.cache]
    rfl
  · rintro newer older rfl hsome
    obtain ⟨later, hlater⟩ := bodies_append newer older
    rw [hinv.cache]
    simp only [summary, hlater]
    cases later with
    | nil => exact hsome
    | cons xml later => rfl
  · rintro newer older reader now response spawned rfl
    have hserved := served_of_run h
    refine ⟨?_, ?_, hserved.xml, hserved.refreshing, hserved.retryAfter⟩
    · obtain ⟨before, i, after, hbefore, hs, _⟩ := h.event
      obtain ⟨rfl, rfl, -⟩ := responded_step hs
      rw [(Invariant.run hbefore).cache]
      exact fresh_response (Invariant.run hbefore).past
    · rw [hserved.status, hserved.xml]
      cases bodies older <;> simp

/-- A refresh that succeeded is served, and the next one starts 300 s later. -/
theorem news_cache_law_refreshed :
    ∃ history s, machine.Run (.init 0) history s ∧ s.cache.xml = some "<rss><channel/></rss>" ∧
      (s.cache.refreshing = true ↔ ∃ task, (s.tasks task).isSome = true) := by
  have hrun : machine.Run (.init 0) _ _ := Machine.run_of_exec
    [.arrive, .read 0, .fetched 1 (.ok "<rss><channel/></rss>"), .settle 1, .advance (Duration.fromSecs 300), .arrive,
      .read 2] rfl
  exact ⟨_, _, hrun, rfl, (news_cache_law hrun).1.1⟩

end News

end BitcoinPriceTracker

import BitcoinPriceTracker.Model.Refresh

namespace BitcoinPriceTracker

namespace RefreshCoordinator

lemma collectSources_full (eligible : UpstreamSource → Bool) (sources : List UpstreamSource) :
    collectSources true eligible sources = sources.filter eligible := by
  induction sources with
  | nil => rfl
  | cons source rest ih =>
    rw [collectSources, List.filter_cons, ih]
    simp

lemma collectSources_ordinary (eligible : UpstreamSource → Bool) (sources : List UpstreamSource) :
    collectSources false eligible sources = (sources.find? eligible).toList := by
  induction sources with
  | nil => rfl
  | cons source rest ih =>
    rw [collectSources, List.find?_cons, ih]
    cases eligible source <;> simp

lemma candidates_full (c : RefreshCoordinator) : c.candidates true = UpstreamSource.all := rfl

lemma mem_candidates (c : RefreshCoordinator) (fullRefresh : Bool) (source : UpstreamSource) :
    source ∈ c.candidates fullRefresh := by
  simp only [candidates, List.mem_map, List.mem_finRange, true_and]
  cases fullRefresh with
  | true => exact ⟨source.index, by simp⟩
  | false => exact ⟨source.index - c.nextSource, by simp⟩

/-- The plan that `begin` grants where it grants one. -/
def planned (c : RefreshCoordinator) (now requestedGeneration : ℕ) : RefreshPlan :=
  let fullRefresh := requestedGeneration ≠ c.completedGeneration
  ⟨collectSources fullRefresh (c.eligible now) (c.candidates fullRefresh), fullRefresh,
    requestedGeneration⟩

lemma mem_planned_full {c : RefreshCoordinator} {now requestedGeneration : ℕ} {source : UpstreamSource}
    (h : requestedGeneration ≠ c.completedGeneration) :
    source ∈ (c.planned now requestedGeneration).sources ↔ c.eligible now source = true := by
  simp [planned, h, collectSources_full, candidates_full]

lemma planned_ordinary {c : RefreshCoordinator} {now requestedGeneration : ℕ}
    (h : requestedGeneration = c.completedGeneration) :
    (c.planned now requestedGeneration).sources =
      ((c.candidates false).find? (c.eligible now)).toList := by
  simp [planned, h, collectSources_ordinary]

lemma eligible_of_mem_planned {c : RefreshCoordinator} {now requestedGeneration : ℕ}
    {source : UpstreamSource} (h : source ∈ (c.planned now requestedGeneration).sources) :
    c.eligible now source = true := by
  by_cases hfull : requestedGeneration = c.completedGeneration
  · rw [planned_ordinary hfull, Option.mem_toList] at h
    exact List.find?_some h
  · exact (mem_planned_full hfull).mp h

lemma planned_nodup (c : RefreshCoordinator) (now requestedGeneration : ℕ) :
    (c.planned now requestedGeneration).sources.Nodup := by
  by_cases hfull : requestedGeneration = c.completedGeneration
  · rw [planned_ordinary hfull]
    cases (c.candidates false).find? (c.eligible now) <;> simp
  · simp only [planned, hfull, ne_eq, not_false_eq_true, decide_true, collectSources_full,
      candidates_full]
    exact UpstreamSource.all_nodup.filter _

lemma planned_eq_nil {c : RefreshCoordinator} {now requestedGeneration : ℕ} :
    (c.planned now requestedGeneration).sources = [] ↔ ∀ source, c.eligible now source = false := by
  by_cases hfull : requestedGeneration = c.completedGeneration
  · rw [planned_ordinary hfull]
    cases hfind : (c.candidates false).find? (c.eligible now) with
    | none =>
      simp only [Option.toList_none, true_iff]
      intro source
      simpa using List.find?_eq_none.mp hfind source (c.mem_candidates false source)
    | some source =>
      simp only [Option.toList_some, List.cons_ne_nil, false_iff, not_forall]
      exact ⟨source, by simp [List.find?_some hfind]⟩
  · constructor
    · intro hnil source
      by_contra hsource
      have hmem : source ∈ (c.planned now requestedGeneration).sources :=
        (mem_planned_full hfull).mpr (by simpa using hsource)
      simp [hnil] at hmem
    · intro hnone
      refine List.eq_nil_iff_forall_not_mem.mpr fun source hmem => ?_
      exact absurd ((mem_planned_full hfull).mp hmem) (by simp [hnone source])

lemma dispatch_spec (deadline : ℕ) (sources : List UpstreamSource) (c : RefreshCoordinator) :
    (c.dispatch deadline sources).lastAttempt = c.lastAttempt ∧
      (c.dispatch deadline sources).consecutiveFailures = c.consecutiveFailures ∧
      (c.dispatch deadline sources).completedGeneration = c.completedGeneration ∧
      ∀ source, (c.dispatch deadline sources).nextEligible source =
        if source ∈ sources then some deadline else c.nextEligible source := by
  induction sources generalizing c with
  | nil => simp [dispatch]
  | cons first rest ih =>
    obtain ⟨hattempt, hfailures, hgeneration, hdeadline⟩ := ih { c with
      nextEligible := Function.update c.nextEligible first (some deadline)
      nextSource := first.index + 1 }
    refine ⟨hattempt, hfailures, hgeneration, fun source => (hdeadline source).trans ?_⟩
    by_cases hrest : source ∈ rest
    · simp [hrest]
    · by_cases hfirst : source = first
      · simp [hfirst]
      · simp [hrest, hfirst]

/-- All that `begin` can do. -/
lemma begin_cases (range : InstantRange) (now requestedGeneration : ℕ) (c : RefreshCoordinator) :
    (c.tooEarly now = true ∧ c.begin range now requestedGeneration = .ok (.error intervalReason, c)) ∨
    (c.tooEarly now = false ∧ (∀ source, c.eligible now source = false) ∧
      c.begin range now requestedGeneration = .ok (.error waitingReason, c)) ∨
    (c.tooEarly now = false ∧ (c.planned now requestedGeneration).sources ≠ [] ∧
      range.last < now + refreshInterval ∧
      c.begin range now requestedGeneration = .error { c with lastAttempt := some now }) ∨
    (c.tooEarly now = false ∧ (c.planned now requestedGeneration).sources ≠ [] ∧
      now + refreshInterval ≤ range.last ∧
      c.begin range now requestedGeneration = .ok (.ok (c.planned now requestedGeneration),
        { c with lastAttempt := some now }.dispatch (now + refreshInterval)
          (c.planned now requestedGeneration).sources)) := by
  cases hearly : c.tooEarly now with
  | true => exact .inl ⟨rfl, if_pos hearly⟩
  | false =>
    have hopen : ¬c.tooEarly now = true := by simp [hearly]
    by_cases hnil : (c.planned now requestedGeneration).sources = []
    · refine .inr (.inl ⟨rfl, planned_eq_nil.mp hnil, ?_⟩)
      unfold RefreshCoordinator.begin
      rw [if_neg hopen]
      exact if_pos hnil
    · by_cases hrange : now + refreshInterval ≤ range.last
      · refine .inr (.inr (.inr ⟨rfl, hnil, hrange, ?_⟩))
        have hadd := InstantRange.checkedAdd_eq_some.mpr ⟨hrange, rfl⟩
        unfold RefreshCoordinator.begin
        rw [if_neg hopen]
        simp only [hadd]
        exact if_neg hnil
      · refine .inr (.inr (.inl ⟨rfl, hnil, by omega, ?_⟩))
        have hadd : range.checkedAdd now refreshInterval = none := if_neg hrange
        unfold RefreshCoordinator.begin
        rw [if_neg hopen]
        simp only [hadd]
        exact if_neg hnil

lemma begin_refused {range : InstantRange} {now requestedGeneration : ℕ} {c c' : RefreshCoordinator}
    {reason : String} (h : c.begin range now requestedGeneration = .ok (.error reason, c')) : c' = c := by
  rcases c.begin_cases range now requestedGeneration with ⟨_, hbegin⟩ | ⟨_, _, hbegin⟩ | ⟨_, _, _, hbegin⟩ |
    ⟨_, _, _, hbegin⟩
  all_goals
    rw [hbegin] at h
    cases h
  all_goals rfl

lemma begin_unwound {range : InstantRange} {now requestedGeneration : ℕ} {c c' : RefreshCoordinator}
    (h : c.begin range now requestedGeneration = .error c') : c' = { c with lastAttempt := some now } := by
  rcases c.begin_cases range now requestedGeneration with ⟨_, hbegin⟩ | ⟨_, _, hbegin⟩ | ⟨_, _, _, hbegin⟩ |
    ⟨_, _, _, hbegin⟩
  all_goals
    rw [hbegin] at h
    cases h
  rfl

lemma begin_granted {range : InstantRange} {now requestedGeneration : ℕ} {c c' : RefreshCoordinator}
    {plan : RefreshPlan} (h : c.begin range now requestedGeneration = .ok (.ok plan, c')) :
    c.tooEarly now = false ∧ plan = c.planned now requestedGeneration ∧ plan.sources ≠ [] ∧
      c' = { c with lastAttempt := some now }.dispatch (now + refreshInterval) plan.sources := by
  rcases c.begin_cases range now requestedGeneration with ⟨_, hbegin⟩ | ⟨_, _, hbegin⟩ | ⟨_, _, _, hbegin⟩ |
    ⟨hopen, hsome, _, hbegin⟩
  all_goals
    rw [hbegin] at h
    cases h
  exact ⟨hopen, rfl, hsome, rfl⟩

lemma tooEarly_eq_false {c : RefreshCoordinator} {now last : ℕ} (h : c.tooEarly now = false)
    (hlast : c.lastAttempt = some last) : last + refreshInterval ≤ now := by
  have hpos : 0 < refreshInterval := by norm_num [refreshInterval, Duration.fromSecs, REFRESH_INTERVAL_SECONDS]
  rw [tooEarly, hlast, Option.any_some, decide_eq_false_iff_not] at h
  omega

lemma eligible_iff {c : RefreshCoordinator} {now : ℕ} {source : UpstreamSource} :
    c.eligible now source = true ↔ ∀ deadline, c.nextEligible source = some deadline → deadline ≤ now := by
  unfold eligible
  cases c.nextEligible source <;> simp

lemma refreshInterval_le_backoff (count : ℕ) : refreshInterval ≤ backoff count := by
  unfold refreshInterval backoff REFRESH_INTERVAL_SECONDS
  refine Duration.fromSecs_mono (le_min ?_ (by norm_num))
  have := Nat.one_le_two_pow (n := count - 1)
  omega

/-- All that a failure can install: the backoff, or a longer hint that is representable. -/
lemma retryDeadline_cases {range : InstantRange} {error : ProviderError} {now : ℕ} {nowUnix : ℤ}
    {count deadline : ℕ} (h : retryDeadline range error now nowUnix count = some deadline) :
    now + backoff count ≤ range.last ∧
      ((∃ delay, retryDelay error nowUnix = some delay ∧ now + max delay (backoff count) ≤ range.last ∧
        deadline = now + max delay (backoff count)) ∨
      (∀ delay, retryDelay error nowUnix = some delay → range.last < now + max delay (backoff count)) ∧
        deadline = now + backoff count) := by
  obtain ⟨base, hbase, hget⟩ := Option.map_eq_some_iff.mp h
  obtain ⟨hle, rfl⟩ := InstantRange.checkedAdd_eq_some.mp hbase
  refine ⟨hle, ?_⟩
  cases hdelay : retryDelay error nowUnix with
  | none =>
    rw [hdelay, Option.bind_none, Option.getD_none] at hget
    exact .inr ⟨by simp, hget.symm⟩
  | some delay =>
    rw [hdelay, Option.bind_some] at hget
    by_cases hrange : now + max delay (backoff count) ≤ range.last
    · rw [InstantRange.checkedAdd, if_pos hrange, Option.getD_some] at hget
      exact .inl ⟨delay, rfl, hrange, hget.symm⟩
    · rw [InstantRange.checkedAdd, if_neg hrange, Option.getD_none] at hget
      refine .inr ⟨fun other hother => ?_, hget.symm⟩
      obtain rfl := Option.some.inj hother
      omega

lemma interval_le_retryDeadline {range : InstantRange} {error : ProviderError} {now : ℕ} {nowUnix : ℤ}
    {count deadline : ℕ} (h : retryDeadline range error now nowUnix count = some deadline) :
    now + refreshInterval ≤ deadline := by
  have hbackoff := refreshInterval_le_backoff count
  obtain ⟨_, ⟨delay, _, _, rfl⟩ | ⟨_, rfl⟩⟩ := retryDeadline_cases h <;> omega

/-- What settling does to one provider of the plan. -/
def Settled (range : InstantRange) (failures : List ProviderError) (now : ℕ) (nowUnix : ℤ)
    (c c' : RefreshCoordinator) (source : UpstreamSource) : Prop :=
  match failures.find? fun error => error.provider = source with
  | some error =>
    c'.consecutiveFailures source = min (c.consecutiveFailures source + 1) 6 ∧
      ∃ deadline, c'.nextEligible source = some deadline ∧
        retryDeadline range error now nowUnix (c'.consecutiveFailures source) = some deadline
  | none => c'.consecutiveFailures source = 0 ∧ c'.nextEligible source = c.nextEligible source

def Untouched (c c' : RefreshCoordinator) (source : UpstreamSource) : Prop :=
  c'.consecutiveFailures source = c.consecutiveFailures source ∧ c'.nextEligible source = c.nextEligible source

/-- The state that an operation leaves, whether it returns or panics. -/
def left : Except RefreshCoordinator RefreshCoordinator → RefreshCoordinator
  | .ok c => c
  | .error c => c

lemma settle_ok {range : InstantRange} {failures : List ProviderError} {now : ℕ} {nowUnix : ℤ}
    {c c' : RefreshCoordinator} {source : UpstreamSource}
    (h : c.settle range failures now nowUnix source = .ok c') :
    Settled range failures now nowUnix c c' source ∧
      (∀ other, other ≠ source → Untouched c c' other) ∧
      c'.lastAttempt = c.lastAttempt ∧ c'.completedGeneration = c.completedGeneration := by
  unfold settle at h
  unfold Settled
  cases hfind : failures.find? fun error => error.provider = source with
  | none =>
    simp only [hfind, Except.ok.injEq] at h
    subst h
    refine ⟨by simp [setFailures], fun other hother => ?_, rfl, rfl⟩
    simp [setFailures, Untouched, hother]
  | some error =>
    simp only [hfind, recordFailure] at h
    cases hdeadline : retryDeadline range error now nowUnix (c.failureCount source) with
    | none => simp [hdeadline] at h
    | some deadline =>
      simp only [hdeadline, Except.ok.injEq] at h
      subst h
      refine ⟨⟨by simp [setEligible, setFailures, failureCount], deadline, ?_, ?_⟩,
        fun other hother => ?_, rfl, rfl⟩
      · simp [setEligible]
      · simpa [setEligible, setFailures] using hdeadline
      · simp [setEligible, setFailures, Untouched, hother]

/-- A panic in `settle` has counted the failure and moved no deadline. -/
lemma settle_error {range : InstantRange} {failures : List ProviderError} {now : ℕ} {nowUnix : ℤ}
    {c c' : RefreshCoordinator} {source : UpstreamSource}
    (h : c.settle range failures now nowUnix source = .error c') :
    c' = c.setFailures source (c.failureCount source) := by
  unfold settle at h
  cases hfind : failures.find? fun error => error.provider = source with
  | none => simp [hfind] at h
  | some error =>
    simp only [hfind, recordFailure] at h
    cases hdeadline : retryDeadline range error now nowUnix (c.failureCount source) with
    | none =>
      simp only [hdeadline, Except.error.injEq] at h
      exact h.symm
    | some deadline => simp [hdeadline] at h

lemma settleAll_ok {range : InstantRange} {failures : List ProviderError} {now : ℕ} {nowUnix : ℤ}
    {sources : List UpstreamSource} {c c' : RefreshCoordinator} (hnodup : sources.Nodup)
    (h : settleAll range failures now nowUnix sources c = .ok c') :
    (∀ source ∈ sources, Settled range failures now nowUnix c c' source) ∧
      (∀ source ∉ sources, Untouched c c' source) ∧
      c'.lastAttempt = c.lastAttempt ∧ c'.completedGeneration = c.completedGeneration := by
  induction sources generalizing c with
  | nil =>
    simp only [settleAll, Except.ok.injEq] at h
    subst h
    exact ⟨by simp, fun _ _ => ⟨rfl, rfl⟩, rfl, rfl⟩
  | cons first rest ih =>
    obtain ⟨hfirst, hrest⟩ := List.nodup_cons.mp hnodup
    cases hsettle : c.settle range failures now nowUnix first with
    | error c₁ => simp [settleAll, hsettle] at h
    | ok c₁ =>
      simp only [settleAll, hsettle] at h
      obtain ⟨hsettled, hothers, hattempt, hgeneration⟩ := settle_ok hsettle
      obtain ⟨hsettled', hothers', hattempt', hgeneration'⟩ := ih hrest h
      refine ⟨fun source hmem => ?_, fun source hmem => ?_, hattempt'.trans hattempt,
        hgeneration'.trans hgeneration⟩
      · by_cases heq : source = first
        · subst heq
          obtain ⟨hcount, hdeadline⟩ := hothers' source hfirst
          unfold Settled at hsettled ⊢
          rwa [hcount, hdeadline]
        · have hin := hsettled' source ((List.mem_cons.mp hmem).resolve_left heq)
          obtain ⟨hcount, hdeadline⟩ := hothers source heq
          unfold Settled at hin ⊢
          rwa [← hcount, ← hdeadline]
      · obtain ⟨hne, hnot⟩ := not_or.mp (List.mem_cons.not.mp hmem)
        obtain ⟨hcount, hdeadline⟩ := hothers source hne
        obtain ⟨hcount', hdeadline'⟩ := hothers' source hnot
        exact ⟨hcount'.trans hcount, hdeadline'.trans hdeadline⟩

/-- Whether it returns or panics, settling only moves deadlines of the plan, and these to
the interval after `now` or later. -/
lemma settleAll_deadline (range : InstantRange) (failures : List ProviderError) (now : ℕ) (nowUnix : ℤ)
    (sources : List UpstreamSource) (c : RefreshCoordinator) :
    (left (settleAll range failures now nowUnix sources c)).lastAttempt = c.lastAttempt ∧
    ∀ source,
      (left (settleAll range failures now nowUnix sources c)).nextEligible source = c.nextEligible source ∨
      source ∈ sources ∧ ∃ deadline,
        (left (settleAll range failures now nowUnix sources c)).nextEligible source = some deadline ∧
          now + refreshInterval ≤ deadline := by
  induction sources generalizing c with
  | nil => exact ⟨rfl, fun _ => .inl rfl⟩
  | cons first rest ih =>
    cases hsettle : c.settle range failures now nowUnix first with
    | error c₁ =>
      simp only [settleAll, hsettle, left]
      rw [settle_error hsettle]
      exact ⟨rfl, fun _ => .inl rfl⟩
    | ok c₁ =>
      obtain ⟨hsettled, hothers, hattempt, _⟩ := settle_ok hsettle
      obtain ⟨hattempt', hdeadlines⟩ := ih c₁
      simp only [settleAll, hsettle]
      refine ⟨hattempt'.trans hattempt, fun source => ?_⟩
      rcases hdeadlines source with hsame | ⟨hmem, hlater⟩
      · rw [hsame]
        by_cases heq : source = first
        · subst heq
          unfold Settled at hsettled
          split at hsettled
          · obtain ⟨_, deadline, hnext, hdeadline⟩ := hsettled
            exact .inr ⟨List.mem_cons_self, deadline, hnext, interval_le_retryDeadline hdeadline⟩
          · exact .inl hsettled.2
        · exact .inl (hothers source heq).2
      · exact .inr ⟨List.mem_cons_of_mem _ hmem, hlater⟩

lemma complete_ok {range : InstantRange} {plan : RefreshPlan} {failures : List ProviderError} {now : ℕ}
    {nowUnix : ℤ} {c c' : RefreshCoordinator} (hnodup : plan.sources.Nodup)
    (h : c.complete range plan failures now nowUnix = .ok c') :
    (∀ source ∈ plan.sources, Settled range failures now nowUnix c c' source) ∧
      (∀ source ∉ plan.sources, Untouched c c' source) ∧ c'.lastAttempt = c.lastAttempt ∧
      c'.completedGeneration = if plan.fullRefresh then plan.generation else c.completedGeneration := by
  unfold complete at h
  cases hsettle : settleAll range failures now nowUnix plan.sources c with
  | error c₁ => simp [hsettle] at h
  | ok c₁ =>
    simp only [hsettle, Except.ok.injEq] at h
    obtain ⟨hsettled, hothers, hattempt, hgeneration⟩ := settleAll_ok hnodup hsettle
    cases hfull : plan.fullRefresh with
    | true =>
      rw [if_pos hfull] at h
      subst h
      exact ⟨hsettled, hothers, hattempt, rfl⟩
    | false =>
      rw [hfull, if_neg Bool.false_ne_true] at h
      subst h
      exact ⟨hsettled, hothers, hattempt, hgeneration⟩

lemma complete_deadline (range : InstantRange) (plan : RefreshPlan) (failures : List ProviderError)
    (now : ℕ) (nowUnix : ℤ) (c : RefreshCoordinator) :
    (left (c.complete range plan failures now nowUnix)).lastAttempt = c.lastAttempt ∧
    ∀ source,
      (left (c.complete range plan failures now nowUnix)).nextEligible source = c.nextEligible source ∨
      source ∈ plan.sources ∧ ∃ deadline,
        (left (c.complete range plan failures now nowUnix)).nextEligible source = some deadline ∧
          now + refreshInterval ≤ deadline := by
  have hsettle := settleAll_deadline range failures now nowUnix plan.sources c
  unfold complete
  cases h : settleAll range failures now nowUnix plan.sources c with
  | error c₁ => simpa only [h] using hsettle
  | ok c₁ =>
    rw [h] at hsettle
    cases hfull : plan.fullRefresh <;> exact hsettle

lemma settleAll_generation (range : InstantRange) (failures : List ProviderError) (now : ℕ) (nowUnix : ℤ)
    (sources : List UpstreamSource) (c : RefreshCoordinator) :
    (left (settleAll range failures now nowUnix sources c)).completedGeneration = c.completedGeneration := by
  induction sources generalizing c with
  | nil => rfl
  | cons first rest ih =>
    cases hsettle : c.settle range failures now nowUnix first with
    | error c₁ =>
      simp only [settleAll, hsettle, left]
      rw [settle_error hsettle]
      rfl
    | ok c₁ =>
      simp only [settleAll, hsettle]
      exact (ih c₁).trans (settle_ok hsettle).2.2.2

/-- A full batch completes the generation of its plan, also where all of its attempts failed. -/
lemma complete_generation {range : InstantRange} {plan : RefreshPlan} {failures : List ProviderError}
    {now : ℕ} {nowUnix : ℤ} {c c' : RefreshCoordinator}
    (h : c.complete range plan failures now nowUnix = .ok c') :
    c'.completedGeneration = if plan.fullRefresh then plan.generation else c.completedGeneration := by
  have hsettled := settleAll_generation range failures now nowUnix plan.sources c
  unfold complete at h
  cases hsettle : settleAll range failures now nowUnix plan.sources c with
  | error c₁ => simp [hsettle] at h
  | ok c₁ =>
    rw [hsettle] at hsettled
    simp only [hsettle, Except.ok.injEq] at h
    subst h
    cases plan.fullRefresh with
    | true => rfl
    | false => exact hsettled

lemma complete_unwound_generation {range : InstantRange} {plan : RefreshPlan} {failures : List ProviderError}
    {now : ℕ} {nowUnix : ℤ} {c c' : RefreshCoordinator}
    (h : c.complete range plan failures now nowUnix = .error c') :
    c'.completedGeneration = c.completedGeneration := by
  have hsettled := settleAll_generation range failures now nowUnix plan.sources c
  unfold complete at h
  cases hsettle : settleAll range failures now nowUnix plan.sources c with
  | error c₁ =>
    rw [hsettle] at hsettled
    simp only [hsettle, Except.error.injEq] at h
    exact h ▸ hsettled
  | ok c₁ => simp [hsettle] at h

end RefreshCoordinator

open RefreshCoordinator

/-- The steps of the machine, with all that each of them knows. -/
inductive RefreshStep (range : InstantRange) : Schedule → RefreshAction → Schedule → Prop
  | refused {c : RefreshCoordinator} {last now requestedGeneration : ℕ} {reason : String} :
      last ≤ now → (c.tooEarly now = true ∨ ∀ source, c.eligible now source = false) →
      RefreshStep range ⟨c, none, last⟩ (.refused reason now requestedGeneration) ⟨c, none, now⟩
  | beginUnwound {c : RefreshCoordinator} {last now : ℕ} :
      last ≤ now → c.tooEarly now = false →
      RefreshStep range ⟨c, none, last⟩ (.beginUnwound now) ⟨{ c with lastAttempt := some now }, none, now⟩
  | granted {c : RefreshCoordinator} {last now requestedGeneration : ℕ} :
      last ≤ now → c.tooEarly now = false → (c.planned now requestedGeneration).sources ≠ [] →
      RefreshStep range ⟨c, none, last⟩ (.granted (c.planned now requestedGeneration) now)
        ⟨{ c with lastAttempt := some now }.dispatch (now + refreshInterval)
            (c.planned now requestedGeneration).sources,
          some (c.planned now requestedGeneration), now⟩
  | completed {c c' : RefreshCoordinator} {plan : RefreshPlan} {last now : ℕ}
      {failures : List ProviderError} {nowUnix : ℤ} :
      last ≤ now → c.complete range plan failures now nowUnix = .ok c' →
      RefreshStep range ⟨c, some plan, last⟩ (.completed plan failures now nowUnix) ⟨c', none, now⟩
  | completionUnwound {c c' : RefreshCoordinator} {plan : RefreshPlan} {last now : ℕ}
      {failures : List ProviderError} {nowUnix : ℤ} :
      last ≤ now → c.complete range plan failures now nowUnix = .error c' →
      RefreshStep range ⟨c, some plan, last⟩ (.completionUnwound plan now) ⟨c', none, now⟩
  | abandoned {c : RefreshCoordinator} {plan : RefreshPlan} {last : ℕ} :
      RefreshStep range ⟨c, some plan, last⟩ (.abandoned plan) ⟨c, none, last⟩

lemma refresh_step {range : InstantRange} {s s' : Schedule} {i : RefreshInput} {a : RefreshAction}
    (h : (refreshMachine range).step s i = some (s', a)) : RefreshStep range s a s' := by
  obtain ⟨c, outstanding, last⟩ := s
  cases i with
  | begin now requestedGeneration =>
    cases outstanding with
    | some plan => simp [refreshMachine] at h
    | none =>
      simp only [refreshMachine] at h
      split at h
      · next hle =>
        rcases c.begin_cases range now requestedGeneration with ⟨hearly, hbegin⟩ | ⟨_, hnone, hbegin⟩ |
          ⟨hopen, _, _, hbegin⟩ | ⟨hopen, hsome, _, hbegin⟩
        all_goals
          rw [hbegin] at h
          simp only [Option.some.injEq, Prod.mk.injEq] at h
          obtain ⟨rfl, rfl⟩ := h
        · exact .refused hle (.inl hearly)
        · exact .refused hle (.inr hnone)
        · exact .beginUnwound hle hopen
        · exact .granted hle hopen hsome
      · simp at h
  | complete failures now nowUnix =>
    cases outstanding with
    | none => simp [refreshMachine] at h
    | some plan =>
      simp only [refreshMachine] at h
      split at h
      · next hle =>
        cases hcomplete : c.complete range plan failures now nowUnix with
        | error c' =>
          simp only [hcomplete, Option.some.injEq, Prod.mk.injEq] at h
          obtain ⟨rfl, rfl⟩ := h
          exact .completionUnwound hle hcomplete
        | ok c' =>
          simp only [hcomplete, Option.some.injEq, Prod.mk.injEq] at h
          obtain ⟨rfl, rfl⟩ := h
          exact .completed hle hcomplete
      · simp at h
  | abandon =>
    cases outstanding with
    | none => simp [refreshMachine] at h
    | some plan =>
      simp only [refreshMachine, Option.some.injEq, Prod.mk.injEq] at h
      obtain ⟨rfl, rfl⟩ := h
      exact .abandoned

end BitcoinPriceTracker

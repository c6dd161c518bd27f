import BitcoinPriceTracker.Proofs.CoordinatorSteps

namespace BitcoinPriceTracker

open RefreshCoordinator

lemma dispatch_nextSource (deadline : ℕ) (sources : List UpstreamSource) (c : RefreshCoordinator) :
    (c.dispatch deadline sources).nextSource =
      sources.getLast?.elim c.nextSource fun source => source.index + 1 := by
  rcases List.eq_nil_or_concat sources with rfl | ⟨init, last, rfl⟩
  · rfl
  · simp [dispatch]

lemma settleAll_nextSource (range : InstantRange) (failures : List ProviderError) (now : ℕ) (nowUnix : ℤ)
    (sources : List UpstreamSource) (c : RefreshCoordinator) :
    (left (settleAll range failures now nowUnix sources c)).nextSource = c.nextSource := by
  have hsettle : ∀ (c : RefreshCoordinator) source,
      (left (c.settle range failures now nowUnix source)).nextSource = c.nextSource := by
    intro c source
    unfold settle recordFailure
    split
    · split <;> rfl
    · rfl
  induction sources generalizing c with
  | nil => rfl
  | cons first rest ih =>
    have hfirst := hsettle c first
    unfold settleAll
    cases hcase : c.settle range failures now nowUnix first with
    | error c₁ => simpa only [hcase, left] using hfirst
    | ok c₁ =>
      rw [hcase] at hfirst
      exact (ih c₁).trans hfirst

lemma complete_nextSource (range : InstantRange) (plan : RefreshPlan) (failures : List ProviderError) (now : ℕ)
    (nowUnix : ℤ) (c : RefreshCoordinator) :
    (left (c.complete range plan failures now nowUnix)).nextSource = c.nextSource := by
  have hsettled := settleAll_nextSource range failures now nowUnix plan.sources c
  unfold complete
  cases h : settleAll range failures now nowUnix plan.sources c with
  | error c₁ => simpa only [h] using hsettled
  | ok c₁ =>
    rw [h] at hsettled
    cases hfull : plan.fullRefresh <;> exact hsettled

/-- How far a provider is ahead of the cursor. -/
def distance (cursor : Fin 4) (source : UpstreamSource) : ℕ := (source.index - cursor).val

lemma distance_le (cursor : Fin 4) (source : UpstreamSource) : distance cursor source ≤ 3 := by
  unfold distance
  omega

lemma find?_finRange_le {n : ℕ} {pred : Fin n → Bool} {first i : Fin n}
    (h : (List.finRange n).find? pred = some first) (hi : pred i = true) : first ≤ i := by
  obtain ⟨_, before, after, hsplit, hbefore⟩ := List.find?_eq_some_iff_append.mp h
  have hsorted := List.pairwise_lt_finRange n
  have hmem := List.mem_finRange i
  rw [hsplit] at hsorted hmem
  rcases List.mem_append.mp hmem with hin | hin
  · exact absurd hi (by simpa using hbefore i hin)
  · rcases List.mem_cons.mp hin with rfl | hin
    · exact le_rfl
    · exact (List.rel_of_pairwise_cons (List.pairwise_append.mp hsorted).2.1 hin).le

lemma distance_behind : ∀ cursor offset place : Fin 4, offset < place →
    (cursor + place - (cursor + offset + 1)).val < (cursor + place - cursor).val := by decide

/-- A granted plan with the coordinator that granted it. -/
structure Grant where
  coordinator : RefreshCoordinator
  plan : RefreshPlan
  now : ℕ

/-- The grants of a run, most recent first. -/
def grants (trace : List (Schedule × RefreshInput × RefreshAction)) : List Grant :=
  trace.filterMap fun
    | (s, _, .granted plan now) => some ⟨s.coordinator, plan, now⟩
    | _ => none

namespace Grant

/-- The deadline of the provider had passed. -/
def Eligible (grant : Grant) (source : UpstreamSource) : Prop := grant.coordinator.eligible grant.now source = true

/-- The cursor behind the last provider of the plan. -/
def cursor (grant : Grant) : Fin 4 :=
  grant.plan.sources.getLast?.elim grant.coordinator.nextSource fun source => source.index + 1

/-- A plan passes over an eligible provider only if it brings the cursor nearer to it. -/
lemma nearer {grant : Grant} {requestedGeneration : ℕ} {source : UpstreamSource}
    (hplan : grant.plan = grant.coordinator.planned grant.now requestedGeneration) (heligible : grant.Eligible source)
    (hpassed : source ∉ grant.plan.sources) :
    distance grant.cursor source < distance grant.coordinator.nextSource source := by
  by_cases hfull : requestedGeneration = grant.coordinator.completedGeneration
  · have hfind : (grant.coordinator.planned grant.now requestedGeneration).sources = _ := planned_ordinary hfull
    rw [← hplan, candidates, List.find?_map] at hfind
    let place := source.index - grant.coordinator.nextSource
    have hplace : grant.coordinator.nextSource + place = source.index := by simp [place]
    let pred : Fin 4 → Bool := fun offset =>
      grant.coordinator.eligible grant.now (UpstreamSource.atIndex (grant.coordinator.nextSource + offset))
    have hpred : pred place = true := by
      simp only [pred, hplace, UpstreamSource.atIndex_index]
      exact heligible
    change grant.plan.sources = (((List.finRange 4).find? pred).map _).toList at hfind
    cases hfirst : (List.finRange 4).find? pred with
    | none => exact absurd hpred (List.find?_eq_none.mp hfirst place (List.mem_finRange place))
    | some offset =>
      simp only [hfirst, Bool.false_eq_true, if_false, Option.map_some, Option.toList_some] at hfind
      have hne : offset ≠ place := by
        rintro rfl
        rw [hfind, hplace] at hpassed
        simp at hpassed
      have hlt : offset < place := lt_of_le_of_ne (find?_finRange_le hfirst hpred) hne
      have hcursor : grant.cursor = grant.coordinator.nextSource + offset + 1 := by
        simp [cursor, hfind]
      unfold distance
      rw [hcursor, ← hplace]
      exact distance_behind _ _ _ hlt
  · rw [hplan] at hpassed
    exact absurd ((mem_planned_full hfull).mpr heligible) hpassed

end Grant

/-- A provider that is eligible and passed over `n` times in a row is less than `4 - n` ahead of the cursor. -/
lemma distance_of_passed {source : UpstreamSource} :
    ∀ {grants : List Grant},
      (∀ grant ∈ grants, ∃ generation, grant.plan = grant.coordinator.planned grant.now generation) →
      grants.IsChain (fun newer older => newer.coordinator.nextSource = older.cursor) →
      (∀ grant ∈ grants, grant.Eligible source ∧ source ∉ grant.plan.sources) →
      ∀ newest ∈ grants.head?, distance newest.cursor source + grants.length ≤ 3
  | [], _, _, _, _, h => by simp at h
  | newest :: older, hplanned, hchain, hpassed, other, h => by
    obtain rfl : newest = other := by simpa using h
    obtain ⟨generation, hplan⟩ := hplanned newest List.mem_cons_self
    obtain ⟨heligible, hnot⟩ := hpassed newest List.mem_cons_self
    have hnearer := Grant.nearer hplan heligible hnot
    cases older with
    | nil =>
      have hle := distance_le newest.coordinator.nextSource source
      simp only [List.length_singleton]
      omega
    | cons previous rest =>
      obtain ⟨hcursor, hrest⟩ := List.isChain_cons_cons.mp hchain
      have hbefore := distance_of_passed (fun grant hgrant => hplanned grant (List.mem_cons_of_mem _ hgrant)) hrest
        (fun grant hgrant => hpassed grant (List.mem_cons_of_mem _ hgrant)) previous rfl
      rw [List.length_cons]
      rw [hcursor] at hnearer
      omega

section Runs

variable {range : InstantRange} {trace : List (Schedule × RefreshInput × RefreshAction)} {s s' : Schedule}
  {i : RefreshInput} {a : RefreshAction} {source : UpstreamSource}

lemma grants_granted (plan : RefreshPlan) (now : ℕ) :
    grants ((s, i, .granted plan now) :: trace) = ⟨s.coordinator, plan, now⟩ :: grants trace := rfl

/-- The grants are plans of their coordinators, and between two of them the cursor stays where it is. -/
structure Rotating (trace : List (Schedule × RefreshInput × RefreshAction)) (s : Schedule) : Prop where
  planned : ∀ grant ∈ grants trace, ∃ generation, grant.plan = grant.coordinator.planned grant.now generation
  chain : (grants trace).IsChain fun newer older => newer.coordinator.nextSource = older.cursor
  cursor : ∀ newest ∈ (grants trace).head?, s.coordinator.nextSource = newest.cursor

lemma Rotating.same (h : Rotating trace s) {trace' : List (Schedule × RefreshInput × RefreshAction)}
    (hgrants : grants trace' = grants trace) (hcursor : s'.coordinator.nextSource = s.coordinator.nextSource) :
    Rotating trace' s' := by
  refine ⟨?_, ?_, ?_⟩
  · rw [hgrants]
    exact h.planned
  · rw [hgrants]
    exact h.chain
  · rw [hgrants, hcursor]
    exact h.cursor

lemma Rotating.step (h : Rotating trace s) (hs : RefreshStep range s a s') : Rotating ((s, i, a) :: trace) s' := by
  cases hs with
  | refused => exact h.same rfl rfl
  | beginUnwound => exact h.same rfl rfl
  | @granted c last now requestedGeneration _ _ _ =>
    have hcursor := dispatch_nextSource (now + refreshInterval) (c.planned now requestedGeneration).sources
      { c with lastAttempt := some now }
    refine ⟨?_, ?_, ?_⟩
    · rw [grants_granted, List.forall_mem_cons]
      exact ⟨⟨requestedGeneration, rfl⟩, h.planned⟩
    · rw [grants_granted, List.isChain_cons]
      exact ⟨fun previous hprevious => h.cursor previous hprevious, h.chain⟩
    · rw [grants_granted, List.head?_cons]
      rintro newest ⟨⟩
      exact hcursor
  | @completed c c' plan last now failures nowUnix _ hcomplete =>
    have hcursor := complete_nextSource range plan failures now nowUnix c
    rw [hcomplete] at hcursor
    exact h.same rfl hcursor
  | @completionUnwound c c' plan last now failures nowUnix _ hcomplete =>
    have hcursor := complete_nextSource range plan failures now nowUnix c
    rw [hcomplete] at hcursor
    exact h.same rfl hcursor
  | abandoned => exact h.same rfl rfl

lemma Rotating.run (h : (refreshMachine range).traced.Run .init trace s) : Rotating trace s := by
  refine h.invariant ⟨by simp [grants], .nil, by simp [grants]⟩ fun trace s i s' entry _ hrotating hs => ?_
  obtain ⟨a, hstep, rfl⟩ := Machine.traced_step.mp hs
  exact hrotating.step (refresh_step hstep)

/-- A completion that records a failure of a provider of the plan, also where it then panics. -/
def AttemptFailed (source : UpstreamSource) : Schedule × RefreshInput × RefreshAction → Prop
  | (⟨_, some plan, _⟩, .complete failures _ _, _) =>
    source ∈ plan.sources ∧ ∃ error ∈ failures, error.provider = source
  | _ => False

lemma settleAll_unfailed (range : InstantRange) {failures : List ProviderError} (now : ℕ) (nowUnix : ℤ)
    {sources : List UpstreamSource} (h : source ∈ sources → ∀ error ∈ failures, error.provider ≠ source)
    (c : RefreshCoordinator) :
    (left (settleAll range failures now nowUnix sources c)).nextEligible source = c.nextEligible source := by
  induction sources generalizing c with
  | nil => rfl
  | cons first rest ih =>
    have hrest := fun c => ih (fun hmem => h (List.mem_cons_of_mem first hmem)) c
    unfold settleAll
    cases hsettle : c.settle range failures now nowUnix first with
    | error c₁ =>
      simp only [left]
      rw [settle_error hsettle]
      rfl
    | ok c₁ =>
      obtain ⟨hsettled, hothers, _⟩ := settle_ok hsettle
      refine (hrest c₁).trans ?_
      by_cases heq : source = first
      · subst heq
        have hfind : (failures.find? fun error => error.provider = source) = none := by
          simpa [List.find?_eq_none] using h List.mem_cons_self
        unfold Settled at hsettled
        rw [hfind] at hsettled
        exact hsettled.2
      · exact (hothers source heq).2

lemma complete_unfailed (range : InstantRange) {plan : RefreshPlan} {failures : List ProviderError} (now : ℕ)
    (nowUnix : ℤ) (h : source ∈ plan.sources → ∀ error ∈ failures, error.provider ≠ source) (c : RefreshCoordinator) :
    (left (c.complete range plan failures now nowUnix)).nextEligible source = c.nextEligible source := by
  have hsettled := settleAll_unfailed range now nowUnix h c
  unfold complete
  cases hcase : settleAll range failures now nowUnix plan.sources c with
  | error c₁ => simpa only [hcase] using hsettled
  | ok c₁ =>
    rw [hcase] at hsettled
    cases hfull : plan.fullRefresh <;> exact hsettled

lemma complete_outstanding {failures : List ProviderError} {now : ℕ} {nowUnix : ℤ}
    (h : (refreshMachine range).step s (.complete failures now nowUnix) = some (s', a)) :
    ∃ plan, s.outstanding = some plan ∧
      s'.coordinator = left (s.coordinator.complete range plan failures now nowUnix) ∧
      ∀ trace i, grants ((s, i, a) :: trace) = grants trace := by
  obtain ⟨c, outstanding, last⟩ := s
  cases outstanding with
  | none => simp [refreshMachine] at h
  | some plan =>
    simp only [refreshMachine] at h
    split at h
    · cases hcomplete : c.complete range plan failures now nowUnix with
      | error c' =>
        simp only [hcomplete, Option.some.injEq, Prod.mk.injEq] at h
        obtain ⟨rfl, rfl⟩ := h
        exact ⟨plan, rfl, by simp only [hcomplete, left], fun _ _ => rfl⟩
      | ok c' =>
        simp only [hcomplete, Option.some.injEq, Prod.mk.injEq] at h
        obtain ⟨rfl, rfl⟩ := h
        exact ⟨plan, rfl, by simp only [hcomplete, left], fun _ _ => rfl⟩
    · simp at h

lemma begin_outstanding {now requestedGeneration : ℕ}
    (h : (refreshMachine range).step s (.begin now requestedGeneration) = some (s', a)) : s.outstanding = none := by
  obtain ⟨c, _ | plan, last⟩ := s
  · rfl
  · simp [refreshMachine] at h

/-- A provider without failures is held back for an interval after the last attempt at most, and was eligible
whenever a plan was granted. -/
structure Unfailed (source : UpstreamSource) (trace : List (Schedule × RefreshInput × RefreshAction))
    (s : Schedule) : Prop where
  held : ∀ deadline, s.coordinator.nextEligible source = some deadline →
    ∃ last, s.coordinator.lastAttempt = some last ∧ deadline ≤ last + refreshInterval
  eligible : ∀ grant ∈ grants trace, grant.Eligible source

lemma Unfailed.passed (h : Unfailed source trace s) {now : ℕ} (hopen : s.coordinator.tooEarly now = false) :
    s.coordinator.eligible now source = true := by
  rw [eligible_iff]
  intro deadline hdeadline
  obtain ⟨last, hlast, hle⟩ := h.held deadline hdeadline
  exact hle.trans (tooEarly_eq_false hopen hlast)

lemma Unfailed.step (h : Unfailed source trace s) (hfailed : ¬AttemptFailed source (s, i, a))
    (hs : (refreshMachine range).step s i = some (s', a)) : Unfailed source ((s, i, a) :: trace) s' := by
  cases i with
  | complete failures now nowUnix =>
    obtain ⟨plan, hplan, hcoordinator, hgrants⟩ := complete_outstanding hs
    have hsource : source ∈ plan.sources → ∀ error ∈ failures, error.provider ≠ source := by
      intro hmem error herror heq
      obtain ⟨c, outstanding, last⟩ := s
      obtain rfl : outstanding = some plan := hplan
      exact hfailed ⟨hmem, error, herror, heq⟩
    have hattempt := (complete_deadline range plan failures now nowUnix s.coordinator).1
    have hdeadline := complete_unfailed range now nowUnix hsource s.coordinator
    refine ⟨?_, ?_⟩
    · rw [hcoordinator, hattempt, hdeadline]
      exact h.held
    · rw [hgrants]
      exact h.eligible
  | abandon =>
    cases refresh_step hs with
    | refused | beginUnwound | granted | completed | completionUnwound => simp [refreshMachine] at hs
    | abandoned => exact ⟨h.held, h.eligible⟩
  | begin now requestedGeneration =>
    have hnone := begin_outstanding hs
    cases refresh_step hs with
    | completed | completionUnwound | abandoned => simp at hnone
    | refused => exact ⟨h.held, h.eligible⟩
    | @beginUnwound c last later _ hopen =>
      refine ⟨fun deadline hdeadline => ⟨later, rfl, ?_⟩, h.eligible⟩
      have hpassed := eligible_iff.mp (h.passed hopen) deadline hdeadline
      omega
    | @granted c last later generation _ hopen _ =>
      obtain ⟨hattempt, _, _, hdeadline⟩ := dispatch_spec (later + refreshInterval)
        (c.planned later generation).sources { c with lastAttempt := some later }
      refine ⟨fun deadline hsome => ⟨later, hattempt, ?_⟩, ?_⟩
      · rw [hdeadline] at hsome
        split at hsome
        · exact (Option.some.inj hsome).ge
        · have hpassed := eligible_iff.mp (h.passed hopen) deadline hsome
          omega
      · rw [grants_granted, List.forall_mem_cons]
        exact ⟨h.passed hopen, h.eligible⟩

lemma Unfailed.run (h : (refreshMachine range).traced.Run .init trace s)
    (hfailed : ∀ entry ∈ trace, ¬AttemptFailed source entry) : Unfailed source trace s := by
  induction h with
  | init => exact ⟨by simp [Schedule.init, RefreshCoordinator.init], by simp [grants]⟩
  | @next trace s s' i entry hrun hs ih =>
    obtain ⟨a, hstep, rfl⟩ := Machine.traced_step.mp hs
    obtain ⟨hlast, hrest⟩ := List.forall_mem_cons.mp hfailed
    exact (ih hrest).step hlast hstep

end Runs

/-- No provider starves. Of any four consecutive plans that are granted on a run, one contains the provider, if its
deadline had passed whenever one of them was granted, or if none of its attempts failed. -/
theorem rotation_law {range : InstantRange} {trace : List (Schedule × RefreshInput × RefreshAction)} {s : Schedule}
    (h : (refreshMachine range).traced.Run .init trace s) {four : List Grant} (hfour : four <:+: grants trace)
    (hlength : four.length = 4) (source : UpstreamSource) :
    ((∀ grant ∈ four, grant.Eligible source) → ∃ grant ∈ four, source ∈ grant.plan.sources) ∧
    ((∀ entry ∈ trace, ¬AttemptFailed source entry) → ∃ grant ∈ four, source ∈ grant.plan.sources) := by
  have hrotating := Rotating.run h
  have hcontained : (∀ grant ∈ four, grant.Eligible source) → ∃ grant ∈ four, source ∈ grant.plan.sources := by
    intro heligible
    by_contra hnone
    push Not at hnone
    obtain ⟨newest, hnewest⟩ : ∃ newest, four.head? = some newest := by
      cases four with
      | nil => simp at hlength
      | cons newest older => exact ⟨newest, rfl⟩
    have hchain := List.IsChain.infix hrotating.chain hfour
    have hdistance := distance_of_passed
      (fun grant hgrant => hrotating.planned grant (hfour.subset hgrant)) hchain
      (fun grant hgrant => ⟨heligible grant hgrant, hnone grant hgrant⟩) newest hnewest
    omega
  refine ⟨hcontained, fun hfailed => hcontained fun grant hgrant => ?_⟩
  exact (Unfailed.run h hfailed).eligible grant (hfour.subset hgrant)

/-- Three ordinary plans and a full one, while CoinGecko waits after a failure. -/
theorem rotation_law_cooling :
    ∃ trace s, (refreshMachine Platform.plain.range).traced.Run .init trace s ∧
      (grants trace).map (fun grant => grant.plan.sources) =
        [[.coinbase], [.coinbase, .kraken, .gemini], [.coinbase], [.coinGecko]] ∧
      ∃ grant ∈ grants trace, .gemini ∈ grant.plan.sources := by
  have hchecked : ((refreshMachine Platform.plain.range).traced.exec [] .init
      [.begin 0 0, .complete [ProviderError.fromStatus .plain .coinGecko ⟨429, by decide⟩ (some [54, 48, 48])] 0 0,
        .begin (Duration.fromSecs 10) 0, .abandon, .begin (Duration.fromSecs 20) 1,
        .complete [] (Duration.fromSecs 21) 0, .begin (Duration.fromSecs 30) 1]).any (fun r =>
      (grants r.1).map (fun grant => grant.plan.sources) =
          [[.coinbase], [.coinbase, .kraken, .gemini], [.coinbase], [.coinGecko]] &&
        (grants r.1).all fun grant => grant.coordinator.eligible grant.now .gemini) = true := by decide +kernel
  obtain ⟨⟨trace, s⟩, hexec, hboth⟩ := (Option.any_eq_true _ _).mp hchecked
  obtain ⟨hplans, heligible⟩ := Bool.and_eq_true_iff.mp hboth
  have hlength : (grants trace).length = 4 := by simpa using congrArg List.length (of_decide_eq_true hplans)
  have hrun := Machine.run_of_exec _ hexec
  exact ⟨trace, s, hrun, of_decide_eq_true hplans,
    (rotation_law hrun List.infix_rfl hlength .gemini).1 (List.all_eq_true.mp heligible)⟩

end BitcoinPriceTracker

import BitcoinPriceTracker.Proofs.CoordinatorSteps

namespace BitcoinPriceTracker

open RefreshCoordinator

/-- The last attempt is the latest one, and an outstanding plan holds its providers back for
an interval at least. -/
structure Paced (history : List RefreshAction) (s : Schedule) : Prop where
  granted : ∀ plan now, .granted plan now ∈ history →
    ∃ last, s.coordinator.lastAttempt = some last ∧ now ≤ last
  outstanding : ∀ plan, s.outstanding = some plan → plan.sources.Nodup ∧
    ∀ source ∈ plan.sources, ∃ deadline, s.coordinator.nextEligible source = some deadline ∧
      deadline ≤ s.last + refreshInterval

lemma paced_init : Paced [] Schedule.init where
  granted plan now h := by simp at h
  outstanding plan h := by simp [Schedule.init] at h

lemma Paced.step {range : InstantRange} {history : List RefreshAction} {s s' : Schedule} {a : RefreshAction}
    (h : Paced history s) (hs : RefreshStep range s a s') : Paced (a :: history) s' := by
  cases hs with
  | refused _ _ =>
    refine ⟨fun plan now hmem => h.granted plan now ?_, fun plan hplan => by simp at hplan⟩
    simpa using hmem
  | @beginUnwound c last now hle hopen =>
    refine ⟨fun plan earlier hmem => ?_, fun plan hplan => by simp at hplan⟩
    obtain ⟨attempt, hattempt, hearlier⟩ := h.granted plan earlier (by simpa using hmem)
    have := tooEarly_eq_false hopen hattempt
    exact ⟨now, rfl, by omega⟩
  | @granted c last now requestedGeneration hle hopen _ =>
    obtain ⟨hattempt', _, _, hdeadline⟩ := dispatch_spec (now + refreshInterval)
      (c.planned now requestedGeneration).sources { c with lastAttempt := some now }
    refine ⟨fun plan earlier hmem => ⟨now, hattempt', ?_⟩, fun plan hplan => ?_⟩
    · rcases List.mem_cons.mp hmem with heq | hmem
      · exact (RefreshAction.granted.inj heq).2.le
      · obtain ⟨attempt, hattempt, hearlier⟩ := h.granted plan earlier hmem
        have := tooEarly_eq_false hopen hattempt
        omega
    · obtain rfl := Option.some.inj hplan
      refine ⟨c.planned_nodup now requestedGeneration, fun source hmem => ?_⟩
      exact ⟨now + refreshInterval, by rw [hdeadline, if_pos hmem], le_rfl⟩
  | @completed c c' plan last now failures nowUnix _ hcomplete =>
    have hattempt := (complete_deadline range plan failures now nowUnix c).1
    rw [hcomplete] at hattempt
    refine ⟨fun plan earlier hmem => ?_, fun plan hplan => by simp at hplan⟩
    obtain ⟨attempt, hlast, hearlier⟩ := h.granted plan earlier (by simpa using hmem)
    exact ⟨attempt, hattempt.trans hlast, hearlier⟩
  | @completionUnwound c c' plan last now failures nowUnix _ hcomplete =>
    have hattempt := (complete_deadline range plan failures now nowUnix c).1
    rw [hcomplete] at hattempt
    refine ⟨fun plan earlier hmem => ?_, fun plan hplan => by simp at hplan⟩
    obtain ⟨attempt, hlast, hearlier⟩ := h.granted plan earlier (by simpa using hmem)
    exact ⟨attempt, hattempt.trans hlast, hearlier⟩
  | abandoned =>
    refine ⟨fun plan now hmem => h.granted plan now ?_, fun plan hplan => by simp at hplan⟩
    simpa using hmem

lemma Paced.run {range : InstantRange} {history : List RefreshAction} {s : Schedule}
    (h : (refreshMachine range).Run .init history s) : Paced history s :=
  h.invariant paced_init fun _ _ _ _ _ _ hpaced hs => hpaced.step (refresh_step hs)

lemma Paced.spaced {range : InstantRange} {history : List RefreshAction} {s s' : Schedule} {plan plan' : RefreshPlan}
    {now now' : ℕ} (h : Paced history s) (hs : RefreshStep range s (.granted plan' now') s')
    (hmem : .granted plan now ∈ history) : now + refreshInterval ≤ now' := by
  obtain ⟨last, hlast, hle⟩ := h.granted plan now hmem
  cases hs with
  | granted _ hopen _ =>
    have := tooEarly_eq_false hopen hlast
    exact (Nat.add_le_add_right hle _).trans this

/-- The instants at which plans were granted, most recent first. -/
def grantInstants (history : List RefreshAction) : List ℕ :=
  history.filterMap fun
    | .granted _ now => some now
    | _ => none

lemma mem_grantInstants {history : List RefreshAction} {now : ℕ} :
    now ∈ grantInstants history ↔ ∃ plan, .granted plan now ∈ history := by
  simp only [grantInstants, List.mem_filterMap]
  constructor
  · rintro ⟨a, hmem, ha⟩
    cases a with
    | granted plan earlier =>
      obtain rfl := Option.some.inj ha
      exact ⟨plan, hmem⟩
    | _ => simp at ha
  · rintro ⟨plan, hmem⟩
    exact ⟨_, hmem, rfl⟩

theorem grantInstants_spaced {range : InstantRange} {history : List RefreshAction} {s : Schedule}
    (h : (refreshMachine range).Run .init history s) :
    (grantInstants history).Pairwise fun later earlier => earlier + refreshInterval ≤ later := by
  refine h.invariant (P := fun history _ => (grantInstants history).Pairwise _) .nil ?_
  intro history s i s' a hrun ih hs
  cases a with
  | granted plan now =>
    refine List.pairwise_cons.mpr ⟨fun earlier hmem => ?_, ih⟩
    obtain ⟨plan', hgranted⟩ := mem_grantInstants.mp hmem
    exact (Paced.run hrun).spaced (refresh_step hs) hgranted
  | _ => exact ih

/-- No deadline moves backwards. -/
def DeadlinesKept (s s' : Schedule) : Prop :=
  ∀ source deadline, s.coordinator.nextEligible source = some deadline →
    ∃ deadline', s'.coordinator.nextEligible source = some deadline' ∧ deadline ≤ deadline'

lemma DeadlinesKept.trans {s₁ s₂ s₃ : Schedule} (h₁ : DeadlinesKept s₁ s₂) (h₂ : DeadlinesKept s₂ s₃) :
    DeadlinesKept s₁ s₃ := by
  intro source deadline h
  obtain ⟨deadline₂, h, hle⟩ := h₁ source deadline h
  obtain ⟨deadline₃, h, hle'⟩ := h₂ source deadline₂ h
  exact ⟨deadline₃, h, hle.trans hle'⟩

lemma deadlinesKept_of_complete {range : InstantRange} {history : List RefreshAction}
    {c c' : RefreshCoordinator} {plan : RefreshPlan} {last now : ℕ} {failures : List ProviderError} {nowUnix : ℤ}
    (h : Paced history ⟨c, some plan, last⟩) (hle : last ≤ now)
    (hc : left (c.complete range plan failures now nowUnix) = c') :
    DeadlinesKept ⟨c, some plan, last⟩ ⟨c', none, now⟩ := by
  intro source deadline hdeadline
  have hkept := (complete_deadline range plan failures now nowUnix c).2 source
  rw [hc] at hkept
  rcases hkept with hsame | ⟨hmem, deadline', hdeadline', hlater⟩
  · exact ⟨deadline, hsame.trans hdeadline, le_rfl⟩
  · obtain ⟨held, hheld, hbound⟩ := (h.outstanding plan rfl).2 source hmem
    obtain rfl := Option.some.inj (hheld.symm.trans hdeadline)
    dsimp only at hbound
    exact ⟨deadline', hdeadline', by omega⟩

lemma DeadlinesKept.step {range : InstantRange} {history : List RefreshAction} {s s' : Schedule}
    {a : RefreshAction} (h : Paced history s) (hs : RefreshStep range s a s') : DeadlinesKept s s' := by
  cases hs with
  | refused _ _ => exact fun _ deadline h => ⟨deadline, h, le_rfl⟩
  | beginUnwound _ _ => exact fun _ deadline h => ⟨deadline, h, le_rfl⟩
  | @granted c last now requestedGeneration _ _ _ =>
    intro source deadline hdeadline
    obtain ⟨_, _, _, hdispatch⟩ := dispatch_spec (now + refreshInterval)
      (c.planned now requestedGeneration).sources { c with lastAttempt := some now }
    by_cases hmem : source ∈ (c.planned now requestedGeneration).sources
    · have hpassed := eligible_iff.mp (eligible_of_mem_planned hmem) deadline hdeadline
      exact ⟨now + refreshInterval, by rw [hdispatch, if_pos hmem], by omega⟩
    · exact ⟨deadline, by rw [hdispatch, if_neg hmem, ← hdeadline], le_rfl⟩
  | @completed c c' plan last now failures nowUnix hle hcomplete =>
    exact deadlinesKept_of_complete h hle (by rw [hcomplete]; rfl)
  | @completionUnwound c c' plan last now failures nowUnix hle hcomplete =>
    exact deadlinesKept_of_complete h hle (by rw [hcomplete]; rfl)
  | abandoned => exact fun _ deadline h => ⟨deadline, h, le_rfl⟩

lemma DeadlinesKept.run {range : InstantRange} {older newer : List RefreshAction} {s s' : Schedule}
    (h : (refreshMachine range).Run .init older s) (h' : (refreshMachine range).Run s newer s') :
    DeadlinesKept s s' := by
  induction h' with
  | init => exact fun _ deadline h => ⟨deadline, h, le_rfl⟩
  | next hrun hs ih => exact ih.trans (.step (Paced.run (h.trans hrun)) (refresh_step hs))

/-- A completed attempt that failed, with the instant and the wall clock of its completion. -/
structure FailedAttempt where
  error : ProviderError
  completedAt : ℕ
  completedUnix : ℤ

def hintOf (nowUnix : ℤ) : RetryAfter → ℕ
  | .delay duration => duration
  | .at time =>
    match SystemTime.sinceEpoch time with
    | some sinceEpoch => Duration.fromSecs ((Duration.asSecs sinceEpoch : ℤ) - nowUnix).toNat
    | none => 0

/-- The delay that a failure asks for, 0 where it asks for none. -/
def retryHint (error : ProviderError) (nowUnix : ℤ) : ℕ :=
  match error.kind with
  | .http _ retryAfter => (retryAfter.map (hintOf nowUnix)).getD 0
  | _ => 0

/-- The same on the bytes of a `Retry-After` header: an all-digit 64-bit number of seconds, or
a date less the wall clock. -/
def headerHint (P : Platform) (header : Option (List UInt8)) (nowUnix : ℤ) : ℕ :=
  match header with
  | none => 0
  | some value =>
    if ¬value.all isVisibleAscii then 0
    else if trimAscii value ≠ [] ∧ (trimAscii value).all isAsciiDigit then
      if decimalValue (trimAscii value) < 2 ^ 64 then Duration.fromSecs (decimalValue (trimAscii value)) else 0
    else
      match P.parseHttpDate (asciiText (trimAscii value)) with
      | some date => Duration.fromSecs ((Duration.asSecs date.toNat : ℤ) - nowUnix).toNat
      | none => 0

/-- The instant before which no plan contains the provider after `k` failures, the last of
which is `failed`. -/
def FailedAttempt.due (range : InstantRange) (failed : FailedAttempt) (k : ℕ) : ℕ :=
  let delay := Duration.fromSecs (min (10 * 2 ^ (k - 1)) 300)
  let hint := retryHint failed.error failed.completedUnix
  failed.completedAt + max delay (if failed.completedAt + max hint delay ≤ range.last then hint else 0)

/-- The completed attempts of a provider, most recent first: a failure, or a success. -/
def attempts (source : UpstreamSource) (history : List RefreshAction) : List (Option FailedAttempt) :=
  history.filterMap fun
    | .completed plan failures now nowUnix =>
      if source ∈ plan.sources then
        some ((failures.find? fun error => error.provider = source).map fun error => ⟨error, now, nowUnix⟩)
      else none
    | _ => none

/-- The number of last completed attempts of a provider that all failed. -/
def streak (source : UpstreamSource) (history : List RefreshAction) : ℕ :=
  ((attempts source history).takeWhile Option.isSome).length

lemma attempts_completed (source : UpstreamSource) (plan : RefreshPlan) (failures : List ProviderError)
    (now : ℕ) (nowUnix : ℤ) (history : List RefreshAction) :
    attempts source (.completed plan failures now nowUnix :: history) =
      if source ∈ plan.sources then
        ((failures.find? fun error => error.provider = source).map fun error => ⟨error, now, nowUnix⟩) ::
          attempts source history
      else attempts source history := by
  by_cases hmem : source ∈ plan.sources <;> simp [attempts, hmem]

lemma retryHint_of_some {error : ProviderError} {nowUnix : ℤ} {delay : ℕ}
    (h : retryDelay error nowUnix = some delay) : retryHint error nowUnix = delay := by
  obtain ⟨provider, kind⟩ := error
  rcases kind with _ | _ | ⟨status, _ | duration | time⟩ | _ | _
  case http.some.delay => exact Option.some.inj h
  case http.some.at =>
    obtain ⟨sinceEpoch, hepoch, hdelay⟩ := Option.bind_eq_some_iff.mp h
    dsimp only at hdelay
    split at hdelay
    · simp only [retryHint, Option.map_some, Option.getD_some, hintOf, hepoch]
      rw [← Option.some.inj hdelay]
      congr 1
      omega
    · simp at hdelay
  all_goals simp [retryDelay] at h

/-- A hint that the coordinator drops is 0 or not representable. -/
lemma retryHint_of_none {error : ProviderError} {nowUnix : ℤ} (range : InstantRange)
    (h : retryDelay error nowUnix = none) :
    retryHint error nowUnix = 0 ∨ range.last < retryHint error nowUnix := by
  obtain ⟨provider, kind⟩ := error
  rcases kind with _ | _ | ⟨status, _ | duration | time⟩ | _ | _
  case http.some.delay => simp [retryDelay] at h
  case http.some.at =>
    cases hepoch : SystemTime.sinceEpoch time with
    | none => simp [retryHint, hintOf, hepoch]
    | some sinceEpoch =>
      simp only [retryDelay, hepoch, Option.bind_some] at h
      simp only [retryHint, Option.map_some, Option.getD_some, hintOf, hepoch]
      split at h
      · simp at h
      · refine .inr (range.seconds_lt.trans_le (Duration.fromSecs_mono ?_))
        omega
  all_goals exact .inl rfl

lemma backoff_le_backoff {k n : ℕ} (h : k ≤ n) : backoff k ≤ backoff (min n 6) := by
  refine Duration.fromSecs_mono ?_
  rcases le_total n 6 with hn | hn
  · rw [min_eq_left hn]
    have := Nat.pow_le_pow_right (n := 2) (by norm_num) (Nat.sub_le_sub_right h 1)
    omega
  · rw [min_eq_right hn]
    exact (min_le_right _ _).trans (by norm_num)

/-- The deadline that the coordinator installs is at or after every documented one. -/
lemma due_le_retryDeadline {range : InstantRange} {error : ProviderError} {now k n deadline : ℕ}
    {nowUnix : ℤ} (hk : k ≤ n) (h : retryDeadline range error now nowUnix (min n 6) = some deadline) :
    (⟨error, now, nowUnix⟩ : FailedAttempt).due range k ≤ deadline := by
  have hbackoff := backoff_le_backoff hk
  change now + max (backoff k) (if now + max (retryHint error nowUnix) (backoff k) ≤ range.last then
    retryHint error nowUnix else 0) ≤ deadline
  obtain ⟨hle, ⟨delay, hdelay, _, rfl⟩ | ⟨hunrepresentable, rfl⟩⟩ := retryDeadline_cases h
  · rw [retryHint_of_some hdelay]
    split <;> omega
  · split
    · next hrange =>
      cases hdelay : retryDelay error nowUnix with
      | some delay =>
        have hbound := hunrepresentable delay hdelay
        rw [retryHint_of_some hdelay] at hrange ⊢
        omega
      | none =>
        rcases retryHint_of_none range hdelay with hzero | hlarge <;> omega
    · omega

lemma retryDeadline_eq_due {range : InstantRange} {error : ProviderError} {now n deadline : ℕ}
    {nowUnix : ℤ} (h : retryDeadline range error now nowUnix (min n 6) = some deadline) :
    deadline = (⟨error, now, nowUnix⟩ : FailedAttempt).due range n := by
  refine le_antisymm ?_ (due_le_retryDeadline le_rfl h)
  have hcap : backoff (min n 6) = backoff n := by
    refine le_antisymm ?_ (backoff_le_backoff le_rfl)
    rcases le_total n 6 with hle | hle
    · rw [min_eq_left hle]
    · rw [min_eq_right hle]
      refine Duration.fromSecs_mono ?_
      have := Nat.pow_le_pow_right (n := 2) (by norm_num) (Nat.sub_le_sub_right hle 1)
      omega
  change deadline ≤ now + max (backoff n) (if now + max (retryHint error nowUnix) (backoff n) ≤ range.last
    then retryHint error nowUnix else 0)
  have hcases := retryDeadline_cases h
  rw [hcap] at hcases
  obtain ⟨_, ⟨delay, hdelay, hrange, rfl⟩ | ⟨_, rfl⟩⟩ := hcases
  · rw [retryHint_of_some hdelay, if_pos hrange, max_comm]
  · omega

lemma parse_digits (P : Platform) {value : List UInt8} (hascii : value.all isVisibleAscii = true)
    (hdigits : trimAscii value ≠ [] ∧ (trimAscii value).all isAsciiDigit = true) :
    RetryAfter.parse P value = if decimalValue (trimAscii value) < 2 ^ 64 then
      some (.delay (Duration.fromSecs (decimalValue (trimAscii value)))) else none := by
  unfold RetryAfter.parse
  rw [if_neg (by simp [hascii])]
  exact if_pos (by simpa using hdigits)

lemma parse_date (P : Platform) {value : List UInt8} (hascii : value.all isVisibleAscii = true)
    (hdigits : ¬(trimAscii value ≠ [] ∧ (trimAscii value).all isAsciiDigit = true)) :
    RetryAfter.parse P value = (P.parseHttpDate (asciiText (trimAscii value))).map .at := by
  unfold RetryAfter.parse
  rw [if_neg (by simp [hascii])]
  exact if_neg (by simpa using hdigits)

lemma retryHint_header (P : Platform) (provider : UpstreamSource) (status : StatusCode)
    (header : Option (List UInt8)) (nowUnix : ℤ) :
    retryHint (ProviderError.fromStatus P provider status header) nowUnix = headerHint P header nowUnix := by
  cases header with
  | none => rfl
  | some value =>
    change ((RetryAfter.parse P value).map (hintOf nowUnix)).getD 0 = _
    unfold headerHint
    by_cases hascii : value.all isVisibleAscii = true
    · dsimp only
      rw [if_neg (not_not.mpr hascii)]
      by_cases hdigits : trimAscii value ≠ [] ∧ (trimAscii value).all isAsciiDigit = true
      · rw [parse_digits P hascii hdigits, if_pos hdigits]
        split <;> rfl
      · rw [parse_date P hascii hdigits, if_neg hdigits]
        cases hdate : P.parseHttpDate (asciiText (trimAscii value)) with
        | none => rfl
        | some date =>
          have hepoch : SystemTime.sinceEpoch date = some date.toNat := if_pos (P.parseHttpDate_nonneg hdate)
          simp [hintOf, hepoch]
    · have hparse : RetryAfter.parse P value = none := if_pos (by simpa using hascii)
      rw [hparse]
      simp [hascii]

/-- The counter of a provider encodes the length of its streak, and its deadline respects all
the failures of the streak. -/
structure Backed (range : InstantRange) (history : List RefreshAction) (s : Schedule) : Prop where
  counter : ∀ source, s.coordinator.consecutiveFailures source = min (streak source history) 6
  held : ∀ source failed rest k, attempts source history = some failed :: rest → 1 ≤ k →
    k ≤ streak source history →
      ∃ deadline, s.coordinator.nextEligible source = some deadline ∧ failed.due range k ≤ deadline

lemma backed_init (range : InstantRange) : Backed range [] Schedule.init where
  counter source := rfl
  held source failed rest k h := by simp [attempts] at h

lemma Backed.of_attempts {range : InstantRange} {history history' : List RefreshAction} {s s' : Schedule}
    (h : Backed range history s) (hattempts : ∀ source, attempts source history' = attempts source history)
    (hcounter : s'.coordinator.consecutiveFailures = s.coordinator.consecutiveFailures)
    (hkept : DeadlinesKept s s') : Backed range history' s' := by
  refine ⟨fun source => ?_, fun source failed rest k hlast hk hstreak => ?_⟩
  · rw [hcounter, h.counter, streak, streak, hattempts]
  · rw [hattempts] at hlast
    rw [streak, hattempts] at hstreak
    obtain ⟨deadline, hdeadline, hdue⟩ := h.held source failed rest k hlast hk hstreak
    obtain ⟨deadline', hdeadline', hle⟩ := hkept source deadline hdeadline
    exact ⟨deadline', hdeadline', hdue.trans hle⟩

lemma Backed.completed_source {range : InstantRange} {history : List RefreshAction} {s : Schedule}
    {c' : RefreshCoordinator} {plan : RefreshPlan} {now : ℕ} {failures : List ProviderError} {nowUnix : ℤ}
    (h : Backed range history s) (hnodup : plan.sources.Nodup)
    (hcomplete : s.coordinator.complete range plan failures now nowUnix = .ok c') (source : UpstreamSource) :
    c'.consecutiveFailures source =
        min (streak source (.completed plan failures now nowUnix :: history)) 6 ∧
      (source ∈ plan.sources → ∀ failed rest,
        attempts source (.completed plan failures now nowUnix :: history) = some failed :: rest →
          ∃ deadline, c'.nextEligible source = some deadline ∧
            retryDeadline range failed.error failed.completedAt failed.completedUnix
              (min (streak source (.completed plan failures now nowUnix :: history)) 6) = some deadline) ∧
      (source ∉ plan.sources → c'.nextEligible source = s.coordinator.nextEligible source) := by
  obtain ⟨hsettled, hothers, _, _⟩ := complete_ok hnodup hcomplete
  by_cases hmem : source ∈ plan.sources
  · have hsource := hsettled source hmem
    have hlist := attempts_completed source plan failures now nowUnix history
    rw [if_pos hmem] at hlist
    unfold Settled at hsource
    unfold streak
    rw [hlist]
    cases hfind : failures.find? fun error => error.provider = source with
    | none =>
      rw [hfind] at hsource
      exact ⟨by simpa using hsource.1, fun _ failed rest hfailed => by simp at hfailed, absurd hmem⟩
    | some error =>
      rw [hfind] at hsource
      obtain ⟨hcount, deadline, hnext, hdeadline⟩ := hsource
      have hstreak : c'.consecutiveFailures source = min ((attempts source history).takeWhile
          Option.isSome).length.succ 6 := by
        rw [hcount, h.counter, streak]
        omega
      refine ⟨by simpa using hstreak, fun _ failed rest hfailed => ?_, absurd hmem⟩
      obtain ⟨rfl, -⟩ : (⟨error, now, nowUnix⟩ : FailedAttempt) = failed ∧ _ = rest := by simpa using hfailed
      refine ⟨deadline, hnext, ?_⟩
      rw [hstreak] at hdeadline
      simpa using hdeadline
  · obtain ⟨hcount, hnext⟩ := hothers source hmem
    refine ⟨?_, fun hin => absurd hin hmem, fun _ => hnext⟩
    rw [hcount, h.counter, streak, streak, attempts_completed, if_neg hmem]

lemma Backed.step {range : InstantRange} {history : List RefreshAction} {s s' : Schedule} {a : RefreshAction}
    (h : Backed range history s) (hpaced : Paced history s) (hs : RefreshStep range s a s')
    (hreturned : ∀ plan now, a ≠ .completionUnwound plan now) : Backed range (a :: history) s' := by
  have hkept := DeadlinesKept.step hpaced hs
  cases hs with
  | refused _ _ => exact h.of_attempts (fun _ => rfl) rfl hkept
  | beginUnwound _ _ => exact h.of_attempts (fun _ => rfl) rfl hkept
  | @granted c last now requestedGeneration _ _ _ =>
    exact h.of_attempts (fun _ => rfl) (dispatch_spec _ _ _).2.1 hkept
  | @completed c c' plan last now failures nowUnix _ hcomplete =>
    have hsource := h.completed_source (hpaced.outstanding plan rfl).1 hcomplete
    refine ⟨fun source => (hsource source).1, fun source failed rest k hlast hk hstreak => ?_⟩
    by_cases hmem : source ∈ plan.sources
    · obtain ⟨deadline, hnext, hdeadline⟩ := (hsource source).2.1 hmem failed rest hlast
      exact ⟨deadline, hnext, due_le_retryDeadline hstreak hdeadline⟩
    · have hlist := attempts_completed source plan failures now nowUnix history
      rw [if_neg hmem] at hlist
      rw [hlist] at hlast
      rw [streak, hlist] at hstreak
      obtain ⟨deadline, hdeadline, hdue⟩ := h.held source failed rest k hlast hk hstreak
      exact ⟨deadline, ((hsource source).2.2 hmem).trans hdeadline, hdue⟩
  | completionUnwound _ _ => exact absurd rfl (hreturned _ _)
  | abandoned => exact h.of_attempts (fun _ => rfl) rfl hkept

lemma Backed.run {range : InstantRange} {history : List RefreshAction} {s : Schedule}
    (h : (refreshMachine range).Run .init history s)
    (hreturned : ∀ plan now, .completionUnwound plan now ∉ history) : Backed range history s := by
  induction h with
  | init => exact backed_init range
  | next hrun hs ih =>
    have hprefix := ih fun plan now hmem => hreturned plan now (List.mem_cons_of_mem _ hmem)
    exact hprefix.step (Paced.run hrun) (refresh_step hs) fun plan now heq =>
      hreturned plan now (heq ▸ List.mem_cons_self)

/-- The deadline of a provider is at or before now. -/
def DeadlinePassed (c : RefreshCoordinator) (source : UpstreamSource) (now : ℕ) : Prop :=
  ∀ deadline, c.nextEligible source = some deadline → deadline ≤ now

lemma begin_admits (range : InstantRange) (c : RefreshCoordinator) {now : ℕ} (hopen : c.tooEarly now = false)
    (requestedGeneration : ℕ) :
    ((∃ reason, c.begin range now requestedGeneration = .ok (.error reason, c)) ↔
        ∀ source, ¬DeadlinePassed c source now) ∧
      ∀ plan c', c.begin range now requestedGeneration = .ok (.ok plan, c') →
        if requestedGeneration = c.completedGeneration then
          ∃ source, plan.sources = [source] ∧ DeadlinePassed c source now
        else ∀ source, source ∈ plan.sources ↔ DeadlinePassed c source now := by
  have hpassed : ∀ source, c.eligible now source = true ↔ DeadlinePassed c source now :=
    fun _ => eligible_iff
  have hnone : (∀ source, c.eligible now source = false) ↔ ∀ source, ¬DeadlinePassed c source now :=
    forall_congr' fun source => by rw [← hpassed, Bool.not_eq_true]
  have hplanned : (c.planned now requestedGeneration).sources = [] ↔ ∀ source, c.eligible now source = false :=
    planned_eq_nil
  rcases c.begin_cases range now requestedGeneration with ⟨hearly, _⟩ | ⟨_, hwaiting, hbegin⟩ |
    ⟨_, hsome, _, hbegin⟩ | ⟨_, hsome, _, hbegin⟩
  · simp [hopen] at hearly
  · simp [hbegin, hnone.mp hwaiting]
  · simp [hbegin, ← hnone, ← hplanned, hsome]
  · rw [hbegin]
    refine ⟨by simp [← hnone, ← hplanned, hsome], ?_⟩
    intro plan c' hplan
    obtain ⟨rfl, -⟩ : c.planned now requestedGeneration = plan ∧ _ = c' := by simpa using hplan
    split
    · next hordinary =>
      rw [planned_ordinary hordinary] at hsome ⊢
      cases hfind : (c.candidates false).find? (c.eligible now) with
      | none => simp [hfind] at hsome
      | some source => exact ⟨source, rfl, (hpassed source).mp (List.find?_some hfind)⟩
    · next hfull => exact fun source => (mem_planned_full hfull).trans (hpassed source)

/-- The schedule of upstream attempts along every run in which no completion panics. Granted
plans are an interval apart. After `k` failures in a row no plan contains the provider before
the backoff or the longer hint of the last failure has passed, and right after a failure
that is exactly its deadline. The counter of a provider is the length of its streak up to 6,
so that a success resets it. Deadlines never move backwards, and past the interval the
providers that a plan can contain are exactly those whose deadline has passed, whatever the
requested generation. -/
theorem upstream_schedule_law (P : Platform) {history : List RefreshAction} {s : Schedule}
    (h : (refreshMachine P.range).Run .init history s)
    (hreturned : ∀ plan now, .completionUnwound plan now ∉ history) :
    (∀ newer middle older plan plan' now now', history =
        newer ++ .granted plan' now' :: (middle ++ .granted plan now :: older) →
      now + Duration.fromSecs 10 ≤ now') ∧
    (∀ newer older source failed rest k, history = newer ++ older →
      attempts source older = some failed :: rest → 1 ≤ k → k ≤ streak source older →
      ∀ plan now, .granted plan now ∈ newer → source ∈ plan.sources → failed.due P.range k ≤ now) ∧
    (∀ plan failures now nowUnix older source failed rest,
      history = .completed plan failures now nowUnix :: older → source ∈ plan.sources →
      attempts source history = some failed :: rest →
      s.coordinator.nextEligible source = some (failed.due P.range (streak source history))) ∧
    (∀ provider status header nowUnix,
      retryHint (ProviderError.fromStatus P provider status header) nowUnix = headerHint P header nowUnix) ∧
    (∀ source, s.coordinator.consecutiveFailures source = min (streak source history) 6) ∧
    (∀ newer older middle, history = newer ++ older → (refreshMachine P.range).Run .init older middle →
      (refreshMachine P.range).Run middle newer s → DeadlinesKept middle s) ∧
    ∀ now, s.coordinator.tooEarly now = false → ∀ requestedGeneration,
      ((∃ reason, s.coordinator.begin P.range now requestedGeneration = .ok (.error reason, s.coordinator)) ↔
        ∀ source, ¬DeadlinePassed s.coordinator source now) ∧
      ∀ plan c', s.coordinator.begin P.range now requestedGeneration = .ok (.ok plan, c') →
        if requestedGeneration = s.coordinator.completedGeneration then
          ∃ source, plan.sources = [source] ∧ DeadlinePassed s.coordinator source now
        else ∀ source, source ∈ plan.sources ↔ DeadlinePassed s.coordinator source now := by
  refine ⟨?_, ?_, ?_, retryHint_header P, (Backed.run h hreturned).counter, ?_, ?_⟩
  · rintro newer middle older plan plan' now now' rfl
    obtain ⟨before, i, after, hbefore, hs, _⟩ := h.event
    exact (Paced.run hbefore).spaced (refresh_step hs) (List.mem_append_right middle List.mem_cons_self)
  · rintro newer older source failed rest k rfl hlast hk hstreak plan now hmem hsource
    obtain ⟨newer₁, newer₂, rfl⟩ := List.append_of_mem hmem
    rw [List.append_assoc, List.cons_append] at h hreturned
    obtain ⟨before, i, after, hbefore, hs, _⟩ := h.event
    obtain ⟨middle, hmiddle, hnewer⟩ := hbefore.split
    have hbacked := Backed.run hmiddle fun plan now hmem => hreturned plan now (by simp [hmem])
    obtain ⟨deadline, hdeadline, hdue⟩ := hbacked.held source failed rest k hlast hk hstreak
    obtain ⟨deadline', hdeadline', hle⟩ := DeadlinesKept.run hmiddle hnewer source deadline hdeadline
    cases refresh_step hs with
    | granted _ _ _ =>
      exact hdue.trans (hle.trans (eligible_iff.mp (eligible_of_mem_planned hsource) deadline' hdeadline'))
  · rintro plan failures now nowUnix older source failed rest rfl hmem hlast
    obtain ⟨before, i, hbefore, hs⟩ := h.last
    have hbacked := Backed.run hbefore fun plan now hmem => hreturned plan now (List.mem_cons_of_mem _ hmem)
    have hpaced := Paced.run hbefore
    cases refresh_step hs with
    | completed _ hcomplete =>
      obtain ⟨deadline, hnext, hdeadline⟩ :=
        (hbacked.completed_source (hpaced.outstanding plan rfl).1 hcomplete source).2.1 hmem failed rest hlast
      rw [retryDeadline_eq_due hdeadline] at hnext
      exact hnext
  · rintro newer older middle rfl hmiddle hnewer
    exact DeadlinesKept.run hmiddle hnewer
  · exact fun now hopen requestedGeneration => begin_admits P.range s.coordinator hopen requestedGeneration

/-- An answer of CoinGecko that asks for 600 s. -/
def askedToWait : ProviderError :=
  ProviderError.fromStatus .plain .coinGecko ⟨429, by decide⟩ (some [54, 48, 48])

theorem upstream_schedule_law_hinted :
    ∃ s, (refreshMachine Platform.plain.range).Run .init
        [.completed ⟨UpstreamSource.all, true, 1⟩ [askedToWait] 0 0, .granted ⟨UpstreamSource.all, true, 1⟩ 0] s ∧
      s.coordinator.consecutiveFailures .coinGecko = 1 ∧
      s.coordinator.nextEligible .coinGecko = some (Duration.fromSecs 600) := by
  obtain ⟨s, hrun⟩ : ∃ s, (refreshMachine Platform.plain.range).Run .init
      [.completed ⟨UpstreamSource.all, true, 1⟩ [askedToWait] 0 0, .granted ⟨UpstreamSource.all, true, 1⟩ 0] s :=
    ⟨_, Machine.run_of_exec [.begin 0 1, .complete [askedToWait] 0 0] rfl⟩
  obtain ⟨_, _, hdue, _, hcounter, _, _⟩ := upstream_schedule_law .plain hrun (by simp)
  exact ⟨s, hrun, hcounter .coinGecko, hdue _ _ _ _ _ .coinGecko ⟨askedToWait, 0, 0⟩ [] rfl (by decide) rfl⟩

end BitcoinPriceTracker

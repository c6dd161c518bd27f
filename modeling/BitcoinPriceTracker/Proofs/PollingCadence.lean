import BitcoinPriceTracker.Proofs.DashboardPolling

/-!
# The cadence of the dashboard

The worker for the presence has one timer, which only the end of its request arms. The timer of the worker for the
price is also armed by the callback in `start`, which does not look whether a request of an earlier visibility period
is still on its way. Where none ends under such a timer, there is one timer and five seconds lie between the end of a
request and the next one.
-/

namespace BitcoinPriceTracker

namespace Polling

/-- The armed timers of a worker. -/
def timersOf (s : Polling) (kind : PollKind) : List Timer := s.timers.filter fun timer => timer.kind = kind

/-- The only armed timer of a worker. The one for the presence is idle meanwhile. -/
structure Waiting (s : Polling) (kind : PollKind) (timer : Timer) : Prop where
  only : s.timersOf kind = [timer]
  handle : (s.workers kind).timer = some timer.id
  running : s.page.running = true
  idle : kind = .presence → (s.workers kind).busy = false

/-- A worker has one recorded timer or none. -/
def Sole (s : Polling) (kind : PollKind) : Prop := s.timersOf kind = [] ∨ ∃ timer, Waiting s kind timer

section Timers

variable {s : Polling} {kind : PollKind}

lemma Sole.sublist {s' : Polling} (h : Sole s kind) (htimers : List.Sublist s'.timers s.timers)
    (hworker : s'.workers kind = s.workers kind) (hrunning : s'.page.running = s.page.running) : Sole s' kind := by
  have hsub : List.Sublist (s'.timersOf kind) (s.timersOf kind) := htimers.filter _
  rcases h with hnone | ⟨timer, hwaiting⟩
  · exact .inl (List.sublist_nil.mp (hnone ▸ hsub))
  · rw [hwaiting.only] at hsub
    rcases List.sublist_singleton.mp hsub with hgone | hstill
    · exact .inl hgone
    · refine .inr ⟨timer, hstill, ?_, ?_, ?_⟩
      · rw [hworker]
        exact hwaiting.handle
      · rw [hrunning]
        exact hwaiting.running
      · rw [hworker]
        exact hwaiting.idle

lemma Sole.hidden (h : Sole s kind) (hrunning : s.page.running = false) : s.timersOf kind = [] := by
  rcases h with hnone | ⟨timer, hwaiting⟩
  · exact hnone
  · simp [hwaiting.running] at hrunning

lemma Sole.unrecorded (h : Sole s kind) (hhandle : (s.workers kind).timer = none) : s.timersOf kind = [] := by
  rcases h with hnone | ⟨timer, hwaiting⟩
  · exact hnone
  · simp [hwaiting.handle] at hhandle

lemma Sole.busy (h : Sole s .presence) (hbusy : (s.workers .presence).busy = true) : s.timersOf .presence = [] := by
  rcases h with hnone | ⟨timer, hwaiting⟩
  · exact hnone
  · simp [hwaiting.idle rfl] at hbusy

lemma Sole.cleared (h : Sole s kind) {timers : List Timer}
    (htimers : ∀ timer ∈ timers, timer ∈ s.timers ∧ (s.workers kind).timer ≠ some timer.id) :
    timers.filter (fun timer => timer.kind = kind) = [] := by
  refine List.filter_eq_nil_iff.mpr fun timer htimer hkind => ?_
  obtain ⟨hmem, hhandle⟩ := htimers timer htimer
  have hof : timer ∈ s.timersOf kind := List.mem_filter.mpr ⟨hmem, hkind⟩
  rcases h with hnone | ⟨only, hwaiting⟩
  · simp [hnone] at hof
  · obtain rfl : timer = only := by simpa [hwaiting.only] using hof
    exact hhandle hwaiting.handle

lemma Sole.poll (h : Sole s kind) (other : PollKind) (includePrice : Bool) :
    Sole (s.poll other includePrice).1 kind := by
  unfold Polling.poll
  split
  · exact h
  · by_cases hkind : kind = other
    · subst hkind
      refine .inl (h.cleared fun timer htimer => ?_)
      obtain ⟨hmem, hhandle⟩ := List.mem_filter.mp htimer
      exact ⟨hmem, of_decide_eq_true hhandle⟩
    · exact h.sublist List.filter_sublist (by simp [setWorker, hkind]) rfl

lemma Sole.setTimeout (h : Sole s kind) (hrunning : s.page.running = true) {other : PollKind} (delay : ℕ)
    (hnone : kind = other → s.timersOf kind = [])
    (hidle : kind = other → kind = .presence → (s.workers kind).busy = false) :
    Sole (s.setTimeout other delay) kind := by
  by_cases hkind : kind = other
  · subst hkind
    refine .inr ⟨⟨s.nextId, kind, delay⟩, ?_, by simp [Polling.setTimeout, setWorker], hrunning, ?_⟩
    · have hrest : s.timers.filter (fun timer => timer.kind = kind) = [] := hnone rfl
      simp [timersOf, Polling.setTimeout, hrest]
    · simpa [Polling.setTimeout, setWorker] using hidle rfl
  · have hsame : (s.setTimeout other delay).timersOf kind = s.timersOf kind := by
      simp [timersOf, Polling.setTimeout, setWorker, Ne.symm hkind]
    have hworker : (s.setTimeout other delay).workers kind = s.workers kind := by
      simp [Polling.setTimeout, setWorker, hkind]
    rcases h with hnone | ⟨timer, hwaiting⟩
    · exact .inl (hsame.trans hnone)
    · exact .inr ⟨timer, hsame.trans hwaiting.only, hworker ▸ hwaiting.handle, hrunning, hworker ▸ hwaiting.idle⟩

lemma Sole.release (h : Sole s kind) (poll : Poll) : Sole (s.release poll) kind := by
  rcases h with hnone | ⟨timer, hwaiting⟩
  · exact .inl hnone
  · refine .inr ⟨timer, hwaiting.only, ?_, hwaiting.running, fun hpresence => ?_⟩
    · by_cases hkind : kind = poll.kind
      · subst hkind
        simpa [Polling.release, setWorker] using hwaiting.handle
      · simpa [Polling.release, setWorker, hkind] using hwaiting.handle
    · by_cases hkind : kind = poll.kind
      · simp [Polling.release, setWorker, hkind]
      · simpa [Polling.release, setWorker, hkind] using hwaiting.idle hpresence

lemma Sole.finish (h : Sole s kind) {poll : Poll} (delay : Option ℕ)
    (hnone : kind = poll.kind → s.page.running = true → s.timersOf kind = []) : Sole (s.finish poll delay) kind := by
  have hreleased := h.release poll
  refine finish_of (P := fun after => Sole after kind) delay hreleased (fun hrunning => ?_)
    fun after startups hafter => ?_
  · refine hreleased.setTimeout hrunning _ (fun hkind => hnone hkind hrunning) fun hkind _ => ?_
    simp [Polling.release, setWorker, hkind]
  · exact hafter.sublist (List.Sublist.refl _) rfl rfl

lemma Sole.received {s' : Polling} (h : Sole s kind) {poll : Poll} {content : Option Json}
    (hreceived : Received s s' poll content) : Sole s' kind := by
  have hrunning := hreceived.running
  have hsame := hreceived.same
  rw [hsame]
  exact h.sublist (List.Sublist.refl _) rfl hrunning

lemma Received.timersOf {s' : Polling} {poll : Poll} {content : Option Json} (h : Received s s' poll content) :
    s'.timersOf kind = s.timersOf kind := by
  rw [h.same]
  rfl

lemma Sole.begun (h : Sole s kind) (hhidden : s.page.running = false) : Sole s.begun kind := .inl (h.hidden hhidden)

lemma Sole.stopped (h : Sole s kind) (hrunning : s.page.running = true) : Sole s.stop.1 kind := by
  unfold Polling.stop
  rw [if_pos hrunning]
  refine .inl (h.cleared fun timer htimer => ?_)
  obtain ⟨hmem, hhandles⟩ := List.mem_filter.mp htimer
  obtain ⟨hpresence, hprice⟩ := Bool.and_eq_true_iff.mp hhandles
  cases kind with
  | presence => exact ⟨hmem, of_decide_eq_true hpresence⟩
  | price => exact ⟨hmem, of_decide_eq_true hprice⟩

end Timers

/-- The request for the price that an event sends. -/
def startedPrice (entry : Polling × Input × Action) : Option Poll :=
  (pollingMachine.step entry.1 entry.2.1).bind fun r =>
    (r.2.sent.bind r.1.findPoll).filter fun poll => poll.kind = .price

/-- The request for the price that an event ends. -/
def finishedPrice (entry : Polling × Input × Action) : Option Poll :=
  if entry.2.2 = .settled then (entry.2.1.request.bind entry.1.findPoll).filter fun poll => poll.kind = .price
  else none

/-- A request for the price ends on the running page while a timer of its worker is armed. -/
def overlaps (entry : Polling × Input × Action) : Bool :=
  (finishedPrice entry).isSome && entry.1.page.running && entry.1.timersOf .price ≠ []

/-- The callback of the current `start` finds the price worker idle and without a timer although a request of its
period has ended, and does not wait five seconds. -/
def hurries (older : List (Polling × Input × Action)) : Polling × Input × Action → Bool
  | (s, .startup startup, _) =>
    s.page.running && startup.owner = s.generation && (s.workers .price).timer = none && !(s.workers .price).busy &&
      startup.delay ≠ some 5000 &&
      older.any fun entry => (finishedPrice entry).any fun poll => poll.owner = startup.owner
  | _ => false

/-- No event of a run is one of these. -/
def undisturbed : List (Polling × Input × Action) → Bool
  | [] => true
  | entry :: older => !overlaps entry && !hurries older entry && undisturbed older

lemma undisturbed_cons {entry : Polling × Input × Action} {older : List (Polling × Input × Action)}
    (h : undisturbed (entry :: older) = true) :
    overlaps entry = false ∧ hurries older entry = false ∧ undisturbed older = true := by
  simpa [undisturbed, and_assoc] using h

lemma Sole.step {s s' : Polling} {kind : PollKind} {i : Input} {a : Action} (h : Sole s kind) (howned : Owned s)
    (hs : PollingStep s i a s') (hcalm : kind = .price → overlaps (s, i, a) = false) : Sole s' kind := by
  have hfinish : ∀ {poll : Poll}, s.findPoll poll.id = some poll → i.request = some poll.id → a = .settled →
      kind = poll.kind → s.page.running = true → s.timersOf kind = [] := by
    intro poll hfound hrequest hsettled hkind hrunning
    cases kind with
    | presence =>
      have hbusy := howned.busy (findPoll_eq_some hfound).1
      rw [← hkind] at hbusy
      exact h.busy hbusy
    | price =>
      have hcalm := hcalm rfl
      simpa [overlaps, finishedPrice, hsettled, hrequest, hfound, ← hkind, hrunning] using hcalm
  cases hs with
  | ignored => exact h
  | startThrows _ hhidden => exact h.begun hhidden
  | startBusy _ hhidden => exact (h.begun hhidden).sublist (List.Sublist.refl _) rfl rfl
  | started _ hhidden => exact (h.begun hhidden).poll _ _
  | stopped _ hrunning => exact h.stopped hrunning
  | @fired timer =>
    refine Sole.poll ?_ _ _
    exact h.sublist (List.erase_sublist) rfl rfl
  | startupOver => exact h.sublist (List.Sublist.refl _) rfl rfl
  | startupPolls =>
    refine Sole.poll ?_ _ _
    exact h.sublist (List.Sublist.refl _) rfl rfl
  | @startupArms startup delay _ _ hrunning _ hunarmed =>
    have herased : Sole { s with startups := s.startups.erase startup } kind :=
      h.sublist (List.Sublist.refl _) rfl rfl
    refine herased.setTimeout hrunning delay (fun hkind => ?_) (by rintro rfl hpresence; cases hpresence)
    subst hkind
    exact h.unrecorded hunarmed
  | advanced => exact h.sublist (List.Sublist.refl _) rfl rfl
  | failed hfound hrequest hreceived =>
    refine (h.received hreceived).finish _ fun hkind hrunning => ?_
    exact hreceived.timersOf.trans (hfinish hfound hrequest rfl hkind (hreceived.running.symm.trans hrunning))
  | received hfound hreceived =>
    refine (h.received hreceived).finish _ fun hkind hrunning => ?_
    exact hreceived.timersOf.trans (hfinish hfound rfl rfl hkind (hreceived.running.symm.trans hrunning))

lemma finishedPrice_eq_some {s : Polling} {i : Input} {a : Action} {poll : Poll}
    (h : finishedPrice (s, i, a) = some poll) :
    a = .settled ∧ i.request = some poll.id ∧ s.findPoll poll.id = some poll ∧ poll.kind = .price := by
  unfold finishedPrice at h
  split at h
  · next hsettled =>
    obtain ⟨hbind, hkind⟩ := Option.filter_eq_some_iff.mp h
    obtain ⟨request, hrequest, hfound⟩ := Option.bind_eq_some_iff.mp hbind
    obtain rfl : poll.id = request := (findPoll_eq_some hfound).2
    exact ⟨hsettled, hrequest, hfound, of_decide_eq_true hkind⟩
  · simp at h

lemma finishedPrice_of {s : Polling} {i : Input} {poll : Poll} (hrequest : i.request = some poll.id)
    (hfound : s.findPoll poll.id = some poll) (hkind : poll.kind = .price) :
    finishedPrice (s, i, .settled) = some poll := by
  simp [finishedPrice, hrequest, hfound, hkind]

/-- Two records of one request. -/
structure SameRequest (poll other : Poll) : Prop where
  id : poll.id = other.id
  kind : poll.kind = other.kind
  owner : poll.owner = other.owner

lemma SameRequest.refl (poll : Poll) : SameRequest poll poll := ⟨rfl, rfl, rfl⟩

section Steps

variable {s s' : Polling} {i : Input} {a : Action} {poll : Poll}

lemma poll_keeps (hpoll : poll ∈ s.polls) (kind : PollKind) (includePrice : Bool) :
    poll ∈ (s.poll kind includePrice).1.polls := by
  unfold Polling.poll
  split
  · exact hpoll
  · exact List.mem_cons_of_mem _ hpoll

lemma poll_old {kind : PollKind} {includePrice : Bool} (hpoll : poll ∈ (s.poll kind includePrice).1.polls) :
    poll ∈ s.polls ∨ poll.owner = (s.poll kind includePrice).1.generation := by
  unfold Polling.poll at hpoll ⊢
  split at hpoll
  · exact .inl hpoll
  · next hopen =>
    rw [if_neg hopen]
    rcases List.mem_cons.mp hpoll with rfl | hold
    · exact .inr rfl
    · exact .inl hold

lemma updatePolls_keeps (hpoll : poll ∈ s.polls) (which : Poll → Bool) {update : Poll → Poll}
    (hupdate : Keeps update) : ∃ still ∈ (s.updatePolls which update).polls, SameRequest still poll := by
  refine ⟨_, List.mem_map_of_mem hpoll, ?_⟩
  split
  · exact ⟨hupdate.id poll, hupdate.kind poll, hupdate.owner poll⟩
  · exact .refl poll

lemma updatePolls_old {which : Poll → Bool} {update : Poll → Poll} (hupdate : Keeps update)
    (hpoll : poll ∈ (s.updatePolls which update).polls) : ∃ old ∈ s.polls, SameRequest old poll := by
  obtain ⟨old, hold, rfl⟩ := List.mem_map.mp hpoll
  refine ⟨old, hold, ?_⟩
  split
  · exact ⟨(hupdate.id old).symm, (hupdate.kind old).symm, (hupdate.owner old).symm⟩
  · exact .refl old

lemma stop_polls (hrunning : s.page.running = true) :
    ∃ which, s.stop.1.polls = (s.updatePolls which Poll.abort).polls := by
  unfold stop
  rw [if_pos hrunning]
  exact ⟨_, rfl⟩

lemma PollingStep.keeps (hs : PollingStep s i a s') (hpoll : poll ∈ s.polls) :
    (∃ still ∈ s'.polls, SameRequest still poll) ∨
      a = .settled ∧ i.request = some poll.id ∧ s.findPoll poll.id = some poll := by
  have hended : ∀ {s' : Polling} {other : Poll} {content : Option Json} {delay : Option ℕ},
      s.findPoll other.id = some other → i.request = some other.id → Received s s' other content →
        (∃ still ∈ (s'.finish other delay).polls, SameRequest still poll) ∨
          i.request = some poll.id ∧ s.findPoll poll.id = some poll := by
    intro s' other content delay hfound hrequest hreceived
    rw [finish_polls, hreceived.polls]
    by_cases hsame : poll = other
    · subst hsame
      exact .inr ⟨hrequest, hfound⟩
    · exact .inl ⟨poll, (List.mem_erase_of_ne hsame).mpr hpoll, .refl poll⟩
  cases hs with
  | ignored | startThrows | startBusy | startupOver | startupArms => exact .inl ⟨poll, hpoll, .refl poll⟩
  | started => exact .inl ⟨poll, poll_keeps (s := s.begun) hpoll _ _, .refl poll⟩
  | stopped _ hrunning =>
    obtain ⟨which, hpolls⟩ := stop_polls hrunning
    rw [hpolls]
    exact .inl (updatePolls_keeps hpoll which keeps_abort)
  | @fired timer =>
    exact .inl ⟨poll, poll_keeps (s := { s with timers := s.timers.erase timer }) hpoll _ _, .refl poll⟩
  | @startupPolls startup =>
    exact .inl ⟨poll, poll_keeps (s := { s with startups := s.startups.erase startup }) hpoll _ _, .refl poll⟩
  | advanced hupdate => exact .inl (updatePolls_keeps hpoll _ hupdate)
  | failed hfound hrequest hreceived =>
    exact (hended hfound hrequest hreceived).imp_right fun hover => ⟨rfl, hover⟩
  | received hfound hreceived => exact (hended hfound rfl hreceived).imp_right fun hover => ⟨rfl, hover⟩

lemma PollingStep.old (hs : PollingStep s i a s') (hpoll : poll ∈ s'.polls) :
    (∃ old ∈ s.polls, SameRequest old poll) ∨ poll.owner = s'.generation := by
  cases hs with
  | ignored | startThrows | startBusy | startupOver | startupArms => exact .inl ⟨poll, hpoll, .refl poll⟩
  | started | fired | startupPolls => exact (poll_old hpoll).imp_left fun hold => ⟨poll, hold, .refl poll⟩
  | stopped _ hrunning =>
    obtain ⟨which, hpolls⟩ := stop_polls hrunning
    exact .inl (updatePolls_old keeps_abort (hpolls ▸ hpoll))
  | advanced hupdate => exact .inl (updatePolls_old hupdate hpoll)
  | failed _ _ hreceived | received _ hreceived =>
    rw [finish_polls, hreceived.polls] at hpoll
    exact .inl ⟨poll, List.mem_of_mem_erase hpoll, .refl poll⟩

lemma finish_idle (poll : Poll) (delay : Option ℕ) : ((s.finish poll delay).workers poll.kind).busy = false := by
  have hreleased : ((s.release poll).workers poll.kind).busy = false := by simp [Polling.release, setWorker]
  refine finish_of (P := fun after => (after.workers poll.kind).busy = false) delay hreleased (fun _ => ?_)
    fun _ _ => id
  simpa [Polling.setTimeout, setWorker] using hreleased

lemma PollingStep.ends (hs : PollingStep s i a s') (h : finishedPrice (s, i, a) = some poll) :
    ∃ after content delay, Received s after poll content ∧ s' = after.finish poll delay := by
  obtain ⟨rfl, hrequest, hfound, _⟩ := finishedPrice_eq_some h
  have hsame : ∀ {other : Poll}, s.findPoll other.id = some other → i.request = some other.id → other = poll := by
    intro other hother hi
    have hid : other.id = poll.id := Option.some.inj (hi.symm.trans hrequest)
    exact Option.some.inj (hother.symm.trans (hid ▸ hfound))
  cases hs with
  | failed hother hi hreceived =>
    obtain rfl := hsame hother hi
    exact ⟨_, _, _, hreceived, rfl⟩
  | received hother hreceived =>
    obtain rfl := hsame hother rfl
    exact ⟨_, _, _, hreceived, rfl⟩

lemma PollingStep.finished (hs : PollingStep s i a s') (howned : Owned s) (h : finishedPrice (s, i, a) = some poll) :
    s'.generation = s.generation ∧ ∀ other ∈ s'.polls, other.kind ≠ .price := by
  have hkind := (finishedPrice_eq_some h).2.2.2
  have hidle : s'.generation = s.generation ∧ (s'.workers .price).busy = false := by
    obtain ⟨after, content, delay, hreceived, rfl⟩ := hs.ends h
    refine ⟨(finish_generation _ _ _).trans (by rw [hreceived.same]), ?_⟩
    rw [← hkind]
    exact finish_idle _ _
  refine ⟨hidle.1, fun other hother hkind => ?_⟩
  have hbusy := (howned.step hs).busy hother
  rw [hkind, hidle.2] at hbusy
  exact Bool.false_ne_true hbusy

lemma PollingStep.idle (hs : PollingStep s i a s') (howned : Owned s) (hbusy : (s.workers .price).busy = true)
    (hidle : (s'.workers .price).busy = false) : ∃ poll, finishedPrice (s, i, a) = some poll := by
  have hone := howned.one .price
  rw [hbusy, if_pos rfl] at hone
  obtain ⟨poll, hpoll, hkind⟩ := List.countP_pos_iff.mp (hone ▸ Nat.one_pos)
  have hkind : poll.kind = .price := of_decide_eq_true hkind
  rcases hs.keeps hpoll with ⟨still, hstill, hsame⟩ | ⟨rfl, hrequest, hfound⟩
  · have hstays := (howned.step hs).busy hstill
    rw [hsame.kind, hkind, hidle] at hstays
    exact absurd hstays Bool.false_ne_true
  · exact ⟨poll, finishedPrice_of hrequest hfound hkind⟩

lemma poll_sent {kind : PollKind} {includePrice : Bool} {request : ℕ}
    (h : (s.poll kind includePrice).2 = some request) :
    s.page.running = true ∧ (s.workers kind).busy = false ∧
      (s.poll kind includePrice).1.findPoll request =
        some ⟨request, kind, s.generation, includePrice, none, false⟩ := by
  unfold Polling.poll at h ⊢
  split at h
  · simp at h
  · next hopen =>
    obtain rfl := Option.some.inj h
    rw [if_neg hopen]
    obtain ⟨hrunning, hidle⟩ : s.page.running = true ∧ (s.workers kind).busy = false := by simpa using hopen
    exact ⟨hrunning, hidle, by simp [findPoll]⟩

lemma startedPrice_kind {entry : Polling × Input × Action} {sent : Poll} (h : startedPrice entry = some sent) :
    sent.kind = .price := by
  obtain ⟨r, _, hfilter⟩ := Option.bind_eq_some_iff.mp h
  exact of_decide_eq_true (Option.filter_eq_some_iff.mp hfilter).2

/-- What sends a request for the price: its timer, or the callback in `start` without a delay. -/
lemma startedPrice_cases (hstep : pollingMachine.step s i = some (s', a)) (h : startedPrice (s, i, a) = some poll) :
    poll.owner = s.generation ∧ (s.workers .price).busy = false ∧ poll ∈ s'.polls ∧ s.page.running = true ∧
      ((∃ timer, s.timers.find? (fun other => other.id = timer.id) = some timer ∧ timer.kind = .price ∧
          i = .fire timer.id) ∨
        ∃ startup, i = .startup startup ∧ startup.delay = none ∧ startup.owner = s.generation ∧
          (s.workers .price).timer = none) := by
  unfold startedPrice at h
  dsimp only at h
  rw [hstep, Option.bind_some] at h
  obtain ⟨hbind, hkind⟩ := Option.filter_eq_some_iff.mp h
  obtain ⟨request, hsent, hfound⟩ := Option.bind_eq_some_iff.mp hbind
  have hkind : poll.kind = .price := of_decide_eq_true hkind
  have hpoll := (findPoll_eq_some hfound).1
  cases polling_step hstep with
  | ignored | startThrows | startBusy | stopped | startupOver | startupArms | advanced | failed | received =>
    simp [Action.sent] at hsent
  | started _ hrunning hcalm hidle =>
    have hrequest : (s.begun.poll .presence true).2 = some s.nextId := by simp [Polling.poll, begun, hidle]
    have hnew := (poll_sent hrequest).2.2
    obtain rfl : s.nextId = request := by simpa [Action.sent] using hsent
    obtain rfl := Option.some.inj (hnew.symm.trans hfound)
    simp at hkind
  | @fired timer htimer =>
    obtain ⟨hrunning, hidle, hnew⟩ := poll_sent hsent
    obtain rfl := Option.some.inj (hnew.symm.trans hfound)
    exact ⟨rfl, hkind ▸ hidle, hpoll, hrunning, .inl ⟨timer, htimer, hkind, rfl⟩⟩
  | @startupPolls startup _ hdelay _ howner hunarmed =>
    obtain ⟨hrunning, hidle, hnew⟩ := poll_sent hsent
    obtain rfl := Option.some.inj (hnew.symm.trans hfound)
    exact ⟨rfl, hidle, hpoll, hrunning, .inr ⟨startup, rfl, hdelay, howner, hunarmed⟩⟩

/-- What arms a timer of the price worker: the callback in `start` with a delay, or the end of a request. -/
inductive ArmsPrice (s : Polling) (timer : Timer) : Input → Action → Prop
  | startup {startup : Startup} : startup.delay = some timer.delay → s.page.running = true →
      startup.owner = s.generation → (s.workers .price).timer = none → ArmsPrice s timer (.startup startup) .ignored
  | request {i : Input} {poll : Poll} : finishedPrice (s, i, .settled) = some poll →
      timer.delay = (if poll.owner = s.generation then 5000 else 0) → ArmsPrice s timer i .settled

lemma poll_timers {timer : Timer} {kind : PollKind} {includePrice : Bool}
    (htimer : timer ∈ (s.poll kind includePrice).1.timers) : timer ∈ s.timers := by
  unfold Polling.poll at htimer
  split at htimer
  · exact htimer
  · exact List.mem_of_mem_filter htimer

lemma finish_timers {timer : Timer} {delay : Option ℕ} (htimer : timer ∈ (s.finish poll delay).timers) :
    timer ∈ s.timers ∨ timer = ⟨s.nextId, poll.kind, if poll.owner = s.generation then 5000 else 0⟩ ∧
      s.nextId < (s.finish poll delay).nextId := by
  revert htimer
  refine finish_of (P := fun after => timer ∈ after.timers → timer ∈ s.timers ∨
    timer = ⟨s.nextId, poll.kind, if poll.owner = s.generation then 5000 else 0⟩ ∧ s.nextId < after.nextId)
    delay .inl (fun _ htimer => ?_) fun _ _ => id
  rcases List.mem_cons.mp htimer with rfl | hold
  · exact .inr ⟨rfl, Nat.lt_succ_self _⟩
  · exact .inl hold

lemma PollingStep.timers (hs : PollingStep s i a s') {timer : Timer} (htimer : timer ∈ s'.timers) :
    timer ∈ s.timers ∨ timer.id = s.nextId ∧ s.nextId < s'.nextId ∧ s'.generation = s.generation ∧
      (timer.kind = .price → ArmsPrice s timer i a) := by
  have hended : ∀ {after : Polling} {other : Poll} {content : Option Json} {delay : Option ℕ},
      s.findPoll other.id = some other → i.request = some other.id → Received s after other content →
        timer ∈ (after.finish other delay).timers →
          timer ∈ s.timers ∨ timer.id = s.nextId ∧ s.nextId < (after.finish other delay).nextId ∧
            (after.finish other delay).generation = s.generation ∧
              (timer.kind = .price → ArmsPrice s timer i .settled) := by
    intro after other content delay hother hi hreceived htimer
    have hgeneration : after.generation = s.generation := by rw [hreceived.same]
    have hid : after.nextId = s.nextId := by rw [hreceived.same]
    rcases finish_timers htimer with hold | ⟨rfl, hnew⟩
    · rw [hreceived.same] at hold
      exact .inl hold
    · refine .inr ⟨hid, hid ▸ hnew, (finish_generation _ _ _).trans hgeneration, fun hkind => ?_⟩
      exact .request (finishedPrice_of hi hother hkind) (by rw [hgeneration])
  cases hs with
  | ignored | startThrows | startBusy | startupOver | advanced => exact .inl htimer
  | started =>
    have hold := poll_timers htimer
    exact .inl hold
  | stopped _ hrunning =>
    unfold stop at htimer
    rw [if_pos hrunning] at htimer
    exact .inl (List.mem_of_mem_filter htimer)
  | fired => exact .inl (List.mem_of_mem_erase (poll_timers htimer))
  | startupPolls =>
    have hold := poll_timers htimer
    exact .inl hold
  | startupArms _ hdelay hrunning howner hunarmed =>
    rcases List.mem_cons.mp htimer with rfl | hold
    · exact .inr ⟨rfl, Nat.lt_succ_self _, rfl, fun _ => .startup hdelay hrunning howner hunarmed⟩
    · exact .inl hold
  | failed hother hi hreceived => exact hended hother hi hreceived htimer
  | received hother hreceived => exact hended hother rfl hreceived htimer

end Steps

/-- What has become of the requests for the price. -/
structure Ledger (trace : List (Polling × Input × Action)) (s : Polling) : Prop where
  past : ∀ entry ∈ trace, ∀ ended, finishedPrice entry = some ended → ended.owner ≤ s.generation
  /-- While a request of an earlier period is on its way, none of this period has ended. -/
  first : ∀ poll ∈ s.polls, poll.kind = .price → poll.owner ≠ s.generation →
    ∀ entry ∈ trace, ∀ ended, finishedPrice entry = some ended → ended.owner ≠ s.generation
  accounted : ∀ newer earlier older sent, trace = newer ++ earlier :: older → startedPrice earlier = some sent →
    (∃ still ∈ s.polls, SameRequest still sent) ∨
      ∃ entry ∈ newer, ∃ ended, finishedPrice entry = some ended ∧ SameRequest ended sent
  fresh : ∀ timer ∈ s.timers, timer.id < s.nextId

lemma SameRequest.trans {poll other third : Poll} (h₁ : SameRequest poll other) (h₂ : SameRequest other third) :
    SameRequest poll third :=
  ⟨h₁.id.trans h₂.id, h₁.kind.trans h₂.kind, h₁.owner.trans h₂.owner⟩

section Bookkeeping

variable {trace : List (Polling × Input × Action)} {s s' : Polling} {i : Input} {a : Action}

lemma finishedPrice_mem {poll : Poll} (h : finishedPrice (s, i, a) = some poll) : poll ∈ s.polls :=
  (findPoll_eq_some (finishedPrice_eq_some h).2.2.1).1

lemma Ledger.past_step (h : Ledger trace s) (howned : Owned s) (hs : PollingStep s i a s') :
    ∀ entry ∈ (s, i, a) :: trace, ∀ ended, finishedPrice entry = some ended → ended.owner ≤ s'.generation := by
  have hgeneration : s.generation ≤ s'.generation := hs.counts.generation
  refine List.forall_mem_cons.mpr ⟨fun ended hended => ?_, fun entry hentry ended hended => ?_⟩
  · exact (howned.owner ended (finishedPrice_mem hended)).trans hgeneration
  · exact (h.past entry hentry ended hended).trans hgeneration

lemma Ledger.first_step (h : Ledger trace s) (howned : Owned s) (hs : PollingStep s i a s') {poll : Poll}
    (hpoll : poll ∈ s'.polls) (hkind : poll.kind = .price) (howner : poll.owner ≠ s'.generation) :
    ∀ entry ∈ (s, i, a) :: trace, ∀ ended, finishedPrice entry = some ended → ended.owner ≠ s'.generation := by
  obtain ⟨old, hold, hsame⟩ := (hs.old hpoll).resolve_right howner
  refine List.forall_mem_cons.mpr ⟨fun ended hended => ?_, fun entry hentry ended hended hthis => ?_⟩
  · exact absurd hkind ((hs.finished howned hended).2 poll hpoll)
  · have hgeneration : s'.generation = s.generation := by
      have hpast := h.past entry hentry ended hended
      have hle : s.generation ≤ s'.generation := hs.counts.generation
      omega
    have hother : old.owner ≠ s.generation := by rwa [hsame.owner, ← hgeneration]
    exact h.first old hold (hsame.kind.trans hkind) hother entry hentry ended hended (hthis.trans hgeneration)

lemma Ledger.accounted_step (h : Ledger trace s) (hstep : pollingMachine.step s i = some (s', a))
    {newer older : List (Polling × Input × Action)} {earlier : Polling × Input × Action} {sent : Poll}
    (hsplit : (s, i, a) :: trace = newer ++ earlier :: older) (hsent : startedPrice earlier = some sent) :
    (∃ still ∈ s'.polls, SameRequest still sent) ∨
      ∃ entry ∈ newer, ∃ ended, finishedPrice entry = some ended ∧ SameRequest ended sent := by
  cases newer with
  | nil =>
    obtain ⟨rfl, rfl⟩ := List.cons_eq_cons.mp hsplit
    exact .inl ⟨sent, (startedPrice_cases hstep hsent).2.2.1, .refl sent⟩
  | cons entry newer =>
    obtain ⟨rfl, rfl⟩ := List.cons_eq_cons.mp hsplit
    rcases h.accounted newer earlier older sent rfl hsent with ⟨still, hstill, hsame⟩ | ⟨entry, hentry, hended⟩
    · rcases (polling_step hstep).keeps hstill with ⟨next, hnext, hsame'⟩ | ⟨rfl, hrequest, hfound⟩
      · exact .inl ⟨next, hnext, hsame'.trans hsame⟩
      · have hkind := hsame.kind.trans (startedPrice_kind hsent)
        exact .inr ⟨_, List.mem_cons_self, still, finishedPrice_of hrequest hfound hkind, hsame⟩
    · exact .inr ⟨entry, List.mem_cons_of_mem _ hentry, hended⟩

lemma Ledger.step (h : Ledger trace s) (howned : Owned s) (hstep : pollingMachine.step s i = some (s', a)) :
    Ledger ((s, i, a) :: trace) s' where
  past := h.past_step howned (polling_step hstep)
  first _ := h.first_step howned (polling_step hstep)
  accounted _ _ _ _ := h.accounted_step hstep
  fresh timer htimer := by
    rcases (polling_step hstep).timers htimer with hold | ⟨hid, hnew, _⟩
    · exact (h.fresh timer hold).trans_le (polling_step hstep).counts.nextId
    · exact hid ▸ hnew

end Bookkeeping

lemma ledger_of_run {trace : List (Polling × Input × Action)} {s : Polling}
    (h : pollingMachine.traced.Run .init trace s) : Ledger trace s ∧ Sole s .presence := by
  refine h.invariant (P := fun trace s => Ledger trace s ∧ Sole s .presence) ?_
    fun trace s i s' entry hrun ⟨hledger, hsole⟩ hs => ?_
  · exact ⟨⟨by simp, by simp, by simp, by simp [init]⟩, .inl rfl⟩
  · obtain ⟨a, hstep, rfl⟩ := Machine.traced_step.mp hs
    have howned := owned_of_run hrun
    exact ⟨hledger.step howned hstep, hsole.step howned (polling_step hstep) (by simp)⟩

/-- An idle price worker with a timer polls no earlier than five seconds after a request of the period has ended. -/
def Due (trace : List (Clocked Polling × (Input × ℚ) × Action)) (s : Clocked Polling) : Prop :=
  ∀ timer ∈ s.state.timers, timer.kind = .price → (s.state.workers .price).busy = false →
    ∀ entry ∈ trace, ∀ ended, finishedPrice (Alarms.forget entry) = some ended → ended.owner = s.state.generation →
      entry.2.1.2 + 5000 ≤ s.armedAt timer.id + timer.delay

section Clock

variable {trace : List (Clocked Polling × (Input × ℚ) × Action)} {s s' : Clocked Polling} {i : Input × ℚ} {a : Action}

/-- The callback in `start` with an idle worker has to wait, or no request of its period has ended. -/
lemma not_hurries {older : List (Polling × Input × Action)} {s : Polling} {startup : Startup} {a : Action}
    (h : hurries older (s, .startup startup, a) = false) (hrunning : s.page.running = true)
    (howner : startup.owner = s.generation) (hunarmed : (s.workers .price).timer = none)
    (hidle : (s.workers .price).busy = false) :
    startup.delay = some 5000 ∨
      ∀ entry ∈ older, ∀ ended, finishedPrice entry = some ended → ended.owner ≠ s.generation := by
  by_cases hdelay : startup.delay = some 5000
  · exact .inl hdelay
  · right
    intro entry hentry ended hended hthis
    have hnone : ∀ entry ∈ older, ((finishedPrice entry).any fun poll => poll.owner = s.generation) = false := by
      simpa [hurries, hrunning, howner, hunarmed, hidle, hdelay] using h
    have hother := hnone entry hentry
    simp [hended, hthis] at hother

section Step

variable (hledger : Ledger (trace.map Alarms.forget) s.state) (howned : Owned s.state)
  (hstep : (pollingAlarms.clocked pollingMachine).step s i = some (s', a))

include hledger howned hstep

lemma Due.kept (h : Due trace s) (hsole : Sole s.state .price) (hoverlaps : overlaps (s.state, i.1, a) = false)
    {timer : Timer} (hold : timer ∈ s.state.timers) (hkind : timer.kind = .price)
    (hidle : (s'.state.workers .price).busy = false) :
    ∀ entry ∈ (s, i, a) :: trace, ∀ ended, finishedPrice (Alarms.forget entry) = some ended →
      ended.owner = s'.state.generation → entry.2.1.2 + 5000 ≤ s'.armedAt timer.id + timer.delay := by
  obtain ⟨_, _, hmoved, _, harmed⟩ := Alarms.clocked_step hstep
  have hs := polling_step hmoved
  have hof : s.state.timersOf .price ≠ [] := List.ne_nil_of_mem (List.mem_filter.mpr ⟨hold, decide_eq_true hkind⟩)
  have hrunning : s.state.page.running = true := by
    by_contra hhidden
    exact hof (hsole.hidden (by simpa using hhidden))
  have hnone : finishedPrice (s.state, i.1, a) = none := by simpa [overlaps, hrunning, hof] using hoverlaps
  have hwasidle : (s.state.workers .price).busy = false := by
    by_contra hwas
    obtain ⟨ended, hended⟩ := hs.idle howned (by simpa using hwas) hidle
    simp [hnone] at hended
  have hkept : s'.armedAt timer.id = s.armedAt timer.id := by
    rw [harmed]
    exact Alarms.arm_of_lt (hledger.fresh timer hold) _
  refine List.forall_mem_cons.mpr ⟨fun ended hended => ?_, fun entry hentry ended hended howner => ?_⟩
  · exact absurd (hnone.symm.trans hended) (by simp)
  · have hpast := hledger.past _ (List.mem_map_of_mem hentry) ended hended
    have hgeneration : s.state.generation ≤ s'.state.generation := hs.counts.generation
    rw [hkept]
    exact h timer hold hkind hwasidle entry hentry ended hended (by omega)

lemma due_armed (htimes : ∀ entry ∈ trace, entry.2.1.2 ≤ s.now) {timer : Timer} (hnew : ArmsPrice s.state timer i.1 a)
    (hhurries : hurries (trace.map Alarms.forget) (s.state, i.1, a) = false)
    (hidle : (s'.state.workers .price).busy = false) :
    ∀ entry ∈ (s, i, a) :: trace, ∀ ended, finishedPrice (Alarms.forget entry) = some ended →
      ended.owner = s.state.generation → entry.2.1.2 + 5000 ≤ i.2 + timer.delay := by
  obtain ⟨hnow, _, hmoved, _, _⟩ := Alarms.clocked_step hstep
  have hpause : timer.delay = 5000 → ∀ entry ∈ (s, i, a) :: trace, entry.2.1.2 + 5000 ≤ i.2 + timer.delay := by
    intro hdelay entry hentry
    have hbefore : entry.2.1.2 ≤ i.2 := by
      rcases List.mem_cons.mp hentry with rfl | hold
      · exact le_rfl
      · exact (htimes entry hold).trans hnow
    rw [hdelay]
    push_cast
    linarith
  obtain ⟨input, time⟩ := i
  cases hnew with
  | @startup startup hdelay hrunning howner hunarmed =>
    have hquiet : ∀ ended, finishedPrice (s.state, .startup startup, .ignored) ≠ some ended := by
      intro ended hended
      simpa using (finishedPrice_eq_some hended).1
    have hwasidle : (s.state.workers .price).busy = false := by
      by_contra hwas
      obtain ⟨ended, hended⟩ := (polling_step hmoved).idle howned (by simpa using hwas) hidle
      exact hquiet ended hended
    rcases not_hurries hhurries hrunning howner hunarmed hwasidle with hfive | hfirst
    · intro entry hentry _ _ _
      exact hpause (Option.some.inj (hdelay.symm.trans hfive)) entry hentry
    · refine List.forall_mem_cons.mpr ⟨fun ended hended => absurd hended (hquiet ended), ?_⟩
      intro entry hentry ended hended hthis
      exact absurd hthis (hfirst _ (List.mem_map_of_mem hentry) ended hended)
  | @request _ poll hpoll hdelay =>
    by_cases howner : poll.owner = s.state.generation
    · intro entry hentry _ _ _
      exact hpause (hdelay.trans (if_pos howner)) entry hentry
    · -- The request of an earlier period has kept the worker busy until now.
      have hprice := (finishedPrice_eq_some hpoll).2.2.2
      have hmem := finishedPrice_mem hpoll
      refine List.forall_mem_cons.mpr ⟨fun ended hended hthis => ?_, fun entry hentry ended hended hthis => ?_⟩
      · obtain rfl : poll = ended := Option.some.inj (hpoll.symm.trans hended)
        exact absurd hthis howner
      · exact absurd hthis (hledger.first poll hmem hprice howner _ (List.mem_map_of_mem hentry) ended hended)

lemma Due.step (h : Due trace s) (hsole : Sole s.state .price) (htimes : ∀ entry ∈ trace, entry.2.1.2 ≤ s.now)
    (hoverlaps : overlaps (s.state, i.1, a) = false)
    (hhurries : hurries (trace.map Alarms.forget) (s.state, i.1, a) = false) : Due ((s, i, a) :: trace) s' := by
  obtain ⟨_, _, hmoved, _, harmed⟩ := Alarms.clocked_step hstep
  intro timer htimer hkind hidle
  rcases (polling_step hmoved).timers htimer with hold | ⟨hid, _, hgeneration, hnew⟩
  · exact h.kept hledger howned hstep hsole hoverlaps hold hkind hidle
  · have harmedNow : s'.armedAt timer.id = i.2 := by
      rw [harmed, hid]
      exact Alarms.arm_nextId s i.2
    rw [harmedNow, hgeneration]
    exact due_armed hledger howned hstep htimes (hnew hkind) hhurries hidle

end Step

end Clock

/-- A worker has one armed timer at most, and it is the recorded one. -/
def SoleTimer (s : Polling) (kind : PollKind) : Prop :=
  s.timers.countP (fun timer => timer.kind = kind) ≤ 1 ∧
    ∀ timer ∈ s.timers, timer.kind = kind → (s.workers kind).timer = some timer.id

/-- Where the last event sends a request for the price after another one of its period, that one has ended five
seconds before. -/
def Paced (trace : List (Clocked Polling × (Input × ℚ) × Action)) : Prop :=
  ∀ later middle earlier older next first, trace = later :: (middle ++ earlier :: older) →
    startedPrice (Alarms.forget later) = some next → startedPrice (Alarms.forget earlier) = some first →
      next.owner = first.owner → ∃ entry ∈ middle, ∃ ended, finishedPrice (Alarms.forget entry) = some ended ∧
        SameRequest ended first ∧ entry.2.1.2 + 5000 ≤ later.2.1.2

lemma Sole.soleTimer {s : Polling} {kind : PollKind} (h : Sole s kind) : SoleTimer s kind := by
  have hcount : s.timers.countP (fun timer => timer.kind = kind) = (s.timersOf kind).length :=
    List.countP_eq_length_filter
  have hmem : ∀ timer ∈ s.timers, timer.kind = kind → timer ∈ s.timersOf kind :=
    fun timer htimer hkind => List.mem_filter.mpr ⟨htimer, decide_eq_true hkind⟩
  unfold SoleTimer
  rw [hcount]
  rcases h with hnone | ⟨only, hwaiting⟩
  · rw [hnone] at hmem ⊢
    exact ⟨Nat.zero_le _, fun timer htimer hkind => absurd (hmem timer htimer hkind) List.not_mem_nil⟩
  · have honly := hwaiting.only
    rw [honly] at hmem ⊢
    refine ⟨le_rfl, fun timer htimer hkind => ?_⟩
    obtain rfl := List.mem_singleton.mp (hmem timer htimer hkind)
    exact hwaiting.handle

lemma no_timers {s : Polling} (hsole : ∀ kind, Sole s kind) (hhidden : s.page.running = false) : s.timers = [] := by
  refine List.eq_nil_iff_forall_not_mem.mpr fun timer htimer => ?_
  have hof : timer ∈ s.timersOf timer.kind := List.mem_filter.mpr ⟨htimer, by simp⟩
  simp [(hsole timer.kind).hidden hhidden] at hof

lemma due_of_run {time : ℚ} {trace : List (Clocked Polling × (Input × ℚ) × Action)} {s : Clocked Polling}
    (h : (pollingAlarms.clocked pollingMachine).traced.Run (.start .init time) trace s)
    (hundisturbed : undisturbed (trace.map Alarms.forget) = true) : Sole s.state .price ∧ Due trace s := by
  induction h with
  | init => exact ⟨.inl rfl, by simp [Due]⟩
  | @next trace s s' i entry hrun hs ih =>
    obtain ⟨a, hstep, rfl⟩ := Machine.traced_step.mp hs
    obtain ⟨hoverlaps, hhurries, hrest⟩ := undisturbed_cons hundisturbed
    obtain ⟨hsole, hdue⟩ := ih hrest
    have howned := owned_of_run (Alarms.run_forget hrun)
    have hledger := (ledger_of_run (Alarms.run_forget hrun)).1
    have hmoved := (Alarms.clocked_step hstep).2.2.1
    refine ⟨hsole.step howned (polling_step hmoved) fun _ => hoverlaps, ?_⟩
    exact hdue.step hledger howned hstep hsole (Alarms.run_times hrun) hoverlaps hhurries

/-- The last event sends its request five seconds after the end of each earlier one of the period. -/
lemma paced_of_due {s s' : Clocked Polling} {i : Input × ℚ} {a : Action}
    {trace : List (Clocked Polling × (Input × ℚ) × Action)} (hdue : Due trace s)
    (hledger : Ledger (trace.map Alarms.forget) s.state) (howned : Owned s.state)
    (hstep : (pollingAlarms.clocked pollingMachine).step s i = some (s', a))
    (hhurries : hurries (trace.map Alarms.forget) (s.state, i.1, a) = false) : Paced ((s, i, a) :: trace) := by
  intro later middle earlier older next first hsplit hnext hfirst howner
  obtain ⟨rfl, rfl⟩ := List.cons_eq_cons.mp hsplit
  obtain ⟨_, hrings, hmoved, _, _⟩ := Alarms.clocked_step hstep
  obtain ⟨hcurrent, hidle, _, hrunning, hcause⟩ := startedPrice_cases hmoved hnext
  have hmap : (middle ++ earlier :: older).map Alarms.forget =
      middle.map Alarms.forget ++ Alarms.forget earlier :: older.map Alarms.forget := by simp
  rcases hledger.accounted _ _ _ first hmap hfirst with ⟨still, hstill, hsame⟩ | ⟨_, hentry, ended, hended, hsame⟩
  · -- The worker is not waiting for the earlier request any more.
    have hbusy := howned.busy hstill
    rw [hsame.kind, startedPrice_kind hfirst, hidle] at hbusy
    exact absurd hbusy Bool.false_ne_true
  · obtain ⟨entry, hmiddle, rfl⟩ := List.mem_map.mp hentry
    have hmem : entry ∈ middle ++ earlier :: older := List.mem_append_left _ hmiddle
    have hthis : ended.owner = s.state.generation := by rw [hsame.owner, ← howner, hcurrent]
    refine ⟨entry, hmiddle, ended, hended, hsame, ?_⟩
    obtain ⟨input, time⟩ := i
    rcases hcause with ⟨timer, htimer, hkind, rfl⟩ | ⟨startup, rfl, hdelay, hstartup, hunarmed⟩
    · have hrung := hrings (timer.id, timer.delay) (by simp [pollingAlarms, htimer])
      exact (hdue timer (List.mem_of_find?_eq_some htimer) hkind hidle entry hmem ended hended hthis).trans hrung
    · rcases not_hurries hhurries hrunning hstartup hunarmed hidle with hfive | hnone
      · simp [hdelay] at hfive
      · exact absurd hthis (hnone _ (List.mem_map_of_mem hmem) ended hended)

/-- Where a request for the price ends under an armed timer and its result can be shown, there are two timers. -/
lemma not_soleTimer_of_overlaps {s s' : Polling} {i : Input} {a : Action} (hs : PollingStep s i a s')
    (h : overlaps (s, i, a) = true) (hshown : s'.throws = false) : ¬SoleTimer s' .price := by
  obtain ⟨⟨hsome, hrunning⟩, hof⟩ :
      ((finishedPrice (s, i, a)).isSome = true ∧ s.page.running = true) ∧ s.timersOf .price ≠ [] := by
    simpa [overlaps] using h
  obtain ⟨poll, hpoll⟩ := Option.isSome_iff_exists.mp hsome
  have hkind := (finishedPrice_eq_some hpoll).2.2.2
  obtain ⟨after, content, delay, hreceived, rfl⟩ := hs.ends hpoll
  have hcalm : after.throws = false := by
    unfold throws at hshown ⊢
    rwa [(finish_page after poll delay).1, (finish_page after poll delay).2] at hshown
  have htimers : (after.finish poll delay).timers =
      ⟨after.nextId, poll.kind, if poll.owner = after.generation then 5000 else 0⟩ :: s.timers := by
    rw [finish_eq poll delay hcalm, if_pos (hreceived.running.trans hrunning)]
    change _ :: after.timers = _
    rw [hreceived.same]
    rfl
  obtain ⟨old, hold⟩ := List.exists_mem_of_ne_nil _ hof
  obtain ⟨hold, hprice⟩ := List.mem_filter.mp hold
  have hpos : 0 < s.timers.countP fun timer => timer.kind = .price := List.countP_pos_iff.mpr ⟨old, hold, hprice⟩
  intro hsole
  have hcount := hsole.1
  rw [htimers, List.countP_cons_of_pos (by simpa using hkind)] at hcount
  omega

/-- On every run of the dashboard the worker for the presence has one timer. On the undisturbed ones the worker for
the price has one too, a stop leaves none, and the requests of a period are paced. An end of a request under a timer
leaves two timers, if its result can be shown. -/
theorem polling_cadence {time : ℚ} {trace : List (Clocked Polling × (Input × ℚ) × Action)} {s : Clocked Polling}
    (h : (pollingAlarms.clocked pollingMachine).traced.Run (.start .init time) trace s) :
    SoleTimer s.state .presence ∧
      (undisturbed (trace.map Alarms.forget) = true →
        SoleTimer s.state .price ∧ (s.state.page.running = false → s.state.timers = []) ∧ Paced trace) ∧
      ∀ entry older, trace = entry :: older → overlaps (Alarms.forget entry) = true → s.state.throws = false →
        ¬SoleTimer s.state .price := by
  have hpresence := (ledger_of_run (Alarms.run_forget h)).2
  refine ⟨hpresence.soleTimer, fun hundisturbed => ?_, ?_⟩
  · obtain ⟨hprice, hdue⟩ := due_of_run h hundisturbed
    refine ⟨hprice.soleTimer, no_timers fun kind => ?_, ?_⟩
    · cases kind with
      | presence => exact hpresence
      | price => exact hprice
    · cases h with
      | init => simp [Paced]
      | @next trace s s' i entry hrun hs =>
        obtain ⟨a, hstep, rfl⟩ := Machine.traced_step.mp hs
        obtain ⟨_, hhurries, hrest⟩ := undisturbed_cons hundisturbed
        have howned := owned_of_run (Alarms.run_forget hrun)
        have hledger := (ledger_of_run (Alarms.run_forget hrun)).1
        exact paced_of_due (due_of_run hrun hrest).2 hledger howned hstep hhurries
  · rintro entry older rfl hoverlaps hshown
    obtain ⟨before, i, hrun, hs⟩ := h.last
    obtain ⟨a, hstep, rfl⟩ := Machine.traced_step.mp hs
    exact not_soleTimer_of_overlaps (polling_step (Alarms.clocked_step hstep).2.2.1) hoverlaps hshown

/-- A heartbeat that fails, a request for the price that fails, and the next one five seconds later. -/
theorem polling_cadence_undisturbed : ∃ trace s,
    (pollingAlarms.clocked pollingMachine).traced.Run (.start .init 0) trace s ∧
      (s.state.workers .price).busy = true ∧ SoleTimer s.state .presence ∧ SoleTimer s.state .price ∧ Paced trace := by
  have hchecked : ((pollingAlarms.clocked pollingMachine).traced.exec [] (.start .init 0)
      [(.pageshow false, 0), (.fail 0, 10), (.startup ⟨1, none⟩, 10), (.fail 2, 20), (.fire 3, 5020)]).any
        (fun r => (r.2.state.workers .price).busy && undisturbed (r.1.map Alarms.forget)) = true := by decide +kernel
  obtain ⟨⟨trace, s⟩, hexec, hboth⟩ := (Option.any_eq_true _ _).mp hchecked
  obtain ⟨hbusy, hundisturbed⟩ := Bool.and_eq_true_iff.mp hboth
  have hrun := Machine.run_of_exec _ hexec
  obtain ⟨hpresence, hall, _⟩ := polling_cadence hrun
  obtain ⟨hprice, _, hpaced⟩ := hall hundisturbed
  exact ⟨trace, s, hrun, hbusy, hpresence, hprice, hpaced⟩

/-- A report that the server is still refreshing. -/
def refreshing : Json :=
  .object [("status", .string "UNAVAILABLE"), ("refreshing", .bool true), ("sources", .array []),
    ("provider_health", .array []), ("warnings", .array []),
    ("coverage", .object [("contributing_sources", .array []), ("configured_source_count", .number (.finite 4))]),
    ("source_max_age_seconds", .number (.finite 90)), ("evaluated_at_unix", .number (.finite 0))]

/-- The first request for the price is under way when the page is hidden and shown again. The callback of the second
`start` arms a timer before that request fails. -/
def overlapping : List (Input × ℚ) :=
  [(.pageshow false, 0), (.fail 0, 10), (.startup ⟨1, none⟩, 10), (.pagehide, 20), (.pageshow false, 30),
    (.respond 3 200, 40), (.body 3 (some (.object [("price", refreshing)])) 0, 50), (.startup ⟨3, some 1000⟩, 50),
    (.fail 2, 60)]

/-- The event sends a request for the price in the period. -/
def sendsIn (owner : ℕ) (entry : Clocked Polling × (Input × ℚ) × Action) : Bool :=
  (startedPrice (Alarms.forget entry)).any fun sent => sent.owner = owner

/-- The end of the first request forgets the timer. It is still armed after a stop, and it polls within a second after
the request before. -/
theorem polling_overlaps :
    (¬∀ trace s, (pollingAlarms.clocked pollingMachine).traced.Run (.start .init 0) trace s →
      SoleTimer s.state .price) ∧
    (¬∀ trace s, (pollingAlarms.clocked pollingMachine).traced.Run (.start .init 0) trace s →
      s.state.page.running = false → s.state.timers = []) ∧
    ¬∀ trace s, (pollingAlarms.clocked pollingMachine).traced.Run (.start .init 0) trace s → Paced trace := by
  refine ⟨fun h => ?_, fun h => ?_, fun h => ?_⟩
  · have hchecked : ((pollingAlarms.clocked pollingMachine).traced.exec [] (.start .init 0) overlapping).any
        (fun r => r.2.state.timers.countP (fun timer => timer.kind = .price) = 2) = true := by decide +kernel
    obtain ⟨⟨trace, s⟩, hexec, htwo⟩ := (Option.any_eq_true _ _).mp hchecked
    have hone := (h trace s (Machine.run_of_exec _ hexec)).1
    simp [of_decide_eq_true htwo] at hone
  · have hchecked : ((pollingAlarms.clocked pollingMachine).traced.exec [] (.start .init 0)
        (overlapping ++ [(.pagehide, 70)])).any
          (fun r => !r.2.state.page.running && r.2.state.timers ≠ []) = true := by decide +kernel
    obtain ⟨⟨trace, s⟩, hexec, hboth⟩ := (Option.any_eq_true _ _).mp hchecked
    obtain ⟨hhidden, hleft⟩ := Bool.and_eq_true_iff.mp hboth
    exact of_decide_eq_true hleft (h trace s (Machine.run_of_exec _ hexec) (by simpa using hhidden))
  · have hchecked : ((pollingAlarms.clocked pollingMachine).traced.exec [] (.start .init 0)
        (overlapping ++ [(.fire 6, 61), (.fail 7, 70), (.fire 5, 1050)])).any
          (fun r => r.1.head?.any (sendsIn 3) && r.1.tail.any (sendsIn 3) &&
            r.1.all fun entry => 0 ≤ entry.2.1.2 && entry.2.1.2 < 5000) = true := by decide +kernel
    obtain ⟨⟨trace, s⟩, hexec, hboth⟩ := (Option.any_eq_true _ _).mp hchecked
    have hrun := Machine.run_of_exec _ hexec
    cases trace with
    | nil => simp at hboth
    | cons later rest =>
      simp only [List.head?_cons, Option.any_some, List.tail_cons, Bool.and_eq_true] at hboth
      obtain ⟨⟨hlater, hearlier⟩, htimes⟩ := hboth
      obtain ⟨earlier, hmem, hsends⟩ := List.any_eq_true.mp hearlier
      obtain ⟨middle, older, rfl⟩ := List.append_of_mem hmem
      obtain ⟨next, hnext, hthree⟩ := (Option.any_eq_true _ _).mp hlater
      obtain ⟨first, hfirst, hthree'⟩ := (Option.any_eq_true _ _).mp hsends
      have howner : next.owner = first.owner := by simp at hthree hthree'; omega
      obtain ⟨entry, hentry, _, _, _, hfive⟩ := h _ s hrun later middle earlier older next first rfl hnext hfirst howner
      have hlow := List.all_eq_true.mp htimes entry (by simp [hentry])
      have hhigh := List.all_eq_true.mp htimes later (by simp)
      simp only [Bool.and_eq_true, decide_eq_true_eq] at hlow hhigh
      linarith [hlow.1, hhigh.2]

end Polling

end BitcoinPriceTracker

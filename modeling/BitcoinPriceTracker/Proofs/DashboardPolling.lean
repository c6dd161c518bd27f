import BitcoinPriceTracker.Lib.Requests
import BitcoinPriceTracker.Model.Polling

namespace BitcoinPriceTracker

namespace Polling

/-- What a settled promise does to the page before the worker is released. -/
structure Received (s s' : Polling) (poll : Poll) (content : Option Json) : Prop where
  same : s' = { s with page := s'.page, body := s'.body }
  running : s'.page.running = s.page.running
  late : s.current poll = false → s' = s
  body : s'.body = s.body ∨ ∃ report data, content.bind poll.report = some report ∧
    poll.accepted report = some data ∧ s.current poll = true ∧ s.page.retains data = false ∧ s'.body = some report

section Receiving

variable (s : Polling) (poll : Poll) (content : Option Json) (now : ℚ)

lemma fault_received : Received s (s.fault poll) poll content := by
  unfold fault
  split
  · next h => split <;> exact ⟨rfl, rfl, by simp [h], .inl rfl⟩
  · exact ⟨rfl, rfl, fun _ => rfl, .inl rfl⟩

lemma receivePrice_received {report : Json} {data : DashboardData} (hcurrent : s.current poll = true)
    (hreport : content.bind poll.report = some report) (haccepted : poll.accepted report = some data) :
    Received s (s.receivePrice report data now) poll content := by
  refine ⟨rfl, ?_, by simp [hcurrent], ?_⟩
  · change (s.page.receivePrice data now).running = _
    unfold Dashboard.receivePrice
    split <;> rfl
  · change (if s.page.retains data then s.body else some report) = s.body ∨ _
    cases hretains : s.page.retains data with
    | true => exact .inl rfl
    | false => exact .inr ⟨report, data, hreport, haccepted, hcurrent, hretains, by simp [receivePrice, hretains]⟩

lemma Received.of_presenceError {s' : Polling} (presenceError : String)
    (h : Received { s with page := { s.page with presenceError } } s' poll content) (hcurrent : s.current poll = true) :
    Received s s' poll content :=
  ⟨h.same, h.running, by simp [hcurrent], h.body⟩

lemma receiveReport_received : Received s (s.receiveReport poll content now) poll content := by
  unfold receiveReport
  cases hreport : content.bind poll.report with
  | none => exact fault_received s poll content
  | some report =>
    dsimp only
    cases haccepted : poll.accepted report with
    | none => exact fault_received s poll content
    | some data =>
      dsimp only
      split
      · next hcurrent => exact receivePrice_received s poll content now hcurrent hreport haccepted
      · exact ⟨rfl, rfl, fun _ => rfl, .inl rfl⟩

lemma receiveHeartbeat_received : Received s (s.receiveHeartbeat poll content now).1 poll content := by
  unfold receiveHeartbeat
  split
  · next hcurrent =>
    refine Received.of_presenceError s poll content "" ?_ hcurrent
    let cleared : Polling := { s with page := { s.page with presenceError := "" } }
    change Received cleared _ poll content
    split
    · split
      · exact fault_received cleared poll _
      · exact fault_received cleared poll _
      · next content _ =>
        cases hreport : poll.report content with
        | none => exact ⟨rfl, rfl, fun _ => rfl, .inl rfl⟩
        | some report =>
          dsimp only
          cases haccepted : poll.accepted report with
          | none =>
            have hstill : cleared.current poll = true := hcurrent
            exact ⟨rfl, rfl, by simp [hstill], .inl rfl⟩
          | some data => exact receivePrice_received cleared poll _ now hcurrent hreport haccepted
    · exact ⟨rfl, rfl, fun _ => rfl, .inl rfl⟩
  · exact ⟨rfl, rfl, fun _ => rfl, .inl rfl⟩

end Receiving

/-- What happens to a waiting call leaves the request that it is. -/
structure Keeps (update : Poll → Poll) : Prop where
  id : ∀ poll, (update poll).id = poll.id
  kind : ∀ poll, (update poll).kind = poll.kind
  owner : ∀ poll, (update poll).owner = poll.owner
  includePrice : ∀ poll, (update poll).includePrice = poll.includePrice

lemma keeps_abort : Keeps Poll.abort := ⟨fun _ => rfl, fun _ => rfl, fun _ => rfl, fun _ => rfl⟩

lemma keeps_status (status : ℕ) : Keeps fun poll => { poll with status := some status } :=
  ⟨fun _ => rfl, fun _ => rfl, fun _ => rfl, fun _ => rfl⟩

/-- The steps of the machine. -/
inductive PollingStep (s : Polling) : Input → Action → Polling → Prop
  | ignored {i : Input} : PollingStep s i .ignored s
  | startThrows {i : Input} : i.request = none → s.page.running = false → s.begun.throws = true →
      PollingStep s i (.started none) s.begun
  | startBusy {i : Input} : i.request = none → s.page.running = false → s.begun.throws = false →
      (s.workers .presence).busy = true →
      PollingStep s i (.started none) { s.begun with startups := ⟨s.generation + 1, none⟩ :: s.startups }
  | started {i : Input} : i.request = none → s.page.running = false → s.begun.throws = false →
      (s.workers .presence).busy = false →
      PollingStep s i (.started (some s.nextId)) (s.begun.poll .presence true).1
  | stopped {i : Input} : i.request = none → s.page.running = true → PollingStep s i .stopped s.stop.1
  | fired {timer : Timer} : s.timers.find? (fun other => other.id = timer.id) = some timer →
      PollingStep s (.fire timer.id) (.polled (({ s with timers := s.timers.erase timer }).poll timer.kind false).2)
        (({ s with timers := s.timers.erase timer }).poll timer.kind false).1
  | startupOver {startup : Startup} : startup ∈ s.startups →
      (s.page.running = false ∨ startup.owner ≠ s.generation ∨ (s.workers .price).timer.isSome = true) →
      PollingStep s (.startup startup) .ignored { s with startups := s.startups.erase startup }
  | startupPolls {startup : Startup} : startup ∈ s.startups → startup.delay = none → s.page.running = true →
      startup.owner = s.generation → (s.workers .price).timer = none →
      PollingStep s (.startup startup) (.polled (({ s with startups := s.startups.erase startup }).poll .price false).2)
        (({ s with startups := s.startups.erase startup }).poll .price false).1
  | startupArms {startup : Startup} {delay : ℕ} : startup ∈ s.startups → startup.delay = some delay →
      s.page.running = true → startup.owner = s.generation → (s.workers .price).timer = none →
      PollingStep s (.startup startup) .ignored
        (({ s with startups := s.startups.erase startup }).setTimeout .price delay)
  | advanced {i : Input} {request : ℕ} {update : Poll → Poll} : Keeps update →
      PollingStep s i .advanced (s.updatePolls (fun poll => poll.id = request) update)
  | failed {i : Input} {poll : Poll} {s' : Polling} : s.findPoll poll.id = some poll → i.request = some poll.id →
      Received s s' poll none → PollingStep s i .settled (s'.finish poll none)
  | received {poll : Poll} {content : Option Json} {now : ℚ} {s' : Polling} {delay : Option ℕ} :
      s.findPoll poll.id = some poll → Received s s' poll content →
      PollingStep s (.body poll.id content now) .settled (s'.finish poll delay)

lemma findPoll_eq_some {s : Polling} {request : ℕ} {poll : Poll} (h : s.findPoll request = some poll) :
    poll ∈ s.polls ∧ poll.id = request :=
  ⟨List.mem_of_find?_eq_some h, by simpa using List.find?_some h⟩

lemma start_step {s s' : Polling} {i : Input} {a : Action} {hidden : Bool} (hi : i.request = none)
    (h : s.start hidden = (s', a)) : PollingStep s i a s' := by
  by_cases hclosed : (s.page.running || hidden) = true
  · have hstart : s.start hidden = (s, .ignored) := by simp [start, hclosed]
    obtain ⟨rfl, rfl⟩ := Prod.mk.inj (hstart.symm.trans h)
    exact .ignored
  have hrunning : s.page.running = false := by simp at hclosed; exact hclosed.1
  unfold start at h
  rw [if_neg hclosed] at h
  cases hthrows : s.begun.throws with
  | true =>
    obtain ⟨rfl, rfl⟩ := Prod.mk.inj ((if_pos hthrows).symm.trans h)
    exact .startThrows hi hrunning hthrows
  | false =>
    have hcalm : ¬s.begun.throws = true := by simp [hthrows]
    rw [if_neg hcalm] at h
    cases hbusy : (s.workers .presence).busy with
    | true =>
      have hpoll : s.begun.poll .presence true = (s.begun, none) := by simp [poll, begun, hbusy]
      rw [hpoll] at h
      obtain ⟨rfl, rfl⟩ := Prod.mk.inj h
      exact .startBusy hi hrunning hthrows hbusy
    | false =>
      have hpoll : s.begun.poll .presence true = ((s.begun.poll .presence true).1, some s.nextId) := by
        simp [poll, begun, hbusy]
      rw [hpoll] at h
      obtain ⟨rfl, rfl⟩ := Prod.mk.inj h
      exact .started hi hrunning hthrows hbusy

lemma stop_step {s s' : Polling} {i : Input} {a : Action} (hi : i.request = none) (h : s.stop = (s', a)) :
    PollingStep s i a s' := by
  cases hrunning : s.page.running with
  | true =>
    have hstop : s.stop = (s.stop.1, .stopped) := by simp [stop, hrunning]
    rw [hstop] at h
    obtain ⟨rfl, rfl⟩ := Prod.mk.inj h
    exact .stopped hi hrunning
  | false =>
    have hstop : s.stop = (s, .ignored) := by simp [stop, hrunning]
    rw [hstop] at h
    obtain ⟨rfl, rfl⟩ := Prod.mk.inj h
    exact .ignored

lemma startup_step {s s' : Polling} {a : Action} {startup : Startup} (hmem : startup ∈ s.startups)
    (h : s.runStartup startup = (s', a)) : PollingStep s (.startup startup) a s' := by
  unfold runStartup at h
  dsimp only at h
  split at h
  · next hover =>
    obtain ⟨rfl, rfl⟩ := Prod.mk.inj h
    refine .startupOver hmem ?_
    simpa [or_assoc] using hover
  · next hopen =>
    obtain ⟨hrunning, howner, hunarmed⟩ :
        s.page.running = true ∧ startup.owner = s.generation ∧ (s.workers .price).timer = none := by
      simpa [and_assoc] using hopen
    split at h
    · next hdelay =>
      obtain ⟨rfl, rfl⟩ := Prod.mk.inj h
      exact .startupPolls hmem hdelay hrunning howner hunarmed
    · next hdelay =>
      obtain ⟨rfl, rfl⟩ := Prod.mk.inj h
      exact .startupArms hmem hdelay hrunning howner hunarmed

lemma polling_step {s s' : Polling} {i : Input} {a : Action} (h : pollingMachine.step s i = some (s', a)) :
    PollingStep s i a s' := by
  cases i with
  | visibilitychange hidden =>
    cases hidden with
    | true => exact stop_step rfl (Option.some.inj h)
    | false => exact start_step rfl (Option.some.inj h)
  | pagehide => exact stop_step rfl (Option.some.inj h)
  | pageshow hidden => exact start_step rfl (Option.some.inj h)
  | fire id =>
    obtain ⟨timer, htimer, heq⟩ := Option.map_eq_some_iff.mp h
    obtain ⟨rfl, rfl⟩ := Prod.mk.inj heq
    obtain rfl : timer.id = id := by simpa using List.find?_some htimer
    exact .fired htimer
  | startup startup =>
    by_cases hmem : startup ∈ s.startups
    · exact startup_step hmem (Option.some.inj ((if_pos hmem).symm.trans h))
    · exact absurd ((if_neg hmem).symm.trans h) (by simp)
  | deadline request =>
    obtain ⟨poll, hpoll, heq⟩ := Option.map_eq_some_iff.mp h
    obtain ⟨rfl, rfl⟩ := Prod.mk.inj heq
    exact .advanced keeps_abort
  | respond request status =>
    obtain ⟨poll, hpoll, heq⟩ := Option.map_eq_some_iff.mp h
    have hfound := (Option.filter_eq_some_iff.mp hpoll).1
    obtain rfl : poll.id = request := (findPoll_eq_some hfound).2
    split at heq
    · obtain ⟨rfl, rfl⟩ := Prod.mk.inj heq
      exact .failed hfound rfl (fault_received s poll none)
    · obtain ⟨rfl, rfl⟩ := Prod.mk.inj heq
      exact .advanced (keeps_status status)
  | fail request =>
    obtain ⟨poll, hfound, heq⟩ := Option.map_eq_some_iff.mp h
    obtain rfl : poll.id = request := (findPoll_eq_some hfound).2
    obtain ⟨rfl, rfl⟩ := Prod.mk.inj heq
    exact .failed hfound rfl (fault_received s poll none)
  | body request content now =>
    obtain ⟨poll, hpoll, heq⟩ := Option.map_eq_some_iff.mp h
    have hfound := (Option.filter_eq_some_iff.mp hpoll).1
    obtain rfl : poll.id = request := (findPoll_eq_some hfound).2
    split at heq
    · obtain ⟨rfl, rfl⟩ := Prod.mk.inj heq
      exact .received hfound (receiveHeartbeat_received s poll content now)
    · obtain ⟨rfl, rfl⟩ := Prod.mk.inj heq
      exact .received hfound (receiveReport_received s poll content now)

lemma finish_of {P : Polling → Prop} {s : Polling} {poll : Poll} (delay : Option ℕ) (hrelease : P (s.release poll))
    (htimer : s.page.running = true →
      P ((s.release poll).setTimeout poll.kind (if poll.owner = s.generation then 5000 else 0)))
    (hstartups : ∀ (after : Polling) (startups : List Startup), P after → P { after with startups }) :
    P (s.finish poll delay) := by
  unfold finish
  dsimp only
  split
  · exact hrelease
  · have hreturned : P (if (s.release poll).page.running then
        (s.release poll).setTimeout poll.kind (if poll.owner = (s.release poll).generation then 5000 else 0)
      else s.release poll) := by
      split
      · next hrunning => exact htimer hrunning
      · exact hrelease
    split
    · exact hstartups _ _ hreturned
    · exact hreturned

/-- A worker is busy with one request, and with none otherwise. -/
structure Owned (s : Polling) : Prop where
  one : ∀ kind, s.polls.countP (fun poll => poll.kind = kind) = if (s.workers kind).busy then 1 else 0
  fresh : ∀ poll ∈ s.polls, poll.id < s.nextId
  owner : ∀ poll ∈ s.polls, poll.owner ≤ s.generation

lemma Owned.busy {s : Polling} (h : Owned s) {poll : Poll} (hpoll : poll ∈ s.polls) :
    (s.workers poll.kind).busy = true := by
  by_contra hidle
  have hnone := h.one poll.kind
  rw [if_neg hidle, List.countP_eq_zero] at hnone
  exact hnone poll hpoll (by simp)

lemma Owned.congr {s s' : Polling} (h : Owned s) (hpolls : s'.polls = s.polls)
    (hbusy : ∀ kind, (s'.workers kind).busy = (s.workers kind).busy) (hid : s.nextId ≤ s'.nextId)
    (hgeneration : s.generation ≤ s'.generation) : Owned s' where
  one kind := by
    rw [hpolls, hbusy]
    exact h.one kind
  fresh poll hpoll := (h.fresh poll (hpolls ▸ hpoll)).trans_le hid
  owner poll hpoll := (h.owner poll (hpolls ▸ hpoll)).trans hgeneration

lemma Owned.updatePolls {s : Polling} (h : Owned s) (which : Poll → Bool) {update : Poll → Poll}
    (hupdate : Keeps update) : Owned (s.updatePolls which update) := by
  refine ⟨fun kind => ?_, ?_, ?_⟩
  · refine Eq.trans ?_ (h.one kind)
    simp only [Polling.updatePolls, List.countP_map]
    refine List.countP_congr fun poll _ => ?_
    simp only [Function.comp]
    split
    · rw [hupdate.kind]
    · rfl
  · simp only [Polling.updatePolls, List.forall_mem_map]
    intro poll hpoll
    split
    · exact hupdate.id poll ▸ h.fresh poll hpoll
    · exact h.fresh poll hpoll
  · simp only [Polling.updatePolls, List.forall_mem_map]
    intro poll hpoll
    split
    · exact hupdate.owner poll ▸ h.owner poll hpoll
    · exact h.owner poll hpoll

lemma Owned.poll {s : Polling} (h : Owned s) (kind : PollKind) (includePrice : Bool) :
    Owned (s.poll kind includePrice).1 := by
  unfold Polling.poll
  split
  · exact h
  · next hopen =>
    have hidle : (s.workers kind).busy = false := by
      simp only [Bool.or_eq_true, not_or] at hopen
      simpa using hopen.2
    refine ⟨fun other => ?_, ?_, ?_⟩
    · have hone := h.one other
      simp only [setWorker, List.countP_cons, Function.update_apply]
      by_cases hother : other = kind
      · subst hother
        simp [hone, hidle]
      · simp [hother, hone, Ne.symm hother]
    · simp only [List.forall_mem_cons]
      exact ⟨Nat.lt_succ_self _, fun poll hpoll => (h.fresh poll hpoll).trans (Nat.lt_succ_self _)⟩
    · simp only [List.forall_mem_cons]
      exact ⟨le_rfl, h.owner⟩

lemma Owned.release {s : Polling} (h : Owned s) {poll : Poll} (hpoll : poll ∈ s.polls) : Owned (s.release poll) := by
  have hperm := List.perm_cons_erase hpoll
  refine ⟨fun kind => ?_, fun other hother => h.fresh other (List.mem_of_mem_erase hother),
    fun other hother => h.owner other (List.mem_of_mem_erase hother)⟩
  have hone := h.one kind
  rw [hperm.countP_eq, List.countP_cons] at hone
  simp only [Polling.release, setWorker, Function.update_apply]
  by_cases hkind : kind = poll.kind
  · subst hkind
    simp only [decide_true, if_true, Bool.false_eq_true, if_false] at hone ⊢
    split at hone <;> omega
  · simpa [hkind, Ne.symm hkind] using hone

lemma Owned.setTimeout {s : Polling} (h : Owned s) (kind : PollKind) (delay : ℕ) : Owned (s.setTimeout kind delay) := by
  refine h.congr rfl (fun other => ?_) (Nat.le_succ _) le_rfl
  simp only [Polling.setTimeout, setWorker, Function.update_apply]
  split
  · next heq => rw [heq]
  · rfl

lemma Owned.finish {s : Polling} (h : Owned s) {poll : Poll} (hpoll : poll ∈ s.polls) (delay : Option ℕ) :
    Owned (s.finish poll delay) :=
  finish_of delay (h.release hpoll) (fun _ => (h.release hpoll).setTimeout poll.kind _)
    fun _ _ hafter => hafter.congr rfl (fun _ => rfl) le_rfl le_rfl

lemma Owned.received {s s' : Polling} (h : Owned s) {poll : Poll} {content : Option Json}
    (hreceived : Received s s' poll content) : Owned s' := by
  rw [hreceived.same]
  exact h.congr rfl (fun _ => rfl) le_rfl le_rfl

lemma Received.polls {s s' : Polling} {poll : Poll} {content : Option Json} (h : Received s s' poll content) :
    s'.polls = s.polls := by
  rw [h.same]

lemma Owned.step {s s' : Polling} {i : Input} {a : Action} (h : Owned s) (hs : PollingStep s i a s') : Owned s' := by
  have hbegun : Owned s.begun := h.congr rfl (fun _ => rfl) le_rfl (Nat.le_succ _)
  cases hs with
  | ignored => exact h
  | startThrows => exact hbegun
  | startBusy => exact hbegun.congr rfl (fun _ => rfl) le_rfl le_rfl
  | started => exact hbegun.poll _ _
  | stopped _ hrunning =>
    have haborted : ∀ which, Owned (s.updatePolls which Poll.abort) := fun which => h.updatePolls which keeps_abort
    unfold Polling.stop
    rw [if_pos hrunning]
    exact (haborted _).congr rfl (fun _ => rfl) le_rfl (Nat.le_succ _)
  | fired =>
    refine Owned.poll ?_ _ _
    exact h.congr rfl (fun _ => rfl) le_rfl le_rfl
  | startupOver => exact h.congr rfl (fun _ => rfl) le_rfl le_rfl
  | startupPolls =>
    refine Owned.poll ?_ _ _
    exact h.congr rfl (fun _ => rfl) le_rfl le_rfl
  | startupArms =>
    refine Owned.setTimeout ?_ _ _
    exact h.congr rfl (fun _ => rfl) le_rfl le_rfl
  | advanced hupdate => exact h.updatePolls _ hupdate
  | failed hfound _ hreceived =>
    exact (h.received hreceived).finish (hreceived.polls ▸ (findPoll_eq_some hfound).1) _
  | received hfound hreceived =>
    exact (h.received hreceived).finish (hreceived.polls ▸ (findPoll_eq_some hfound).1) _

section Finish

variable (s : Polling) (poll : Poll) (delay : Option ℕ)

lemma finish_polls : (s.finish poll delay).polls = s.polls.erase poll :=
  finish_of (P := fun after => after.polls = s.polls.erase poll) delay rfl (fun _ => rfl) fun _ _ => id

lemma finish_generation : (s.finish poll delay).generation = s.generation :=
  finish_of (P := fun after => after.generation = s.generation) delay rfl (fun _ => rfl) fun _ _ => id

lemma finish_nextId : s.nextId ≤ (s.finish poll delay).nextId :=
  finish_of (P := fun after => s.nextId ≤ after.nextId) delay le_rfl (fun _ => Nat.le_succ _) fun _ _ => id

lemma finish_page : (s.finish poll delay).page = s.page ∧ (s.finish poll delay).body = s.body :=
  finish_of (P := fun after => after.page = s.page ∧ after.body = s.body) delay ⟨rfl, rfl⟩ (fun _ => ⟨rfl, rfl⟩)
    fun _ _ => id

end Finish

/-- The requests of the page with their owners. -/
def requests : Requests Polling Action where
  nextId := nextId
  generation := generation
  outstanding s := s.polls.map fun poll => (poll.id, poll.owner)
  sent := Action.sent
  stopped a := a = .stopped

lemma finish_counts {s s' : Polling} {poll : Poll} {content : Option Json} (h : Received s s' poll content)
    (delay : Option ℕ) : requests.Counts s .settled (s'.finish poll delay) := by
  have hgeneration : s'.generation = s.generation := by rw [h.same]
  have hnextId : s'.nextId = s.nextId := by rw [h.same]
  refine .quiet rfl (by simp [requests]) ?_ ?_ fun request hrequest => ?_
  · exact (hgeneration.symm.trans (finish_generation s' poll delay).symm).le
  · exact hnextId.symm.le.trans (finish_nextId s' poll delay)
  · obtain ⟨other, hother, rfl⟩ := List.mem_map.mp hrequest
    rw [finish_polls, h.polls] at hother
    exact List.mem_map_of_mem (List.mem_of_mem_erase hother)

lemma poll_counts (s : Polling) (kind : PollKind) (includePrice : Bool) :
    requests.Counts s (.polled (s.poll kind includePrice).2) (s.poll kind includePrice).1 := by
  unfold poll
  split
  · exact .quiet rfl (by simp [requests]) le_rfl le_rfl fun _ => id
  · refine ⟨le_rfl, by simp [requests], Nat.le_succ _, fun id hid => ?_, fun request hrequest => ?_⟩
    · obtain rfl := Option.some.inj hid
      exact ⟨rfl, Nat.lt_succ_self _⟩
    · rcases List.mem_cons.mp hrequest with rfl | hold
      · exact .inr ⟨rfl, le_rfl⟩
      · exact .inl hold

lemma updatePolls_outstanding {s : Polling} {which : Poll → Bool} {update : Poll → Poll} (hupdate : Keeps update)
    {request : ℕ × ℕ} (h : request ∈ requests.outstanding (s.updatePolls which update)) :
    request ∈ requests.outstanding s := by
  obtain ⟨poll, hpoll, rfl⟩ := List.mem_map.mp h
  obtain ⟨old, hold, rfl⟩ := List.mem_map.mp hpoll
  refine List.mem_map.mpr ⟨old, hold, ?_⟩
  split
  · rw [hupdate.id, hupdate.owner]
  · rfl

lemma PollingStep.counts {s s' : Polling} {i : Input} {a : Action} (hs : PollingStep s i a s') :
    requests.Counts s a s' := by
  cases hs with
  | ignored | startupOver => exact .quiet rfl (by simp [requests]) le_rfl le_rfl fun _ => id
  | startThrows | startBusy => exact .quiet rfl (by simp [requests]) (Nat.le_succ _) le_rfl fun _ => id
  | started _ hrunning hcalm hidle =>
    have hcounts := (poll_counts s.begun .presence true).later (s := s) (Nat.le_succ _) rfl rfl
    have hsent : (s.begun.poll .presence true).2 = some s.nextId := by simp [poll, begun, hidle]
    rw [hsent] at hcounts
    exact ⟨hcounts.generation, by simp [requests], hcounts.nextId, hcounts.sent, hcounts.outstanding⟩
  | stopped _ hrunning =>
    unfold Polling.stop
    rw [if_pos hrunning]
    refine ⟨Nat.le_succ _, fun _ => Nat.lt_succ_self _, le_rfl, by simp [requests, Action.sent], ?_⟩
    exact fun request hrequest => .inl (updatePolls_outstanding keeps_abort hrequest)
  | fired | startupPolls => exact (poll_counts _ _ _).later le_rfl rfl rfl
  | startupArms => exact .quiet rfl (by simp [requests]) le_rfl (Nat.le_succ _) fun _ => id
  | advanced hupdate =>
    exact .quiet rfl (by simp [requests]) le_rfl le_rfl fun _ => updatePolls_outstanding hupdate
  | failed _ _ hreceived => exact finish_counts hreceived none
  | received _ hreceived => exact finish_counts hreceived _

lemma owned_of_run {trace : List (Polling × Input × Action)} {s : Polling}
    (h : pollingMachine.traced.Run .init trace s) : Owned s := by
  refine h.invariant (P := fun _ s => Owned s) ⟨fun _ => rfl, by simp [init], by simp [init]⟩ ?_
  intro trace s i s' entry _ howned hs
  obtain ⟨a, hstep, rfl⟩ := Machine.traced_step.mp hs
  exact howned.step (polling_step hstep)

/-- A step that is about a request of an earlier period leaves the page as it is. -/
lemma PollingStep.late {s s' : Polling} {i : Input} {a : Action} (hs : PollingStep s i a s')
    (h : ∀ poll ∈ s.polls, i.request = some poll.id → s.current poll = false) (hrequest : i.request.isSome = true) :
    s'.page = s.page ∧ s'.body = s.body := by
  cases hs with
  | ignored => exact ⟨rfl, rfl⟩
  | startThrows hi | startBusy hi | started hi | stopped hi => simp [hi] at hrequest
  | fired => simp [Input.request] at hrequest
  | startupOver => exact ⟨rfl, rfl⟩
  | startupPolls => simp [Input.request] at hrequest
  | startupArms => exact ⟨rfl, rfl⟩
  | advanced hupdate => exact ⟨rfl, rfl⟩
  | failed hfound hi hreceived =>
    rw [hreceived.late (h _ (findPoll_eq_some hfound).1 hi)]
    exact finish_page s _ _
  | received hfound hreceived =>
    rw [hreceived.late (h _ (findPoll_eq_some hfound).1 rfl)]
    exact finish_page s _ _

/-- The timer of a worker has not fired yet. -/
def Armed (s : Polling) (kind : PollKind) : Prop :=
  ∃ timer ∈ s.timers, timer.kind = kind ∧ (s.workers kind).timer = some timer.id

/-- The loop of a worker goes on by itself. -/
def Polled (s : Polling) (kind : PollKind) : Prop := (s.workers kind).busy = true ∨ s.Armed kind

/-- The callback of the current `start` has not run yet. -/
def StartupPending (s : Polling) : Prop :=
  (∃ delay, ⟨s.generation, delay⟩ ∈ s.startups) ∨
    ∃ poll ∈ s.polls, poll.includePrice = true ∧ poll.owner = s.generation

/-- The handles of the timers, where an idle worker that is not `off` has no handle of a timer that fired. -/
structure Timed (off : PollKind → Prop) (s : Polling) : Prop where
  fresh : ∀ timer ∈ s.timers, timer.id < s.nextId
  handle : ∀ kind id, (s.workers kind).timer = some id →
    id < s.nextId ∧ ∀ timer ∈ s.timers, timer.id = id → timer.kind = kind
  hidden : s.page.running = false → ∀ kind, (s.workers kind).timer = none
  armed : ∀ kind, ¬off kind → (s.workers kind).timer.isSome = true → s.Polled kind

section Timers

variable {s : Polling} {off : PollKind → Prop}

lemma Timed.congr {s' : Polling} (h : Timed off s) (hworkers : s'.workers = s.workers) (htimers : s'.timers = s.timers)
    (hid : s'.nextId = s.nextId) (hrunning : s'.page.running = s.page.running) : Timed off s' := by
  refine ⟨?_, ?_, ?_, ?_⟩
  · rw [htimers, hid]
    exact h.fresh
  · rw [hworkers, htimers, hid]
    exact h.handle
  · rw [hworkers, hrunning]
    exact h.hidden
  · unfold Polled Armed
    rw [hworkers, htimers]
    exact h.armed

lemma Polled.congr {s' : Polling} {kind : PollKind} (h : s.Polled kind) (hworkers : s'.workers = s.workers)
    (htimers : s'.timers = s.timers) : s'.Polled kind := by
  unfold Polled Armed at h ⊢
  rwa [hworkers, htimers]

lemma Timed.handle_ne (h : Timed off s) {kind other : PollKind} (hne : other ≠ kind) {timer : Timer}
    (hmem : timer ∈ s.timers) (hkind : timer.kind = other) : (s.workers kind).timer ≠ some timer.id :=
  fun heq => hne (hkind.symm.trans ((h.handle kind timer.id heq).2 timer hmem rfl))

lemma polled_poll (kind : PollKind) (includePrice : Bool) (hrunning : s.page.running = true) :
    (s.poll kind includePrice).1.Polled kind := by
  unfold Polling.poll
  split
  · next hclosed =>
    left
    simpa [hrunning] using hclosed
  · left
    simp [setWorker]

lemma Polled.poll (h : Timed off s) {other : PollKind} (hpolled : s.Polled other) (kind : PollKind)
    (includePrice : Bool) : (s.poll kind includePrice).1.Polled other := by
  unfold Polling.poll
  split
  · exact hpolled
  · by_cases hother : other = kind
    · left
      simp [setWorker, hother]
    · rcases hpolled with hbusy | ⟨timer, hmem, hkind, hhandle⟩
      · left
        simpa [setWorker, hother] using hbusy
      · refine .inr ⟨timer, List.mem_filter.mpr ⟨hmem, ?_⟩, hkind, ?_⟩
        · simpa using h.handle_ne hother hmem hkind
        · simpa [setWorker, hother] using hhandle

lemma Timed.poll (h : Timed off s) (kind : PollKind) (includePrice : Bool) :
    Timed (fun other => off other ∧ other ≠ kind) (s.poll kind includePrice).1 := by
  have hpolled := fun other (hother : s.Polled other) => Polled.poll h hother kind includePrice
  cases hrunning : s.page.running with
  | false =>
    have hsame : (s.poll kind includePrice).1 = s := by simp [Polling.poll, hrunning]
    rw [hsame]
    exact ⟨h.fresh, h.handle, h.hidden, fun other _ hsome => by simp [h.hidden hrunning other] at hsome⟩
  | true =>
    have hkind := polled_poll kind includePrice hrunning
    refine ⟨?_, ?_, ?_, fun other hoff hsome => ?_⟩
    · unfold Polling.poll
      split
      · exact h.fresh
      · exact fun timer htimer => (h.fresh timer (List.mem_of_mem_filter htimer)).trans (Nat.lt_succ_self _)
    · unfold Polling.poll
      split
      · exact h.handle
      · intro other id hhandle
        by_cases hother : other = kind
        · simp [setWorker, hother] at hhandle
        · obtain ⟨hlt, hall⟩ := h.handle other id (by simpa [setWorker, hother] using hhandle)
          exact ⟨hlt.trans (Nat.lt_succ_self _), fun timer htimer => hall timer (List.mem_of_mem_filter htimer)⟩
    · intro hhidden
      have hpage : (s.poll kind includePrice).1.page = s.page := by
        unfold Polling.poll
        split <;> rfl
      rw [hpage, hrunning] at hhidden
      simp at hhidden
    · by_cases hother : other = kind
      · exact hother ▸ hkind
      · refine hpolled other (h.armed other (fun hin => hoff ⟨hin, hother⟩) ?_)
        unfold Polling.poll at hsome
        split at hsome
        · exact hsome
        · simpa [setWorker, hother] using hsome

lemma polled_setTimeout (s : Polling) (kind : PollKind) (delay : ℕ) : (s.setTimeout kind delay).Polled kind :=
  .inr ⟨_, List.mem_cons_self, rfl, by simp [setTimeout, setWorker]⟩

lemma Polled.setTimeout {other : PollKind} (hpolled : s.Polled other) (kind : PollKind) (delay : ℕ) :
    (s.setTimeout kind delay).Polled other := by
  by_cases hother : other = kind
  · exact hother ▸ polled_setTimeout s kind delay
  · rcases hpolled with hbusy | ⟨timer, hmem, hkind, hhandle⟩
    · left
      simpa [Polling.setTimeout, setWorker, hother] using hbusy
    · refine .inr ⟨timer, List.mem_cons_of_mem _ hmem, hkind, ?_⟩
      simpa [Polling.setTimeout, setWorker, hother] using hhandle

lemma Timed.setTimeout (h : Timed off s) (hrunning : s.page.running = true) (kind : PollKind) (delay : ℕ) :
    Timed (fun other => off other ∧ other ≠ kind) (s.setTimeout kind delay) := by
  refine ⟨?_, fun other id hhandle => ?_, fun hhidden => ?_, fun other hoff hsome => ?_⟩
  · simp only [Polling.setTimeout, List.forall_mem_cons]
    exact ⟨Nat.lt_succ_self _, fun timer htimer => (h.fresh timer htimer).trans (Nat.lt_succ_self _)⟩
  · by_cases hother : other = kind
    · obtain rfl : s.nextId = id := by simpa [Polling.setTimeout, setWorker, hother] using hhandle
      refine ⟨Nat.lt_succ_self _, ?_⟩
      simp only [Polling.setTimeout, List.forall_mem_cons]
      exact ⟨fun _ => hother.symm, fun timer htimer heq => absurd heq (h.fresh timer htimer).ne⟩
    · obtain ⟨hlt, hall⟩ := h.handle other id (by simpa [Polling.setTimeout, setWorker, hother] using hhandle)
      refine ⟨hlt.trans (Nat.lt_succ_self _), ?_⟩
      simp only [Polling.setTimeout, List.forall_mem_cons]
      exact ⟨fun heq => absurd heq hlt.ne', hall⟩
  · change s.page.running = false at hhidden
    simp [hrunning] at hhidden
  · by_cases hother : other = kind
    · exact hother ▸ polled_setTimeout s kind delay
    · refine Polled.setTimeout (h.armed other (fun hin => hoff ⟨hin, hother⟩) ?_) kind delay
      simpa [Polling.setTimeout, setWorker, hother] using hsome

lemma Polled.release {poll : Poll} {other : PollKind} (hpolled : s.Polled other) (hother : other ≠ poll.kind) :
    (s.release poll).Polled other := by
  rcases hpolled with hbusy | ⟨timer, hmem, hkind, hhandle⟩
  · left
    simpa [Polling.release, setWorker, hother] using hbusy
  · exact .inr ⟨timer, hmem, hkind, by simpa [Polling.release, setWorker, hother] using hhandle⟩

lemma Timed.release (h : Timed (fun _ => False) s) (poll : Poll) :
    Timed (fun other => other = poll.kind) (s.release poll) := by
  have htimer : ∀ other, ((s.release poll).workers other).timer = (s.workers other).timer := by
    intro other
    simp only [Polling.release, setWorker, Function.update_apply]
    split
    · next heq => rw [heq]
    · rfl
  refine ⟨h.fresh, ?_, ?_, fun other hother hsome => ?_⟩
  · simp only [htimer]
    exact h.handle
  · simp only [htimer]
    exact h.hidden
  · rw [htimer] at hsome
    exact (h.armed other id hsome).release hother

lemma Polled.erase {timer : Timer} {other : PollKind} (hpolled : s.Polled other) (hother : other ≠ timer.kind) :
    ({ s with timers := s.timers.erase timer } : Polling).Polled other := by
  rcases hpolled with hbusy | ⟨armed, hmem, hkind, hhandle⟩
  · exact .inl hbusy
  · refine .inr ⟨armed, (List.mem_erase_of_ne ?_).mpr hmem, hkind, hhandle⟩
    rintro rfl
    exact hother hkind.symm

lemma Timed.erase (h : Timed (fun _ => False) s) (timer : Timer) :
    Timed (fun other => other = timer.kind) { s with timers := s.timers.erase timer } :=
  ⟨fun other hother => h.fresh other (List.mem_of_mem_erase hother),
    fun kind id hhandle => ⟨(h.handle kind id hhandle).1,
      fun other hother => (h.handle kind id hhandle).2 other (List.mem_of_mem_erase hother)⟩,
    h.hidden, fun other hother hsome => (h.armed other id hsome).erase hother⟩

lemma Timed.of_hidden (h : Timed off s) (hrunning : s.page.running = false) : Timed (fun _ => False) s :=
  ⟨h.fresh, h.handle, h.hidden, fun other _ hsome => by simp [h.hidden hrunning other] at hsome⟩

end Timers

/-- The response that the step stores, if it stores one, can be shown. -/
def Displayable : Polling × Input × Action → Prop
  | (s, .body request content _, _) => ∀ poll ∈ s.polls, poll.id = request → s.current poll = true →
      ∀ report data, content.bind poll.report = some report → poll.accepted report = some data →
        s.page.retains data = false → report.renderThrows = false
  | _ => True

/-- Both loops of a visible page go on, the one for the price after the callback of `start` at the latest. -/
structure Live (s : Polling) : Prop where
  timed : Timed (fun _ => False) s
  shown : s.body.any Json.renderThrows = false
  presence : s.page.running = true → s.Polled .presence
  price : s.page.running = true → s.Polled .price ∨ s.StartupPending

section Loops

variable {s : Polling}

lemma Timed.mono {off off' : PollKind → Prop} (h : Timed off s) (hoff : ∀ kind, off kind → off' kind) : Timed off' s :=
  ⟨h.fresh, h.handle, h.hidden, fun kind hkind => h.armed kind fun hin => hkind (hoff kind hin)⟩

lemma StartupPending.poll (h : s.StartupPending) (kind : PollKind) (includePrice : Bool) :
    (s.poll kind includePrice).1.StartupPending := by
  unfold Polling.poll
  split
  · exact h
  · exact h.imp_right fun ⟨poll, hpoll, hboth⟩ => ⟨poll, List.mem_cons_of_mem _ hpoll, hboth⟩

lemma Timed.begun (h : Timed (fun _ => False) s) (hhidden : s.page.running = false) :
    Timed (fun _ => False) s.begun := by
  refine ⟨h.fresh, h.handle, fun hrunning => by simp [Polling.begun] at hrunning, fun other _ hsome => ?_⟩
  change ((s.workers other).timer.isSome = true) at hsome
  simp [h.hidden hhidden other] at hsome

lemma Live.calm (h : Live s) : s.throws = false := by simp [throws, h.shown]

lemma Live.startBusy (h : Live s) (hhidden : s.page.running = false) (hbusy : (s.workers .presence).busy = true) :
    Live { s.begun with startups := ⟨s.generation + 1, none⟩ :: s.startups } where
  timed := (h.timed.begun hhidden).congr rfl rfl rfl rfl
  shown := h.shown
  presence _ := .inl hbusy
  price _ := .inr (.inl ⟨none, List.mem_cons_self⟩)

lemma Live.started (h : Live s) (hhidden : s.page.running = false) (hidle : (s.workers .presence).busy = false) :
    Live (s.begun.poll .presence true).1 where
  timed := ((h.timed.begun hhidden).poll _ _).mono fun _ hboth => hboth.1
  shown := by
    unfold Polling.poll
    split <;> exact h.shown
  presence _ := polled_poll _ _ rfl
  price _ := by
    refine .inr (.inr ?_)
    have hopen : ¬(!s.begun.page.running || (s.begun.workers .presence).busy) = true := by simp [begun, hidle]
    unfold Polling.poll
    rw [if_neg hopen]
    exact ⟨_, List.mem_cons_self, rfl, rfl⟩

lemma Live.stopped (h : Live s) (hrunning : s.page.running = true) : Live s.stop.1 := by
  unfold Polling.stop
  rw [if_pos hrunning]
  refine ⟨⟨fun timer htimer => h.timed.fresh timer (List.mem_of_mem_filter htimer), ?_, fun _ _ => rfl, ?_⟩, h.shown,
    ?_, ?_⟩ <;> intros <;> contradiction

lemma Live.fired (h : Live s) (timer : Timer) :
    Live (({ s with timers := s.timers.erase timer }).poll timer.kind false).1 := by
  let fired : Polling := { s with timers := s.timers.erase timer }
  have htimed := h.timed.erase timer
  have hpage : (fired.poll timer.kind false).1.page = s.page ∧ (fired.poll timer.kind false).1.body = s.body := by
    unfold Polling.poll
    split <;> exact ⟨rfl, rfl⟩
  have hpolled : ∀ other, s.page.running = true → s.Polled other → (fired.poll timer.kind false).1.Polled other := by
    intro other hrunning hother
    by_cases hkind : other = timer.kind
    · exact hkind ▸ polled_poll (s := fired) timer.kind false hrunning
    · exact Polled.poll htimed (hother.erase hkind) _ _
  refine ⟨(htimed.poll timer.kind false).mono fun _ hboth => hboth.2 hboth.1, ?_, ?_, ?_⟩
  · rw [hpage.2]
    exact h.shown
  · rw [hpage.1]
    exact fun hrunning => hpolled _ hrunning (h.presence hrunning)
  · rw [hpage.1]
    intro hrunning
    rcases h.price hrunning with hprice | hpending
    · exact .inl (hpolled _ hrunning hprice)
    · exact .inr (StartupPending.poll (s := fired) hpending _ _)

lemma Live.startupOver (h : Live s) {startup : Startup}
    (hover : s.page.running = false ∨ startup.owner ≠ s.generation ∨ (s.workers .price).timer.isSome = true) :
    Live { s with startups := s.startups.erase startup } := by
  refine ⟨h.timed.congr rfl rfl rfl rfl, h.shown, fun hrunning => (h.presence hrunning).congr rfl rfl,
    fun hrunning => ?_⟩
  change s.page.running = true at hrunning
  rcases hover with hhidden | howner | harmed
  · simp [hrunning] at hhidden
  · rcases h.price hrunning with hprice | ⟨delay, hmem⟩ | hpoll
    · exact .inl (hprice.congr rfl rfl)
    · refine .inr (.inl ⟨delay, (List.mem_erase_of_ne ?_).mpr hmem⟩)
      exact fun heq => howner (congrArg Startup.owner heq).symm
    · exact .inr (.inr hpoll)
  · -- The timer of the price worker is armed already, or the worker is busy.
    exact .inl ((h.timed.armed .price id harmed).congr rfl rfl)

lemma Live.startupPolls (h : Live s) (startup : Startup) (hrunning : s.page.running = true) :
    Live (({ s with startups := s.startups.erase startup }).poll .price false).1 := by
  let done : Polling := { s with startups := s.startups.erase startup }
  have htimed : Timed (fun _ => False) done := h.timed.congr rfl rfl rfl rfl
  refine ⟨(htimed.poll _ _).mono fun _ hboth => hboth.1, ?_, fun _ => ?_, fun _ => .inl ?_⟩
  · unfold Polling.poll
    split <;> exact h.shown
  · exact Polled.poll htimed ((h.presence hrunning).congr rfl rfl) _ _
  · exact polled_poll (s := done) _ _ hrunning

lemma Live.startupArms (h : Live s) (startup : Startup) (delay : ℕ) (hrunning : s.page.running = true) :
    Live (({ s with startups := s.startups.erase startup }).setTimeout .price delay) := by
  have htimed : Timed (fun _ => False) { s with startups := s.startups.erase startup } :=
    h.timed.congr rfl rfl rfl rfl
  refine ⟨(htimed.setTimeout hrunning _ _).mono fun _ hboth => hboth.1, h.shown, fun _ => ?_, fun _ => .inl ?_⟩
  · exact Polled.setTimeout ((h.presence hrunning).congr rfl rfl) _ _
  · exact polled_setTimeout _ _ _

lemma Live.updatePolls (h : Live s) (which : Poll → Bool) {update : Poll → Poll} (hupdate : Keeps update) :
    Live (s.updatePolls which update) := by
  refine ⟨h.timed.congr rfl rfl rfl rfl, h.shown, fun hrunning => (h.presence hrunning).congr rfl rfl,
    fun hrunning => ?_⟩
  rcases h.price hrunning with hprice | hstartup | ⟨poll, hpoll, hincludes, howner⟩
  · exact .inl (hprice.congr rfl rfl)
  · exact .inr (.inl hstartup)
  · refine .inr (.inr ⟨_, List.mem_map_of_mem hpoll, ?_⟩)
    split
    · exact ⟨(hupdate.includePrice poll).trans hincludes, (hupdate.owner poll).trans howner⟩
    · exact ⟨hincludes, howner⟩

lemma finish_eq (poll : Poll) (delay : Option ℕ) (h : s.throws = false) :
    s.finish poll delay =
      { (if s.page.running then
            (s.release poll).setTimeout poll.kind (if poll.owner = s.generation then 5000 else 0)
          else s.release poll) with
        startups := if poll.includePrice then ⟨poll.owner, delay⟩ :: s.startups else s.startups } := by
  have hcalm : ¬(s.release poll).throws = true := by
    change ¬s.throws = true
    simp [h]
  unfold Polling.finish
  dsimp only
  rw [if_neg hcalm]
  by_cases hrunning : s.page.running = true
  · have hreleased : (s.release poll).page.running = true := hrunning
    rw [if_pos hrunning, if_pos hreleased]
    cases poll.includePrice <;> rfl
  · have hreleased : ¬(s.release poll).page.running = true := hrunning
    rw [if_neg hrunning, if_neg hreleased]
    cases poll.includePrice <;> rfl

lemma Live.finish (h : Live s) {poll : Poll} (hpoll : poll ∈ s.polls) (delay : Option ℕ) :
    Live (s.finish poll delay) := by
  have htimed := h.timed.release poll
  rw [finish_eq poll delay h.calm]
  cases hrunning : s.page.running with
  | false =>
    rw [if_neg Bool.false_ne_true]
    refine ⟨(htimed.of_hidden hrunning).congr rfl rfl rfl rfl, h.shown, fun hvisible => ?_, fun hvisible => ?_⟩
    · exact absurd (hrunning.symm.trans hvisible) Bool.false_ne_true
    · exact absurd (hrunning.symm.trans hvisible) Bool.false_ne_true
  | true =>
    rw [if_pos rfl]
    generalize (if poll.owner = s.generation then 5000 else 0) = pause
    have hpolled : ∀ other, s.Polled other → ((s.release poll).setTimeout poll.kind pause).Polled other := by
      intro other hother
      by_cases hkind : other = poll.kind
      · exact hkind ▸ polled_setTimeout _ _ _
      · exact Polled.setTimeout (hother.release hkind) _ _
    refine ⟨((htimed.setTimeout hrunning poll.kind pause).mono fun _ hboth => hboth.2 hboth.1).congr rfl rfl rfl rfl,
      h.shown, fun _ => (hpolled _ (h.presence hrunning)).congr rfl rfl, fun _ => ?_⟩
    rcases h.price hrunning with hprice | ⟨owed, hmem⟩ | ⟨other, hother, hincludes, howner⟩
    · exact .inl ((hpolled _ hprice).congr rfl rfl)
    · refine .inr (.inl ⟨owed, ?_⟩)
      dsimp only
      split
      · exact List.mem_cons_of_mem _ hmem
      · exact hmem
    · by_cases hsame : other = poll
      · -- The call that `start` waits for has returned, and its callback is next.
        subst hsame
        refine .inr (.inl ⟨delay, ?_⟩)
        rw [if_pos hincludes, howner]
        exact List.mem_cons_self
      · exact .inr (.inr ⟨other, (List.mem_erase_of_ne hsame).mpr hother, hincludes, howner⟩)

lemma Live.received {s' : Polling} (h : Live s) {poll : Poll} {content : Option Json}
    (hreceived : Received s s' poll content) (hshown : s'.body.any Json.renderThrows = false) : Live s' := by
  have hrunning := hreceived.running
  have hsame := hreceived.same
  rw [hsame]
  refine ⟨h.timed.congr rfl rfl rfl hrunning, hshown, fun hvisible => ?_, fun hvisible => ?_⟩
  · exact (h.presence (hrunning.symm.trans hvisible)).congr rfl rfl
  · exact (h.price (hrunning.symm.trans hvisible)).imp_left fun hprice => hprice.congr rfl rfl

lemma Live.step {s' : Polling} {i : Input} {a : Action} (h : Live s) (hs : PollingStep s i a s')
    (hdisplayable : Displayable (s, i, a)) : Live s' := by
  cases hs with
  | ignored => exact h
  | startThrows _ _ hthrows => simp [throws, begun, h.shown] at hthrows
  | startBusy _ hhidden _ hbusy => exact h.startBusy hhidden hbusy
  | started _ hhidden _ hidle => exact h.started hhidden hidle
  | stopped _ hrunning => exact h.stopped hrunning
  | fired => exact h.fired _
  | startupOver _ hover => exact h.startupOver hover
  | startupPolls _ _ hrunning => exact h.startupPolls _ hrunning
  | startupArms _ _ hrunning => exact h.startupArms _ _ hrunning
  | advanced hupdate => exact h.updatePolls _ hupdate
  | failed hfound _ hreceived =>
    refine (h.received hreceived ?_).finish (hreceived.polls ▸ (findPoll_eq_some hfound).1) _
    rcases hreceived.body with hbody | ⟨report, data, hreport, _⟩
    · exact hbody ▸ h.shown
    · simp at hreport
  | received hfound hreceived =>
    obtain ⟨hpoll, _⟩ := findPoll_eq_some hfound
    refine (h.received hreceived ?_).finish (hreceived.polls ▸ hpoll) _
    rcases hreceived.body with hbody | ⟨report, data, hreport, haccepted, hcurrent, hretains, hbody⟩
    · exact hbody ▸ h.shown
    · rw [hbody]
      exact hdisplayable _ hpoll rfl hcurrent report data hreport haccepted hretains

end Loops

lemma live_of_displayable {trace : List (Polling × Input × Action)} {s : Polling}
    (h : pollingMachine.traced.Run .init trace s) (hdisplayable : ∀ entry ∈ trace, Displayable entry) : Live s := by
  induction h with
  | init =>
    exact ⟨⟨by simp [init], by simp [init], fun _ _ => rfl, by simp [init]⟩, rfl, by simp [init], by simp [init]⟩
  | @next trace s s' i entry _ hs ih =>
    obtain ⟨a, hstep, rfl⟩ := Machine.traced_step.mp hs
    obtain ⟨hlast, hrest⟩ := List.forall_mem_cons.mp hdisplayable
    exact (ih hrest).step (polling_step hstep) hlast

/-- Each worker has one outstanding request at most. -/
def OneRequest (s : Polling) : Prop := ∀ kind, s.polls.countP (fun poll => poll.kind = kind) ≤ 1

/-- The worker is busy with an outstanding request or has an armed timer. -/
def GoesOn (s : Polling) (kind : PollKind) : Prop :=
  ((s.workers kind).busy = true ∧ ∃ poll ∈ s.polls, poll.kind = kind) ∨ s.Armed kind

/-- No loop of a running page dies: both go on, the one for the price from the callback of the current `start` on. -/
def NoLoopDies (s : Polling) : Prop :=
  s.page.running = true → s.GoesOn .presence ∧ (s.GoesOn .price ∨ s.StartupPending)

lemma Owned.goesOn {s : Polling} (h : Owned s) {kind : PollKind} (hpolled : s.Polled kind) : s.GoesOn kind := by
  rcases hpolled with hbusy | harmed
  · have hone := h.one kind
    rw [hbusy, if_pos rfl] at hone
    obtain ⟨poll, hpoll, hkind⟩ := List.countP_pos_iff.mp (hone ▸ Nat.one_pos)
    exact .inl ⟨hbusy, poll, hpoll, of_decide_eq_true hkind⟩
  · exact .inr harmed

end Polling

end BitcoinPriceTracker

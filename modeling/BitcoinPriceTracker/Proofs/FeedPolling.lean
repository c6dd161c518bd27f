import BitcoinPriceTracker.Lib.Requests
import BitcoinPriceTracker.Model.Feed

namespace BitcoinPriceTracker

namespace Feed

variable {parse : String → Option (List FeedItem)} {s : Feed}

/-- What a settled promise does to the page before the request is over. -/
structure Received (s s' : Feed) (call : FeedCall) : Prop where
  same : s' = { s with lastXml := s'.lastXml, headlines := s'.headlines, status := s'.status }
  late : s.current call = false → s' = s

lemma fault_received (s : Feed) (call : FeedCall) (retryDelay : ℚ) : Received s (s.fault call retryDelay) call := by
  unfold fault
  split
  · next hcurrent => exact ⟨rfl, by simp [hcurrent]⟩
  · exact ⟨rfl, fun _ => rfl⟩

lemma receiveFeed_received (call : FeedCall) (data : Json) (hcurrent : s.current call = true) :
    Received s (s.receiveFeed parse call data).1 call := by
  have hshown : ∀ s', s' = { s with lastXml := s'.lastXml, headlines := s'.headlines, status := s'.status } →
      Received s s' call := fun s' hsame => ⟨hsame, by simp [hcurrent]⟩
  unfold receiveFeed
  dsimp only
  split
  · exact fault_received _ _ _
  · split
    · exact hshown _ rfl
    · split
      · exact fault_received _ _ _
      · exact fault_received _ _ _
      · exact hshown _ rfl

/-- A request is aborted or has a deadline that will abort it. -/
def FeedCall.ends (call : FeedCall) : Bool := call.aborted || call.deadline

/-- What happens to a waiting call leaves its number and its owner, and it still ends. -/
structure Waits (update : FeedCall → FeedCall) : Prop where
  id : ∀ call, (update call).id = call.id
  owner : ∀ call, (update call).owner = call.owner
  ends : ∀ call, FeedCall.ends call = true → FeedCall.ends (update call) = true

lemma waits_abort : Waits fun call => { call with deadline := false, aborted := true } :=
  ⟨fun _ => rfl, fun _ => rfl, fun _ _ => rfl⟩

/-- The steps of the machine. -/
inductive FeedStep (s : Feed) : Input → Action → Feed → Prop
  | ignored {i : Input} {hidden : Bool} : i.request = none →
      (s.running = true → hidden = true → s.hidden = true) →
      FeedStep s i .ignored { s with hidden }
  | stopped {i : Input} {hidden : Bool} : i.request = none → s.running = true →
      FeedStep s i .stopped { s with hidden }.stopFeed.1
  | started {i : Input} {available : Bool} {readings : Readings} : i.request = none → i.check = some readings.check →
      FeedStep s i
        ({ s with hidden := false, running := true, generation := s.generation + 1 }.refreshFeed available readings).2
        ({ s with hidden := false, running := true, generation := s.generation + 1 }.refreshFeed available readings).1
  | fired {i : Input} {timer : FeedTimer} {available : Bool} {readings : Readings} : i.request = none →
      i.check = some readings.check →
      FeedStep s i ({ s with timers := s.timers.erase timer }.refreshFeed available readings).2
        ({ s with timers := s.timers.erase timer }.refreshFeed available readings).1
  | advanced {i : Input} {which : FeedCall → Bool} {update : FeedCall → FeedCall} : Waits update →
      FeedStep s i .advanced (s.updateCalls which update)
  | settled {i : Input} {call : FeedCall} {s' : Feed} {retryDelay : ℚ} {readings : Readings} : call ∈ s.calls →
      i.request = some call.id → Received s s' call →
      FeedStep s i .settled (s'.finish call retryDelay readings)

lemma findCall_eq_some {request : ℕ} {call : FeedCall} (h : s.findCall request = some call) :
    call ∈ s.calls ∧ call.id = request :=
  ⟨List.mem_of_find?_eq_some h, by simpa using List.find?_some h⟩

lemma start_step (hidden : Bool) {available : Bool} {readings : Readings} {s' : Feed} {i : Input} {a : Action}
    (hi : i.request = none) (hcheck : i.check = some readings.check) (hhidden : hidden = true → s.hidden = true)
    (h : { s with hidden }.startFeed available readings = (s', a)) : FeedStep s i a s' := by
  unfold startFeed at h
  split at h
  · obtain ⟨rfl, rfl⟩ := Prod.mk.inj h
    exact .ignored hi fun _ => hhidden
  · next hopen =>
    obtain ⟨_, rfl⟩ : s.running = false ∧ hidden = false := by simpa using hopen
    obtain ⟨rfl, rfl⟩ := Prod.mk.inj h
    exact .started hi hcheck

lemma stop_step (hidden : Bool) {s' : Feed} {i : Input} {a : Action} (hi : i.request = none)
    (h : { s with hidden }.stopFeed = (s', a)) : FeedStep s i a s' := by
  cases hrunning : s.running with
  | true =>
    have hstop : { s with hidden }.stopFeed = ({ s with hidden }.stopFeed.1, .stopped) := by simp [stopFeed, hrunning]
    obtain ⟨rfl, rfl⟩ := Prod.mk.inj (hstop.symm.trans h)
    exact .stopped hi hrunning
  | false =>
    have hstop : { s with hidden }.stopFeed = ({ s with hidden }, .ignored) := by simp [stopFeed, hrunning]
    obtain ⟨rfl, rfl⟩ := Prod.mk.inj (hstop.symm.trans h)
    exact .ignored hi (by simp [hrunning])

lemma respond_step {s' : Feed} {i : Input} {a : Action} {call : FeedCall} {status : ℕ} {retryAfter : F64}
    {readings : Readings} (hcall : call ∈ s.calls) (hi : i.request = some call.id)
    (h : s.respond call status retryAfter readings = (s', a)) : FeedStep s i a s' := by
  unfold respond at h
  dsimp only at h
  split at h
  · obtain ⟨rfl, rfl⟩ := Prod.mk.inj h
    exact .settled hcall hi ⟨rfl, fun _ => rfl⟩
  split at h
  · obtain ⟨rfl, rfl⟩ := Prod.mk.inj h
    exact .settled hcall hi (fault_received _ _ _)
  split at h
  · obtain ⟨rfl, rfl⟩ := Prod.mk.inj h
    exact .settled hcall hi (fault_received _ _ _)
  · obtain ⟨rfl, rfl⟩ := Prod.mk.inj h
    exact .advanced ⟨fun _ => rfl, fun _ => rfl, fun _ hends => hends⟩

lemma receiveBody_step {s' : Feed} {i : Input} {a : Action} {call : FeedCall} {data : Json} {readings : Readings}
    (hcall : call ∈ s.calls) (hi : i.request = some call.id)
    (h : s.receiveBody parse call data readings = (s', a)) : FeedStep s i a s' := by
  unfold receiveBody at h
  dsimp only at h
  split at h
  · obtain ⟨rfl, rfl⟩ := Prod.mk.inj h
    exact .settled hcall hi ⟨rfl, fun _ => rfl⟩
  · next hcurrent =>
    split at h
    · obtain ⟨rfl, rfl⟩ := Prod.mk.inj h
      exact .settled hcall hi (fault_received _ _ _)
    · obtain ⟨rfl, rfl⟩ := Prod.mk.inj h
      exact .settled hcall hi (receiveFeed_received call data (by simpa using hcurrent))

lemma feed_step {s' : Feed} {i : Input} {a : Action} (h : (feedMachine parse).step s i = some (s', a)) :
    FeedStep s i a s' := by
  cases i with
  | visibilitychange hidden available readings =>
    cases hidden with
    | true => exact stop_step true rfl (Option.some.inj h)
    | false => exact start_step false rfl rfl (by simp) (Option.some.inj h)
  | pagehide => exact stop_step s.hidden rfl (Option.some.inj h)
  | pageshow available readings => exact start_step s.hidden rfl rfl id (Option.some.inj h)
  | fire id available readings =>
    obtain ⟨timer, _, heq⟩ := Option.map_eq_some_iff.mp h
    obtain ⟨rfl, rfl⟩ := Prod.mk.inj heq
    exact .fired rfl rfl
  | deadline request =>
    obtain ⟨call, _, heq⟩ := Option.map_eq_some_iff.mp h
    obtain ⟨rfl, rfl⟩ := Prod.mk.inj heq
    exact .advanced waits_abort
  | respond request status retryAfter readings =>
    obtain ⟨call, hcall, heq⟩ := Option.map_eq_some_iff.mp h
    obtain ⟨hmem, rfl⟩ := findCall_eq_some (Option.filter_eq_some_iff.mp hcall).1
    exact respond_step hmem rfl heq
  | body request data readings =>
    obtain ⟨call, hcall, heq⟩ := Option.map_eq_some_iff.mp h
    obtain ⟨hmem, rfl⟩ := findCall_eq_some (Option.filter_eq_some_iff.mp hcall).1
    exact receiveBody_step hmem rfl heq
  | fail request readings =>
    obtain ⟨call, hcall, heq⟩ := Option.map_eq_some_iff.mp h
    obtain ⟨hmem, rfl⟩ := findCall_eq_some hcall
    obtain ⟨rfl, rfl⟩ := Prod.mk.inj heq
    exact .settled hmem rfl (fault_received _ _ _)

/-- What `refreshFeed` does. -/
inductive Refreshed (s : Feed) (readings : Readings) : Action → Feed → Prop
  | closed : (s.running = true → s.hidden = false → s.request.isSome = true) → Refreshed s readings .ignored s
  | early : Refreshed s readings .ignored (s.scheduleFeed readings.schedule)
  | sent {call : FeedCall} : s.request = none → s.nextCheck ≤ readings.check → call.id = s.nextId →
      call.owner = s.generation → FeedCall.ends call = true → Refreshed s readings (.requested call.id) (s.own call)
  | unavailable {call : FeedCall} {s' : Feed} {retryDelay : ℚ} : s.request = none → Received (s.own call) s' call →
      Refreshed s readings .settled (s'.finish call retryDelay readings)

lemma refreshFeed_refreshed (s : Feed) (available : Bool) (readings : Readings) :
    Refreshed s readings (s.refreshFeed available readings).2 (s.refreshFeed available readings).1 := by
  unfold refreshFeed
  split
  · next hclosed =>
    refine .closed fun hrunning hvisible => ?_
    simpa [hrunning, hvisible] using hclosed
  · next hopen =>
    have hrequest : s.request = none := by
      simp only [Bool.or_eq_true, not_or] at hopen
      simpa using hopen.2
    split
    · exact .early
    · next hdue =>
      cases available with
      | true => exact .sent hrequest (not_lt.mp hdue) rfl rfl rfl
      | false => exact .unavailable hrequest (fault_received _ _ _)

/-- The outstanding request is the recorded one, and the armed timer is. -/
structure Owned (s : Feed) : Prop where
  request : s.request = none ∧ s.calls = [] ∨ ∃ call, s.request = some call.id ∧ s.calls = [call]
  timer : s.timers = [] ∨ ∃ timer, s.timers = [timer] ∧ s.timer = some timer.id

/-- A feed runs on a visible page, and it has a request that ends or an armed timer. -/
structure Live (s : Feed) : Prop extends Owned s where
  visible : s.running = true → s.hidden = false
  ends : ∀ call ∈ s.calls, FeedCall.ends call = true
  goesOn : s.running = true → s.calls ≠ [] ∨ s.timers ≠ []

lemma Owned.congr {s' : Feed} (h : Owned s) (hrequest : s'.request = s.request) (hcalls : s'.calls = s.calls)
    (htimer : s'.timer = s.timer) (htimers : s'.timers = s.timers) : Owned s' where
  request := by
    rw [hrequest, hcalls]
    exact h.request
  timer := by
    rw [htimer, htimers]
    exact h.timer

lemma Owned.received {s' : Feed} {call : FeedCall} (h : Owned s) (hreceived : Received s s' call) : Owned s' := by
  rw [hreceived.same]
  exact h.congr rfl rfl rfl rfl

lemma Owned.idle (h : Owned s) (hrequest : s.request = none) : s.calls = [] := by
  rcases h.request with ⟨_, hcalls⟩ | ⟨call, hid, _⟩
  · exact hcalls
  · simp [hrequest] at hid

lemma Owned.busy (h : Owned s) (hrequest : s.request.isSome = true) : s.calls ≠ [] := by
  rcases h.request with ⟨hnone, _⟩ | ⟨call, _, hcalls⟩
  · simp [hnone] at hrequest
  · simp [hcalls]

lemma Owned.clearTimer_timers (h : Owned s) : s.clearTimer.timers = [] := by
  unfold clearTimer
  rcases h.timer with htimers | ⟨timer, htimers, hid⟩
  · simp [htimers]
  · simp [htimers, hid]

lemma Owned.clearTimer (h : Owned s) : Owned s.clearTimer := ⟨h.request, .inl h.clearTimer_timers⟩

lemma Owned.updateCalls (h : Owned s) (which : FeedCall → Bool) {update : FeedCall → FeedCall}
    (hupdate : Waits update) : Owned (s.updateCalls which update) := by
  refine ⟨?_, h.timer⟩
  rcases h.request with ⟨hnone, hcalls⟩ | ⟨call, hid, hcalls⟩
  · exact .inl ⟨hnone, by simp [Feed.updateCalls, hcalls]⟩
  · refine .inr ⟨if which call then update call else call, hid.trans ?_, by simp [Feed.updateCalls, hcalls]⟩
    split
    · rw [hupdate.id]
    · rfl

lemma Live.updateCalls (h : Live s) (which : FeedCall → Bool) {update : FeedCall → FeedCall} (hupdate : Waits update) :
    Live (s.updateCalls which update) := by
  refine ⟨h.toOwned.updateCalls which hupdate, h.visible, ?_, fun hrunning => (h.goesOn hrunning).imp_left ?_⟩
  · simp only [Feed.updateCalls, List.forall_mem_map]
    intro call hcall
    split
    · exact hupdate.ends call (h.ends call hcall)
    · exact h.ends call hcall
  · simp [Feed.updateCalls]

lemma Owned.own (h : Owned s) (hrequest : s.request = none) (call : FeedCall) : Owned (s.own call) :=
  ⟨.inr ⟨call, rfl, congrArg (call :: ·) (h.idle hrequest)⟩, .inl h.clearTimer_timers⟩

lemma Owned.erase (h : Owned s) (timer : FeedTimer) : Owned { s with timers := s.timers.erase timer } := by
  refine ⟨h.request, ?_⟩
  rcases h.timer with htimers | ⟨armed, htimers, hid⟩
  · simp [htimers]
  · by_cases heq : armed = timer
    · simp [htimers, heq]
    · exact .inr ⟨armed, by simp [htimers, heq], hid⟩

lemma Owned.scheduleFeed (h : Owned s) (hvisible : s.running = true → s.hidden = false)
    (hends : ∀ call ∈ s.calls, FeedCall.ends call = true) (now : ℤ) : Live (s.scheduleFeed now) := by
  unfold Feed.scheduleFeed
  dsimp only
  split
  · next hopen =>
    have hrequest : s.request = none := Option.isNone_iff_eq_none.mp (Bool.and_eq_true_iff.mp hopen).2
    refine ⟨⟨.inl ⟨hrequest, h.idle hrequest⟩, .inr ⟨_, congrArg (_ :: ·) h.clearTimer_timers, rfl⟩⟩, hvisible, hends,
      fun _ => .inr (List.cons_ne_nil _ _)⟩
  · next hclosed =>
    refine ⟨h.clearTimer, hvisible, hends, fun hrunning => .inl (h.busy ?_)⟩
    change s.running = true at hrunning
    change ¬(s.running && !s.hidden && s.request.isNone) = true at hclosed
    simpa [hrunning, hvisible hrunning, Option.isSome_iff_ne_none] using hclosed

lemma Owned.finish (h : Owned s) (hvisible : s.running = true → s.hidden = false) {call : FeedCall}
    (hcall : call ∈ s.calls) (retryDelay : ℚ) (readings : Readings) : Live (s.finish call retryDelay readings) := by
  have herase : s.calls.erase call = [] := by
    rcases h.request with ⟨_, hcalls⟩ | ⟨only, _, hcalls⟩
    · simp [hcalls] at hcall
    · obtain rfl : call = only := by simpa [hcalls] using hcall
      simp [hcalls]
  have hover : ∀ nextCheck, Owned { s with request := none, calls := s.calls.erase call, nextCheck } :=
    fun _ => ⟨.inl ⟨rfl, herase⟩, h.timer⟩
  unfold Feed.finish
  dsimp only
  split
  · exact (hover _).scheduleFeed hvisible (by simp [herase]) _
  · exact (hover s.nextCheck).scheduleFeed hvisible (by simp [herase]) _

lemma Owned.refreshed (h : Owned s) (hvisible : s.running = true → s.hidden = false)
    (hends : ∀ call ∈ s.calls, FeedCall.ends call = true) {readings : Readings} {a : Action} {s' : Feed}
    (hs : Refreshed s readings a s') : Live s' := by
  cases hs with
  | closed hclosed => exact ⟨h, hvisible, hends, fun hrunning => .inl (h.busy (hclosed hrunning (hvisible hrunning)))⟩
  | early => exact h.scheduleFeed hvisible hends _
  | @sent call hrequest _ _ _ hcall =>
    exact ⟨h.own hrequest call, hvisible, List.forall_mem_cons.mpr ⟨hcall, hends⟩, fun _ => .inl (List.cons_ne_nil _ _)⟩
  | @unavailable call s' _ hrequest hreceived =>
    have howned := (h.own hrequest call).received hreceived
    rw [hreceived.same] at howned ⊢
    exact howned.finish hvisible List.mem_cons_self _ _

lemma Live.stopFeed (h : Live s) (hidden : Bool) (hrunning : s.running = true) :
    Live { s with hidden }.stopFeed.1 := by
  let stopped : Feed := { s.clearTimer with hidden, running := false, generation := s.generation + 1 }
  have hstopped : Live stopped := by
    refine ⟨h.toOwned.clearTimer.congr rfl rfl rfl rfl, ?_, h.ends, ?_⟩ <;> intro hstill <;> contradiction
  unfold Feed.stopFeed
  rw [if_pos hrunning]
  exact hstopped.updateCalls _ waits_abort

lemma Live.step {s' : Feed} {i : Input} {a : Action} (h : Live s) (hs : FeedStep s i a s') : Live s' := by
  cases hs with
  | @ignored hidden _ hhidden =>
    refine ⟨h.toOwned.congr rfl rfl rfl rfl, fun hrunning => ?_, h.ends, h.goesOn⟩
    have hvisible := h.visible hrunning
    exact Bool.eq_false_iff.mpr fun hidden => by simp [hhidden hrunning hidden] at hvisible
  | stopped _ hrunning => exact h.stopFeed _ hrunning
  | started =>
    have howned : Owned { s with hidden := false, running := true, generation := s.generation + 1 } :=
      h.toOwned.congr rfl rfl rfl rfl
    exact howned.refreshed (fun _ => rfl) h.ends (refreshFeed_refreshed _ _ _)
  | @fired timer => exact (h.toOwned.erase timer).refreshed h.visible h.ends (refreshFeed_refreshed _ _ _)
  | advanced hupdate => exact h.updateCalls _ hupdate
  | @settled call _ _ _ hcall _ hreceived =>
    have howned := h.toOwned.received hreceived
    rw [hreceived.same] at howned ⊢
    exact howned.finish h.visible hcall _ _

/-- What `scheduleFeed` changes. -/
structure Rescheduled (s s' : Feed) : Prop where
  same : s' = { s with timer := s'.timer, timers := s'.timers, nextId := s'.nextId }
  nextId : s.nextId ≤ s'.nextId

lemma scheduleFeed_rescheduled (s : Feed) (now : ℤ) : Rescheduled s (s.scheduleFeed now) := by
  unfold scheduleFeed
  dsimp only
  split
  · exact ⟨rfl, Nat.le_succ _⟩
  · exact ⟨rfl, le_rfl⟩

lemma finish_rescheduled (s : Feed) (call : FeedCall) (retryDelay : ℚ) (readings : Readings) :
    ∃ nextCheck, (s.current call = false → nextCheck = s.nextCheck) ∧
      Rescheduled { s with request := none, calls := s.calls.erase call, nextCheck }
        (s.finish call retryDelay readings) := by
  unfold finish
  dsimp only
  split
  · next hcurrent =>
    have hcurrent : s.current call = true := hcurrent
    exact ⟨_, by simp [hcurrent], scheduleFeed_rescheduled _ _⟩
  · exact ⟨s.nextCheck, fun _ => rfl, scheduleFeed_rescheduled _ _⟩

/-- The requests of the page with their owners. -/
def requests : Requests Feed Action where
  nextId := nextId
  generation := generation
  outstanding s := s.calls.map fun call => (call.id, call.owner)
  sent := Action.sent
  stopped a := a = .stopped

lemma updateCalls_outstanding {which : FeedCall → Bool} {update : FeedCall → FeedCall} (hupdate : Waits update)
    {request : ℕ × ℕ} (h : request ∈ requests.outstanding (s.updateCalls which update)) :
    request ∈ requests.outstanding s := by
  obtain ⟨call, hcall, rfl⟩ := List.mem_map.mp h
  obtain ⟨old, hold, rfl⟩ := List.mem_map.mp hcall
  refine List.mem_map.mpr ⟨old, hold, ?_⟩
  split
  · rw [hupdate.id, hupdate.owner]
  · rfl

lemma finish_counts {s' : Feed} {call : FeedCall} (hreceived : Received s s' call) (retryDelay : ℚ)
    (readings : Readings) : requests.Counts s .settled (s'.finish call retryDelay readings) := by
  obtain ⟨nextCheck, _, hfinish⟩ := finish_rescheduled s' call retryDelay readings
  have hid := hfinish.nextId
  rw [hreceived.same] at hfinish hid ⊢
  rw [hfinish.same]
  refine .quiet rfl (by simp [requests]) le_rfl hid fun request hrequest => ?_
  obtain ⟨other, hother, rfl⟩ := List.mem_map.mp hrequest
  exact List.mem_map_of_mem (List.mem_of_mem_erase hother)

lemma Refreshed.counts {readings : Readings} {a : Action} {s' : Feed} (hs : Refreshed s readings a s') :
    requests.Counts s a s' := by
  cases hs with
  | closed => exact .quiet rfl (by simp [requests]) le_rfl le_rfl fun _ => id
  | early =>
    have hearly := scheduleFeed_rescheduled s readings.schedule
    have hsame := hearly.same
    refine .quiet rfl (by simp [requests]) ?_ hearly.nextId ?_
    · rw [hsame]
      exact le_rfl
    · rw [hsame]
      exact fun _ => id
  | @sent call _ _ hid howner =>
    refine ⟨le_rfl, by simp [requests], Nat.le_succ _, ?_, ?_⟩
    · rintro _ ⟨⟩
      exact ⟨hid, hid ▸ Nat.lt_succ_self _⟩
    · intro request hrequest
      rcases List.mem_cons.mp hrequest with rfl | hold
      · exact .inr ⟨rfl, howner.le⟩
      · exact .inl hold
  | @unavailable call s' retryDelay _ hreceived =>
    -- The request that could not be sent is over again.
    have hcounts := finish_counts hreceived retryDelay readings
    have hcalls : ∀ request ∈ requests.outstanding (s'.finish call retryDelay readings),
        request ∈ requests.outstanding s := by
      obtain ⟨nextCheck, _, hfinish⟩ := finish_rescheduled s' call retryDelay readings
      rw [hfinish.same, hreceived.same]
      simp [requests, own]
    exact .quiet rfl (by simp [requests]) hcounts.generation ((Nat.le_succ _).trans hcounts.nextId) hcalls

lemma FeedStep.counts {s' : Feed} {i : Input} {a : Action} (hs : FeedStep s i a s') : requests.Counts s a s' := by
  cases hs with
  | ignored => exact .quiet rfl (by simp [requests]) le_rfl le_rfl fun _ => id
  | @stopped hidden _ hrunning =>
    unfold stopFeed
    rw [if_pos hrunning]
    refine ⟨Nat.le_succ _, fun _ => Nat.lt_succ_self _, le_rfl, by simp [requests, Action.sent], ?_⟩
    exact fun request hrequest => .inl (updateCalls_outstanding waits_abort hrequest)
  | started => exact (refreshFeed_refreshed _ _ _).counts.later (Nat.le_succ _) rfl rfl
  | fired => exact (refreshFeed_refreshed _ _ _).counts.later le_rfl rfl rfl
  | advanced hupdate =>
    exact .quiet rfl (by simp [requests]) le_rfl le_rfl fun _ => updateCalls_outstanding hupdate
  | settled _ _ hreceived => exact finish_counts hreceived _ _

/-- What a reader sees of the feed, what it was made from and when the next check is due. -/
def Untouched (s s' : Feed) : Prop :=
  s'.headlines = s.headlines ∧ s'.status = s.status ∧ s'.lastXml = s.lastXml ∧ s'.nextCheck = s.nextCheck

lemma FeedStep.late {s' : Feed} {i : Input} {a : Action} {request : ℕ} (hs : FeedStep s i a s')
    (hi : i.request = some request) (hlate : ∀ call ∈ s.calls, call.id = request → s.current call = false) :
    Untouched s s' := by
  cases hs with
  | ignored hnone => simp [hi] at hnone
  | stopped hnone => simp [hi] at hnone
  | started hnone => simp [hi] at hnone
  | fired hnone => simp [hi] at hnone
  | advanced => exact ⟨rfl, rfl, rfl, rfl⟩
  | @settled call s' retryDelay readings hcall hid hreceived =>
    have hover := hlate call hcall (Option.some.inj (hid.symm.trans hi))
    obtain rfl := hreceived.late hover
    obtain ⟨nextCheck, hkept, hfinish⟩ := finish_rescheduled s' call retryDelay readings
    rw [hfinish.same]
    exact ⟨rfl, rfl, rfl, hkept hover⟩

lemma refreshFeed_due {available : Bool} {readings : Readings} {request : ℕ}
    (h : (s.refreshFeed available readings).2 = .requested request) : s.nextCheck ≤ readings.check := by
  have hs := refreshFeed_refreshed s available readings
  generalize (s.refreshFeed available readings).1 = after at hs
  rw [h] at hs
  cases hs with
  | sent _ hdue => exact hdue

lemma FeedStep.due {s' : Feed} {i : Input} {request : ℕ} (hs : FeedStep s i (.requested request) s') :
    ∃ check : ℤ, i.check = some check ∧ s.nextCheck ≤ check := by
  generalize ha : Action.requested request = a at hs
  cases hs with
  | started _ hcheck =>
    have hdue := refreshFeed_due ha.symm
    exact ⟨_, hcheck, hdue⟩
  | fired _ hcheck =>
    have hdue := refreshFeed_due ha.symm
    exact ⟨_, hcheck, hdue⟩
  | _ => simp at ha

/-- One request is outstanding at most, and it is the recorded one. -/
def OneFeedRequest (s : Feed) : Prop := s.calls.length ≤ 1 ∧ ∀ call ∈ s.calls, s.request = some call.id

/-- A feed that runs on a visible page has an outstanding request, which is aborted or will be, or an armed timer,
which it knows. -/
def FeedGoesOn (s : Feed) : Prop :=
  s.running = true → s.hidden = false →
    (∃ call ∈ s.calls, FeedCall.ends call = true) ∨ ∃ timer ∈ s.timers, s.timer = some timer.id

/-- A request was sent no earlier than `feedNextCheck`. -/
def Due (entry : Feed × Input × Action) : Prop :=
  ∀ request, entry.2.2 = .requested request →
    ∃ check : ℤ, entry.2.1.check = some check ∧ entry.1.nextCheck ≤ check

/-- Where the feed was stopped between a request and the last step, which is about that request, the step has changed
nothing that is shown or remembered. -/
def LateFeedIgnored (trace : List (Feed × Input × Action)) (s : Feed) : Prop :=
  ∀ entry newer first older request, trace = entry :: (newer ++ first :: older) → first.2.2 = .requested request →
    (∃ between ∈ newer, between.2.2 = .stopped) → entry.2.1.request = some request → Untouched entry.1 s

lemma Owned.oneFeedRequest (h : Owned s) : OneFeedRequest s := by
  rcases h.request with ⟨_, hcalls⟩ | ⟨call, hid, hcalls⟩
  · simp [OneFeedRequest, hcalls]
  · simp [OneFeedRequest, hcalls, hid]

lemma Live.feedGoesOn (h : Live s) : FeedGoesOn s := by
  intro hrunning _
  rcases h.goesOn hrunning with hcalls | htimers
  · obtain ⟨call, hcall⟩ := List.exists_mem_of_ne_nil _ hcalls
    exact .inl ⟨call, hcall, h.ends call hcall⟩
  · rcases h.timer with hnone | ⟨timer, hone, hid⟩
    · exact absurd hnone htimers
    · exact .inr ⟨timer, by simp [hone], hid⟩

lemma live_of_run {hidden : Bool} {trace : List (Feed × Input × Action)}
    (h : (feedMachine parse).traced.Run (.init hidden) trace s) : Live s := by
  refine h.invariant (P := fun _ s => Live s) ?_ fun trace s i s' entry _ hlive hs => ?_
  · exact ⟨⟨.inl ⟨rfl, rfl⟩, .inl rfl⟩, by simp [init], by simp [init], by simp [init]⟩
  · obtain ⟨a, hstep, rfl⟩ := Machine.traced_step.mp hs
    exact hlive.step (feed_step hstep)

/-- On every run of the feed there is one request at most, the polling goes on while the page is visible, no request
is sent early, and a request of an earlier visibility period changes nothing. -/
theorem feed_ownership (parse : String → Option (List FeedItem)) (hidden : Bool)
    (trace : List (Feed × Input × Action)) (s : Feed) (h : (feedMachine parse).traced.Run (.init hidden) trace s) :
    OneFeedRequest s ∧ FeedGoesOn s ∧ (∀ entry ∈ trace, Due entry) ∧ LateFeedIgnored trace s := by
  have hlive := live_of_run h
  refine ⟨hlive.toOwned.oneFeedRequest, hlive.feedGoesOn, ?_, ?_⟩
  · refine h.invariant (P := fun trace _ => ∀ entry ∈ trace, Due entry) (by simp) ?_
    intro trace s i s' entry _ hdue hs
    obtain ⟨a, hstep, rfl⟩ := Machine.traced_step.mp hs
    refine List.forall_mem_cons.mpr ⟨?_, hdue⟩
    rintro request rfl
    exact (feed_step hstep).due
  · rintro entry newer first older request rfl hfirst hstopped hrequest
    obtain ⟨before, i, hrun, hs⟩ := h.last
    obtain ⟨a, hstep, rfl⟩ := Machine.traced_step.mp hs
    have hdated : requests.Dated (newer ++ first :: older) before :=
      Requests.Dated.run rfl (fun s i s' a hstep => (feed_step hstep).counts) hrun
    refine (feed_step hstep).late hrequest fun call hcall hid => ?_
    have hsent : requests.sent first.2.2 = some request := by simp [requests, hfirst, Action.sent]
    have hover := hdated.late (call.id, call.owner) (List.mem_map_of_mem hcall) newer first older rfl
      (hid ▸ hsent) hstopped
    have howner : call.owner < before.generation := hover
    simp [current, howner.ne]

/-- A request of the first visibility period whose response comes in the second one. -/
theorem feed_ownership_late : ∃ trace s, (feedMachine fun _ => none).traced.Run (.init false) trace s ∧
    s.running = true ∧ s.calls = [] ∧ OneFeedRequest s ∧ FeedGoesOn s ∧ (∀ entry ∈ trace, Due entry) ∧
    LateFeedIgnored trace s := by
  have hchecked : ((feedMachine fun _ => none).traced.exec [] (.init false)
      [.pageshow true ⟨10, 10, 10⟩, .pagehide, .pageshow true ⟨20, 20, 20⟩,
        .respond 0 503 (.finite 5) ⟨30, 30, 30⟩]).any (fun r =>
          r.2.running && decide (r.2.calls = [])) = true := by decide +kernel
  obtain ⟨⟨trace, s⟩, hexec, hboth⟩ := (Option.any_eq_true _ _).mp hchecked
  obtain ⟨hrunning, hcalls⟩ := Bool.and_eq_true_iff.mp hboth
  have hrun := Machine.run_of_exec _ hexec
  exact ⟨trace, s, hrun, hrunning, of_decide_eq_true hcalls, feed_ownership _ _ _ _ hrun⟩

end Feed

end BitcoinPriceTracker

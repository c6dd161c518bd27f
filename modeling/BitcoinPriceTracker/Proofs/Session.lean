import BitcoinPriceTracker.Model.Session
import BitcoinPriceTracker.Proofs.Answers

namespace BitcoinPriceTracker

variable {σ ι α η : Type} {C : Client σ ι α η} {P : Platform} {path : DbPath} {maxViewers : ℕ} {s s' : Session σ}
  {a : SessionAction σ ι α} {start : σ} {db : Database} {now : ℕ} {history : List (SessionAction σ ι α)}

/-- A step of the page or of the process. -/
inductive SessionStep (P : Platform) (path : DbPath) (maxViewers : ℕ) (C : Client σ ι α η) (s : Session σ) :
    SessionAction σ ι α → Session σ → Prop
  | process {input : TrackerInput} {b : TrackerAction} {t : Tracker}
      (hs : (trackerMachine P path maxViewers).step s.tracker input = some (t, b)) :
    SessionStep P path maxViewers C s ⟨none, some (s.tracker, input, b)⟩ (s.processed t input b)
  | sent {request connection : ℕ} {asked : Request} {input : TrackerInput} {b : TrackerAction} {t : Tracker}
      (hasks : C.asks s.page request = some asked) (hnew : s.sent request = none)
      (hinput : input = .request connection asked ∨ ∃ busy, input = .refuse connection busy)
      (hs : (trackerMachine P path maxViewers).step s.tracker input = some (t, b)) :
    SessionStep P path maxViewers C s ⟨none, some (s.tracker, input, b)⟩
      ({ s with sent := Function.update s.sent request (some connection) }.processed t input b)
  | page {input : ι} {b : α} {page : σ} (hs : C.machine.step s.page input = some (page, b))
      (hheard : C.heard input = true →
        ∃ part reply, s.replyTo (C.request part) = some reply ∧ input = C.hear part reply) :
    SessionStep P path maxViewers C s ⟨some (s.page, input, b), none⟩ { s with page }

lemma pageStep_step {input : ι} (h : s.pageStep C input = some (s', a))
    (hheard : C.heard input = true →
      ∃ part reply, s.replyTo (C.request part) = some reply ∧ input = C.hear part reply) :
    SessionStep P path maxViewers C s a s' := by
  obtain ⟨⟨page, b⟩, hs, heq⟩ := Option.map_eq_some_iff.mp h
  cases heq
  exact .page hs hheard

lemma sendStep_step {request connection : ℕ} {asked : Request} {input : TrackerInput}
    (hasks : C.asks s.page request = some asked)
    (hinput : input = .request connection asked ∨ ∃ busy, input = .refuse connection busy)
    (h : s.sendStep P path maxViewers request connection input = some (s', a)) :
    SessionStep P path maxViewers C s a s' := by
  unfold Session.sendStep at h
  split at h
  · next hnew =>
    obtain ⟨⟨t, b⟩, hs, heq⟩ := Option.map_eq_some_iff.mp h
    cases heq
    exact .sent hasks hnew hinput hs
  · simp at h

lemma session_step {input : SessionInput ι η} (h : (sessionMachine P path maxViewers C).step s input = some (s', a)) :
    SessionStep P path maxViewers C s a s' := by
  cases input with
  | process input =>
    obtain ⟨⟨t, b⟩, hs, heq⟩ := Option.map_eq_some_iff.mp h
    cases heq
    exact .process hs
  | page input =>
    simp only [sessionMachine] at h
    split at h
    · simp at h
    · next hheard => exact pageStep_step h fun hsome => absurd hsome hheard
  | send request connection =>
    obtain ⟨asked, hasks, hsend⟩ := Option.bind_eq_some_iff.mp h
    exact sendStep_step hasks (.inl rfl) hsend
  | refuse request connection busy =>
    obtain ⟨asked, hasks, hsend⟩ := Option.bind_eq_some_iff.mp h
    exact sendStep_step hasks (.inr ⟨busy, rfl⟩) hsend
  | hear part =>
    obtain ⟨reply, hreply, hpage⟩ := Option.bind_eq_some_iff.mp h
    exact pageStep_step hpage fun _ => ⟨part, reply, hreply, rfl⟩

/-- What the page does in a session. -/
abbrev pageTrace (history : List (SessionAction σ ι α)) : List (σ × ι × α) := history.filterMap SessionAction.page

/-- What the process does in a session. -/
abbrev trackerTrace (history : List (SessionAction σ ι α)) : TrackerTrace := history.filterMap SessionAction.tracker

/-- A session is a run of the process and a run of the page. -/
theorem session_refines (h : (sessionMachine P path maxViewers C).Run (.init start db now) history s) :
    (trackerMachine P path maxViewers).traced.Run (.init db now) (trackerTrace history) s.tracker ∧
      C.machine.traced.Run start (pageTrace history) s.page := by
  induction h with
  | init => exact ⟨.init, .init⟩
  | next _ hs ih =>
    cases session_step hs with
    | process hstep | sent _ _ _ hstep =>
      exact ⟨ih.1.next (Machine.traced_step.mpr ⟨_, hstep, rfl⟩), ih.2⟩
    | page hstep => exact ⟨ih.1, ih.2.next (Machine.traced_step.mpr ⟨_, hstep, rfl⟩)⟩

/-- The connection has been given the request, or its request has been refused. -/
def AskedOn (trace : TrackerTrace) (connection : ℕ) (request : Request) : Prop :=
  requestOn connection trace = none ∨ requestOn connection trace = some request

/-- The connection has had its request. -/
structure Used (t : Tracker) (connection : ℕ) : Prop where
  lt : connection < t.nextConnection
  busy : t.connections connection ≠ some .waiting

/-- The connection is over. -/
structure Ended (t : Tracker) (connection : ℕ) : Prop where
  lt : connection < t.nextConnection
  gone : t.connections connection = none

lemma Ended.used {t : Tracker} {connection : ℕ} (h : Ended t connection) : Used t connection :=
  ⟨h.lt, by simp [h.gone]⟩

section Connections

variable {t t' : Tracker} {input : TrackerInput} {b : TrackerAction} {trace : TrackerTrace} {connection : ℕ}

lemma HandlerStep.not_waiting {old : Handler} {new : Option Handler}
    (hs : HandlerStep P path maxViewers t connection input b old new) : new ≠ some .waiting := by
  cases hs with
  | @requested request => cases request <;> simp [Request.handler]
  | @updated payload server a =>
    intro h
    have hnew := Option.some.inj h
    unfold Tracker.afterUpdate at hnew
    repeat' split at hnew
    all_goals simp at hnew
  | @read id activeViewers i a =>
    unfold Tracker.afterRead
    repeat' split
    all_goals simp
  | @readNews reader a =>
    unfold Tracker.afterNews
    split <;> simp
  | _ => simp

variable (trace) in
lemma Used.step (h : Used t connection) (hs : (trackerMachine P path maxViewers).step t input = some (t', b)) :
    Used t' connection ∧ requestOn connection ((t, input, b) :: trace) = requestOn connection trace := by
  cases connection_step hs with
  | accepted hinput _ _ ht =>
    subst ht
    refine ⟨⟨Nat.lt_succ_of_lt h.lt, ?_⟩, requestOn_cons (by simp [hinput])⟩
    simpa [Tracker.setConnection, h.lt.ne] using h.busy
  | kept _ _ hinput hconnections hnext =>
    exact ⟨⟨hnext ▸ h.lt, hconnections ▸ h.busy⟩, requestOn_other (by simp [hinput])⟩
  | @moved moving old new hold hs hconnections hnext =>
    refine ⟨⟨hnext ▸ h.lt, ?_⟩, requestOn_cons ?_⟩
    · rw [hconnections, Function.update_apply]
      split
      · exact hs.not_waiting
      · exact h.busy
    · rintro request rfl
      obtain rfl : connection = moving := Option.some.inj hs.connection_eq
      cases hs
      exact h.busy hold

lemma Serving.used (h : Serving P trace t) {handler : Handler} (hold : t.connections connection = some handler)
    (hbusy : handler ≠ .waiting) : Used t connection where
  lt := by
    by_contra hge
    simp [(h.fresh connection (not_lt.mp hge)).2] at hold
  busy := by simpa [hold] using hbusy

lemma Serving.sent (h : Serving P trace t) {request : Request}
    (hinput : input = .request connection request ∨ ∃ busy, input = .refuse connection busy)
    (hs : (trackerMachine P path maxViewers).step t input = some (t', b)) :
    Used t' connection ∧ AskedOn ((t, input, b) :: trace) connection request := by
  have hconnection : input.connection = some connection := by
    rcases hinput with rfl | ⟨busy, rfl⟩ <;> rfl
  cases connection_step hs with
  | accepted haccept => simp [haccept, TrackerInput.connection] at hconnection
  | kept _ _ hnone => simp [hnone] at hconnection
  | @moved moving old new hold hs hconnections hnext =>
    obtain rfl : moving = connection := Option.some.inj (hs.connection_eq.symm.trans hconnection)
    have hlt : moving < t.nextConnection := by
      by_contra hge
      simp [(h.fresh moving (not_lt.mp hge)).2] at hold
    refine ⟨⟨hnext ▸ hlt, by simpa [hconnections] using hs.not_waiting⟩, ?_⟩
    rcases hinput with rfl | ⟨busy, rfl⟩
    · exact .inr (if_pos rfl)
    · left
      rw [requestOn_cons (by simp)]
      cases hs
      have hwaiting := h.handlers moving .waiting hold
      generalize requestOn moving trace = asked at hwaiting
      cases hwaiting
      rfl

lemma Ended.step (h : Ended t connection) (hs : (trackerMachine P path maxViewers).step t input = some (t', b)) :
    Ended t' connection := by
  cases connection_step hs with
  | accepted _ _ _ ht =>
    subst ht
    refine ⟨Nat.lt_succ_of_lt h.lt, ?_⟩
    simpa [Tracker.setConnection, h.lt.ne] using h.gone
  | kept _ _ _ hconnections hnext => exact ⟨hnext ▸ h.lt, hconnections ▸ h.gone⟩
  | @moved moving old new hold hs hconnections hnext =>
    have hne : connection ≠ moving := by
      rintro rfl
      simp [h.gone] at hold
    exact ⟨hnext ▸ h.lt, by rw [hconnections, Function.update_of_ne hne, h.gone]⟩

lemma Ended.of_answered {answer : Answer}
    (hs : (trackerMachine P path maxViewers).step t input = some (t', .answered connection answer))
    (hlt : connection < t.nextConnection) : Ended t' connection := by
  cases connection_step hs with
  | accepted _ hb => simp at hb
  | kept hb => exact absurd rfl (hb connection answer)
  | moved hold hs hconnections hnext =>
    obtain ⟨rfl, _, rfl⟩ := hs.of_answered
    exact ⟨hnext ▸ hlt, by rw [hconnections, Function.update_self]⟩

end Connections

/-- The `retry-after` header of an answer. -/
inductive Headed (trace : TrackerTrace) (connection : ℕ) : Option Request → Answer → Option String → Prop
  | refused (busy : Bool) : Headed trace connection none (.refused busy) (some "1")
  | deadline (request : Request) : Headed trace connection (some request) .deadline none
  | capacityReached (payload : PresencePayload) (activeViewers : ℕ) :
    Headed trace connection (some (.presence payload)) (.capacityReached activeViewers) (some "15")
  | news {t : Tracker} {reader now : ℕ} {response : News.Response} {spawned : Option ℕ}
      (hread : (t, .readNews connection, .news (.responded reader now response spawned)) ∈ trace) :
    Headed trace connection (some .news) (.news response) response.retryAfter
  | bare {request : Request} {answer : Answer} (hnews : request ≠ .news)
      (hcapacity : ∀ activeViewers, answer ≠ .capacityReached activeViewers) :
    Headed trace connection (some request) answer none

/-- The header that is written for a handler. -/
inductive Carries (trace : TrackerTrace) (connection : ℕ) (asked : Option Request) : Handler → Option String → Prop
  | answering {answer : Answer} {header : Option String} (h : Headed trace connection asked answer header) :
    Carries trace connection asked (.answering answer) header
  | busy {handler : Handler} (hbusy : ∀ answer, handler ≠ .answering answer) :
    Carries trace connection asked handler none

/-- The headers belong to the answers that the connections are about to be given. -/
structure Built (trace : TrackerTrace) (t : Tracker) (headers : ℕ → Option String) : Prop where
  handlers : ∀ connection handler, t.connections connection = some handler →
    Carries trace connection (requestOn connection trace) handler (headers connection)
  fresh : ∀ connection, t.nextConnection ≤ connection → headers connection = none

section Headers

variable {t t' : Tracker} {input : TrackerInput} {b : TrackerAction} {trace : TrackerTrace} {connection : ℕ}
  {headers : ℕ → Option String}

lemma Headed.cons {asked : Option Request} {answer : Answer} {header : Option String}
    (h : Headed trace connection asked answer header) (entry : Tracker × TrackerInput × TrackerAction) :
    Headed (entry :: trace) connection asked answer header := by
  cases h with
  | refused busy => exact .refused busy
  | deadline request => exact .deadline request
  | capacityReached payload activeViewers => exact .capacityReached payload activeViewers
  | news hread => exact .news (List.mem_cons_of_mem _ hread)
  | bare hnews hcapacity => exact .bare hnews hcapacity

lemma Carries.cons {asked : Option Request} {handler : Handler} {header : Option String}
    (h : Carries trace connection asked handler header) (entry : Tracker × TrackerInput × TrackerAction) :
    Carries (entry :: trace) connection asked handler header := by
  cases h with
  | answering h => exact .answering (h.cons entry)
  | busy hbusy => exact .busy hbusy

lemma Carries.eq_none {asked : Option Request} {handler : Handler} {header : Option String}
    (h : Carries trace connection asked handler header) (hbusy : ∀ answer, handler ≠ .answering answer) :
    header = none := by
  cases h with
  | answering => exact absurd rfl (hbusy _)
  | busy => rfl

lemma Carries.headed {asked : Option Request} {answer : Answer} {header : Option String}
    (h : Carries trace connection asked (.answering answer) header) : Headed trace connection asked answer header := by
  cases h with
  | answering h => exact h
  | busy hbusy => exact absurd rfl (hbusy answer)

lemma retryAfter_other (h : input.connection ≠ some connection) :
    Session.retryAfter headers input b connection = headers connection := by
  have hne {other : ℕ} (hother : input.connection = some other) : connection ≠ other := by
    rintro rfl
    exact h hother
  unfold Session.retryAfter
  split
  · exact Function.update_of_ne (hne rfl) _ _
  · exact Function.update_of_ne (hne rfl) _ _
  · exact Function.update_of_ne (hne rfl) _ _
  · exact Function.update_of_ne (hne rfl) _ _
  · rfl

lemma Serves.of_news {handler : Handler} (h : Serves P trace connection (some .news) handler) :
    (∃ reader, handler = .news reader) ∨ ∃ answer, handler = .answering answer := by
  cases h with
  | news reader => exact .inl ⟨reader, rfl⟩
  | answering => exact .inr ⟨_, rfl⟩
  | reading id h => cases h

lemma Serves.bare {asked : Option Request} {handler : Handler} (h : Serves P trace connection asked handler)
    (htimed : Tracker.timed handler = true) (hnews : ∀ reader, handler ≠ .news reader) {answer : Answer}
    (hcapacity : ∀ activeViewers, answer ≠ .capacityReached activeViewers) :
    Headed trace connection asked answer none := by
  obtain ⟨request, rfl⟩ := h.routed htimed
  refine .bare ?_ hcapacity
  rintro rfl
  rcases h.of_news with ⟨reader, rfl⟩ | ⟨other, rfl⟩
  · exact hnews reader rfl
  · simp [Tracker.timed] at htimed

lemma report_ne_capacityReached (status : ℕ) (body : PriceResponse) (activeViewers : ℕ) :
    (⟨status, body.toJson⟩ : Answer) ≠ .capacityReached activeViewers := by
  intro h
  simp [PriceResponse.toJson, Answer.capacityReached] at h

lemma presence_ne_capacityReached {status : ℕ} (h : status ≠ 429) (viewers : ℕ) (price : Option PriceResponse)
    (activeViewers : ℕ) : Answer.presence status viewers price ≠ .capacityReached activeViewers :=
  fun heq => h (congrArg Answer.status heq)

lemma health_ne_capacityReached (loaded : Except String StoredPriceState) (activeViewers : ℕ) :
    Answer.health loaded ≠ .capacityReached activeViewers := by
  cases loaded <;> simp [Answer.health, Answer.capacityReached]

lemma Serves.carriesUpdate {payload : PresencePayload} {a : ServerAction}
    (h : Serves P trace connection (requestOn connection trace) (.updating payload))
    (hnone : headers connection = none) :
    Carries trace connection (requestOn connection trace) (Tracker.afterUpdate payload a)
      (Session.retryAfter headers (.update connection) (.server a) connection) := by
  have hbare {answer : Answer} (hcapacity : ∀ activeViewers, answer ≠ .capacityReached activeViewers) :
      Carries trace connection (requestOn connection trace) (.answering answer) none :=
    .answering (h.bare rfl (by simp) hcapacity)
  cases a with
  | presence other now result =>
    cases result with
    | ok activeViewers =>
      change Carries _ _ _ _ (headers connection)
      rw [hnone, Tracker.afterUpdate]
      split
      · exact .busy (by simp)
      · exact hbare (presence_ne_capacityReached (by simp) _ _)
    | error activeViewers =>
      have hheader : Session.retryAfter headers (.update connection)
          (.server (.presence other now (.error activeViewers))) connection = some "15" := Function.update_self _ _ _
      rw [hheader]
      generalize requestOn connection trace = asked at h
      cases h
      exact .answering (.capacityReached payload activeViewers)
  | _ =>
    change Carries _ _ _ _ (headers connection)
    rw [hnone]
    exact hbare (presence_ne_capacityReached (by simp) _ _)

lemma Serves.carriesRead {id : ℕ} {viewers : Option ℕ} {a : ServerAction} {handler : Handler}
    (h : Serves P trace connection (requestOn connection trace) (.reading id viewers))
    (hnew : Tracker.afterRead id viewers a = some handler) :
    Carries trace connection (requestOn connection trace) handler none := by
  have hbare {answer : Answer} (hcapacity : ∀ activeViewers, answer ≠ .capacityReached activeViewers) :
      Carries trace connection (requestOn connection trace) (.answering answer) none :=
    .answering (h.bare rfl (by simp) hcapacity)
  unfold Tracker.afterRead at hnew
  split at hnew
  · split at hnew
    · obtain rfl := Option.some.inj hnew
      exact hbare (presence_ne_capacityReached (by simp) _ _)
    · obtain rfl := Option.some.inj hnew
      exact hbare (report_ne_capacityReached _ _)
  · simp at hnew
  · obtain rfl := Option.some.inj hnew
    exact .busy (by simp)

lemma Serves.built {old handler : Handler} {new : Option Handler}
    (h : Serves P trace connection (requestOn connection trace) old)
    (hold : Carries trace connection (requestOn connection trace) old (headers connection))
    (hs : HandlerStep P path maxViewers t connection input b old new) (hnew : new = some handler) :
    Carries ((t, input, b) :: trace) connection (requestOn connection ((t, input, b) :: trace)) handler
      (Session.retryAfter headers input b connection) := by
  cases hs with
  | @requested request =>
    obtain rfl := Option.some.inj hnew
    change Carries _ _ _ _ (headers connection)
    rw [hold.eq_none (by simp)]
    exact .busy (by cases request <;> simp [Request.handler])
  | @refused busy =>
    obtain rfl := Option.some.inj hnew
    have hheader : Session.retryAfter headers (.refuse connection busy) (.handled connection) connection = some "1" :=
      Function.update_self _ _ _
    rw [hheader, requestOn_cons (by simp)]
    generalize requestOn connection trace = asked at h
    cases h
    exact .answering (.refused busy)
  | updated =>
    obtain rfl := Option.some.inj hnew
    rw [requestOn_cons (by simp)]
    exact (h.carriesUpdate (hold.eq_none (by simp))).cons _
  | started =>
    obtain rfl := Option.some.inj hnew
    change Carries _ _ _ _ (headers connection)
    rw [hold.eq_none (by simp)]
    exact .busy (by simp)
  | read =>
    change Carries _ _ _ _ (headers connection)
    rw [hold.eq_none (by simp), requestOn_cons (by simp)]
    exact (h.carriesRead hnew).cons _
  | @readNews reader a =>
    obtain rfl := Option.some.inj hnew
    rw [requestOn_cons (by simp)]
    cases a with
    | responded other now response spawned =>
      have hheader : Session.retryAfter headers (.readNews connection)
          (.news (.responded other now response spawned)) connection = response.retryAfter := Function.update_self _ _ _
      rw [hheader]
      generalize requestOn connection trace = asked at h
      cases h
      exact .answering (.news List.mem_cons_self)
    | _ =>
      change Carries _ _ _ _ (headers connection)
      rw [hold.eq_none (by simp)]
      exact .busy (by simp [Tracker.afterNews])
  | checked =>
    obtain rfl := Option.some.inj hnew
    change Carries _ _ _ _ (headers connection)
    rw [hold.eq_none (by simp), requestOn_cons (by simp)]
    exact (Carries.answering (h.bare rfl (by simp) (health_ne_capacityReached _))).cons _
  | expired htimed =>
    obtain rfl := Option.some.inj hnew
    obtain ⟨request, hrequest⟩ := h.routed htimed
    have hheader : Session.retryAfter headers (.expire connection) b connection = none := Function.update_self _ _ _
    rw [hheader, requestOn_cons (by simp), hrequest]
    exact .answering (.deadline request)
  | answered | closed => simp at hnew

lemma Built.step (h : Built trace t headers) (hserving : Serving P trace t)
    (hs : (trackerMachine P path maxViewers).step t input = some (t', b)) :
    Built ((t, input, b) :: trace) t' (Session.retryAfter headers input b) := by
  have hother {other : ℕ} (hne : input.connection ≠ some other) {handler : Handler}
      (hold : t.connections other = some handler) :
      Carries ((t, input, b) :: trace) other (requestOn other ((t, input, b) :: trace)) handler
        (Session.retryAfter headers input b other) := by
    rw [requestOn_other hne, retryAfter_other hne]
    exact (h.handlers other handler hold).cons _
  cases connection_step hs with
  | accepted hinput _ _ ht =>
    subst ht hinput
    have hsame (other : ℕ) : Session.retryAfter headers .accept b other = headers other := rfl
    refine ⟨fun connection handler hhandler => ?_, fun connection hle => h.fresh connection (Nat.le_of_succ_le hle)⟩
    by_cases hnew : connection = t.nextConnection
    · subst hnew
      obtain rfl : Handler.waiting = handler := by simpa [Tracker.setConnection] using hhandler
      rw [hsame, h.fresh _ le_rfl]
      exact .busy (by simp)
    · exact hother (by simp [TrackerInput.connection]) (by simpa [Tracker.setConnection, hnew] using hhandler)
  | kept _ _ hinput hconnections hnext =>
    refine ⟨fun connection handler hhandler => hother (by simp [hinput]) (hconnections ▸ hhandler), ?_⟩
    intro connection hle
    rw [retryAfter_other (by simp [hinput])]
    exact h.fresh connection (hnext ▸ hle)
  | @moved moving old new hold hs hconnections hnext =>
    refine ⟨fun connection handler hhandler => ?_, fun connection hle => ?_⟩
    · rw [hconnections] at hhandler
      by_cases hmoving : connection = moving
      · subst hmoving
        rw [Function.update_self] at hhandler
        exact (hserving.handlers connection old hold).built (h.handlers connection old hold) hs hhandler
      · rw [Function.update_of_ne hmoving] at hhandler
        exact hother (by simpa [hs.connection_eq] using Ne.symm hmoving) hhandler
    · have hne : connection ≠ moving := by
        rintro rfl
        simp [(hserving.fresh connection (hnext ▸ hle)).2] at hold
      rw [retryAfter_other (by simpa [hs.connection_eq] using hne.symm)]
      exact h.fresh connection (hnext ▸ hle)

end Headers

/-- The requests of a client are numbered upwards, and what an open one asks for stays. -/
structure Client.Numbered (C : Client σ ι α η) (start : σ) (next : σ → ℕ) : Prop where
  lt {trace : List (σ × ι × α)} {s : σ} (h : C.machine.traced.Run start trace s) :
    ∀ request asked, C.asks s request = some asked → request < next s
  step {trace : List (σ × ι × α)} {s s' : σ} {i : ι} {a : α} (h : C.machine.traced.Run start trace s)
    (hs : C.machine.step s i = some (s', a)) :
    next s ≤ next s' ∧ ∀ request asked, C.asks s' request = some asked →
      C.asks s request = some asked ∨ next s ≤ request

/-- Each request has a connection of its own, which is answered for it. -/
structure Linked (P : Platform) (C : Client σ ι α η) (next : σ → ℕ) (trace : TrackerTrace) (s : Session σ) : Prop where
  old : ∀ request connection, s.sent request = some connection → request < next s.page
  used : ∀ request connection, s.sent request = some connection → Used s.tracker connection
  asked : ∀ request asked, C.asks s.page request = some asked → ∀ connection, s.sent request = some connection →
    AskedOn trace connection asked
  built : Built trace s.tracker s.headers
  replies : ∀ connection reply, s.replies connection = some reply → Ended s.tracker connection ∧
    Answers P trace connection (requestOn connection trace) reply.answer ∧
    Headed trace connection (requestOn connection trace) reply.answer reply.retryAfter

variable {next : σ → ℕ}

lemma Linked.process {trace : TrackerTrace} {t : Tracker} {input : TrackerInput} {b : TrackerAction}
    (h : Linked P C next trace s) (hserving : Serving P trace s.tracker)
    (hs : (trackerMachine P path maxViewers).step s.tracker input = some (t, b)) :
    Linked P C next ((s.tracker, input, b) :: trace) (s.processed t input b) where
  old := h.old
  used request connection hsent := ((h.used request connection hsent).step trace hs).1
  asked request asked hasks connection hsent := by
    have hsame := ((h.used request connection hsent).step trace hs).2
    unfold AskedOn
    rw [hsame]
    exact h.asked request asked hasks connection hsent
  built := h.built.step hserving hs
  replies connection reply hreply := by
    have hold (hsome : s.replies connection = some reply) : Ended t connection ∧
        Answers P ((s.tracker, input, b) :: trace) connection
          (requestOn connection ((s.tracker, input, b) :: trace)) reply.answer ∧
        Headed ((s.tracker, input, b) :: trace) connection (requestOn connection ((s.tracker, input, b) :: trace))
          reply.answer reply.retryAfter := by
      obtain ⟨hended, hanswers, hheaded⟩ := h.replies connection reply hsome
      rw [(hended.used.step trace hs).2]
      exact ⟨hended.step hs, hanswers.cons _, hheaded.cons _⟩
    cases b with
    | answered other given =>
      simp only [Session.processed, Session.replied, Function.update_apply] at hreply
      split at hreply
      · next heq =>
        subst heq
        obtain rfl := Option.some.inj hreply
        have hanswering := answering_of_step hs
        have hused := hserving.used hanswering (by simp)
        have hbuilt := h.built.handlers connection _ hanswering
        have hserves := hserving.handlers connection _ hanswering
        rw [(hused.step trace hs).2]
        generalize requestOn connection trace = asked at hserves hbuilt
        cases hserves with
        | answering hanswers => exact ⟨.of_answered hs hused.lt, hanswers.cons _, hbuilt.headed.cons _⟩
      · exact hold hreply
    | _ => exact hold hreply

lemma Linked.step (hnumbered : C.Numbered start next) (h : Linked P C next (trackerTrace history) s)
    (hrun : (sessionMachine P path maxViewers C).Run (.init start db now) history s)
    (hs : SessionStep P path maxViewers C s a s') : Linked P C next (trackerTrace (a :: history)) s' := by
  obtain ⟨htracker, hpage⟩ := session_refines hrun
  have hserving := Serving.run htracker
  cases hs with
  | process hs => exact h.process hserving hs
  | @sent request connection asked input b t hasks hnew hinput hs =>
    have hkept := h.process hserving hs
    obtain ⟨hused, hasked⟩ := hserving.sent hinput hs
    refine ⟨fun other taken hsent => ?_, fun other taken hsent => ?_, fun other wanted hwanted taken hsent => ?_,
      hkept.built, hkept.replies⟩
    · simp only [Session.processed, Function.update_apply] at hsent
      split at hsent
      · next heq => exact heq ▸ hnumbered.lt hpage request asked hasks
      · exact h.old other taken hsent
    · simp only [Session.processed, Function.update_apply] at hsent
      split at hsent
      · obtain rfl := Option.some.inj hsent
        exact hused
      · exact hkept.used other taken hsent
    · simp only [Session.processed, Function.update_apply] at hsent
      split at hsent
      · next heq =>
        subst heq
        obtain rfl := Option.some.inj hsent
        obtain rfl : asked = wanted := Option.some.inj (hasks.symm.trans hwanted)
        exact hasked
      · exact hkept.asked other wanted hwanted taken hsent
  | @page input b page hs =>
    obtain ⟨hle, hkept⟩ := hnumbered.step hpage hs
    refine ⟨fun request connection hsent => (h.old request connection hsent).trans_le hle, h.used,
      fun request asked hasks connection hsent => ?_, h.built, h.replies⟩
    rcases hkept request asked hasks with hold | hnew
    · exact h.asked request asked hold connection hsent
    · have hlt := h.old request connection hsent
      omega

theorem Linked.run (hnumbered : C.Numbered start next)
    (h : (sessionMachine P path maxViewers C).Run (.init start db now) history s) :
    Linked P C next (trackerTrace history) s := by
  refine h.invariant (P := fun history s => Linked P C next (trackerTrace history) s) ?_ ?_
  · exact ⟨by simp [Session.init], by simp [Session.init], by simp [Session.init],
      ⟨fun connection handler hhandler => by simp [Session.init, Tracker.init] at hhandler, fun _ _ => rfl⟩,
      by simp [Session.init]⟩
  · intro history s i s' a hrun ih hs
    exact ih.step hnumbered hrun (session_step hs)

/-- A reply to a request. -/
def RepliesTo (P : Platform) (trace : TrackerTrace) (asked : Request) (reply : Reply) : Prop :=
  ∃ connection routed, (routed = none ∨ routed = some asked) ∧ Answers P trace connection routed reply.answer ∧
    Headed trace connection routed reply.answer reply.retryAfter

lemma RepliesTo.cons {trace : TrackerTrace} {asked : Request} {reply : Reply} (h : RepliesTo P trace asked reply)
    (entry : Tracker × TrackerInput × TrackerAction) : RepliesTo P (entry :: trace) asked reply := by
  obtain ⟨connection, routed, hrouted, hanswers, hheaded⟩ := h
  exact ⟨connection, routed, hrouted, hanswers.cons entry, hheaded.cons entry⟩

lemma Linked.reply {trace : TrackerTrace} (h : Linked P C next trace s) {request : ℕ} {asked : Request} {reply : Reply}
    (hasks : C.asks s.page request = some asked) (hreply : s.replyTo request = some reply) :
    RepliesTo P trace asked reply := by
  obtain ⟨connection, hsent, hreplied⟩ := Option.bind_eq_some_iff.mp hreply
  obtain ⟨_, hanswers, hheaded⟩ := h.replies connection reply hreplied
  exact ⟨connection, _, h.asked request asked hasks connection hsent, hanswers, hheaded⟩

/-- A request has one reply. -/
lemma Linked.replyTo_step (h : Linked P C next (trackerTrace history) s) (hs : SessionStep P path maxViewers C s a s')
    {request : ℕ} {reply : Reply} (hreply : s.replyTo request = some reply) : s'.replyTo request = some reply := by
  obtain ⟨connection, hsent, hreplied⟩ := Option.bind_eq_some_iff.mp hreply
  have hended := (h.replies connection reply hreplied).1
  have hkept {input : TrackerInput} {b : TrackerAction} {t : Tracker}
      (hs : (trackerMachine P path maxViewers).step s.tracker input = some (t, b)) :
      Session.replied s.headers s.replies b connection = some reply := by
    cases b with
    | answered other given =>
      have hne : connection ≠ other := by
        rintro rfl
        have hanswering := answering_of_step hs
        simp [hended.gone] at hanswering
      exact (Function.update_of_ne hne _ _).trans hreplied
    | _ => exact hreplied
  cases hs with
  | process hs => exact Option.bind_eq_some_iff.mpr ⟨connection, hsent, hkept hs⟩
  | @sent other _ _ _ _ _ _ hnew _ hs =>
    have hne : request ≠ other := by
      rintro rfl
      simp [hnew] at hsent
    exact Option.bind_eq_some_iff.mpr ⟨connection, (Function.update_of_ne hne _ _).trans hsent, hkept hs⟩
  | page => exact hreply

/-- What a step hears is a part of a reply to its request. -/
def Genuine (P : Platform) (C : Client σ ι α η) (trace : TrackerTrace) (entry : σ × ι × α) : Prop :=
  C.heard entry.2.1 = true → ∃ part reply, entry.2.1 = C.hear part reply ∧
    ∀ asked, C.asks entry.1 (C.request part) = some asked → RepliesTo P trace asked reply

lemma Genuine.cons {trace : TrackerTrace} {entry : σ × ι × α} (h : Genuine P C trace entry)
    (step : Tracker × TrackerInput × TrackerAction) : Genuine P C (step :: trace) entry := by
  intro hheard
  obtain ⟨part, reply, hinput, hreplies⟩ := h hheard
  exact ⟨part, reply, hinput, fun asked hasks => (hreplies asked hasks).cons step⟩

theorem genuine_run (hnumbered : C.Numbered start next)
    (h : (sessionMachine P path maxViewers C).Run (.init start db now) history s) :
    ∀ entry ∈ pageTrace history, Genuine P C (trackerTrace history) entry := by
  induction h with
  | init => simp
  | @next history s s' i a hrun hs ih =>
    cases session_step hs with
    | process | sent => exact fun entry hentry => (ih entry hentry).cons _
    | @page input b page hstep hheard =>
      refine List.forall_mem_cons.mpr ⟨fun hsome => ?_, ih⟩
      obtain ⟨part, reply, hreply, hinput⟩ := hheard hsome
      exact ⟨part, reply, hinput, fun asked hasks => (Linked.run hnumbered hrun).reply hasks hreply⟩

end BitcoinPriceTracker

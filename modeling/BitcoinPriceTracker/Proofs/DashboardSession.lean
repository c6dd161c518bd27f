import BitcoinPriceTracker.Proofs.PageMemory
import BitcoinPriceTracker.Proofs.PollingCadence
import BitcoinPriceTracker.Proofs.Session

namespace BitcoinPriceTracker

namespace Polling

variable {s s' : Polling} {i : Input} {a : Action} {poll : Poll}

lemma updatePolls_ids {which : Poll → Bool} {update : Poll → Poll} (hupdate : Keeps update) :
    (s.updatePolls which update).polls.map Poll.id = s.polls.map Poll.id := by
  rw [updatePolls, List.map_map]
  refine List.map_congr_left fun poll _ => ?_
  simp only [Function.comp_apply]
  split
  · exact hupdate.id poll
  · rfl

lemma poll_ids (kind : PollKind) (includePrice : Bool) :
    (s.poll kind includePrice).1.polls = s.polls ∨
      ∃ new : Poll, new.id = s.nextId ∧ (s.poll kind includePrice).1.polls = new :: s.polls := by
  unfold Polling.poll
  split
  · exact .inl rfl
  · exact .inr ⟨_, rfl, rfl⟩

/-- The requests of `s'` were there in `s`, with what they ask for. -/
structure Fewer (s s' : Polling) : Prop where
  ids : (s'.polls.map Poll.id).Sublist (s.polls.map Poll.id)
  asks : ∀ poll ∈ s'.polls, ∃ old ∈ s.polls, old.id = poll.id ∧ ∀ sessionId, old.asks sessionId = poll.asks sessionId

lemma Fewer.of_eq (h : s'.polls = s.polls) : Fewer s s' where
  ids := by rw [h]
  asks poll hpoll := ⟨poll, h ▸ hpoll, rfl, fun _ => rfl⟩

lemma Fewer.of_update {which : Poll → Bool} {update : Poll → Poll} (hupdate : Keeps update)
    (h : s'.polls = (s.updatePolls which update).polls) : Fewer s s' where
  ids := by rw [h, updatePolls_ids hupdate]
  asks poll hpoll := by
    obtain ⟨old, hold, rfl⟩ := List.mem_map.mp (h ▸ hpoll)
    refine ⟨old, hold, ?_⟩
    split
    · exact ⟨(hupdate.id old).symm, fun sessionId => by
        simp only [Poll.asks, hupdate.kind old, hupdate.includePrice old]⟩
    · exact ⟨rfl, fun _ => rfl⟩

lemma PollingStep.requests (hs : PollingStep s i a s') :
    (∃ new : Poll, new.id = s.nextId ∧ s'.polls = new :: s.polls) ∨ Fewer s s' := by
  cases hs with
  | ignored | startThrows | startBusy | startupOver | startupArms => exact .inr (.of_eq rfl)
  | started => exact (poll_ids (s := s.begun) .presence true).symm.imp_right .of_eq
  | @fired timer =>
    exact (poll_ids (s := { s with timers := s.timers.erase timer }) timer.kind false).symm.imp_right .of_eq
  | @startupPolls startup =>
    exact (poll_ids (s := { s with startups := s.startups.erase startup }) .price false).symm.imp_right .of_eq
  | stopped _ hrunning =>
    obtain ⟨which, hpolls⟩ := stop_polls hrunning
    exact .inr (.of_update keeps_abort hpolls)
  | advanced hupdate => exact .inr (.of_update hupdate rfl)
  | failed _ _ hreceived | received _ hreceived =>
    refine .inr ⟨?_, fun poll hpoll => ?_⟩
    · rw [finish_polls, hreceived.polls]
      exact List.erase_sublist.map _
    · rw [finish_polls, hreceived.polls] at hpoll
      exact ⟨poll, List.mem_of_mem_erase hpoll, rfl, fun _ => rfl⟩

lemma nodup_run {trace : List (Polling × Input × Action)} (h : pollingMachine.traced.Run .init trace s) :
    (s.polls.map Poll.id).Nodup := by
  induction h with
  | init => exact List.nodup_nil
  | @next trace s s' i entry hrun hs ih =>
    obtain ⟨a, hstep, rfl⟩ := Machine.traced_step.mp hs
    rcases (polling_step hstep).requests with ⟨new, hid, hpolls⟩ | hfewer
    · rw [hpolls, List.map_cons, List.nodup_cons]
      refine ⟨fun hmem => ?_, ih⟩
      obtain ⟨poll, hpoll, heq⟩ := List.mem_map.mp hmem
      exact ((owned_of_run hrun).fresh poll hpoll).ne (heq.trans hid)
    · exact hfewer.ids.nodup ih

lemma findPoll_of_mem (hnodup : (s.polls.map Poll.id).Nodup) (hpoll : poll ∈ s.polls) :
    s.findPoll poll.id = some poll := by
  cases hfound : s.findPoll poll.id with
  | none => simpa using List.find?_eq_none.mp hfound poll hpoll
  | some other =>
    obtain ⟨hother, hid⟩ := findPoll_eq_some hfound
    rw [List.inj_on_of_nodup_map hnodup hother hpoll hid]

lemma numbered (sessionId : String) : (client sessionId).Numbered .init Polling.nextId where
  lt h request asked hasks := by
    obtain ⟨poll, hfound, _⟩ := Option.map_eq_some_iff.mp hasks
    obtain ⟨hpoll, rfl⟩ := findPoll_eq_some hfound
    exact (owned_of_run h).fresh poll hpoll
  step h hs := by
    have hstep := polling_step hs
    refine ⟨hstep.counts.nextId, fun request asked hasks => ?_⟩
    obtain ⟨poll, hfound, rfl⟩ := Option.map_eq_some_iff.mp hasks
    obtain ⟨hpoll, rfl⟩ := findPoll_eq_some hfound
    have hold {old : Poll} (hold : old ∈ _) (hid : old.id = poll.id)
        (hsame : old.asks sessionId = poll.asks sessionId) :
        (client sessionId).asks _ poll.id = some (poll.asks sessionId) :=
      Option.map_eq_some_iff.mpr ⟨old, hid ▸ findPoll_of_mem (nodup_run h) hold, hsame⟩
    rcases hstep.requests with ⟨new, hid, hpolls⟩ | hfewer
    · rcases List.mem_cons.mp (hpolls ▸ hpoll) with rfl | hmem
      · exact .inr hid.ge
      · exact .inl (hold hmem rfl rfl)
    · obtain ⟨old, hmem, hid, hasks⟩ := hfewer.asks poll hpoll
      exact .inl (hold hmem hid (hasks sessionId))

end Polling

variable {P : Platform} {path : DbPath} {maxViewers : ℕ} {sessionId : String} {s : Session Polling} {db : Database}
  {start : ℕ} {history : List (SessionAction Polling Polling.Input Polling.Action)}

/-- A report that the process has made. -/
def Made (trace : TrackerTrace) (body : PriceResponse) : Prop :=
  ∃ before i id status, (before, i, .server (.responded id status body)) ∈ trace

lemma Made.cons {trace : TrackerTrace} {body : PriceResponse} (h : Made trace body)
    (entry : Tracker × TrackerInput × TrackerAction) : Made (entry :: trace) body := by
  obtain ⟨before, i, id, status, hmem⟩ := h
  exact ⟨before, i, id, status, List.mem_cons_of_mem _ hmem⟩

lemma error_report (status : ℕ) (text : String) : validate (Answer.error status text).body = none ∧
    (Answer.error status text).body.get "price" = none := ⟨rfl, rfl⟩

lemma Answers.report {trace : TrackerTrace} {connection : ℕ} {answer : Answer} {poll : Poll} {report : Json}
    {asked : Option Request} (h : Answers P trace connection asked answer)
    (hasked : asked = none ∨ asked = some (poll.asks sessionId)) (hreport : poll.report answer.body = some report) :
    (∃ body, Made trace body ∧ report = body.toJson) ∨ poll.kind = .price ∧ validate report = none := by
  have herror (status : ℕ) (text : String) (hbody : answer.body = (Answer.error status text).body) :
      poll.kind = .price ∧ validate report = none := by
    rw [hbody] at hreport
    unfold Poll.report at hreport
    split at hreport
    · rw [(error_report status text).2] at hreport
      simp at hreport
    · next hkind =>
      obtain rfl := Option.some.inj hreport
      exact ⟨hkind, (error_report status text).1⟩
  have hpresence {payload : PresencePayload} (heq : Request.presence payload = poll.asks sessionId) :
      poll.kind = .presence ∧ payload = ⟨sessionId, true, poll.includePrice⟩ := by
    unfold Poll.asks at heq
    split at heq
    · next hkind => exact ⟨hkind, Request.presence.inj heq⟩
    · simp at heq
  cases h with
  | @refused _ busy =>
    cases busy with
    | false => exact .inr (herror _ _ rfl)
    | true => exact .inr (herror _ _ rfl)
  | deadline => exact .inr (herror _ _ rfl)
  | @price t i id status body hread =>
    have heq : Request.price = poll.asks sessionId := by simpa using hasked
    unfold Poll.asks at heq
    split at heq
    · simp at heq
    · next hkind =>
      have hbody : poll.report body.toJson = some body.toJson := by simp [Poll.report, hkind]
      obtain rfl := Option.some.inj (hbody.symm.trans hreport)
      exact .inl ⟨body, ⟨t, _, id, status, hread⟩, rfl⟩
  | @heartbeat _ payload _ _ hprice =>
    obtain ⟨hkind, rfl⟩ := hpresence (by simpa using hasked)
    simp only [Bool.true_and] at hprice
    simp [Poll.report, hkind, hprice] at hreport
  | @startup _ t payload _ activeViewers i id status body _ _ hread =>
    obtain ⟨hkind, rfl⟩ := hpresence (by simpa using hasked)
    have hbody : (Answer.presence 200 activeViewers (some body)).body.get "price" = some body.toJson := rfl
    have hsome : poll.report (Answer.presence 200 activeViewers (some body)).body = some report := hreport
    unfold Poll.report at hsome
    simp only [hkind, hbody] at hsome
    split at hsome
    · obtain rfl := Option.some.inj (Option.filter_eq_some_iff.mp hsome).1
      exact .inl ⟨body, ⟨t, _, id, status, hread⟩, rfl⟩
    · simp at hsome
  | @capacityReached _ payload _ activeViewers =>
    obtain ⟨hkind, rfl⟩ := hpresence (by simpa using hasked)
    have hbody : (Answer.capacityReached activeViewers).body.get "price" = none := rfl
    simp [Poll.report, hkind, hbody] at hreport
  | badSession =>
    obtain ⟨hkind, rfl⟩ := hpresence (by simpa using hasked)
    have hbody : (Answer.presence 400 0 none).body.get "price" = none := rfl
    simp [Poll.report, hkind, hbody] at hreport
  | news | health =>
    exfalso
    rcases hasked with hnone | hsome
    · simp at hnone
    · unfold Poll.asks at hsome
      split at hsome <;> simp at hsome

/-- The body that a step reads has a report of the process, or none that a price request accepts. -/
def Vouched (trace : TrackerTrace) : Polling × Polling.Input × Polling.Action → Prop
  | (page, .body request content _, _) => ∀ poll ∈ page.polls, poll.id = request →
      ∀ report, content.bind poll.report = some report →
        (∃ body, Made trace body ∧ report = body.toJson) ∨ poll.kind = .price ∧ validate report = none
  | _ => True

lemma Genuine.vouched {trace : TrackerTrace} {entry : Polling × Polling.Input × Polling.Action}
    (hnodup : (entry.1.polls.map Poll.id).Nodup) (h : Genuine P (Polling.client sessionId) trace entry) :
    Vouched trace entry := by
  obtain ⟨page, i, b⟩ := entry
  cases i with
  | body request content now =>
    obtain ⟨part, reply, hinput, hreplies⟩ := h rfl
    cases part with
    | headers => cases hinput
    | body other time =>
      cases hinput
      rintro poll hpoll rfl report hreport
      obtain ⟨connection, routed, hrouted, hanswers, _⟩ := hreplies (poll.asks sessionId)
        (Option.map_eq_some_iff.mpr ⟨poll, Polling.findPoll_of_mem hnodup hpoll, rfl⟩)
      exact hanswers.report hrouted hreport
  | _ => trivial

theorem vouched_run
    (h : (sessionMachine P path maxViewers (Polling.client sessionId)).Run (.init .init db start) history s) :
    ∀ entry ∈ pageTrace history, Vouched (trackerTrace history) entry := by
  intro entry hentry
  have hgenuine := genuine_run (Polling.numbered sessionId) h entry hentry
  obtain ⟨newer, older, hsplit⟩ := List.append_of_mem hentry
  have hpage := (session_refines h).2
  rw [hsplit] at hpage
  obtain ⟨before, i, after, hbefore, hs, _⟩ := hpage.event
  obtain ⟨a, _, rfl⟩ := Machine.traced_step.mp hs
  exact hgenuine.vouched (Polling.nodup_run hbefore)

lemma Vouched.accepted {trace : TrackerTrace} {page : Polling} {request : ℕ} {content : Option Json} {now : ℚ}
    {b : Polling.Action} {poll : Poll} {report : Json} {data : DashboardData}
    (h : Vouched trace (page, .body request content now, b)) (hfound : page.findPoll request = some poll)
    (hreport : content.bind poll.report = some report) (haccepted : poll.accepted report = some data) :
    ∃ body, Made trace body ∧ report = body.toJson := by
  obtain ⟨hpoll, hid⟩ := Polling.findPoll_eq_some hfound
  rcases h poll hpoll hid report hreport with hmade | ⟨_, hrejected⟩
  · exact hmade
  · simp [Polling.accepted_validate haccepted] at hrejected

lemma made_presentable
    (h : (sessionMachine P path maxViewers (Polling.client sessionId)).Run (.init .init db start) history s)
    {body : PriceResponse} (hmade : Made (trackerTrace history) body) : ∃ status, Presentable status body := by
  obtain ⟨before, i, id, status, hmem⟩ := hmade
  have hresponded : .responded id status body ∈
      ((trackerTrace history).map fun entry => entry.2.2).filterMap serverView :=
    List.mem_filterMap.mpr ⟨.server (.responded id status body), List.mem_map.mpr ⟨_, hmem, rfl⟩, rfl⟩
  exact ⟨status, responded_presentable (tracker_refines (session_refines h).1.untraced) hresponded⟩

/-- The reports that the page has accepted are the server's. -/
lemma reports_made
    (h : (sessionMachine P path maxViewers (Polling.client sessionId)).Run (.init .init db start) history s)
    {report : Polling.Report} (hreport : report ∈ Polling.reports (Polling.heard (pageTrace history))) :
    ∃ body, Made (trackerTrace history) body ∧ report.body = body.toJson ∧ report.data = body.received := by
  obtain ⟨page, request, content, b, poll, hentry, hfound, _, hbody, haccepted⟩ := Polling.reported_entry hreport
  obtain ⟨body, hmade, heq⟩ := (vouched_run h _ hentry).accepted hfound hbody haccepted
  obtain ⟨status, hpresentable⟩ := made_presentable h hmade
  have hvalid := Polling.accepted_validate haccepted
  rw [heq, hpresentable.accepted] at hvalid
  exact ⟨body, hmade, heq, (Option.some.inj hvalid).symm⟩

lemma reports_strong
    (h : (sessionMachine P path maxViewers (Polling.client sessionId)).Run (.init .init db start) history s)
    {report : Polling.Report} (hreport : report ∈ Polling.reports (Polling.heard (pageTrace history))) :
    report.unavailable = true ∨ report.hasQuotes = true := by
  obtain ⟨body, hmade, _, hdata⟩ := reports_made h hreport
  obtain ⟨status, hpresentable⟩ := made_presentable h hmade
  by_cases hempty : body.sources = []
  · left
    simp [Polling.Report.unavailable, hdata, PriceResponse.received, hpresentable.unavailable hempty, PriceStatus.text]
  · right
    simpa [Polling.Report.hasQuotes, hdata, PriceResponse.received] using hempty

lemma Vouched.displayable {trace : TrackerTrace} {entry : Polling × Polling.Input × Polling.Action}
    (h : Vouched trace entry) : Polling.Displayable entry := by
  obtain ⟨page, i, b⟩ := entry
  cases i with
  | body request content now =>
    intro poll hpoll hid _ report data hreport haccepted _
    rcases h poll hpoll hid report hreport with ⟨body, _, rfl⟩ | ⟨_, hrejected⟩
    · exact renderThrows_toJson body
    · simp [Polling.accepted_validate haccepted] at hrejected
  | _ => trivial

lemma not_startupRejected
    (h : (sessionMachine P path maxViewers (Polling.client sessionId)).Run (.init .init db start) history s) :
    .startupRejected ∉ Polling.heard (pageTrace history) := by
  intro hmem
  obtain ⟨⟨page, i, b⟩, hentry, hheard⟩ := List.mem_flatMap.mp hmem
  obtain ⟨request, content, now, rfl, poll, hfound, hkind, report, hreport, hrejected⟩ :=
    Polling.startupRejected_entry hheard
  obtain ⟨hpoll, hid⟩ := Polling.findPoll_eq_some hfound
  rcases vouched_run h _ hentry poll hpoll hid report hreport with ⟨body, hmade, rfl⟩ | ⟨hprice, _⟩
  · obtain ⟨status, hpresentable⟩ := made_presentable h hmade
    simp [Poll.accepted, hkind, hpresentable.accepted] at hrejected
  · simp [hkind] at hprice

lemma made_of_lastData
    (h : (sessionMachine P path maxViewers (Polling.client sessionId)).Run (.init .init db start) history s)
    {data : DashboardData} (hlast : s.page.page.lastData = some data) :
    ∃ body, Made (trackerTrace history) body ∧ s.page.body = some body.toJson ∧ data = body.received := by
  have hmemory := Polling.memory_run (session_refines h).2
  obtain ⟨hkeptData, hkeptBody, _⟩ := Polling.remembered_data (Polling.heard (pageTrace history))
  obtain ⟨report, hkept, rfl⟩ :=
    Option.map_eq_some_iff.mp (hkeptData.symm.trans ((congrArg Polling.Memory.lastData hmemory).symm.trans hlast))
  obtain ⟨later, earlier, hsplit, _⟩ := Polling.kept_latest hkept
  obtain ⟨body, hmade, hbody, hreceived⟩ := reports_made h (hsplit ▸ List.mem_append_right later List.mem_cons_self)
  refine ⟨body, hmade, ?_, hreceived⟩
  rw [show s.page.body = _ from (congrArg Polling.Memory.body hmemory).trans hkeptBody, hkept, Option.map_some, hbody]

/-- A page, its server, other clients and the network in any order, on any database. The page has one request for each
worker at most, and neither loop dies; what it shows is a report that this server has made, the first heartbeat is never
at fault, and once it has quotes it never loses them. -/
theorem session_law (P : Platform) (path : DbPath) (maxViewers : ℕ) (sessionId : String) {db : Database} {start : ℕ}
    {history : List (SessionAction Polling Polling.Input Polling.Action)} {s : Session Polling}
    (h : (sessionMachine P path maxViewers (Polling.client sessionId)).Run (.init .init db start) history s) :
    s.page.OneRequest ∧ s.page.NoLoopDies ∧
    (∀ data, s.page.page.lastData = some data →
      ∃ body, Made (trackerTrace history) body ∧ s.page.body = some body.toJson ∧ data = body.received) ∧
    s.page.page.priceError ≠ "Startup price unavailable. Retrying automatically." ∧
    ∀ newer s', (sessionMachine P path maxViewers (Polling.client sessionId)).Run s newer s' →
      s.page.page.lastData.any (fun last => !last.sources.isEmpty) = true →
        s'.page.page.lastData.any (fun last => !last.sources.isEmpty) = true := by
  have hpage := (session_refines h).2
  have howned := Polling.owned_of_run hpage
  have hlive := Polling.live_of_displayable hpage fun entry hentry => (vouched_run h entry hentry).displayable
  have hmemory := Polling.memory_run hpage
  refine ⟨fun kind => ?_, fun hrunning => ?_, fun data hlast => ?_, fun herror => ?_, fun newer s' hnewer hquotes => ?_⟩
  · rw [howned.one]
    split <;> omega
  · exact ⟨howned.goesOn (hlive.presence hrunning), (hlive.price hrunning).imp_left howned.goesOn⟩
  · exact made_of_lastData h hlast
  · have hstartup := (congrArg Polling.Memory.priceError hmemory).symm.trans herror
    exact not_startupRejected h (Polling.remembered_startup hstartup)
  · have hwhole := h.trans hnewer
    have hlater := congrArg Polling.Memory.lastData (Polling.memory_run (session_refines hwhole).2)
    have hquotes : (Polling.kept (Polling.heard (pageTrace history))).any Polling.Report.hasQuotes = true := by
      rw [← Polling.remembered_quotes, ← hmemory]
      exact hquotes
    change (s'.page.memory.lastData.any fun last => !last.sources.isEmpty) = true
    rw [hlater, Polling.remembered_quotes]
    have hreports : Polling.reports (Polling.heard (pageTrace (newer ++ history))) =
        Polling.reports (Polling.heard (pageTrace newer)) ++ Polling.reports (Polling.heard (pageTrace history)) := by
      simp only [Polling.reports, Polling.heard, pageTrace, List.filterMap_append, List.flatMap_append]
    rw [Polling.kept, hreports]
    refine Retention.keep_strong (fun report hreport => ?_) hquotes
    exact reports_strong hwhole (hreports ▸ List.mem_append_left _ hreport)

/-- The first heartbeat of a page, and its answer. -/
def firstHeartbeat : List (SessionInput Polling.Input Polling.Part) :=
  [.process .accept, .page (.pageshow false), .send 0 0, .process (.update 0), .process (.start 0),
    .process (.read 0 (.load 0 [])), .process (.read 0 (.count 0 910)), .process (.read 0 (.copyReport 0)),
    .process (.read 0 (.decide 0)), .process (.read 0 (.loadGeneration 0)), .process (.read 0 (.begin 0)),
    .process (.read 0 (.spawn 0)), .process (.read 0 (.respond 0)), .process (.answer 0), .hear (.headers 0),
    .hear (.body 0 0)]

/-- The price request after it fails. -/
def failedPrice : List (SessionInput Polling.Input Polling.Part) :=
  [.page (.startup ⟨1, some 1000⟩), .page (.fire 2), .page (.fail 3)]

def Polling.shownSources (page : Polling) : List String :=
  (page.page.lastData.map fun data => data.sources.map DashboardSource.source).getD []

/-- The heartbeat brings the stored quotes, and they stay on the page when the next request fails. -/
theorem session_law_first_heartbeat : ∃ history s data newer s',
    (sessionMachine .plain ⟨none, "tracker.db"⟩ 1 (Polling.client "0f8fad5b-d9cb-469f-a165-70867728950e")).Run
      (.init .init (.current storedTables seededHealth) 0) history s ∧ s.page.page.lastData = some data ∧
      data.sources.map DashboardSource.source = ["Coinbase", "Kraken"] ∧
      (∃ body, Made (trackerTrace history) body ∧ data = body.received) ∧
      (sessionMachine .plain ⟨none, "tracker.db"⟩ 1 (Polling.client "0f8fad5b-d9cb-469f-a165-70867728950e")).Run
        s newer s' ∧ s'.page.page.priceError ≠ "" ∧
      s'.page.page.lastData.any (fun last => !last.sources.isEmpty) = true := by
  have hchecked : ((sessionMachine .plain ⟨none, "tracker.db"⟩ 1
      (Polling.client "0f8fad5b-d9cb-469f-a165-70867728950e")).exec []
      (.init .init (.current storedTables seededHealth) 0) firstHeartbeat).any (fun r =>
        r.2.page.shownSources = ["Coinbase", "Kraken"] &&
        ((sessionMachine .plain ⟨none, "tracker.db"⟩ 1
          (Polling.client "0f8fad5b-d9cb-469f-a165-70867728950e")).exec [] r.2 failedPrice).any fun r' =>
            r'.2.page.page.priceError ≠ "") = true := by
    decide +kernel
  obtain ⟨⟨history, s⟩, hexec, hshown⟩ := (Option.any_eq_true _ _).mp hchecked
  simp only [Bool.and_eq_true, decide_eq_true_eq] at hshown
  obtain ⟨hsources, hlater⟩ := hshown
  obtain ⟨⟨newer, s'⟩, hexec', herror⟩ := (Option.any_eq_true _ _).mp hlater
  have hrun := Machine.run_of_exec _ hexec
  have hnewer := Machine.run_of_exec _ hexec'
  obtain ⟨_, _, hmade, _, hkept⟩ := session_law .plain _ 1 _ hrun
  unfold Polling.shownSources at hsources
  cases hdata : s.page.page.lastData with
  | none => simp [hdata] at hsources
  | some data =>
    rw [hdata, Option.map_some, Option.getD_some] at hsources
    obtain ⟨body, hbody, _, heq⟩ := hmade data hdata
    refine ⟨history, s, data, newer, s', hrun, hdata, hsources, ⟨body, hbody, heq⟩, hnewer, of_decide_eq_true herror,
      hkept newer s' hnewer ?_⟩
    rw [hdata, Option.any_some, Bool.not_eq_true', List.isEmpty_eq_false_iff]
    rintro hempty
    simp [hempty] at hsources

end BitcoinPriceTracker

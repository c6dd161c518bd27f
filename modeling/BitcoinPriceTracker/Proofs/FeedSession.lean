import BitcoinPriceTracker.Proofs.FeedMemory
import BitcoinPriceTracker.Proofs.FetchedBatch
import BitcoinPriceTracker.Proofs.NewsCache
import BitcoinPriceTracker.Proofs.Session

namespace BitcoinPriceTracker

variable {P : Platform} {path : DbPath} {maxViewers : ℕ}

/-- The step of the news in a step of the process. -/
def newsView : Tracker × TrackerInput × TrackerAction → Option News.Action
  | (_, .advance now, _) => some (.advanced now)
  | (_, _, .news a) => some a
  | _ => none

/-- What the news have done in a run of the process. -/
def newsHistory (trace : TrackerTrace) : List News.Action := trace.filterMap newsView

lemma newsHistory_cons (entry : Tracker × TrackerInput × TrackerAction) (trace : TrackerTrace) :
    ∃ later, newsHistory (entry :: trace) = later ++ newsHistory trace := by
  refine ⟨(newsView entry).toList, ?_⟩
  rw [newsHistory, List.filterMap_cons]
  cases newsView entry <;> rfl

section Process

variable {t t' : Tracker} {input : TrackerInput} {b : TrackerAction}

/-- The step of the news machine that an action shows. -/
def NewsStep (s s' : News.State) : Option News.Action → Prop
  | none => s' = s
  | some a => ∃ i, News.machine.step s i = some (s', a)

lemma dropHandler_news {connection : ℕ} {left : Option Handler} {handler : Handler}
    (hinput : ∀ b, newsView (t, input, b) = newsView (t, .drained, b))
    (h : t.dropHandler (serverMachine P path maxViewers).step connection left handler = some (t', b)) :
    NewsStep t.news t'.news (newsView (t, input, b)) := by
  rw [hinput]
  cases handler with
  | reading id =>
    obtain ⟨⟨server, a⟩, _, heq⟩ := Option.map_eq_some_iff.mp h
    cases heq
    exact rfl
  | news reader =>
    obtain ⟨⟨news, a⟩, hs, heq⟩ := Option.map_eq_some_iff.mp h
    cases heq
    exact ⟨_, hs⟩
  | starting => cases h
  | _ =>
    cases h
    exact rfl

lemma route_news {connection : ℕ} {request : Request} (h : t.route connection request = some (t', b)) :
    NewsStep t.news t'.news (newsView (t, .request connection request, b)) := by
  unfold Tracker.route at h
  cases request with
  | news =>
    obtain ⟨⟨news, a⟩, hs, heq⟩ := Option.map_eq_some_iff.mp h
    cases heq
    exact ⟨_, hs⟩
  | _ =>
    cases h
    exact rfl

lemma tracker_news (h : (trackerMachine P path maxViewers).step t input = some (t', b)) :
    NewsStep t.news t'.news (newsView (t, input, b)) := by
  cases input with
  | advance now =>
    obtain ⟨⟨server, a⟩, _, hnews⟩ := Option.bind_eq_some_iff.mp h
    obtain ⟨⟨news, c⟩, hs, heq⟩ := Option.map_eq_some_iff.mp hnews
    cases heq
    have hadvanced := hs
    simp only [News.machine] at hadvanced
    split at hadvanced <;> cases hadvanced
    exact ⟨_, hs⟩
  | request =>
    simp only [trackerMachine] at h
    split at h
    · exact route_news h
    · cases h
  | readNews | newsWork =>
    simp only [trackerMachine] at h
    split at h
    · obtain ⟨⟨news, a⟩, hs, heq⟩ := Option.map_eq_some_iff.mp h
      cases heq
      exact ⟨_, hs⟩
    · cases h
  | expire connection =>
    obtain ⟨handler, _, hdrop⟩ := Option.bind_eq_some_iff.mp h
    split at hdrop
    · exact dropHandler_news (fun b => by cases b <;> rfl) hdrop
    · cases hdrop
  | close connection =>
    obtain ⟨handler, _, hdrop⟩ := Option.bind_eq_some_iff.mp h
    exact dropHandler_news (fun b => by cases b <;> rfl) hdrop
  | update | start | work | shutdown =>
    simp only [trackerMachine] at h
    split at h
    · obtain ⟨⟨server, a⟩, _, heq⟩ := Option.map_eq_some_iff.mp h
      cases heq
      exact rfl
    · cases h
  | read =>
    simp only [trackerMachine] at h
    split at h
    · split at h
      · obtain ⟨⟨server, a⟩, _, heq⟩ := Option.map_eq_some_iff.mp h
        cases heq
        exact rfl
      · cases h
    · cases h
  | accept | refuse | check | answer | drained | drainTimeout | lock | lockTimeout =>
    simp only [trackerMachine] at h
    split at h <;> cases h
    exact rfl

/-- What the news do in a run of the process is a run of the news. -/
theorem news_refines {db : Database} {start : ℕ} {trace : TrackerTrace}
    (h : (trackerMachine P path maxViewers).traced.Run (.init db start) trace t) :
    News.machine.Run (.init start) (newsHistory trace) t.news := by
  induction h with
  | init => exact .init
  | @next trace t t' input entry _ hs ih =>
    obtain ⟨b, hstep, rfl⟩ := Machine.traced_step.mp hs
    have hnews := tracker_news hstep
    cases hview : newsView (t, input, b) with
    | none =>
      rw [hview] at hnews
      rw [newsHistory, List.filterMap_cons_none hview]
      exact (show t'.news = t.news from hnews) ▸ ih
    | some a =>
      rw [hview] at hnews
      obtain ⟨i, hs⟩ := hnews
      rw [newsHistory, List.filterMap_cons_some hview]
      exact ih.next hs

end Process

namespace Feed

variable {parse : String → Option (List FeedItem)} {hidden : Bool} {db : Database} {start : ℕ}
  {history : List (SessionAction Feed Input Action)} {s s' : Session Feed} {a : SessionAction Feed Input Action}

lemma asks_of_mem {page : Feed} {call : FeedCall} (h : call ∈ page.calls) :
    (client parse).asks page call.id = some .news := by
  have hsome : (page.findCall call.id).isSome = true := List.find?_isSome.mpr ⟨call, h, by simp⟩
  obtain ⟨found, hfound⟩ := Option.isSome_iff_exists.mp hsome
  exact Option.map_eq_some_iff.mpr ⟨found, hfound, rfl⟩

lemma numbered (parse : String → Option (List FeedItem)) (hidden : Bool) :
    (client parse).Numbered (.init hidden) nextId where
  lt h request asked hasks := by
    obtain ⟨call, hfound, _⟩ := Option.map_eq_some_iff.mp hasks
    obtain ⟨hcall, rfl⟩ := findCall_eq_some hfound
    have hdated : requests.Dated _ _ := Requests.Dated.run rfl (fun s i s' a hs => (feed_step hs).counts) h
    exact hdated.lt (call.id, call.owner) (List.mem_map_of_mem hcall)
  step h hs := by
    have hcounts := (feed_step hs).counts
    refine ⟨hcounts.nextId, fun request asked hasks => ?_⟩
    obtain ⟨call, hfound, rfl⟩ := Option.map_eq_some_iff.mp hasks
    obtain ⟨hcall, rfl⟩ := findCall_eq_some hfound
    rcases hcounts.outstanding (call.id, call.owner) (List.mem_map_of_mem hcall) with hold | ⟨hsent, _⟩
    · obtain ⟨old, hmem, heq⟩ := List.mem_map.mp hold
      rw [← (Prod.mk.inj heq).1]
      exact .inl (asks_of_mem hmem)
    · exact .inr (hcounts.sent call.id hsent).1.ge

/-- A call that waits for its body has had the headers of its reply. -/
def Staged (s : Session Feed) : Prop :=
  ∀ call ∈ s.page.calls, call.stage = .headers ∨ ∃ reply, s.replyTo call.id = some reply ∧
    responseOk reply.answer.status = true ∧
    call.stage = .body (headerDelay reply.answer.status (headerNumber reply.retryAfter))

lemma Staged.step (h : Staged s) (hlinked : Linked P (client parse) nextId (trackerTrace history) s)
    (hs : SessionStep P path maxViewers (client parse) s a s') : Staged s' := by
  have hreplies {request : ℕ} {reply : Reply} (hreply : s.replyTo request = some reply) :
      s'.replyTo request = some reply := hlinked.replyTo_step hs hreply
  have hkept {call old : FeedCall} (hold : old ∈ s.page.calls) (hid : old.id = call.id)
      (hstage : old.stage = call.stage) : call.stage = .headers ∨ ∃ reply, s'.replyTo call.id = some reply ∧
        responseOk reply.answer.status = true ∧
        call.stage = .body (headerDelay reply.answer.status (headerNumber reply.retryAfter)) := by
    rw [← hid, ← hstage]
    exact (h old hold).imp_right fun ⟨reply, hreply, hrest⟩ => ⟨reply, hreplies hreply, hrest⟩
  intro call hcall
  cases hs with
  | process | sent => exact hkept hcall rfl rfl
  | page hs hheard =>
    rcases stage_step hs with hsame | ⟨request, status, retryAfter, readings, rfl, hok, hcalls⟩
    · rcases hsame call hcall with hnew | ⟨old, hmem, hid, hstage⟩
      · exact .inl hnew
      · exact hkept hmem hid hstage
    · obtain ⟨part, reply, hreply, hinput⟩ := hheard rfl
      cases part with
      | body => cases hinput
      | headers =>
        cases hinput
        rcases hcalls call hcall with ⟨old, hmem, hid, hstage⟩ | ⟨rfl, hstage⟩
        · exact hkept hmem hid hstage
        · exact .inr ⟨reply, hreply, hok, hstage⟩

lemma Staged.run (h : (sessionMachine P path maxViewers (client parse)).Run (.init (.init hidden) db start) history s) :
    Staged s := by
  refine h.invariant (P := fun _ s => Staged s) ?_ fun history s i s' a hrun ih hs => ?_
  · simp [Staged, Session.init, Feed.init]
  · exact ih.step (Linked.run (numbered parse hidden) hrun) (session_step hs)

/-- The delay that a reply asks for: a refusal, the time limit, or a read of the cache. -/
inductive Means (news : List News.Action) (reply : Reply) : ℚ → Prop
  | refused (hbad : responseOk reply.answer.status = false) : Means news reply 1000
  | late (hbad : responseOk reply.answer.status = false) : Means news reply 300000
  | read {newer older : List News.Action} {reader now : ℕ} {response : News.Response} {spawned : Option ℕ}
      (hnews : news = newer ++ .responded reader now response spawned :: older)
      (hanswer : reply.answer = .news response) :
    Means news reply (if News.inFlight (.responded reader now response spawned :: older) then 2000 else 300000)

lemma headerDelay_refused (busy : Bool) : responseOk (Answer.refused busy).status = false ∧
    headerDelay (Answer.refused busy).status (headerNumber (some "1")) = 1000 := by
  have hone : headerNumber (some "1") = .finite 1 := by simp [headerNumber]
  cases busy <;> norm_num [hone, headerDelay, Answer.refused, Answer.error, responseOk]

lemma headerDelay_deadline : responseOk Answer.deadline.status = false ∧
    headerDelay Answer.deadline.status (headerNumber none) = 300000 := by
  norm_num [headerNumber, headerDelay, Answer.deadline, Answer.error, responseOk]

lemma headerDelay_news {older : List News.Action} {reader now : ℕ} {response : News.Response} {spawned : Option ℕ}
    (h : News.Served older reader now response spawned) :
    headerDelay (Answer.news response).status (headerNumber response.retryAfter) =
      if News.inFlight (.responded reader now response spawned :: older) then 2000 else 300000 := by
  have htwo : headerNumber (some "2") = .finite 2 := by simp [headerNumber]
  have hzero : headerNumber none = .finite 0 := rfl
  have hstatus : (Answer.news response).status = if response.body.xml.isSome then 200 else 503 := h.status
  rw [hstatus, h.retryAfter, ← h.refreshing]
  cases response.body.refreshing <;> cases response.body.xml <;> norm_num [htwo, hzero, headerDelay, responseOk]

lemma served_of_split {t : Tracker} {trace : TrackerTrace}
    (hrun : (trackerMachine P path maxViewers).traced.Run (.init db start) trace t) {newer older : List News.Action}
    {reader now : ℕ} {response : News.Response} {spawned : Option ℕ}
    (hsplit : newsHistory trace = newer ++ .responded reader now response spawned :: older) :
    News.Served older reader now response spawned := by
  have hnews := news_refines hrun
  rw [hsplit] at hnews
  exact News.served_of_run hnews

lemma means_of_repliesTo {t : Tracker} {trace : TrackerTrace} {reply : Reply}
    (hrun : (trackerMachine P path maxViewers).traced.Run (.init db start) trace t)
    (h : RepliesTo P trace .news reply) :
    Means (newsHistory trace) reply (headerDelay reply.answer.status (headerNumber reply.retryAfter)) := by
  obtain ⟨answer, retryAfter⟩ := reply
  obtain ⟨connection, routed, hrouted, _, hheaded⟩ := h
  cases hheaded with
  | refused busy =>
    obtain ⟨hbad, hdelay⟩ := headerDelay_refused busy
    exact hdelay ▸ .refused hbad
  | deadline =>
    obtain ⟨hbad, hdelay⟩ := headerDelay_deadline
    exact hdelay ▸ .late hbad
  | capacityReached => simp at hrouted
  | bare hnews => exact absurd (by simpa using hrouted) hnews
  | news hread =>
    obtain ⟨newer, older, hsplit⟩ := List.append_of_mem (List.mem_filterMap.mpr ⟨_, hread, rfl⟩ :
      .responded _ _ _ _ ∈ newsHistory trace)
    have hdelay := headerDelay_news (served_of_split hrun hsplit)
    exact hdelay ▸ .read hsplit rfl

/-- A word of the page: an attempt that has brought nothing, a refusal, or what a read of the cache has answered. -/
inductive Brought (news : List News.Action) : Word → Prop
  | nothing {settled : ℤ} : Brought news ⟨none, 300000, settled⟩
  | refused {settled : ℤ} : Brought news ⟨none, 1000, settled⟩
  | read {newer older : List News.Action} {reader now : ℕ} {response : News.Response} {spawned : Option ℕ}
      {data : Option (String × Json)} {settled : ℤ}
      (hnews : news = newer ++ .responded reader now response spawned :: older)
      (hdata : ∀ taken, data = some taken → response.body.xml = some taken.1 ∧ taken.2 = (Answer.news response).body) :
    Brought news
      ⟨data, if News.inFlight (.responded reader now response spawned :: older) then 2000 else 300000, settled⟩

lemma Brought.append {news : List News.Action} {w : Word} (h : Brought news w) (later : List News.Action) :
    Brought (later ++ news) w := by
  cases h with
  | nothing => exact .nothing
  | refused => exact .refused
  | read hnews hdata =>
    subst hnews
    rw [← List.append_assoc]
    exact .read rfl hdata

lemma Means.brought {news : List News.Action} {reply : Reply} {delay : ℚ} (h : Means news reply delay) (settled : ℤ) :
    Brought news ⟨none, delay, settled⟩ := by
  cases h with
  | refused => exact .refused
  | late => exact .nothing
  | read hnews => exact .read hnews (by simp)

lemma Means.of_ok {news : List News.Action} {reply : Reply} {delay : ℚ} (h : Means news reply delay)
    (hok : responseOk reply.answer.status = true) :
    ∃ newer older reader now response spawned, news = newer ++ .responded reader now response spawned :: older ∧
      reply.answer = .news response ∧
      delay = if News.inFlight (.responded reader now response spawned :: older) then 2000 else 300000 := by
  cases h with
  | refused hbad | late hbad => simp [hok] at hbad
  | read hnews hanswer => exact ⟨_, _, _, _, _, _, hnews, hanswer, rfl⟩

lemma news_refreshing (response : News.Response) :
    ((Answer.news response).body.get "refreshing").any Json.truthy = response.body.refreshing := rfl

lemma news_stale (response : News.Response) :
    ((Answer.news response).body.get "stale").any Json.truthy = response.body.stale := rfl

lemma news_xml (response : News.Response) :
    ((Answer.news response).body.get "xml").bind Json.asStr = response.body.xml := by
  have hget : (Answer.news response).body.get "xml" = some (Json.optional .string response.body.xml) := rfl
  rw [hget]
  cases response.body.xml <;> rfl

lemma brought_body {t : Tracker} {trace : TrackerTrace}
    (hrun : (trackerMachine P path maxViewers).traced.Run (.init db start) trace t) {call : FeedCall} {reply : Reply}
    (hmeans : Means (newsHistory trace) reply call.stage.retryDelay) (hok : responseOk reply.answer.status = true)
    (settled : ℤ) : Brought (newsHistory trace) (bodyWord parse call reply.answer.body settled) := by
  unfold bodyWord
  split
  · exact hmeans.brought settled
  · obtain ⟨newer, older, reader, now, response, spawned, hnews, hanswer, hdelay⟩ := hmeans.of_ok hok
    have hrefreshing := (served_of_split hrun hnews).refreshing
    have hword (flying : Bool) : (if flying then 2000 else if flying then 2000 else 300000 : ℚ) =
        if flying then 2000 else 300000 := by cases flying <;> rfl
    rw [hanswer, news_refreshing, hrefreshing, hdelay, hword]
    refine .read hnews fun taken htaken => ?_
    obtain ⟨_, hdata, hxml⟩ := takenOver_headlines htaken
    exact ⟨(news_xml response).symm.trans hxml, hdata⟩

lemma brought_step (h : (sessionMachine P path maxViewers (client parse)).Run (.init (.init hidden) db start) history s)
    {page : Feed} {i : Input} {b : Action} (hs : (feedMachine parse).step s.page i = some (page, b))
    (hheard : i.heard = true → ∃ part reply, s.replyTo (Part.request part) = some reply ∧ i = Part.heard part reply)
    {w : Word} (hw : word parse (s.page, i, b) = some w) : Brought (newsHistory (trackerTrace history)) w := by
  have hrun := (session_refines h).1
  have hstaged := Staged.run h
  have hmeans {call : FeedCall} {reply : Reply} (hcall : call ∈ s.page.calls)
      (hreply : s.replyTo call.id = some reply) : Means (newsHistory (trackerTrace history)) reply
        (headerDelay reply.answer.status (headerNumber reply.retryAfter)) :=
    means_of_repliesTo hrun ((Linked.run (numbered parse hidden) h).reply (asks_of_mem hcall) hreply)
  cases i with
  | visibilitychange | pageshow | fire =>
    cases b with
    | settled =>
      obtain rfl := Option.some.inj hw
      exact .nothing
    | _ => cases hw
  | pagehide | deadline => cases hw
  | respond request status retryAfter readings =>
    cases b with
    | settled =>
      obtain ⟨call, hfind, rfl⟩ := Option.map_eq_some_iff.mp hw
      obtain ⟨hcall, rfl⟩ := findCall_eq_some (Option.filter_eq_some_iff.mp hfind).1
      obtain ⟨part, reply, hreply, hinput⟩ := hheard rfl
      cases part with
      | body => cases hinput
      | headers =>
        cases hinput
        split
        · exact .nothing
        · exact (hmeans hcall hreply).brought _
    | _ => cases hw
  | body request data readings =>
    obtain ⟨call, hfind, rfl⟩ := Option.map_eq_some_iff.mp hw
    have hfound := (Option.filter_eq_some_iff.mp hfind).1
    obtain ⟨hcall, rfl⟩ := findCall_eq_some hfound
    obtain ⟨part, reply, hreply, hinput⟩ := hheard rfl
    cases part with
    | headers => cases hinput
    | body =>
      cases hinput
      obtain ⟨waiting, hwaiting, _⟩ := Option.map_eq_some_iff.mp hs
      obtain ⟨hsame, hstage⟩ := Option.filter_eq_some_iff.mp hwaiting
      obtain rfl : call = waiting := Option.some.inj (hfound.symm.trans hsame)
      -- The body is read only after the headers of the same reply, which have set the delay of the call.
      rcases hstaged call hcall with hheaders | ⟨other, hother, hok, hdelay⟩
      · simp [hheaders] at hstage
      · obtain rfl : other = reply := Option.some.inj (hother.symm.trans hreply)
        refine brought_body hrun ?_ hok readings.settle
        rw [hdelay]
        exact hmeans hcall hreply
  | fail request readings =>
    obtain ⟨call, hfind, rfl⟩ := Option.map_eq_some_iff.mp hw
    obtain ⟨hcall, rfl⟩ := findCall_eq_some (Option.filter_eq_some_iff.mp hfind).1
    -- A failure before the headers leaves the delay of five minutes, a later one the delay that they have set.
    rcases hstaged call hcall with hheaders | ⟨reply, hreply, _, hdelay⟩
    · rw [hheaders]
      exact .nothing
    · rw [hdelay]
      exact (hmeans hcall hreply).brought _

theorem brought_run
    (h : (sessionMachine P path maxViewers (client parse)).Run (.init (.init hidden) db start) history s) :
    ∀ w ∈ words parse (pageTrace history), Brought (newsHistory (trackerTrace history)) w := by
  induction h with
  | init => simp [words]
  | @next history s s' i a hrun hs ih =>
    cases session_step hs with
    | process | sent =>
      -- Nothing is heard in such a step, and the cache may have answered more.
      intro w hw
      obtain ⟨later, hlater⟩ := newsHistory_cons _ (trackerTrace history)
      have happended := (ih w hw).append later
      exact hlater ▸ happended
    | @page input b page hstep hheard =>
      intro w hw
      have hwords : words parse (pageTrace (⟨some (s.page, input, b), none⟩ :: history)) =
          (word parse (s.page, input, b)).toList ++ words parse (pageTrace history) := words_cons _ _
      rcases List.mem_append.mp (hwords ▸ hw) with hnew | hold
      · exact brought_step hrun hstep hheard (Option.mem_toList.mp hnew)
      · exact ih w hold

/-- The text for the headlines of a cache with this history. -/
def newsText (news : List News.Action) : String :=
  if News.inFlight news then "Bitcoin.com · Refreshing cached headlines"
  else if (News.completions news).head?.any fun completion => completion.2.toOption.isNone then
    "Bitcoin.com · Cached headlines — refresh temporarily unavailable"
  else "Bitcoin.com · RSS · Updates every 5 minutes"

lemma shownStatus_news {older : List News.Action} {reader now : ℕ} {response : News.Response} {spawned : Option ℕ}
    (h : News.Served older reader now response spawned) :
    shownStatus (Answer.news response).body = newsText (.responded reader now response spawned :: older) := by
  unfold shownStatus newsText
  rw [news_refreshing, news_stale, ← h.refreshing]
  cases hrefreshing : response.body.refreshing with
  | true => rfl
  | false =>
    obtain ⟨checkedAt, result, rest, hcompletions, _, hstale⟩ := h.settled hrefreshing
    have hsame : News.completions (.responded reader now response spawned :: older) = (checkedAt, result) :: rest :=
      hcompletions
    rw [hsame, hstale]
    rfl

/-- The page, its server, other clients and the network in any order. Each attempt of the page brings what the cache has
answered, a refusal or nothing, and its delay is two seconds where a refresh was in flight. The headlines are of a body
that a refresh of this server has brought; where the last attempt has brought them, they are those of the last one that
had succeeded, and the status line says what the cache said: a refresh in flight, or how the last one has ended, within
five minutes before. -/
theorem feed_session_law (P : Platform) (path : DbPath) (maxViewers : ℕ) (parse : String → Option (List FeedItem))
    (hidden : Bool) {db : Database} {start : ℕ} {history : List (SessionAction Feed Input Action)} {s : Session Feed}
    (h : (sessionMachine P path maxViewers (client parse)).Run (.init (.init hidden) db start) history s) :
    (∀ w ∈ words parse (pageTrace history), Brought (newsHistory (trackerTrace history)) w) ∧
    (∀ xml, s.page.lastXml = some xml → xml ∈ News.bodies (newsHistory (trackerTrace history))) ∧
    ∀ w earlier, words parse (pageTrace history) = w :: earlier → s.page.nextCheck = w.settled + w.delay ∧
      ∀ data, w.data = some data → ∃ newer older reader now response spawned,
        newsHistory (trackerTrace history) = newer ++ .responded reader now response spawned :: older ∧
        s.page.lastXml = (News.bodies older).head? ∧
        s.page.status = newsText (.responded reader now response spawned :: older) ∧
        (News.inFlight (.responded reader now response spawned :: older) = false →
          ∃ completion ∈ (News.completions older).head?, now < completion.1 + Duration.fromSecs 300) := by
  obtain ⟨htracker, hpage⟩ := session_refines h
  have htold := Told.run hpage
  have hbrought := brought_run h
  refine ⟨hbrought, fun xml hxml => ?_, fun w earlier hwords => ⟨?_, fun data hdata => ?_⟩⟩
  · obtain ⟨w, hw, hfound⟩ := List.exists_of_findSome?_eq_some (htold.lastXml.symm.trans hxml)
    obtain ⟨data, hdata, rfl⟩ := Option.map_eq_some_iff.mp hfound
    cases hbrought w hw with
    | nothing | refused => cases hdata
    | read hnews htaken =>
      have hserved := served_of_split htracker hnews
      have hlast := hserved.xml.symm.trans (htaken data hdata).1
      rw [hnews]
      obtain ⟨later, hlater⟩ := News.bodies_append _ _
      rw [hlater]
      exact List.mem_append_right later (List.mem_of_mem_head? hlast)
  · have hcheck := htold.nextCheck
    rwa [hwords] at hcheck
  · have hxml := htold.lastXml
    have hstatus := htold.status
    rw [hwords] at hxml hstatus
    rw [List.findSome?_cons, hdata] at hxml
    cases hbrought w (hwords ▸ List.mem_cons_self) with
    | nothing | refused => cases hdata
    | @read newer older reader now response spawned _ _ hnews htaken =>
      have hserved := served_of_split htracker hnews
      obtain ⟨hbody, hanswer⟩ := htaken data hdata
      refine ⟨newer, older, reader, now, response, spawned, hnews, ?_, ?_, fun hflight => ?_⟩
      · exact hxml.trans (hbody.symm.trans hserved.xml)
      · rw [hstatus, List.head?_cons, Option.elim_some, ← shownStatus_news hserved, ← hanswer]
        simp only at hdata
        simp only [Word.status, hdata]
      · obtain ⟨checkedAt, result, rest, hcompletions, hrecent, _⟩ := hserved.settled (hserved.refreshing.trans hflight)
        exact ⟨(checkedAt, result), by simp [hcompletions], hrecent⟩

/-- An attempt that the middleware refuses, one that finds no feed, and one that finds it. -/
def threeAttempts : List (SessionInput Input Part) :=
  [.process .accept, .process .accept, .process .accept, .page (.pageshow true ⟨0, 0, 0⟩), .refuse 0 0 false,
    .process (.answer 0), .hear (.headers 0 ⟨0, 0, 0⟩), .page (.fire 1 true ⟨1000, 1000, 1000⟩), .send 2 1,
    .process (.readNews 1), .process (.answer 1), .hear (.headers 2 ⟨1010, 1010, 1010⟩),
    .process (.newsWork (.fetched 1 (.ok feedText))), .process (.newsWork (.settle 1)),
    .page (.fire 3 true ⟨3010, 3010, 3010⟩), .send 4 2, .process (.readNews 2), .process (.answer 2),
    .hear (.headers 4 ⟨3020, 3020, 3020⟩), .hear (.body 4 ⟨3030, 3030, 3030⟩)]

/-- The page asks again after one second and after two, and shows the feed of the last refresh then. -/
theorem feed_session_law_three_attempts : ∃ history s newer older reader now response spawned,
    (sessionMachine .plain ⟨none, "tracker.db"⟩ 1 (client twoHeadlines)).Run
      (.init (.init false) (.current storedTables seededHealth) 0) history s ∧
    (words twoHeadlines (pageTrace history)).map Word.delay = [300000, 2000, 1000] ∧
    s.page.headlines.map Headline.title = ["A", "B"] ∧
    newsHistory (trackerTrace history) = newer ++ .responded reader now response spawned :: older ∧
    s.page.lastXml = (News.bodies older).head? ∧
    s.page.status = newsText (.responded reader now response spawned :: older) := by
  have hchecked : ((sessionMachine .plain ⟨none, "tracker.db"⟩ 1 (client twoHeadlines)).exec []
      (.init (.init false) (.current storedTables seededHealth) 0) threeAttempts).any (fun r =>
        (words twoHeadlines (pageTrace r.1)).map Word.delay = [300000, 2000, 1000] &&
        r.2.page.headlines.map Headline.title = ["A", "B"] &&
        (words twoHeadlines (pageTrace r.1)).head?.any fun w => w.data.isSome) = true := by
    decide +kernel
  obtain ⟨⟨history, s⟩, hexec, hshown⟩ := (Option.any_eq_true _ _).mp hchecked
  simp only [Bool.and_eq_true, decide_eq_true_eq] at hshown
  obtain ⟨⟨hdelays, htitles⟩, hword⟩ := hshown
  obtain ⟨w, hhead, hdata⟩ := (Option.any_eq_true _ _).mp hword
  obtain ⟨data, hdata⟩ := Option.isSome_iff_exists.mp hdata
  obtain ⟨earlier, hwords⟩ := List.head?_eq_some_iff.mp hhead
  have hrun := Machine.run_of_exec _ hexec
  obtain ⟨newer, older, reader, now, response, spawned, hnews, hxml, hstatus, _⟩ :=
    ((feed_session_law _ _ _ _ _ hrun).2.2 w earlier hwords).2 data hdata
  exact ⟨history, s, newer, older, reader, now, response, spawned, hrun, hdelays, htitles, hnews, hxml, hstatus⟩

end Feed

end BitcoinPriceTracker

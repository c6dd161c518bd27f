import BitcoinPriceTracker.Model.Polling
import BitcoinPriceTracker.Proofs.CleanShutdown
import BitcoinPriceTracker.Proofs.HandlerSteps
import BitcoinPriceTracker.Proofs.LocalAgeing
import BitcoinPriceTracker.Proofs.RefreshNotices

namespace BitcoinPriceTracker

/-- What a reader of the price relies on. -/
structure Presentable (status : ℕ) (body : PriceResponse) : Prop where
  accepted : validate body.toJson = some body.received
  code : status = 200 ∧ body.sources ≠ [] ∨ (status = 500 ∨ status = 503) ∧ body.sources = []
  unavailable : body.sources = [] → body.status = .unavailable

lemma shownRow_mem {rows : List Json} {name : String} {row : Json} (h : Json.shownRow rows name = some row) :
    row ∈ rows := by
  have hsorted := List.mem_of_head? h
  rw [List.mem_insertionSort] at hsorted
  exact List.mem_of_mem_filter hsorted

lemma failureMessage_toJson {health : ProviderHealth} {message : Json}
    (h : Json.failureMessage health.toJson = some message) : message.textThrows = false := by
  obtain ⟨source, attempt⟩ := health
  cases attempt with
  | unknown =>
    have hnone : Json.failureMessage (ProviderHealth.toJson ⟨source, .unknown⟩) = none := rfl
    simp [hnone] at h
  | success attemptedAtUnix =>
    have hnone : Json.failureMessage (ProviderHealth.toJson ⟨source, .success attemptedAtUnix⟩) = none := rfl
    simp [hnone] at h
  | failure attemptedAtUnix error =>
    have hsome : Json.failureMessage (ProviderHealth.toJson ⟨source, .failure attemptedAtUnix error⟩) =
        some (.string error.message) := rfl
    rw [hsome] at h
    obtain rfl := Option.some.inj h
    rfl

lemma renderThrows_toJson (response : PriceResponse) : response.toJson.renderThrows = false := by
  let body := response.toJson
  have hrows : body.entriesOf "sources" = response.sources.map SourceResponse.toJson := rfl
  have hrecords : body.entriesOf "provider_health" = response.providerHealth.map ProviderHealth.toJson := rfl
  have hwarnings : body.entriesOf "warnings" = response.warnings.map .string := rfl
  have hviewers : body.get "active_viewers" = some (.integer response.activeViewers) := rfl
  change body.renderThrows = false
  simp only [Json.renderThrows, hrows, hrecords, hwarnings, hviewers, Bool.or_eq_false_iff, List.any_eq_false,
    Bool.not_eq_true]
  refine ⟨⟨rfl, fun name _ => ⟨?_, ?_⟩⟩, fun warning hwarning => ?_⟩
  · cases hrow : Json.shownRow (response.sources.map SourceResponse.toJson) name with
    | none => rfl
    | some row =>
      obtain ⟨source, _, rfl⟩ := List.mem_map.mp (shownRow_mem hrow)
      rfl
  · cases hrecord : (response.providerHealth.map ProviderHealth.toJson).find? fun record =>
        record.sourceName = some name with
    | none => rfl
    | some record =>
      obtain ⟨health, _, rfl⟩ := List.mem_map.mp (List.mem_of_find?_eq_some hrecord)
      cases hmessage : Json.failureMessage health.toJson with
      | none => simp [hmessage]
      | some message => simp [hmessage, failureMessage_toJson hmessage]
  · obtain ⟨text, _, rfl⟩ := List.mem_map.mp hwarning
    rfl

/-- Whatever is stored, even rows that share a source, the report is presentable. -/
lemma priceResponse_presentable (loaded : Except String StoredPriceState) (context : ReadContext) (now : ℤ) :
    Presentable (priceResponse loaded context now).1 (priceResponse loaded context now).2 := by
  have hcode := priceResponse_code loaded context now
  have hsources : (priceResponse loaded context now).2.sources = evaluatedRows (storedQuotes loaded) now := rfl
  have hcoverage : (priceResponse loaded context now).2.coverage.contributingSources =
      (contributors (storedQuotes loaded) now).map fun source => source.quote.source := rfl
  refine ⟨validate_toJson ?_ ?_ ?_ ?_ ?_, ?_, fun hempty => ?_⟩
  · rw [hsources]
    intro source hsource
    obtain ⟨quote, hquote, rfl⟩ := List.mem_map.mp hsource
    exact validateSource_evaluate (List.of_mem_filter hquote) now
  · rw [hcoverage]
    exact contributors_names_nodup
  · rw [hcoverage]
    exact contributors_sublist.length_le.trans_eq (List.length_map _)
  · change 1 ≤ UpstreamSource.all.length
    decide
  · change 0 < SOURCE_MAX_AGE_SECONDS
    decide
  · rcases hcode with ⟨⟨e, rfl⟩, hcode⟩ | ⟨_, hcode⟩
    · exact .inr ⟨.inl hcode, rfl⟩
    · split at hcode
      · next hempty => exact .inr ⟨.inr hcode, List.isEmpty_iff.mp hempty⟩
      · next hrows => exact .inl ⟨hcode, fun hempty => hrows (List.isEmpty_iff.mpr hempty)⟩
  · rw [hsources, ← List.isEmpty_iff, evaluatedRows_isEmpty] at hempty
    have hunavailable : DocumentedStatus (storedQuotes loaded) (storedOf loaded).1.providerHealth now .unavailable :=
      hempty
    have hevaluated := (status_documented _ _ _).unique hunavailable
    change reportedStatus context.report
      (evaluateQuotes (storedQuotes loaded) (storedOf loaded).1.providerHealth now).status = .unavailable
    rw [hevaluated]
    simp [reportedStatus]

section Server

variable {P : Platform} {path : DbPath} {maxViewers : ℕ} {db : Database} {start : ℕ} {s : Server}
  {history : List ServerAction}

lemma responded_presentable (h : (serverMachine P path maxViewers).Run (.init db start) history s) {id status : ℕ}
    {body : PriceResponse} (hmem : .responded id status body ∈ history) : Presentable status body := by
  obtain ⟨newer, older, rfl⟩ := List.append_of_mem hmem
  obtain ⟨before, i, after, _, hs, _⟩ := h.event
  obtain ⟨seen, refreshing, reason, _, hbody⟩ := respond_step hs
  have hpresentable := priceResponse_presentable seen.loaded ⟨seen.report, seen.activeViewers, refreshing, reason⟩
    seen.responseNow
  rwa [← hbody] at hpresentable

end Server

/-- The steps of a process, with the state before each. -/
abbrev TrackerTrace := List (Tracker × TrackerInput × TrackerAction)

/-- The request that a connection has been routed for. -/
def requestOn (connection : ℕ) : TrackerTrace → Option Request
  | [] => none
  | (_, .request other request, _) :: older => if other = connection then some request else requestOn connection older
  | _ :: older => requestOn connection older

/-- What a connection is answered with, by its request and the steps of its handler. -/
inductive Answers (P : Platform) (trace : TrackerTrace) (connection : ℕ) : Option Request → Answer → Prop
  | refused {t : Tracker} {busy : Bool} {b : TrackerAction} (hrefuse : (t, .refuse connection busy, b) ∈ trace) :
    Answers P trace connection none (.refused busy)
  | deadline {t : Tracker} {b : TrackerAction} (request : Request) (hexpire : (t, .expire connection, b) ∈ trace) :
    Answers P trace connection (some request) .deadline
  | price {t : Tracker} {i : ServerInput} {id status : ℕ} {body : PriceResponse}
      (hread : (t, .read connection i, .server (.responded id status body)) ∈ trace) :
    Answers P trace connection (some .price) ⟨status, body.toJson⟩
  | heartbeat {t : Tracker} {payload : PresencePayload} {now activeViewers : ℕ}
      (hprice : (payload.active && payload.includePrice) = false)
      (hupdate : (t, .update connection, .server (.presence payload now (.ok activeViewers))) ∈ trace) :
    Answers P trace connection (some (.presence payload)) (.presence 200 activeViewers none)
  | startup {t t' : Tracker} {payload : PresencePayload} {now activeViewers : ℕ} {i : ServerInput} {id status : ℕ}
      {body : PriceResponse} (hprice : (payload.active && payload.includePrice) = true)
      (hupdate : (t, .update connection, .server (.presence payload now (.ok activeViewers))) ∈ trace)
      (hread : (t', .read connection i, .server (.responded id status body)) ∈ trace) :
    Answers P trace connection (some (.presence payload)) (.presence 200 activeViewers (some body))
  | capacityReached {t : Tracker} {payload : PresencePayload} {now activeViewers : ℕ}
      (hupdate : (t, .update connection, .server (.presence payload now (.error activeViewers))) ∈ trace) :
    Answers P trace connection (some (.presence payload)) (.capacityReached activeViewers)
  | badSession {t : Tracker} {payload : PresencePayload}
      (hupdate : (t, .update connection, .server (.badSession payload)) ∈ trace) :
    Answers P trace connection (some (.presence payload)) (.presence 400 0 none)
  | news {t : Tracker} {reader now : ℕ} {response : News.Response} {a : Option ℕ}
      (hread : (t, .readNews connection, .news (.responded reader now response a)) ∈ trace) :
    Answers P trace connection (some .news) (.news response)
  | health {t : Tracker} {F : Faults} {b : TrackerAction} (hcheck : (t, .check connection F, b) ∈ trace) :
    Answers P trace connection (some .health) (.health ((loadPriceState P).atomically F t.server.db).1)

/-- The handler of a connection that has been routed for a request. -/
inductive Serves (P : Platform) (trace : TrackerTrace) (connection : ℕ) : Option Request → Handler → Prop
  | waiting : Serves P trace connection none .waiting
  | updating (payload : PresencePayload) : Serves P trace connection (some (.presence payload)) (.updating payload)
  | price : Serves P trace connection (some .price) (.starting none)
  | startup {t : Tracker} {payload : PresencePayload} {now activeViewers : ℕ}
      (hprice : (payload.active && payload.includePrice) = true)
      (hupdate : (t, .update connection, .server (.presence payload now (.ok activeViewers))) ∈ trace) :
    Serves P trace connection (some (.presence payload)) (.starting (some activeViewers))
  | reading {request : Option Request} {activeViewers : Option ℕ} (id : ℕ)
      (h : Serves P trace connection request (.starting activeViewers)) :
    Serves P trace connection request (.reading id activeViewers)
  | news (reader : ℕ) : Serves P trace connection (some .news) (.news reader)
  | checking : Serves P trace connection (some .health) .checking
  | other : Serves P trace connection (some .other) .other
  | answering {request : Option Request} {answer : Answer} (h : Answers P trace connection request answer) :
    Serves P trace connection request (.answering answer)

section Tracker

variable {P : Platform} {path : DbPath} {maxViewers : ℕ} {t t' : Tracker} {input : TrackerInput} {b : TrackerAction}
  {trace : TrackerTrace} {connection : ℕ}

lemma Answers.cons {request : Option Request} {answer : Answer} (h : Answers P trace connection request answer)
    (entry : Tracker × TrackerInput × TrackerAction) : Answers P (entry :: trace) connection request answer := by
  cases h with
  | refused hrefuse => exact .refused (List.mem_cons_of_mem _ hrefuse)
  | deadline request hexpire => exact .deadline request (List.mem_cons_of_mem _ hexpire)
  | price hread => exact .price (List.mem_cons_of_mem _ hread)
  | heartbeat hprice hupdate => exact .heartbeat hprice (List.mem_cons_of_mem _ hupdate)
  | startup hprice hupdate hread =>
    exact .startup hprice (List.mem_cons_of_mem _ hupdate) (List.mem_cons_of_mem _ hread)
  | capacityReached hupdate => exact .capacityReached (List.mem_cons_of_mem _ hupdate)
  | badSession hupdate => exact .badSession (List.mem_cons_of_mem _ hupdate)
  | news hread => exact .news (List.mem_cons_of_mem _ hread)
  | health hcheck => exact .health (List.mem_cons_of_mem _ hcheck)

lemma Serves.cons {request : Option Request} {handler : Handler} (h : Serves P trace connection request handler)
    (entry : Tracker × TrackerInput × TrackerAction) : Serves P (entry :: trace) connection request handler := by
  induction h with
  | waiting => exact .waiting
  | updating payload => exact .updating payload
  | price => exact .price
  | startup hprice hupdate => exact .startup hprice (List.mem_cons_of_mem _ hupdate)
  | reading id _ ih => exact .reading id ih
  | news reader => exact .news reader
  | checking => exact .checking
  | other => exact .other
  | answering hanswer => exact .answering (hanswer.cons entry)

lemma requestOn_cons (hinput : ∀ request, input ≠ .request connection request) :
    requestOn connection ((t, input, b) :: trace) = requestOn connection trace := by
  cases input with
  | request other request =>
    have hne : other ≠ connection := by
      rintro rfl
      exact hinput request rfl
    exact if_neg hne
  | _ => rfl

lemma Serves.routed {request : Option Request} {handler : Handler} (h : Serves P trace connection request handler)
    (htimed : Tracker.timed handler = true) : ∃ routed, request = some routed := by
  induction h with
  | waiting | answering => simp [Tracker.timed] at htimed
  | reading id _ ih => exact ih rfl
  | _ => exact ⟨_, rfl⟩

lemma presence_step {s s' : Server} {payload : PresencePayload} {a : ServerAction}
    (h : (serverMachine P path maxViewers).step s (.presence payload) = some (s', a)) :
    a = .badSession payload ∨ ∃ now result, a = .presence payload now result := by
  obtain heq : s.updatePresence maxViewers payload = (s', a) := Option.some.inj h
  unfold Server.updatePresence at heq
  split at heq
  · obtain rfl := (Prod.mk.inj heq).2
    exact .inr ⟨_, _, rfl⟩
  · exact .inl (Prod.mk.inj heq).2.symm

lemma Serves.updated {payload : PresencePayload} {a : ServerAction}
    (ha : a = .badSession payload ∨ ∃ now result, a = .presence payload now result)
    (hmem : (t, .update connection, .server a) ∈ trace) :
    Serves P trace connection (some (.presence payload)) (Tracker.afterUpdate payload a) := by
  rcases ha with rfl | ⟨now, result, rfl⟩
  · exact .answering (.badSession hmem)
  · cases result with
    | error activeViewers => exact .answering (.capacityReached hmem)
    | ok activeViewers =>
      simp only [Tracker.afterUpdate]
      split
      · next hprice => exact .startup hprice hmem
      · next hprice => exact .answering (.heartbeat (Bool.eq_false_iff.mpr hprice) hmem)

lemma Serves.read {request : Option Request} {id : ℕ} {activeViewers : Option ℕ} {i : ServerInput} {a : ServerAction}
    {handler : Handler} (h : Serves P trace connection request (.starting activeViewers))
    (ha : a.actor = some (.read id)) (hmem : (t, .read connection i, .server a) ∈ trace)
    (hnew : Tracker.afterRead id activeViewers a = some handler) : Serves P trace connection request handler := by
  cases a with
  | responded other status body =>
    cases h with
    | price =>
      obtain rfl := Option.some.inj hnew
      exact .answering (.price hmem)
    | startup hprice hupdate =>
      obtain rfl := Option.some.inj hnew
      exact .answering (.startup hprice hupdate hmem)
  | beginUnwound => simp [Tracker.afterRead] at hnew
  | _ =>
    obtain rfl := Option.some.inj hnew
    exact .reading id h

lemma Serves.step {old : Handler} {new : Option Handler}
    (h : Serves P trace connection (requestOn connection trace) old)
    (hs : HandlerStep P path maxViewers t connection input b old new) (handler : Handler) (hnew : new = some handler) :
    Serves P ((t, input, b) :: trace) connection (requestOn connection ((t, input, b) :: trace)) handler := by
  have hmem : (t, input, b) ∈ (t, input, b) :: trace := List.mem_cons_self
  cases hs with
  | @requested request =>
    obtain rfl := Option.some.inj hnew
    simp only [requestOn, if_true]
    cases request with
    | price => exact .price
    | presence payload => exact .updating payload
    | news => exact .news _
    | health => exact .checking
    | other => exact .other
  | refused =>
    obtain rfl := Option.some.inj hnew
    rw [requestOn_cons (by simp)]
    generalize requestOn connection trace = request at h
    cases h
    exact .answering (.refused hmem)
  | updated hs =>
    obtain rfl := Option.some.inj hnew
    rw [requestOn_cons (by simp)]
    generalize requestOn connection trace = request at h
    cases h
    exact .updated (presence_step hs) hmem
  | started =>
    obtain rfl := Option.some.inj hnew
    rw [requestOn_cons (by simp)]
    exact .reading _ (h.cons _)
  | read ha =>
    rw [requestOn_cons (by simp)]
    generalize requestOn connection trace = request at h
    cases h with
    | reading _ hstarting => exact (hstarting.cons _).read ha hmem hnew
  | @readNews reader a =>
    obtain rfl := Option.some.inj hnew
    rw [requestOn_cons (by simp)]
    generalize requestOn connection trace = request at h
    cases h
    cases a with
    | responded => exact .answering (.news hmem)
    | _ => exact .news _
  | checked =>
    obtain rfl := Option.some.inj hnew
    rw [requestOn_cons (by simp)]
    generalize requestOn connection trace = request at h
    cases h
    exact .answering (.health hmem)
  | expired htimed =>
    obtain rfl := Option.some.inj hnew
    rw [requestOn_cons (by simp)]
    obtain ⟨request, hrequest⟩ := h.routed htimed
    rw [hrequest]
    exact .answering (.deadline request hmem)
  | answered | closed => simp at hnew

/-- Every handler of a process serves the request of its connection. -/
structure Serving (P : Platform) (trace : TrackerTrace) (t : Tracker) : Prop where
  fresh : ∀ connection, t.nextConnection ≤ connection →
    requestOn connection trace = none ∧ t.connections connection = none
  handlers : ∀ connection handler, t.connections connection = some handler →
    Serves P trace connection (requestOn connection trace) handler

lemma HandlerStep.connection_eq {connection : ℕ} {old : Handler} {new : Option Handler}
    (hs : HandlerStep P path maxViewers t connection input b old new) : input.connection = some connection := by
  cases hs <;> rfl

lemma requestOn_other {other : ℕ} (hinput : input.connection ≠ some other) :
    requestOn other ((t, input, b) :: trace) = requestOn other trace :=
  requestOn_cons fun request heq => hinput (by rw [heq]; rfl)

lemma Serving.step (h : Serving P trace t) (hstep : (trackerMachine P path maxViewers).step t input = some (t', b)) :
    Serving P ((t, input, b) :: trace) t' := by
  have hlt {connection : ℕ} {handler : Handler} (hold : t.connections connection = some handler) :
      connection < t.nextConnection := by
    by_contra hge
    simp [(h.fresh connection (not_lt.mp hge)).2] at hold
  cases connection_step hstep with
  | accepted hinput hb hphase ht =>
    have hrequests (other : ℕ) : requestOn other ((t, input, b) :: trace) = requestOn other trace :=
      requestOn_cons (by simp [hinput])
    subst ht
    refine ⟨fun other hother => ?_, fun other handler hhandler => ?_⟩
    · have hother : t.nextConnection + 1 ≤ other := hother
      obtain ⟨hnone, hdead⟩ := h.fresh other (by omega)
      exact ⟨(hrequests other).trans hnone, by simpa [Tracker.setConnection, show other ≠ t.nextConnection by omega]⟩
    · rw [hrequests]
      by_cases hother : other = t.nextConnection
      · subst hother
        obtain rfl : Handler.waiting = handler := by simpa [Tracker.setConnection] using hhandler
        rw [(h.fresh _ le_rfl).1]
        exact .waiting
      · exact (h.handlers other handler (by simpa [Tracker.setConnection, hother] using hhandler)).cons _
  | kept _ _ hinput hconnections hnext =>
    have hrequests (other : ℕ) : requestOn other ((t, input, b) :: trace) = requestOn other trace :=
      requestOn_other (by simp [hinput])
    refine ⟨fun other hother => ?_, fun other handler hhandler => ?_⟩
    · rw [hrequests, hconnections]
      exact h.fresh other (hnext ▸ hother)
    · rw [hrequests]
      exact (h.handlers other handler (hconnections ▸ hhandler)).cons _
  | @moved connection old new hold hs hconnections hnext =>
    have hrequests {other : ℕ} (hother : other ≠ connection) :
        requestOn other ((t, input, b) :: trace) = requestOn other trace :=
      requestOn_other (by simpa [hs.connection_eq] using Ne.symm hother)
    refine ⟨fun other hother => ?_, fun other handler hhandler => ?_⟩
    · have hne : other ≠ connection := by
        have := hlt hold
        omega
      rw [hrequests hne, hconnections, Function.update_of_ne hne]
      exact h.fresh other (hnext ▸ hother)
    · rw [hconnections] at hhandler
      by_cases hother : other = connection
      · subst hother
        rw [Function.update_self] at hhandler
        exact (h.handlers other old hold).step hs handler hhandler
      · rw [Function.update_of_ne hother] at hhandler
        rw [hrequests hother]
        exact (h.handlers other handler hhandler).cons _

theorem Serving.run {db : Database} {start : ℕ}
    (h : (trackerMachine P path maxViewers).traced.Run (.init db start) trace t) : Serving P trace t :=
  h.invariant (P := fun trace t => Serving P trace t)
    ⟨fun _ _ => ⟨rfl, rfl⟩, fun connection handler hhandler => by simp [Tracker.init] at hhandler⟩
    fun _ _ _ _ _ _ ih hs => by
      obtain ⟨b, hstep, rfl⟩ := Machine.traced_step.mp hs
      exact ih.step hstep

/-- A connection that has been answered is over. -/
structure Over (trace : TrackerTrace) (t : Tracker) : Prop where
  fresh : ∀ connection, t.nextConnection ≤ connection → t.connections connection = none
  ended : ∀ before i connection answer, (before, i, .answered connection answer) ∈ trace →
    connection < t.nextConnection ∧ t.connections connection = none

lemma HandlerStep.of_answered {connection other : ℕ} {old : Handler} {new : Option Handler} {answer : Answer}
    (hs : HandlerStep P path maxViewers t connection input (.answered other answer) old new) :
    other = connection ∧ old = .answering answer ∧ new = none := by
  cases hs with
  | answered => exact ⟨rfl, rfl, rfl⟩
  | requested hb | expired _ hb | closed hb => exact absurd rfl (hb other answer)

lemma Over.step (h : Over trace t) (hstep : (trackerMachine P path maxViewers).step t input = some (t', b)) :
    Over ((t, input, b) :: trace) t' := by
  cases connection_step hstep with
  | accepted hinput hb _ ht =>
    subst hb ht
    refine ⟨fun other hother => ?_, fun before i connection answer hmem => ?_⟩
    · have hother : t.nextConnection + 1 ≤ other := hother
      simpa [Tracker.setConnection, show other ≠ t.nextConnection by omega] using h.fresh other (by omega)
    · obtain ⟨hlt, hnone⟩ := h.ended before i connection answer (by simpa using hmem)
      exact ⟨Nat.lt_succ_of_lt hlt, by simpa [Tracker.setConnection, hlt.ne] using hnone⟩
  | kept hb _ _ hconnections hnext =>
    refine ⟨fun other hother => hconnections ▸ h.fresh other (hnext ▸ hother),
      fun before i connection answer hmem => ?_⟩
    rw [hconnections, hnext]
    rcases List.mem_cons.mp hmem with heq | hmem
    · cases heq
      exact absurd rfl (hb connection answer)
    · exact h.ended before i connection answer hmem
  | @moved moving old new hold hs hconnections hnext =>
    have hmoving : moving < t.nextConnection := by
      by_contra hge
      simp [h.fresh moving (not_lt.mp hge)] at hold
    refine ⟨fun other hother => ?_, fun before i connection answer hmem => ?_⟩
    · rw [hnext] at hother
      rw [hconnections, Function.update_of_ne (by omega)]
      exact h.fresh other hother
    · rw [hconnections, hnext]
      rcases List.mem_cons.mp hmem with heq | hmem
      · cases heq
        obtain ⟨rfl, _, rfl⟩ := hs.of_answered
        exact ⟨hmoving, Function.update_self _ _ _⟩
      · obtain ⟨hlt, hnone⟩ := h.ended before i connection answer hmem
        have hne : connection ≠ moving := by
          rintro rfl
          simp [hnone] at hold
        exact ⟨hlt, by rwa [Function.update_of_ne hne]⟩

theorem Over.run {db : Database} {start : ℕ}
    (h : (trackerMachine P path maxViewers).traced.Run (.init db start) trace t) : Over trace t :=
  h.invariant (P := fun trace t => Over trace t) ⟨fun _ _ => rfl, fun _ _ _ _ hmem => by simp at hmem⟩
    fun _ _ _ _ _ _ ih hs => by
      obtain ⟨b, hstep, rfl⟩ := Machine.traced_step.mp hs
      exact ih.step hstep

lemma answering_of_step {connection : ℕ} {answer : Answer}
    (h : (trackerMachine P path maxViewers).step t input = some (t', .answered connection answer)) :
    t.connections connection = some (.answering answer) := by
  cases connection_step h with
  | accepted _ hb => simp at hb
  | kept hb => exact absurd rfl (hb connection answer)
  | moved hold hs =>
    obtain ⟨rfl, rfl, _⟩ := hs.of_answered
    exact hold

def TrackerAction.answers (connection : ℕ) : TrackerAction → Bool
  | answered other _ => other = connection
  | _ => false

/-- The sources in a successful report. -/
def TrackerAction.reported : TrackerAction → List String
  | server (.responded _ 200 body) => body.sources.map fun row => row.quote.source
  | _ => []

end Tracker

end BitcoinPriceTracker

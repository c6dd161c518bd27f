import BitcoinPriceTracker.Lib.Retention
import BitcoinPriceTracker.Proofs.DashboardPolling

namespace BitcoinPriceTracker

namespace Polling

/-- A report that the page has accepted. -/
structure Report where
  body : Json
  data : DashboardData
  receivedAt : ℚ

inductive PageEvent
  | heartbeat
  | fault (kind : PollKind)
  | startupRejected
  | reported (report : Report)

def PageEvent.report : PageEvent → Option Report
  | reported report => some report
  | _ => none

/-- The events of a body, newest first. -/
def bodyEvents (poll : Poll) (content : Option Json) (now : ℚ) : List PageEvent :=
  match poll.kind with
  | .presence =>
    if poll.includePrice then
      match content with
      | none | some .null => [.fault .presence, .heartbeat]
      | some content =>
        match poll.report content with
        | none => [.heartbeat]
        | some report =>
          match poll.accepted report with
          | none => [.startupRejected, .heartbeat]
          | some data => [.reported ⟨report, data, now⟩, .heartbeat]
    else [.heartbeat]
  | .price =>
    match content.bind poll.report with
    | none => [.fault .price]
    | some report =>
      match poll.accepted report with
      | none => [.fault .price]
      | some data => [.reported ⟨report, data, now⟩]

/-- The events of a step. A request of an earlier visibility period is not heard. -/
def pageEvents : Polling × Input × Action → List PageEvent
  | (s, .fail request, _) => ((s.findPoll request).filter s.current).elim [] fun poll => [.fault poll.kind]
  | (s, .respond request status, _) =>
    ((s.findPoll request).filter fun poll => s.current poll && poll.status = none && poll.rejects status).elim []
      fun poll => [.fault poll.kind]
  | (s, .body request content now, _) =>
    ((s.findPoll request).filter fun poll => s.current poll && poll.status.isSome).elim []
      fun poll => bodyEvents poll content now
  | _ => []

/-- The events of a run, newest first. -/
def heard (trace : List (Polling × Input × Action)) : List PageEvent := trace.flatMap pageEvents

structure Memory where
  lastData : Option DashboardData
  body : Option Json
  receivedAt : ℚ
  priceError : String
  presenceError : String

def memory (s : Polling) : Memory :=
  ⟨s.page.lastData, s.body, s.page.receivedAt, s.page.priceError, s.page.presenceError⟩

/-- An unavailable price. -/
def Report.unavailable (report : Report) : Bool := report.data.status = "UNAVAILABLE"

/-- A report with quotes. -/
def Report.hasQuotes (report : Report) : Bool := !report.data.sources.isEmpty

def Memory.after : PageEvent → Memory → Memory
  | .heartbeat, m => { m with presenceError := "" }
  | .fault .presence, m => { m with presenceError := "Viewer heartbeat unavailable. Retrying automatically." }
  | .fault .price, m =>
    { m with priceError := "Price update unavailable; retained quotes may be out of date. Retrying automatically." }
  | .startupRejected, m => { m with priceError := "Startup price unavailable. Retrying automatically." }
  | .reported report, m =>
    if report.unavailable && m.lastData.any fun last => !last.sources.isEmpty then
      { m with priceError := "Price service unavailable; retained quotes may be out of date." }
    else
      { m with
        lastData := some report.data, body := some report.body, receivedAt := report.receivedAt, priceError := "" }

section Steps

variable (s : Polling) (poll : Poll)

lemma memory_fault (h : s.current poll = true) : (s.fault poll).memory = Memory.after (.fault poll.kind) s.memory := by
  unfold fault
  rw [if_pos h]
  cases poll.kind <;> rfl

lemma memory_fault_late (h : s.current poll = false) : (s.fault poll).memory = s.memory := by
  simp [fault, h]

lemma memory_receivePrice (report : Json) (data : DashboardData) (now : ℚ) :
    (s.receivePrice report data now).memory = Memory.after (.reported ⟨report, data, now⟩) s.memory := by
  cases hretains : (data.status = "UNAVAILABLE" && s.page.lastData.any fun last => !last.sources.isEmpty) <;>
    simp [receivePrice, memory, Dashboard.receivePrice, Dashboard.retains, Memory.after, Report.unavailable, hretains]

lemma memory_finish (delay : Option ℕ) : (s.finish poll delay).memory = s.memory := by
  obtain ⟨hpage, hbody⟩ := finish_page s poll delay
  simp only [memory, hpage, hbody]

lemma memory_poll (kind : PollKind) (includePrice : Bool) : (s.poll kind includePrice).1.memory = s.memory := by
  unfold Polling.poll
  split <;> rfl

lemma memory_stop : s.stop.1.memory = s.memory := by
  unfold stop
  split <;> rfl

lemma memory_receiveReport (content : Option Json) (now : ℚ) (hkind : poll.kind = .price) :
    (s.receiveReport poll content now).memory =
      (if s.current poll then bodyEvents poll content now else []).foldr Memory.after s.memory := by
  unfold receiveReport bodyEvents
  rw [hkind]
  cases hcurrent : s.current poll with
  | false =>
    have hfault := memory_fault_late s poll hcurrent
    cases content.bind poll.report with
    | none => exact hfault
    | some report =>
      dsimp only
      cases poll.accepted report with
      | none => exact hfault
      | some data => rfl
  | true =>
    have hfault : (s.fault poll).memory = Memory.after (.fault .price) s.memory := hkind ▸ memory_fault s poll hcurrent
    cases content.bind poll.report with
    | none => exact hfault
    | some report =>
      dsimp only
      cases poll.accepted report with
      | none => exact hfault
      | some data => exact memory_receivePrice s report data now

lemma memory_receiveHeartbeat (content : Option Json) (now : ℚ) (hkind : poll.kind = .presence) :
    (s.receiveHeartbeat poll content now).1.memory =
      (if s.current poll then bodyEvents poll content now else []).foldr Memory.after s.memory := by
  unfold receiveHeartbeat bodyEvents
  rw [hkind]
  cases hcurrent : s.current poll with
  | false => rfl
  | true =>
    let cleared : Polling := { s with page := { s.page with presenceError := "" } }
    have hcleared : cleared.memory = Memory.after .heartbeat s.memory := rfl
    have hfault : (cleared.fault poll).memory = Memory.after (.fault .presence) cleared.memory :=
      hkind ▸ memory_fault cleared poll hcurrent
    cases poll.includePrice with
    | false => rfl
    | true =>
      rcases content with _ | content
      · exact hfault
      · cases content with
        | null => exact hfault
        | _ =>
          dsimp only [if_true]
          cases poll.report _ with
          | none => rfl
          | some report =>
            dsimp only
            cases poll.accepted report with
            | none => rfl
            | some data => exact memory_receivePrice cleared report data now

lemma memory_start (hidden : Bool) : (s.start hidden).1.memory = s.memory := by
  have hbegun : s.begun.memory = s.memory := rfl
  have hpoll := memory_poll s.begun .presence true
  unfold start
  split
  · rfl
  · split
    · exact hbegun
    · split
      · next heq =>
        rw [heq] at hpoll
        exact hpoll
      · next heq =>
        rw [heq] at hpoll
        exact hpoll

lemma memory_runStartup (startup : Startup) : (s.runStartup startup).1.memory = s.memory := by
  unfold runStartup
  dsimp only
  split
  · rfl
  · split
    · exact memory_poll { s with startups := s.startups.erase startup } .price false
    · rfl

end Steps

lemma memory_step {s s' : Polling} {i : Input} {a : Action} (h : pollingMachine.step s i = some (s', a)) :
    s'.memory = (pageEvents (s, i, a)).foldr Memory.after s.memory := by
  cases i with
  | visibilitychange hidden =>
    obtain rfl : (if hidden then s.stop else s.start hidden).1 = s' := congrArg Prod.fst (Option.some.inj h)
    split
    · exact memory_stop s
    · exact memory_start s hidden
  | pagehide =>
    obtain rfl : s.stop.1 = s' := congrArg Prod.fst (Option.some.inj h)
    exact memory_stop s
  | pageshow hidden =>
    obtain rfl : (s.start hidden).1 = s' := congrArg Prod.fst (Option.some.inj h)
    exact memory_start s hidden
  | fire id =>
    obtain ⟨timer, _, heq⟩ := Option.map_eq_some_iff.mp h
    obtain rfl := congrArg Prod.fst heq
    exact memory_poll { s with timers := s.timers.erase timer } timer.kind false
  | startup startup =>
    simp only [pollingMachine] at h
    split at h
    · obtain rfl : (s.runStartup startup).1 = s' := congrArg Prod.fst (Option.some.inj h)
      exact memory_runStartup s startup
    · simp at h
  | deadline request =>
    obtain ⟨poll, _, heq⟩ := Option.map_eq_some_iff.mp h
    obtain rfl := congrArg Prod.fst heq
    rfl
  | respond request status =>
    obtain ⟨poll, hpoll, heq⟩ := Option.map_eq_some_iff.mp h
    obtain ⟨hfound, hwaiting⟩ := Option.filter_eq_some_iff.mp hpoll
    simp only [pageEvents, hfound, Option.filter_some, hwaiting]
    split at heq
    · next hrejects =>
      obtain rfl := congrArg Prod.fst heq
      rw [memory_finish]
      cases hcurrent : s.current poll with
      | false => simpa [hrejects] using memory_fault_late s poll hcurrent
      | true => simpa [hrejects] using memory_fault s poll hcurrent
    · next hrejects =>
      obtain rfl := congrArg Prod.fst heq
      simp [hrejects]
      rfl
  | fail request =>
    obtain ⟨poll, hfound, heq⟩ := Option.map_eq_some_iff.mp h
    obtain rfl := congrArg Prod.fst heq
    rw [memory_finish]
    simp only [pageEvents, hfound, Option.filter_some]
    cases hcurrent : s.current poll with
    | false => simpa using memory_fault_late s poll hcurrent
    | true => simpa using memory_fault s poll hcurrent
  | body request content now =>
    obtain ⟨poll, hpoll, heq⟩ := Option.map_eq_some_iff.mp h
    obtain ⟨hfound, hstatus⟩ := Option.filter_eq_some_iff.mp hpoll
    have hevents : pageEvents (s, .body request content now, a) =
        if s.current poll then bodyEvents poll content now else [] := by
      simp only [pageEvents, hfound, Option.filter_some, hstatus, Bool.and_true]
      split <;> rfl
    rw [hevents]
    split at heq
    · next hkind =>
      obtain rfl := congrArg Prod.fst heq
      rw [memory_finish, memory_receiveHeartbeat s poll content now hkind]
    · next hkind =>
      obtain rfl := congrArg Prod.fst heq
      rw [memory_finish, memory_receiveReport s poll content now hkind]

/-- The memory of a log. -/
def remembered (log : List PageEvent) : Memory := log.foldr Memory.after init.memory

/-- What the page remembers of a run. -/
theorem memory_run {trace : List (Polling × Input × Action)} {s : Polling}
    (h : pollingMachine.traced.Run .init trace s) : s.memory = remembered (heard trace) :=
  h.invariant (P := fun trace s => s.memory = remembered (heard trace)) rfl
    fun trace s i s' entry _ ih hs => by
      obtain ⟨a, hstep, rfl⟩ := Machine.traced_step.mp hs
      rw [heard, List.flatMap_cons, remembered, List.foldr_append, ← heard, ← remembered, ← ih]
      exact memory_step hstep

def reports (log : List PageEvent) : List Report := log.filterMap PageEvent.report

/-- The report that is kept. -/
def kept (log : List PageEvent) : Option Report := Retention.keep Report.unavailable Report.hasQuotes (reports log)

def PageEvent.aboutPrice : PageEvent → Bool
  | fault .price | startupRejected | reported _ => true
  | _ => false

/-- The latest word about the price, if there is one, is a report that was not held back. -/
def PriceKnown : List PageEvent → Prop
  | [] => True
  | .reported report :: older => (report.unavailable && (kept older).any Report.hasQuotes) = false
  | .fault .price :: _ | .startupRejected :: _ => False
  | _ :: older => PriceKnown older

/-- The latest heartbeat, if there is one, was answered. -/
def PresenceKnown : List PageEvent → Prop
  | [] | .heartbeat :: _ => True
  | .fault .presence :: _ => False
  | _ :: older => PresenceKnown older

section Log

variable {log : List PageEvent} {event : PageEvent}

lemma kept_cons_reported (report : Report) :
    kept (.reported report :: log) =
      if report.unavailable && (kept log).any Report.hasQuotes then kept log else some report := rfl

lemma remembered_data (log : List PageEvent) : (remembered log).lastData = (kept log).map Report.data ∧
    (remembered log).body = (kept log).map Report.body ∧
    (remembered log).receivedAt = (kept log).elim 0 Report.receivedAt := by
  induction log with
  | nil => exact ⟨rfl, rfl, rfl⟩
  | cons event log ih =>
    cases event with
    | heartbeat | startupRejected => exact ih
    | fault kind => cases kind <;> exact ih
    | reported report =>
      have hquotes : ((remembered log).lastData.any fun last => !last.sources.isEmpty) =
          (kept log).any Report.hasQuotes := by
        rw [ih.1, Option.any_map]
        rfl
      have hstep : remembered (.reported report :: log) = Memory.after (.reported report) (remembered log) := rfl
      rw [hstep, kept_cons_reported, Memory.after, hquotes]
      split
      · exact ih
      · exact ⟨rfl, rfl, rfl⟩

lemma remembered_quotes (log : List PageEvent) :
    ((remembered log).lastData.any fun last => !last.sources.isEmpty) = (kept log).any Report.hasQuotes := by
  rw [(remembered_data log).1, Option.any_map]
  rfl

lemma remembered_priceError (log : List PageEvent) : (remembered log).priceError = "" ↔ PriceKnown log := by
  induction log with
  | nil => exact iff_of_true rfl trivial
  | cons event log ih =>
    cases event with
    | heartbeat => exact ih
    | startupRejected => exact iff_of_false (by simp [remembered, Memory.after]) id
    | fault kind =>
      cases kind with
      | presence => exact ih
      | price => exact iff_of_false (by simp [remembered, Memory.after]) id
    | reported report =>
      have hstep : remembered (.reported report :: log) = Memory.after (.reported report) (remembered log) := rfl
      rw [hstep, Memory.after, remembered_quotes, PriceKnown]
      cases report.unavailable && (kept log).any Report.hasQuotes <;> simp

lemma remembered_presenceError (log : List PageEvent) : (remembered log).presenceError = "" ↔ PresenceKnown log := by
  induction log with
  | nil => exact iff_of_true rfl trivial
  | cons event log ih =>
    cases event with
    | heartbeat => exact iff_of_true rfl trivial
    | startupRejected => exact ih
    | fault kind =>
      cases kind with
      | presence => exact iff_of_false (by simp [remembered, Memory.after]) id
      | price => exact ih
    | reported report =>
      have hstep : remembered (.reported report :: log) = Memory.after (.reported report) (remembered log) := rfl
      rw [hstep, Memory.after]
      split <;> exact ih

lemma PriceKnown.latest (h : PriceKnown log) {report : Report} (hkept : kept log = some report) :
    log.find? PageEvent.aboutPrice = some (.reported report) := by
  induction log with
  | nil => simp [kept, reports, Retention.keep] at hkept
  | cons event log ih =>
    cases event with
    | heartbeat => exact ih h hkept
    | startupRejected => exact absurd h id
    | fault kind =>
      cases kind with
      | presence => exact ih h hkept
      | price => exact absurd h id
    | reported latest =>
      rw [kept_cons_reported, show _ = false from h] at hkept
      exact congrArg (fun report => some (PageEvent.reported report)) (Option.some.inj hkept)

/-- Nothing but unavailable prices has been heard since the report that is kept. -/
lemma kept_latest {report : Report} (h : kept log = some report) :
    ∃ newer older, reports log = newer ++ report :: older ∧ (∀ later ∈ newer, later.unavailable = true) ∧
      (newer ≠ [] → report.hasQuotes = true) := Retention.keep_eq_some h

end Log

lemma shownContributors_sublist (data : DashboardData) (sources : List AgedSource) :
    ((shownContributors data sources).map fun aged => aged.source.source).Sublist data.contributingSources := by
  unfold shownContributors
  induction data.contributingSources with
  | nil => exact .slnil
  | cons name rest ih =>
    rw [List.filterMap_cons]
    cases hhead : ((sources.filter fun aged => aged.source.source = name &&
        aged.currentFreshness = "fresh").insertionSort BitcoinPriceTracker.ageLe).head? with
    | none => exact ih.cons _
    | some aged =>
      have hmem := List.mem_of_head? hhead
      rw [List.mem_insertionSort] at hmem
      have hname : aged.source.source = name := by simpa using (Bool.and_eq_true_iff.mp (List.mem_filter.mp hmem).2).1
      rw [List.map_cons, hname]
      exact ih.cons_cons _

lemma mem_shownContributors {data : DashboardData} {sources : List AgedSource} {aged : AgedSource}
    (h : aged ∈ shownContributors data sources) : aged ∈ sources ∧ aged.currentFreshness = "fresh" := by
  obtain ⟨name, _, hhead⟩ := List.mem_filterMap.mp h
  have hmem := List.mem_of_head? hhead
  rw [List.mem_insertionSort] at hmem
  obtain ⟨hsource, hfresh⟩ := List.mem_filter.mp hmem
  exact ⟨hsource, by simpa using (Bool.and_eq_true_iff.mp hfresh).2⟩

lemma advance_fresh {source : DashboardSource} {elapsed : ℤ} {maxAge : ℚ}
    (h : (source.advance elapsed maxAge).currentFreshness = "fresh") :
    source.freshness = "fresh" ∧ ∀ age, source.ageSeconds = some age → age + elapsed < maxAge := by
  simp only [DashboardSource.advance] at h
  split at h
  · simp at h
  · next hyoung =>
    refine ⟨h, fun age hage => ?_⟩
    simpa [h, hage] using hyoung

/-- The label is live where nothing has failed since a live report and every contributor is still there. -/
lemma render_live {page : Dashboard} {now : ℚ} {view : PriceView} (h : page.render now = some view)
    (hlabel : view.label = "LIVE") : ∃ data, page.lastData = some data ∧ page.priceError = "" ∧
      page.presenceError = "" ∧ data.status = "LIVE" ∧
      data.configuredSourceCount ≤ (view.contributors.length : ℚ) ∧
      view.contributors = shownContributors data (data.sources.map fun source =>
        source.advance (page.elapsed now) data.sourceMaxAgeSeconds) := by
  unfold Dashboard.render at h
  split at h
  · simp at h
  · cases hdata : page.lastData with
    | none =>
      rw [hdata] at h
      obtain rfl := Option.some.inj h
      dsimp only at hlabel
      split at hlabel
      · simp at hlabel
      · split at hlabel <;> simp at hlabel
    | some data =>
      rw [hdata] at h
      obtain rfl := Option.some.inj h
      dsimp only at hlabel ⊢
      split at hlabel
      · simp at hlabel
      · next hprice =>
        split at hlabel
        · simp at hlabel
        · next hpresence =>
          have hpresence : page.presenceError = "" := by simpa [hlabel] using hpresence
          refine ⟨data, rfl, not_not.mp hprice, hpresence, ?_⟩
          unfold shownStatus at hlabel
          split at hlabel
          · simp at hlabel
          · split at hlabel
            · simp at hlabel
            · next hfew => exact ⟨hlabel, by simpa [hlabel] using hfew, rfl⟩

lemma pollPrice_validate {status : ℕ} {body : Json} {data : DashboardData} (h : pollPrice status body = some data) :
    validate body = some data := by
  unfold pollPrice at h
  split at h
  · simp at h
  · exact (Option.filter_eq_some_iff.mp h).1

lemma accepted_validate {poll : Poll} {report : Json} {data : DashboardData} (h : poll.accepted report = some data) :
    validate report = some data := by
  unfold Poll.accepted at h
  split at h
  · exact h
  · obtain ⟨status, _, haccepted⟩ := Option.bind_eq_some_iff.mp h
    exact pollPrice_validate haccepted

lemma mapM_mem {α β : Type} {f : α → Option β} :
    ∀ {items : List α} {results : List β}, items.mapM f = some results → ∀ b ∈ results, ∃ a ∈ items, f a = some b
  | [], results, h, b, hb => by
    obtain rfl : [] = results := Option.some.inj h
    simp at hb
  | a :: items, results, h, b, hb => by
    rw [List.mapM_cons] at h
    obtain ⟨first, hfirst, hrest⟩ := Option.bind_eq_some_iff.mp h
    obtain ⟨rest, hitems, heq⟩ := Option.bind_eq_some_iff.mp hrest
    obtain rfl : first :: rest = results := Option.some.inj heq
    rcases List.mem_cons.mp hb with rfl | hb
    · exact ⟨a, List.mem_cons_self, hfirst⟩
    · obtain ⟨c, hc, hresult⟩ := mapM_mem hitems b hb
      exact ⟨c, List.mem_cons_of_mem _ hc, hresult⟩

lemma validateSource_age {row : Json} {source : DashboardSource} (h : validateSource row = some source)
    (hfresh : source.freshness = "fresh") : ∃ age, source.ageSeconds = some age := by
  simp only [validateSource, Option.bind_eq_bind, Option.bind_eq_some_iff] at h
  obtain ⟨name, _, price, _, freshness, _, age, hage, hsource⟩ := h
  obtain rfl := Option.some.inj hsource
  obtain rfl : freshness = "fresh" := hfresh
  simpa [Option.isSome_iff_exists] using (Option.filter_eq_some_iff.mp hage).2

lemma validate_parts {body : Json} {data : DashboardData} (h : validate body = some data) :
    (data.contributingSources.length : ℚ) ≤ data.configuredSourceCount ∧
      ∀ source ∈ data.sources, ∃ row, validateSource row = some source := by
  simp only [validate, Option.bind_eq_bind, Option.bind_eq_some_iff] at h
  obtain ⟨status, _, sources, _, health, _, _, _, coverage, _, contributing, _, count, _, maxAge, _, _, _, names,
    hnames, rows, hrows, hdata⟩ := h
  split at hdata
  · obtain rfl := Option.some.inj hdata
    refine ⟨?_, fun source hsource => ?_⟩
    · have hboth := (Option.filter_eq_some_iff.mp hnames).2
      exact of_decide_eq_true (Bool.and_eq_true_iff.mp hboth).2
    · obtain ⟨row, _, hrow⟩ := mapM_mem hrows source hsource
      exact ⟨row, hrow⟩
  · simp at hdata

lemma bodyEvents_report {poll : Poll} {content : Option Json} {now : ℚ} {report : Report}
    (h : .reported report ∈ bodyEvents poll content now) :
    content.bind poll.report = some report.body ∧ poll.accepted report.body = some report.data ∧
      report.receivedAt = now := by
  unfold bodyEvents at h
  split at h
  · split at h
    · split at h
      · simp at h
      · simp at h
      · next content _ =>
        cases hreport : poll.report content with
        | none => simp [hreport] at h
        | some body =>
          cases haccepted : poll.accepted body with
          | none => simp [hreport, haccepted] at h
          | some data =>
            obtain rfl : report = ⟨body, data, now⟩ := by simpa [hreport, haccepted] using h
            exact ⟨hreport, haccepted, rfl⟩
    · simp at h
  · cases hreport : content.bind poll.report with
    | none => simp [hreport] at h
    | some body =>
      cases haccepted : poll.accepted body with
      | none => simp [hreport, haccepted] at h
      | some data =>
        obtain rfl : report = ⟨body, data, now⟩ := by simpa [hreport, haccepted] using h
        exact ⟨rfl, haccepted, rfl⟩

lemma reported_entry {trace : List (Polling × Input × Action)} {report : Report} (h : report ∈ reports (heard trace)) :
    ∃ s request content a poll, (s, .body request content report.receivedAt, a) ∈ trace ∧
      s.findPoll request = some poll ∧ s.current poll = true ∧ content.bind poll.report = some report.body ∧
      poll.accepted report.body = some report.data := by
  obtain ⟨event, hevent, hreport⟩ := List.mem_filterMap.mp h
  obtain ⟨⟨s, i, a⟩, hentry, hheard⟩ := List.mem_flatMap.mp hevent
  cases event with
  | reported report' =>
    obtain rfl : report' = report := Option.some.inj hreport
    cases i with
    | body request content now =>
      cases hpoll : (s.findPoll request).filter fun poll => s.current poll && poll.status.isSome with
      | none => simp [pageEvents, hpoll] at hheard
      | some poll =>
        obtain ⟨hfound, hcurrent⟩ := Option.filter_eq_some_iff.mp hpoll
        simp only [pageEvents, hpoll, Option.elim_some] at hheard
        obtain ⟨hbody, haccepted, rfl⟩ := bodyEvents_report hheard
        exact ⟨s, request, content, a, poll, hentry, hfound, (Bool.and_eq_true_iff.mp hcurrent).1, hbody, haccepted⟩
    | respond request status =>
      cases hfound : (s.findPoll request).filter fun poll =>
        s.current poll && poll.status = none && poll.rejects status <;> simp [pageEvents, hfound] at hheard
    | fail request =>
      cases hfound : (s.findPoll request).filter s.current <;> simp [pageEvents, hfound] at hheard
    | _ => simp [pageEvents] at hheard
  | _ => simp [PageEvent.report] at hreport

lemma startupRejected_entry {s : Polling} {i : Input} {a : Action} (h : .startupRejected ∈ pageEvents (s, i, a)) :
    ∃ request content now, i = .body request content now ∧ ∃ poll, s.findPoll request = some poll ∧
      poll.kind = .presence ∧ ∃ report, content.bind poll.report = some report ∧ poll.accepted report = none := by
  cases i with
  | body request content now =>
    cases hpoll : (s.findPoll request).filter fun poll => s.current poll && poll.status.isSome with
    | none => simp [pageEvents, hpoll] at h
    | some poll =>
      simp only [pageEvents, hpoll, Option.elim_some] at h
      refine ⟨request, content, now, rfl, poll, (Option.filter_eq_some_iff.mp hpoll).1, ?_⟩
      unfold bodyEvents at h
      split at h
      · next hkind =>
        refine ⟨hkind, ?_⟩
        split at h
        · split at h
          · simp at h
          · simp at h
          · next content _ =>
            cases hreport : poll.report content with
            | none => simp [hreport] at h
            | some report =>
              cases haccepted : poll.accepted report with
              | none => exact ⟨report, hreport, haccepted⟩
              | some data => simp [hreport, haccepted] at h
        · simp at h
      · cases hreport : content.bind poll.report with
        | none => simp [hreport] at h
        | some report => cases haccepted : poll.accepted report <;> simp [hreport, haccepted] at h
  | respond request status =>
    cases hfound : (s.findPoll request).filter fun poll =>
      s.current poll && poll.status = none && poll.rejects status <;> simp [pageEvents, hfound] at h
  | fail request => cases hfound : (s.findPoll request).filter s.current <;> simp [pageEvents, hfound] at h
  | _ => simp [pageEvents] at h

lemma remembered_startup {log : List PageEvent}
    (h : (remembered log).priceError = "Startup price unavailable. Retrying automatically.") :
    .startupRejected ∈ log := by
  induction log with
  | nil => simp [remembered, memory, init] at h
  | cons event log ih =>
    have hrest (hsame : (remembered (event :: log)).priceError = (remembered log).priceError) :
        .startupRejected ∈ event :: log := List.mem_cons_of_mem _ (ih (hsame.symm.trans h))
    cases event with
    | heartbeat => exact hrest rfl
    | startupRejected => exact List.mem_cons_self
    | fault kind =>
      cases kind with
      | presence => exact hrest rfl
      | price => simp [remembered, Memory.after] at h
    | reported report =>
      change (Memory.after (.reported report) (remembered log)).priceError = _ at h
      simp only [Memory.after] at h
      split at h <;> simp at h

/-- Visibility, timers, responses, failures and aborts in any order, with any bodies. The page keeps the latest report
that it accepted in the visibility period of its request, except that an unavailable price never takes the place of
quotes; and its two error texts are empty exactly where the latest word about the price is a report that it kept, and
where the latest heartbeat was answered. -/
theorem page_memory_law {trace : List (Polling × Input × Action)} {s : Polling}
    (h : pollingMachine.traced.Run .init trace s) :
    s.page.lastData = (kept (heard trace)).map Report.data ∧ s.body = (kept (heard trace)).map Report.body ∧
    s.page.receivedAt = (kept (heard trace)).elim 0 Report.receivedAt ∧
    (∀ report, kept (heard trace) = some report →
      validate report.body = some report.data ∧
      ∃ newer older, reports (heard trace) = newer ++ report :: older ∧ (∀ later ∈ newer, later.unavailable = true) ∧
        (newer ≠ [] → report.hasQuotes = true)) ∧
    (s.page.priceError = "" ↔ PriceKnown (heard trace)) ∧
    (s.page.presenceError = "" ↔ PresenceKnown (heard trace)) := by
  have hmemory := memory_run h
  obtain ⟨hdata, hbody, hreceived⟩ := remembered_data (heard trace)
  rw [← hmemory] at hdata hbody hreceived
  refine ⟨hdata, hbody, hreceived, fun report hkept => ?_, ?_, ?_⟩
  · obtain ⟨newer, older, hsplit, hnewer, hquotes⟩ := kept_latest hkept
    obtain ⟨_, _, _, _, _, _, _, _, _, haccepted⟩ :=
      reported_entry (hsplit ▸ List.mem_append_right _ List.mem_cons_self)
    exact ⟨accepted_validate haccepted, newer, older, hsplit, hnewer, hquotes⟩
  · have herror : s.page.priceError = (remembered (heard trace)).priceError := congrArg Memory.priceError hmemory
    rw [herror]
    exact remembered_priceError (heard trace)
  · have herror : s.page.presenceError = (remembered (heard trace)).presenceError :=
      congrArg Memory.presenceError hmemory
    rw [herror]
    exact remembered_presenceError (heard trace)

/-- A live report of one provider. -/
def liveKraken : Json :=
  .object [("status", .string "LIVE"),
    ("sources", .array [.object [("source", .string "Kraken"), ("price_usd", .number (.finite 50000)),
      ("age_seconds", .number (.finite 5)), ("freshness", .string "fresh")]]),
    ("provider_health", .array []), ("warnings", .array []),
    ("coverage", .object [("contributing_sources", .array [.string "Kraken"]),
      ("configured_source_count", .number (.finite 1))]),
    ("source_max_age_seconds", .number (.finite 90)), ("evaluated_at_unix", .number (.finite 0))]

/-- The first heartbeat brings a live report. -/
def liveStart : List Input := [.pageshow false, .respond 0 200, .body 0 (some (.object [("price", liveKraken)])) 0]

/-- An unavailable price after a live report, which is kept. -/
theorem page_memory_law_retained : ∃ trace s, pollingMachine.traced.Run .init trace s ∧
    ¬PriceKnown (heard trace) ∧ ∃ report, kept (heard trace) = some report ∧ report.hasQuotes = true := by
  have hchecked : (pollingMachine.traced.exec [] .init (liveStart ++ [.startup ⟨1, some 5000⟩, .fire 2, .respond 3 503,
      .body 3 (some (.object [("status", .string "UNAVAILABLE"), ("sources", .array []), ("provider_health", .array []),
        ("warnings", .array []), ("coverage", .object [("contributing_sources", .array []),
        ("configured_source_count", .number (.finite 1))]), ("source_max_age_seconds", .number (.finite 90)),
        ("evaluated_at_unix", .number (.finite 0))])) 1000])).any (fun r =>
      r.2.page.priceError ≠ "" && r.2.page.lastData.any fun last => !last.sources.isEmpty) = true := by decide +kernel
  obtain ⟨⟨trace, s⟩, hexec, hboth⟩ := (Option.any_eq_true _ _).mp hchecked
  obtain ⟨herror, hquotes⟩ := Bool.and_eq_true_iff.mp hboth
  have hrun := Machine.run_of_exec _ hexec
  obtain ⟨hdata, _, _, _, hprice, _⟩ := page_memory_law hrun
  obtain ⟨data, hlast, hsources⟩ := (Option.any_eq_true _ _).mp hquotes
  obtain ⟨report, hkept, rfl⟩ := Option.map_eq_some_iff.mp (hdata.symm.trans hlast)
  exact ⟨trace, s, hrun, fun hknown => of_decide_eq_true herror (hprice.mpr hknown), report, hkept, hsources⟩

/-- The page says that the price is live only where the latest word about it is a live report of the configured number
of distinct contributors, the latest heartbeat was answered, and each contributor was fresh when the report was
received and would still be fresh by its age and the time since. -/
theorem live_label_law {trace : List (Polling × Input × Action)} {s : Polling}
    (h : pollingMachine.traced.Run .init trace s) {now : ℚ} {view : PriceView} (hview : s.page.render now = some view)
    (hlabel : view.label = "LIVE") :
    ∃ report, (heard trace).find? PageEvent.aboutPrice = some (.reported report) ∧ kept (heard trace) = some report ∧
      PresenceKnown (heard trace) ∧ report.data.status = "LIVE" ∧
      (view.contributors.length : ℚ) = report.data.configuredSourceCount ∧
      (view.contributors.map fun aged => aged.source.source) = report.data.contributingSources ∧
      ∀ aged ∈ view.contributors, aged.source ∈ report.data.sources ∧ aged.source.freshness = "fresh" ∧
        ∃ age, aged.source.ageSeconds = some age ∧
          age + (max 0 ⌊(now - report.receivedAt) / 1000⌋ : ℤ) < report.data.sourceMaxAgeSeconds := by
  have hmemory := memory_run h
  obtain ⟨hdata, _, hreceived⟩ := remembered_data (heard trace)
  obtain ⟨data, hlast, hprice, hpresence, hstatus, hcount, hcontributors⟩ := render_live hview hlabel
  rw [← hmemory] at hdata hreceived
  obtain ⟨report, hkept, rfl⟩ := Option.map_eq_some_iff.mp (hdata.symm.trans hlast)
  have hknown : PriceKnown (heard trace) :=
    (remembered_priceError _).mp ((congrArg Memory.priceError hmemory).symm.trans hprice)
  have hanswered : PresenceKnown (heard trace) :=
    (remembered_presenceError _).mp ((congrArg Memory.presenceError hmemory).symm.trans hpresence)
  obtain ⟨newer, older, hsplit, _⟩ := kept_latest hkept
  obtain ⟨_, _, _, _, _, _, _, _, _, haccepted⟩ :=
    reported_entry (hsplit ▸ List.mem_append_right newer List.mem_cons_self)
  obtain ⟨hnames, hrows⟩ := validate_parts (accepted_validate haccepted)
  have hsublist : (view.contributors.map fun aged => aged.source.source).Sublist report.data.contributingSources :=
    hcontributors ▸ shownContributors_sublist _ _
  have hle : (report.data.contributingSources.length : ℚ) ≤ (view.contributors.length : ℚ) := hnames.trans hcount
  have hall : (view.contributors.map fun aged => aged.source.source) = report.data.contributingSources :=
    hsublist.eq_of_length_le (by simpa using (by exact_mod_cast hle : _ ≤ view.contributors.length))
  have helapsed : s.page.elapsed now = max 0 ⌊(now - report.receivedAt) / 1000⌋ := by
    have htime : s.page.receivedAt = report.receivedAt := hreceived.trans (by rw [hkept]; rfl)
    rw [Dashboard.elapsed, htime]
  refine ⟨report, hknown.latest hkept, hkept, hanswered, hstatus, ?_, hall, fun aged haged => ?_⟩
  · refine le_antisymm (le_trans ?_ hnames) hcount
    rw [← hall, List.length_map]
  · rw [hcontributors] at haged
    obtain ⟨haged, hfresh⟩ := mem_shownContributors haged
    obtain ⟨source, hsource, rfl⟩ := List.mem_map.mp haged
    obtain ⟨hbefore, hyoung⟩ := advance_fresh hfresh
    obtain ⟨row, hrow⟩ := hrows source hsource
    obtain ⟨age, hage⟩ := validateSource_age hrow hbefore
    refine ⟨hsource, hbefore, age, hage, ?_⟩
    have hlimit := hyoung age hage
    rwa [helapsed] at hlimit

/-- A second after the first heartbeat the page is live. -/
theorem live_label_law_first_heartbeat : ∃ trace s report, pollingMachine.traced.Run .init trace s ∧
    (heard trace).find? PageEvent.aboutPrice = some (.reported report) ∧
    report.data.contributingSources = ["Kraken"] := by
  have hchecked : (pollingMachine.traced.exec [] .init liveStart).any (fun r => (r.2.page.render 1000).any fun view =>
      view.label = "LIVE" && (view.contributors.map fun aged => aged.source.source) = ["Kraken"]) = true := by
    decide +kernel
  obtain ⟨⟨trace, s⟩, hexec, hshown⟩ := (Option.any_eq_true _ _).mp hchecked
  obtain ⟨view, hview, hboth⟩ := (Option.any_eq_true _ _).mp hshown
  obtain ⟨hlabel, hnames⟩ := Bool.and_eq_true_iff.mp hboth
  have hrun := Machine.run_of_exec _ hexec
  obtain ⟨report, hlatest, _, _, _, _, hall, _⟩ := live_label_law hrun hview (of_decide_eq_true hlabel)
  exact ⟨trace, s, report, hrun, hlatest, hall.symm.trans (of_decide_eq_true hnames)⟩

end Polling

end BitcoinPriceTracker

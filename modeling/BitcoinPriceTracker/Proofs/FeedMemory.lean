import BitcoinPriceTracker.Lib.Distinct
import BitcoinPriceTracker.Proofs.FeedPolling

namespace BitcoinPriceTracker

/-- An item with a title and an address of the web. -/
def FeedItem.headline (item : FeedItem) : Option Headline :=
  match item.url, item.title with
  | some url, some title =>
    if title = "" || url.protocol ∉ ["https:", "http:"] then none else some ⟨title, url.href, item.published⟩
  | _, _ => none

/-- The first thirty headlines with an address of their own. -/
def headlinesOf (items : List FeedItem) : List Headline :=
  (distinctBy Headline.href (items.filterMap FeedItem.headline)).take 30

lemma collectHeadlines_cons (entries : List Headline) (item : FeedItem) (rest : List FeedItem) :
    collectHeadlines entries (item :: rest) = item.headline.elim (collectHeadlines entries rest) fun headline =>
      if entries.any fun entry => entry.href = headline.href then collectHeadlines entries rest
      else if 30 ≤ entries.length + 1 then entries ++ [headline]
      else collectHeadlines (entries ++ [headline]) rest := by
  obtain ⟨title, url, published⟩ := item
  cases url with
  | none => rfl
  | some url =>
    cases title with
    | none => rfl
    | some title =>
      have hunfold : collectHeadlines entries (⟨some title, some url, published⟩ :: rest) =
          if title = "" || url.protocol ∉ ["https:", "http:"] || entries.any fun entry => entry.href = url.href then
            collectHeadlines entries rest
          else if 30 ≤ entries.length + 1 then entries ++ [⟨title, url.href, published⟩]
          else collectHeadlines (entries ++ [⟨title, url.href, published⟩]) rest := rfl
      have hheadline : FeedItem.headline ⟨some title, some url, published⟩ =
          if title = "" || url.protocol ∉ ["https:", "http:"] then none
          else some ⟨title, url.href, published⟩ := rfl
      rw [hunfold, hheadline]
      cases hrefused : (decide (title = "") || decide (url.protocol ∉ ["https:", "http:"])) with
      | true => simp only [Bool.true_or, if_true, Option.elim_none]
      | false => simp only [Bool.false_or, Bool.false_eq_true, if_false, Option.elim_some]

/-- The loop of `refreshFeed` appends the headlines that it has not met until it has thirty. -/
lemma collectHeadlines_eq (items : List FeedItem) : ∀ entries : List Headline, entries.length < 30 →
    collectHeadlines entries items = (entries ++ (distinctBy Headline.href (items.filterMap FeedItem.headline)).filter
      fun headline => !entries.any fun entry => entry.href = headline.href).take 30 := by
  induction items with
  | nil =>
    intro entries hshort
    have hnil : collectHeadlines entries [] = entries := rfl
    rw [hnil]
    simp [distinctBy, List.take_of_length_le hshort.le]
  | cons item rest ih =>
    intro entries hshort
    rw [collectHeadlines_cons]
    cases hheadline : item.headline with
    | none => rw [Option.elim_none, ih entries hshort, List.filterMap_cons_none hheadline]
    | some headline =>
      rw [Option.elim_some, List.filterMap_cons_some hheadline, filter_distinctBy_cons]
      split
      · exact ih entries hshort
      · split
        · next hfull =>
          have hlength : (entries ++ [headline]).length = 30 := by
            rw [List.length_append, List.length_singleton]
            omega
          rw [List.append_cons _ _ (List.filter _ _), List.take_append_of_le_length hlength.ge,
            List.take_of_length_le hlength.le]
        · next hroom =>
          rw [ih (entries ++ [headline]) (by rw [List.length_append, List.length_singleton]; omega), List.append_assoc,
            List.singleton_append]

lemma collectHeadlines_nil (items : List FeedItem) : collectHeadlines [] items = headlinesOf items := by
  rw [collectHeadlines_eq items [] (by simp), headlinesOf, List.nil_append]
  congr 1
  exact List.filter_eq_self.mpr (by simp)

namespace Feed

variable {parse : String → Option (List FeedItem)} {s : Feed} {call : FeedCall} {retryDelay : ℚ} {readings : Readings}

/-- The end of a request in its own visibility period: the body that is taken over with its xml, or nothing where the
attempt has failed; the delay up to the next one, and the clock at the end. -/
structure Word where
  data : Option (String × Json)
  delay : ℚ
  settled : ℤ

/-- The xml of a body, where it has a headline. -/
def takenOver (parse : String → Option (List FeedItem)) (data : Json) : Option (String × Json) :=
  (((data.get "xml").bind Json.asStr).filter fun xml => ((parse xml).map headlinesOf).any fun headlines =>
    !headlines.isEmpty).map fun xml => (xml, data)

/-- The word of a body. -/
def bodyWord (parse : String → Option (List FeedItem)) (call : FeedCall) (data : Json) (settled : ℤ) : Word :=
  if call.aborted then ⟨none, call.stage.retryDelay, settled⟩
  else
    ⟨takenOver parse data, if (data.get "refreshing").any Json.truthy then 2000 else call.stage.retryDelay, settled⟩

/-- The word that a step brings. -/
def word (parse : String → Option (List FeedItem)) : Feed × Input × Action → Option Word
  | (_, .visibilitychange _ _ readings, .settled) | (_, .pageshow _ readings, .settled)
  | (_, .fire _ _ readings, .settled) => some ⟨none, 300000, readings.settle⟩
  | (s, .respond request status retryAfter readings, .settled) =>
    ((s.findCall request).filter s.current).map fun call =>
      ⟨none, if call.aborted then 300000 else headerDelay status retryAfter, readings.settle⟩
  | (s, .body request data readings, _) =>
    ((s.findCall request).filter s.current).map fun call => bodyWord parse call data readings.settle
  | (s, .fail request readings, _) =>
    ((s.findCall request).filter s.current).map fun call => ⟨none, call.stage.retryDelay, readings.settle⟩
  | _ => none

/-- The words of a run, newest first. -/
def words (parse : String → Option (List FeedItem)) (trace : List (Feed × Input × Action)) : List Word :=
  trace.filterMap (word parse)

lemma words_cons (entry : Feed × Input × Action) (trace : List (Feed × Input × Action)) :
    words parse (entry :: trace) = (word parse entry).toList ++ words parse trace := by
  rw [words, List.filterMap_cons]
  cases word parse entry <;> rfl

/-- The text for a word, where `lastXml` has been taken over last. -/
def Word.status (lastXml : Option String) (w : Word) : String :=
  match w.data with
  | some (_, data) => shownStatus data
  | none =>
    let retry := if w.delay < 300000 then "retrying shortly" else "retrying in 5 minutes"
    if lastXml.any fun xml => xml ≠ "" then "Bitcoin.com · Showing previous headlines — " ++ retry
    else "Bitcoin news temporarily unavailable — " ++ retry

/-- What is shown and remembered. -/
structure Shown where
  lastXml : Option String
  headlines : List Headline
  status : String
  nextCheck : ℚ

def shown (s : Feed) : Shown := ⟨s.lastXml, s.headlines, s.status, s.nextCheck⟩

def Shown.after (parse : String → Option (List FeedItem)) (m : Shown) (w : Word) : Shown where
  lastXml := w.data.elim m.lastXml fun data => some data.1
  headlines := w.data.elim m.headlines fun data => (parse data.1).elim [] headlinesOf
  status := w.status m.lastXml
  nextCheck := w.settled + w.delay

/-- The headlines are those of the xml that is kept, and there are some. -/
structure Faithful (parse : String → Option (List FeedItem)) (m : Shown) : Prop where
  headlines : m.headlines = (m.lastXml.bind parse).elim [] headlinesOf
  kept : ∀ xml, m.lastXml = some xml → ((parse xml).map headlinesOf).any (fun headlines => !headlines.isEmpty) = true

lemma shown_scheduleFeed (s : Feed) (now : ℤ) : (s.scheduleFeed now).shown = s.shown := by
  rw [(scheduleFeed_rescheduled s now).same]
  rfl

lemma shown_finish_current (h : s.current call = true) :
    (s.finish call retryDelay readings).shown = { s.shown with nextCheck := readings.settle + retryDelay } := by
  unfold finish
  dsimp only
  rw [if_pos (show Feed.current { s with request := none, calls := s.calls.erase call } call = true from h),
    shown_scheduleFeed]
  rfl

variable (retryDelay readings) in
lemma shown_finish_late (h : s.current call = false) : (s.finish call retryDelay readings).shown = s.shown := by
  unfold finish
  dsimp only
  have hlate : ¬Feed.current { s with request := none, calls := s.calls.erase call } call = true :=
    Bool.eq_false_iff.mp h
  rw [if_neg hlate, shown_scheduleFeed]
  rfl

variable (parse) in
lemma shown_fault (h : s.current call = true) :
    ((s.fault call retryDelay).finish call retryDelay readings).shown =
      s.shown.after parse ⟨none, retryDelay, readings.settle⟩ := by
  have hfault : (s.fault call retryDelay).current call = true := by
    unfold fault
    rw [if_pos h]
    exact h
  rw [shown_finish_current hfault]
  unfold fault
  rw [if_pos h]
  rfl

variable (parse) in
lemma shown_refreshFeed {available : Bool} {s' : Feed} {a : Action} (h : s.refreshFeed available readings = (s', a)) :
    s'.shown = if a = .settled then s.shown.after parse ⟨none, 300000, readings.settle⟩ else s.shown := by
  unfold refreshFeed at h
  split at h
  · obtain ⟨rfl, rfl⟩ := Prod.mk.inj h
    rfl
  · next hopen =>
    split at h
    · obtain ⟨rfl, rfl⟩ := Prod.mk.inj h
      exact shown_scheduleFeed s readings.schedule
    · cases available with
      | true =>
        obtain ⟨rfl, rfl⟩ := Prod.mk.inj h
        rfl
      | false =>
        obtain ⟨rfl, rfl⟩ := Prod.mk.inj h
        have hcurrent : (s.own ⟨s.nextId, s.generation, .headers, false, false⟩).current
            ⟨s.nextId, s.generation, .headers, false, false⟩ = true := by
          simp only [Bool.or_eq_true, not_or] at hopen
          simp_all [current, own, clearTimer]
        exact shown_fault parse hcurrent

lemma takenOver_none {data : Json} (h : (data.get "xml").bind Json.asStr = none) : takenOver parse data = none := by
  rw [takenOver, h]
  rfl

lemma takenOver_some {data : Json} {xml : String} (h : (data.get "xml").bind Json.asStr = some xml) :
    takenOver parse data =
      if ((parse xml).map headlinesOf).any (fun headlines => !headlines.isEmpty) = true then some (xml, data)
      else none := by
  rw [takenOver, h, Option.filter_some]
  split
  · rfl
  · rfl

lemma shown_receiveFeed (h : s.current call = true) (hfaithful : Faithful parse s.shown) (data : Json)
    (haborted : call.aborted = false) :
    ((s.receiveFeed parse call data).1.finish call (s.receiveFeed parse call data).2 readings).shown =
      s.shown.after parse (bodyWord parse call data readings.settle) := by
  unfold receiveFeed bodyWord
  rw [haborted]
  simp only [Bool.false_eq_true, if_false]
  generalize (if (data.get "refreshing").any Json.truthy = true then (2000 : ℚ) else call.stage.retryDelay) = delay
  cases hxml : (data.get "xml").bind Json.asStr with
  | none =>
    rw [takenOver_none hxml]
    exact shown_fault parse h
  | some xml =>
    rw [takenOver_some hxml]
    dsimp only
    by_cases hsame : s.lastXml = some xml
    · -- The page shows the headlines of this xml already.
      rw [if_pos hsame, if_pos (hfaithful.kept xml hsame)]
      have hheadlines : s.headlines = (parse xml).elim [] headlinesOf := by
        have hshown : s.headlines = (s.lastXml.bind parse).elim [] headlinesOf := hfaithful.headlines
        rwa [hsame] at hshown
      rw [shown_finish_current (s := { s with status := shownStatus data }) h]
      simp [Shown.after, shown, Word.status, hsame, hheadlines]
    · rw [if_neg hsame]
      cases hparse : parse xml with
      | none => exact shown_fault parse h
      | some items =>
        cases hitems : headlinesOf items with
        | nil =>
          simp only [Option.map_some, collectHeadlines_nil, hitems]
          exact shown_fault parse h
        | cons headline rest =>
          simp only [Option.map_some, collectHeadlines_nil, hitems, Option.any_some, List.isEmpty_cons, Bool.not_false,
            if_true]
          rw [shown_finish_current
            (s := { s with headlines := headline :: rest, lastXml := some xml, status := shownStatus data }) h]
          simp [Shown.after, shown, Word.status, hparse, hitems]

lemma Faithful.after {m : Shown} (h : Faithful parse m) {w : Word}
    (hw : ∀ data, w.data = some data →
      ((parse data.1).map headlinesOf).any (fun headlines => !headlines.isEmpty) = true) :
    Faithful parse (m.after parse w) := by
  unfold Shown.after
  cases hdata : w.data with
  | none => exact ⟨h.headlines, h.kept⟩
  | some data =>
    refine ⟨rfl, fun xml hxml => ?_⟩
    obtain rfl := Option.some.inj hxml
    exact hw data hdata

lemma takenOver_headlines {data : Json} {taken : String × Json} (h : takenOver parse data = some taken) :
    ((parse taken.1).map headlinesOf).any (fun headlines => !headlines.isEmpty) = true ∧ taken.2 = data ∧
      (data.get "xml").bind Json.asStr = some taken.1 := by
  cases hxml : (data.get "xml").bind Json.asStr with
  | none => simp [takenOver_none hxml] at h
  | some xml =>
    rw [takenOver_some hxml] at h
    split at h
    · next hany =>
      obtain rfl := Option.some.inj h
      exact ⟨hany, rfl, rfl⟩
    · cases h

variable {s' : Feed} {i : Input} {a : Action}

lemma heard_current {request : ℕ} (hfind : s.findCall request = some call) (hcurrent : s.current call = true) :
    (s.findCall request).filter s.current = some call := by
  rw [hfind, Option.filter_some, if_pos hcurrent]

lemma heard_late {request : ℕ} (hfind : s.findCall request = some call) (hcurrent : s.current call = false) :
    (s.findCall request).filter s.current = none := by
  rw [hfind, Option.filter_some, if_neg (by simp [hcurrent])]

lemma shown_stopFeed (hidden : Bool) (h : { s with hidden }.stopFeed = (s', a)) :
    s'.shown = s.shown ∧ a ≠ .settled := by
  unfold stopFeed at h
  split at h
  · obtain ⟨rfl, rfl⟩ := Prod.mk.inj h
    exact ⟨rfl, nofun⟩
  · obtain ⟨rfl, rfl⟩ := Prod.mk.inj h
    exact ⟨rfl, nofun⟩

variable (parse) in
lemma shown_startFeed (hidden : Bool) {available : Bool}
    (h : { s with hidden }.startFeed available readings = (s', a)) :
    s'.shown = if a = .settled then s.shown.after parse ⟨none, 300000, readings.settle⟩ else s.shown := by
  unfold startFeed at h
  split at h
  · obtain ⟨rfl, rfl⟩ := Prod.mk.inj h
    rfl
  · have hshown := shown_refreshFeed parse h
    exact hshown

/-- The page after a step shows what the word of the step says. -/
lemma shown_step (hfaithful : Faithful parse s.shown) (h : (feedMachine parse).step s i = some (s', a)) :
    s'.shown = (word parse (s, i, a)).elim s.shown (s.shown.after parse) := by
  cases i with
  | visibilitychange hidden available readings =>
    cases hidden with
    | true =>
      obtain ⟨hshown, hother⟩ := shown_stopFeed true (Option.some.inj h)
      rw [hshown]
      cases a <;> first | rfl | exact absurd rfl hother
    | false =>
      rw [shown_startFeed parse false (Option.some.inj h)]
      cases a <;> rfl
  | pagehide => exact (shown_stopFeed (s := s) s.hidden (Option.some.inj h)).1
  | pageshow available readings =>
    rw [shown_startFeed parse (s := s) s.hidden (Option.some.inj h)]
    cases a <;> rfl
  | fire id available readings =>
    obtain ⟨timer, _, heq⟩ := Option.map_eq_some_iff.mp h
    rw [shown_refreshFeed parse heq]
    cases a <;> rfl
  | deadline request =>
    obtain ⟨call, _, heq⟩ := Option.map_eq_some_iff.mp h
    obtain ⟨rfl, rfl⟩ := Prod.mk.inj heq
    rfl
  | respond request status retryAfter readings =>
    obtain ⟨call, hcall, heq⟩ := Option.map_eq_some_iff.mp h
    have hfind := (Option.filter_eq_some_iff.mp hcall).1
    unfold respond at heq
    dsimp only at heq
    cases hcurrent : s.current call with
    | false =>
      rw [hcurrent] at heq
      obtain ⟨rfl, rfl⟩ := Prod.mk.inj heq
      rw [shown_finish_late _ _ hcurrent]
      simp [word, heard_late hfind hcurrent]
    | true =>
      simp only [hcurrent, Bool.not_true, Bool.false_eq_true, if_false] at heq
      cases haborted : call.aborted with
      | true =>
        rw [haborted, if_pos rfl] at heq
        obtain ⟨rfl, rfl⟩ := Prod.mk.inj heq
        rw [shown_fault parse hcurrent]
        simp [word, heard_current hfind hcurrent, haborted]
      | false =>
        simp only [haborted, Bool.false_eq_true, if_false] at heq
        split at heq
        · obtain ⟨rfl, rfl⟩ := Prod.mk.inj heq
          rw [shown_fault parse hcurrent]
          simp [word, heard_current hfind hcurrent, haborted]
        · obtain ⟨rfl, rfl⟩ := Prod.mk.inj heq
          rfl
  | body request data readings =>
    obtain ⟨call, hcall, heq⟩ := Option.map_eq_some_iff.mp h
    have hfind := (Option.filter_eq_some_iff.mp hcall).1
    unfold receiveBody at heq
    dsimp only at heq
    cases hcurrent : s.current call with
    | false =>
      rw [hcurrent] at heq
      obtain ⟨rfl, rfl⟩ := Prod.mk.inj heq
      rw [shown_finish_late _ _ hcurrent]
      simp [word, heard_late hfind hcurrent]
    | true =>
      have hword : word parse (s, .body request data readings, a) =
          some (bodyWord parse call data readings.settle) := by
        simp [word, heard_current hfind hcurrent]
      rw [hword, Option.elim_some]
      simp only [hcurrent, Bool.not_true, Bool.false_eq_true, if_false] at heq
      cases haborted : call.aborted with
      | true =>
        rw [haborted, if_pos rfl] at heq
        obtain ⟨rfl, rfl⟩ := Prod.mk.inj heq
        rw [shown_fault parse hcurrent, bodyWord, if_pos haborted]
      | false =>
        simp only [haborted, Bool.false_eq_true, if_false] at heq
        obtain ⟨rfl, rfl⟩ := Prod.mk.inj heq
        exact shown_receiveFeed hcurrent hfaithful data haborted
  | fail request readings =>
    obtain ⟨call, hfind, heq⟩ := Option.map_eq_some_iff.mp h
    obtain ⟨rfl, rfl⟩ := Prod.mk.inj heq
    cases hcurrent : s.current call with
    | false =>
      have hfault : s.fault call call.stage.retryDelay = s := by simp [fault, hcurrent]
      rw [hfault, shown_finish_late _ _ hcurrent]
      simp [word, heard_late hfind hcurrent]
    | true =>
      rw [shown_fault parse hcurrent]
      simp [word, heard_current hfind hcurrent]

/-- The delay that a call has asked for so far is at least a second and at most five minutes. -/
def Prompt (s : Feed) : Prop := ∀ call ∈ s.calls, 1000 ≤ call.stage.retryDelay ∧ call.stage.retryDelay ≤ 300000

lemma headerDelay_bounds (status : ℕ) (retryAfter : F64) :
    1000 ≤ headerDelay status retryAfter ∧ headerDelay status retryAfter ≤ 300000 := by
  have hlong : (1000 : ℚ) ≤ 300000 ∧ (300000 : ℚ) ≤ 300000 := by norm_num
  unfold headerDelay
  split
  · next seconds =>
    split
    · have hlow : (1 : ℚ) ≤ min 30 (max 1 seconds) := le_min (by norm_num) (le_max_left 1 seconds)
      have hhigh : min 30 (max 1 seconds) ≤ (30 : ℚ) := min_le_left 30 (max 1 seconds)
      exact ⟨by linarith, by linarith⟩
    · exact hlong
  · exact hlong

/-- The calls of `s'` are new or have been open in `s`, at the same stage. -/
def Kept (s s' : Feed) : Prop :=
  ∀ call ∈ s'.calls, call.stage = .headers ∨ ∃ old ∈ s.calls, old.id = call.id ∧ old.stage = call.stage

lemma Kept.of_subset (h : s'.calls ⊆ s.calls) : Kept s s' := fun call hcall => .inr ⟨call, h hcall, rfl, rfl⟩

lemma Kept.trans {middle : Feed} (h : Kept s middle) (h' : Kept middle s') : Kept s s' := by
  intro call hcall
  rcases h' call hcall with hnew | ⟨old, hold, hid, hstage⟩
  · exact .inl hnew
  · rcases h old hold with hnew | ⟨older, holder, hid', hstage'⟩
    · exact .inl (hstage ▸ hnew)
    · exact .inr ⟨older, holder, hid'.trans hid, hstage'.trans hstage⟩

lemma kept_finish {middle : Feed} (hreceived : Received s middle call) (retryDelay : ℚ) (readings : Readings) :
    Kept s (middle.finish call retryDelay readings) := by
  obtain ⟨nextCheck, _, hfinish⟩ := finish_rescheduled middle call retryDelay readings
  apply Kept.of_subset
  intro other hother
  rw [hfinish.same, hreceived.same] at hother
  exact List.mem_of_mem_erase hother

lemma kept_refreshFeed {available : Bool} (h : s.refreshFeed available readings = (s', a)) : Kept s s' := by
  have hown : Kept s (s.own ⟨s.nextId, s.generation, .headers, false, available⟩) := by
    intro call hcall
    rcases List.mem_cons.mp hcall with rfl | hold
    · exact .inl rfl
    · exact .inr ⟨call, hold, rfl, rfl⟩
  unfold Feed.refreshFeed at h
  split at h
  · obtain ⟨rfl, rfl⟩ := Prod.mk.inj h
    exact .of_subset (List.Subset.refl _)
  · split at h
    · obtain ⟨rfl, rfl⟩ := Prod.mk.inj h
      apply Kept.of_subset
      rw [(scheduleFeed_rescheduled s readings.schedule).same]
      exact List.Subset.refl _
    · cases available with
      | true =>
        obtain ⟨rfl, rfl⟩ := Prod.mk.inj h
        exact hown
      | false =>
        obtain ⟨rfl, rfl⟩ := Prod.mk.inj h
        exact hown.trans (kept_finish (fault_received _ _ _) _ _)

lemma kept_updateCalls {which : FeedCall → Bool} {update : FeedCall → FeedCall}
    (hupdate : ∀ call, (update call).id = call.id ∧ (update call).stage = call.stage) :
    Kept s (s.updateCalls which update) := by
  intro call hcall
  obtain ⟨old, hold, rfl⟩ := List.mem_map.mp hcall
  split
  · exact .inr ⟨old, hold, (hupdate old).1.symm, (hupdate old).2.symm⟩
  · exact .inr ⟨old, hold, rfl, rfl⟩

lemma kept_stopFeed (hidden : Bool) (h : { s with hidden }.stopFeed = (s', a)) : Kept s s' := by
  unfold Feed.stopFeed at h
  split at h
  · obtain ⟨rfl, rfl⟩ := Prod.mk.inj h
    exact kept_updateCalls fun _ => ⟨rfl, rfl⟩
  · obtain ⟨rfl, rfl⟩ := Prod.mk.inj h
    exact .of_subset (List.Subset.refl _)

lemma kept_startFeed (hidden : Bool) {available : Bool} (h : { s with hidden }.startFeed available readings = (s', a)) :
    Kept s s' := by
  unfold Feed.startFeed at h
  split at h
  · obtain ⟨rfl, rfl⟩ := Prod.mk.inj h
    exact .of_subset (List.Subset.refl _)
  · have hkept := kept_refreshFeed h
    exact hkept

/-- A call takes its delay from the headers of its own response. -/
lemma stage_step (hs : (feedMachine parse).step s i = some (s', a)) :
    Kept s s' ∨ ∃ request status retryAfter readings, i = .respond request status retryAfter readings ∧
      responseOk status = true ∧ ∀ call ∈ s'.calls, (∃ old ∈ s.calls, old.id = call.id ∧ old.stage = call.stage) ∨
        call.id = request ∧ call.stage = .body (headerDelay status retryAfter) := by
  cases i with
  | visibilitychange hidden available readings =>
    cases hidden with
    | true => exact .inl (kept_stopFeed true (Option.some.inj hs))
    | false => exact .inl (kept_startFeed false (Option.some.inj hs))
  | pagehide => exact .inl (kept_stopFeed s.hidden (Option.some.inj hs))
  | pageshow available readings => exact .inl (kept_startFeed s.hidden (Option.some.inj hs))
  | fire id available readings =>
    obtain ⟨timer, _, heq⟩ := Option.map_eq_some_iff.mp hs
    have hkept := kept_refreshFeed heq
    exact .inl hkept
  | deadline request =>
    obtain ⟨call, _, heq⟩ := Option.map_eq_some_iff.mp hs
    obtain ⟨rfl, rfl⟩ := Prod.mk.inj heq
    exact .inl (kept_updateCalls fun _ => ⟨rfl, rfl⟩)
  | respond request status retryAfter readings =>
    obtain ⟨call, hcall, heq⟩ := Option.map_eq_some_iff.mp hs
    obtain ⟨_, rfl⟩ := findCall_eq_some (Option.filter_eq_some_iff.mp hcall).1
    unfold Feed.respond at heq
    dsimp only at heq
    split at heq
    · obtain ⟨rfl, rfl⟩ := Prod.mk.inj heq
      exact .inl (kept_finish ⟨rfl, fun _ => rfl⟩ _ _)
    split at heq
    · obtain ⟨rfl, rfl⟩ := Prod.mk.inj heq
      exact .inl (kept_finish (fault_received _ _ _) _ _)
    split at heq
    · obtain ⟨rfl, rfl⟩ := Prod.mk.inj heq
      exact .inl (kept_finish (fault_received _ _ _) _ _)
    · next hok =>
      obtain ⟨rfl, rfl⟩ := Prod.mk.inj heq
      refine .inr ⟨_, status, retryAfter, readings, rfl, by simpa using hok, fun other hother => ?_⟩
      obtain ⟨old, hold, rfl⟩ := List.mem_map.mp hother
      split
      · next hid => exact .inr ⟨of_decide_eq_true hid, rfl⟩
      · exact .inl ⟨old, hold, rfl, rfl⟩
  | body request data readings =>
    obtain ⟨call, _, heq⟩ := Option.map_eq_some_iff.mp hs
    unfold Feed.receiveBody at heq
    dsimp only at heq
    split at heq
    · obtain ⟨rfl, rfl⟩ := Prod.mk.inj heq
      exact .inl (kept_finish ⟨rfl, fun _ => rfl⟩ _ _)
    · next hcurrent =>
      split at heq
      · obtain ⟨rfl, rfl⟩ := Prod.mk.inj heq
        exact .inl (kept_finish (fault_received _ _ _) _ _)
      · obtain ⟨rfl, rfl⟩ := Prod.mk.inj heq
        exact .inl (kept_finish (receiveFeed_received call data (by simpa using hcurrent)) _ _)
  | fail request readings =>
    obtain ⟨call, _, heq⟩ := Option.map_eq_some_iff.mp hs
    obtain ⟨rfl, rfl⟩ := Prod.mk.inj heq
    exact .inl (kept_finish (fault_received _ _ _) _ _)

lemma Prompt.step (h : Prompt s) (hs : (feedMachine parse).step s i = some (s', a)) : Prompt s' := by
  intro call hcall
  have hold {old : FeedCall} (hold : old ∈ s.calls) (hstage : old.stage = call.stage) :
      1000 ≤ call.stage.retryDelay ∧ call.stage.retryDelay ≤ 300000 := hstage ▸ h old hold
  rcases stage_step hs with hkept | ⟨request, status, retryAfter, readings, _, _, hcalls⟩
  · rcases hkept call hcall with hnew | ⟨old, hmem, _, hstage⟩
    · rw [hnew]
      norm_num [FeedStage.retryDelay]
    · exact hold hmem hstage
  · rcases hcalls call hcall with ⟨old, hmem, _, hstage⟩ | ⟨_, hstage⟩
    · exact hold hmem hstage
    · rw [hstage]
      exact headerDelay_bounds status retryAfter

lemma word_bounds (h : Prompt s) {w : Word} (hw : word parse (s, i, a) = some w) :
    (1000 ≤ w.delay ∧ w.delay ≤ 300000) ∧ ∀ data, w.data = some data →
      ((parse data.1).map headlinesOf).any (fun headlines => !headlines.isEmpty) = true := by
  have hlong : (1000 : ℚ) ≤ 300000 ∧ (300000 : ℚ) ≤ 300000 := by norm_num
  have hcall {request : ℕ} {call : FeedCall} (hfind : (s.findCall request).filter s.current = some call) :=
    h call (findCall_eq_some (Option.filter_eq_some_iff.mp hfind).1).1
  cases i with
  | visibilitychange | pageshow | fire =>
    cases a with
    | settled =>
      obtain rfl := Option.some.inj hw
      exact ⟨hlong, by simp⟩
    | _ => cases hw
  | respond request status retryAfter readings =>
    cases a with
    | settled =>
      obtain ⟨call, _, rfl⟩ := Option.map_eq_some_iff.mp hw
      refine ⟨?_, by simp⟩
      dsimp only
      split
      · exact hlong
      · exact headerDelay_bounds status retryAfter
    | _ => cases hw
  | body request data readings =>
    obtain ⟨call, hfind, rfl⟩ := Option.map_eq_some_iff.mp hw
    unfold bodyWord
    split
    · exact ⟨hcall hfind, by simp⟩
    · refine ⟨?_, fun taken htaken => (takenOver_headlines htaken).1⟩
      dsimp only
      split
      · norm_num
      · exact hcall hfind
  | fail request readings =>
    obtain ⟨call, hfind, rfl⟩ := Option.map_eq_some_iff.mp hw
    exact ⟨hcall hfind, by simp⟩
  | pagehide | deadline => cases hw

/-- What the words heard so far have made of the page. -/
structure Told (parse : String → Option (List FeedItem)) (ws : List Word) (s : Feed) : Prop where
  lastXml : s.lastXml = ws.findSome? fun w => w.data.map Prod.fst
  status : s.status = ws.head?.elim "Loading Bitcoin.com RSS…" (Word.status s.lastXml)
  nextCheck : s.nextCheck = ws.head?.elim 0 fun w => w.settled + w.delay
  faithful : Faithful parse s.shown
  prompt : Prompt s
  bounds : ∀ w ∈ ws, 1000 ≤ w.delay ∧ w.delay ≤ 300000

lemma Told.step {ws : List Word} (h : Told parse ws s) (hs : (feedMachine parse).step s i = some (s', a)) :
    Told parse ((word parse (s, i, a)).toList ++ ws) s' := by
  have hshown := shown_step h.faithful hs
  have hprompt := h.prompt.step hs
  cases hw : word parse (s, i, a) with
  | none =>
    rw [hw, Option.elim_none] at hshown
    obtain ⟨hxml, hheadlines, hstatus, hcheck⟩ := Shown.mk.inj hshown
    refine ⟨hxml.trans h.lastXml, ?_, hcheck.trans h.nextCheck, hshown ▸ h.faithful, hprompt, h.bounds⟩
    rw [hstatus, hxml]
    exact h.status
  | some w =>
    rw [hw, Option.elim_some] at hshown
    obtain ⟨hbounds, htaken⟩ := word_bounds h.prompt hw
    have hxml : s'.lastXml = w.data.elim s.lastXml fun data => some data.1 := congrArg Shown.lastXml hshown
    refine ⟨?_, ?_, congrArg Shown.nextCheck hshown, hshown ▸ h.faithful.after htaken, hprompt,
      List.forall_mem_cons.mpr ⟨hbounds, h.bounds⟩⟩
    · rw [hxml, Option.toList_some, List.singleton_append, List.findSome?_cons]
      cases w.data with
      | none => exact h.lastXml
      | some data => rfl
    · have hstatus : s'.status = w.status s.lastXml := congrArg Shown.status hshown
      rw [hstatus, Option.toList_some, List.singleton_append, List.head?_cons, Option.elim_some, hxml]
      unfold Word.status
      cases w.data with
      | none => rfl
      | some data => rfl

theorem Told.run {hidden : Bool} {trace : List (Feed × Input × Action)}
    (h : (feedMachine parse).traced.Run (.init hidden) trace s) : Told parse (words parse trace) s := by
  refine h.invariant (P := fun trace s => Told parse (words parse trace) s) ?_ ?_
  · exact ⟨rfl, rfl, rfl, ⟨rfl, nofun⟩, by simp [Prompt, init], by simp [words]⟩
  · intro trace s i s' entry _ ih hs
    obtain ⟨a, hstep, rfl⟩ := Machine.traced_step.mp hs
    have htold := ih.step hstep
    rwa [words_cons]

/-- In every run of the feed the headlines are the first thirty of different addresses in the xml that was taken over
last, there are some as soon as one was, and no failure takes them away. The status text is that of the latest word,
and the next check is due at its end and its delay, which is at least a second and at most five minutes. -/
theorem feed_page_law (parse : String → Option (List FeedItem)) (hidden : Bool)
    {trace : List (Feed × Input × Action)} {s : Feed} (h : (feedMachine parse).traced.Run (.init hidden) trace s) :
    s.lastXml = ((words parse trace).findSome? fun w => w.data.map Prod.fst) ∧
    s.headlines = (s.lastXml.bind parse).elim [] headlinesOf ∧
    (s.lastXml.isSome = true → s.headlines ≠ []) ∧
    s.headlines.length ≤ 30 ∧ (s.headlines.Pairwise fun headline other => headline.href ≠ other.href) ∧
    s.status = (words parse trace).head?.elim "Loading Bitcoin.com RSS…" (Word.status s.lastXml) ∧
    s.nextCheck = ((words parse trace).head?.elim 0 fun w => w.settled + w.delay) ∧
    ∀ w ∈ words parse trace, 1000 ≤ w.delay ∧ w.delay ≤ 300000 := by
  have htold := Told.run h
  have hheadlines : s.headlines = (s.lastXml.bind parse).elim [] headlinesOf := htold.faithful.headlines
  have hshort (items : List FeedItem) : (headlinesOf items).length ≤ 30 ∧
      (headlinesOf items).Pairwise fun headline other => headline.href ≠ other.href :=
    ⟨List.length_take_le _ _, (distinctBy_pairwise _ _).sublist (List.take_sublist _ _)⟩
  refine ⟨htold.lastXml, hheadlines, fun hsome => ?_, ?_, ?_, htold.status, htold.nextCheck, htold.bounds⟩
  · obtain ⟨xml, hxml⟩ := Option.isSome_iff_exists.mp hsome
    have hkept := htold.faithful.kept xml hxml
    rw [hheadlines, hxml, Option.bind_some]
    cases hparse : parse xml with
    | none => simp [hparse] at hkept
    | some items => simpa [hparse] using hkept
  · rw [hheadlines]
    cases s.lastXml.bind parse with
    | none => exact Nat.zero_le 30
    | some items => exact (hshort items).1
  · rw [hheadlines]
    cases s.lastXml.bind parse with
    | none => exact .nil
    | some items => exact (hshort items).2

/-- A feed of three items, two of them with one address. -/
def feedText : String :=
  "<rss version=\"2.0\"><channel><item><title>A</title><link>https://news.bitcoin.com/a/</link></item>" ++
    "<item><title>A again</title><link>https://news.bitcoin.com/a/</link></item>" ++
    "<item><title>B</title><link>https://news.bitcoin.com/b/</link></item></channel></rss>"

/-- What the browser makes of it. -/
def twoHeadlines (xml : String) : Option (List FeedItem) :=
  if xml = feedText then
    some [⟨some "A", some ⟨"https://news.bitcoin.com/a/", "https:"⟩, none⟩,
      ⟨some "A again", some ⟨"https://news.bitcoin.com/a/", "https:"⟩, none⟩,
      ⟨some "B", some ⟨"https://news.bitcoin.com/b/", "https:"⟩, none⟩]
  else none

/-- The request after a good one fails, and the headlines stay. -/
theorem feed_page_law_failure : ∃ trace s, (feedMachine twoHeadlines).traced.Run (.init false) trace s ∧
    s.headlines.map Headline.title = ["A", "B"] ∧
    s.status = "Bitcoin.com · Showing previous headlines — retrying in 5 minutes" ∧
    s.nextCheck = (words twoHeadlines trace).head?.elim 0 fun w => w.settled + w.delay := by
  have hchecked : ((feedMachine twoHeadlines).traced.exec [] (.init false)
      [.pageshow true ⟨0, 0, 0⟩, .respond 0 200 .nan ⟨5, 5, 5⟩,
        .body 0 (.object [("xml", .string feedText), ("stale", .bool false), ("refreshing", .bool false)]) ⟨10, 10, 10⟩,
        .fire 1 true ⟨300010, 300010, 300010⟩, .fail 2 ⟨300020, 300020, 300020⟩]).any (fun r =>
          decide (r.2.headlines.map Headline.title = ["A", "B"]) &&
            decide (r.2.status = "Bitcoin.com · Showing previous headlines — retrying in 5 minutes")) = true := by
    decide +kernel
  obtain ⟨⟨trace, s⟩, hexec, hboth⟩ := (Option.any_eq_true _ _).mp hchecked
  obtain ⟨htitles, hstatus⟩ := Bool.and_eq_true_iff.mp hboth
  have hrun := Machine.run_of_exec _ hexec
  have hlaw := feed_page_law twoHeadlines false hrun
  exact ⟨trace, s, hrun, of_decide_eq_true htitles, of_decide_eq_true hstatus, hlaw.2.2.2.2.2.2.1⟩

end Feed

end BitcoinPriceTracker

import BitcoinPriceTracker.Model.Pricing
import BitcoinPriceTracker.Model.Storage

namespace BitcoinPriceTracker

/-- The kind, the static texts, the status and the `Retry-After` value of an error. -/
def ProviderError.withoutDiagnostic (error : ProviderError) : ProviderError where
  provider := error.provider
  kind :=
    match error.kind with
    | .timeout _ => .timeout ⟨true, ""⟩
    | .transport _ => .transport ⟨false, ""⟩
    | .http status retryAfter => .http status retryAfter
    | .invalidPayload reason _ => .invalidPayload reason none
    | .invalidPrice field reason => .invalidPrice field reason

namespace ProviderError

@[simp] lemma withoutDiagnostic_provider (error : ProviderError) :
    error.withoutDiagnostic.provider = error.provider := rfl

@[simp] lemma display_withoutDiagnostic (P : Platform) (error : ProviderError) :
    error.withoutDiagnostic.display P = error.display P := by
  obtain ⟨provider, kind⟩ := error
  cases kind <;> rfl

@[simp] lemma healthError_withoutDiagnostic (P : Platform) (error : ProviderError) :
    error.withoutDiagnostic.healthError P = error.healthError P := by
  obtain ⟨provider, kind⟩ := error
  cases kind <;> rfl

end ProviderError

lemma map_display_eq {P : Platform} {failures failures' : List ProviderError}
    (h : failures.map ProviderError.withoutDiagnostic = failures'.map ProviderError.withoutDiagnostic) :
    failures.map (ProviderError.display P) = failures'.map (ProviderError.display P) := by
  have hmap := congrArg (List.map (ProviderError.display P)) h
  simpa [List.map_map, Function.comp_def] using hmap

namespace RefreshCoordinator

lemma retryDelay_withoutDiagnostic (error : ProviderError) (nowUnix : ℤ) :
    retryDelay error.withoutDiagnostic nowUnix = retryDelay error nowUnix := by
  obtain ⟨provider, kind⟩ := error
  cases kind <;> rfl

lemma settle_withoutDiagnostic (range : InstantRange) (failures : List ProviderError) (now : ℕ) (nowUnix : ℤ)
    (c : RefreshCoordinator) (source : UpstreamSource) :
    c.settle range (failures.map ProviderError.withoutDiagnostic) now nowUnix source =
      c.settle range failures now nowUnix source := by
  have hfind : (failures.map ProviderError.withoutDiagnostic).find? (fun error => error.provider = source) =
      (failures.find? fun error => error.provider = source).map ProviderError.withoutDiagnostic := List.find?_map ..
  unfold settle
  rw [hfind]
  cases failures.find? fun error => error.provider = source with
  | none => rfl
  | some error => simp only [Option.map_some, recordFailure, retryDeadline, retryDelay_withoutDiagnostic]

lemma settleAll_withoutDiagnostic (range : InstantRange) (failures : List ProviderError) (now : ℕ) (nowUnix : ℤ)
    (sources : List UpstreamSource) (c : RefreshCoordinator) :
    settleAll range (failures.map ProviderError.withoutDiagnostic) now nowUnix sources c =
      settleAll range failures now nowUnix sources c := by
  induction sources generalizing c with
  | nil => rfl
  | cons source rest ih =>
    simp only [settleAll, settle_withoutDiagnostic]
    cases c.settle range failures now nowUnix source with
    | error left => rfl
    | ok c' => exact ih c'

/-- `complete` is the same for failures that differ in their texts. -/
lemma complete_same {failures failures' : List ProviderError}
    (h : failures.map ProviderError.withoutDiagnostic = failures'.map ProviderError.withoutDiagnostic)
    (range : InstantRange) (plan : RefreshPlan) (now : ℕ) (nowUnix : ℤ) (c : RefreshCoordinator) :
    c.complete range plan failures now nowUnix = c.complete range plan failures' now nowUnix := by
  unfold complete
  rw [← settleAll_withoutDiagnostic, h, settleAll_withoutDiagnostic]

end RefreshCoordinator

/-- The platform with other JSON errors: the parser of bodies may be any, as an attempt is compared by what it
comes to, and the decoder of stored strings fails on the same texts. -/
def Platform.withJson (P : Platform) (parseJson : List UInt8 → Except JsonError Json)
    (decodeStrings : String → Except JsonError (List String))
    (h : ∀ text, (decodeStrings text).toOption = (P.decodeStrings text).toOption) : Platform :=
  { P with
    parseJson
    decodeStrings
    decode_encode := fun strings => by
      have hdecode := h (P.encodeStrings strings)
      rw [P.decode_encode] at hdecode
      cases hresult : decodeStrings (P.encodeStrings strings) with
      | error error => simp [hresult, Except.toOption] at hdecode
      | ok decoded =>
        rw [hresult] at hdecode
        rw [Option.some.inj hdecode] }

/-- Two attempts that come to the same price, or to errors that differ in their texts. -/
structure Attempt.Same (P P' : Platform) (source : UpstreamSource) (attempt attempt' : Attempt) : Prop where
  attemptedAt : attempt.attemptedAtUnix = attempt'.attemptedAtUnix
  observedAt : attempt.observedAtUnix = attempt'.observedAtUnix
  outcome : (fetchRoundRobinSource P source attempt.exchange).mapError ProviderError.withoutDiagnostic =
    (fetchRoundRobinSource P' source attempt'.exchange).mapError ProviderError.withoutDiagnostic

structure Batch.Same (batch batch' : Batch) : Prop where
  refreshed : batch.refreshed = batch'.refreshed
  health : batch.health = batch'.health
  snapshot : batch.snapshot = batch'.snapshot
  failures : batch.failures.map ProviderError.withoutDiagnostic =
    batch'.failures.map ProviderError.withoutDiagnostic

section Batches

variable (P : Platform) (parseJson : List UInt8 → Except JsonError Json)
  (decodeStrings : String → Except JsonError (List String))
  (hdecode : ∀ text, (decodeStrings text).toOption = (P.decodeStrings text).toOption)

lemma toOption_mapError {ε ε' α : Type} (f : ε → ε') (result : Except ε α) :
    (result.mapError f).toOption = result.toOption := by
  cases result <;> rfl

/-- An observation without its diagnostic text. -/
def publicObservation (result : ProviderHealth × Except ProviderError StoredQuote) :
    ProviderHealth × Except ProviderError StoredQuote :=
  (result.1, result.2.mapError ProviderError.withoutDiagnostic)

lemma observeAttempt_same {source : UpstreamSource} {attempt attempt' : Attempt}
    (h : attempt.Same P (P.withJson parseJson decodeStrings hdecode) source attempt') :
    publicObservation (observeAttempt P source attempt) =
      publicObservation (observeAttempt (P.withJson parseJson decodeStrings hdecode) source attempt') := by
  have houtcome := h.outcome
  unfold observeAttempt
  rw [h.attemptedAt, h.observedAt]
  cases hfetch : fetchRoundRobinSource P source attempt.exchange with
  | ok price =>
    cases hfetch' : fetchRoundRobinSource (P.withJson parseJson decodeStrings hdecode) source attempt'.exchange with
    | ok price' =>
      simp only [hfetch, hfetch', Except.mapError, Except.ok.injEq] at houtcome
      rw [houtcome]
    | error error => simp [hfetch, hfetch', Except.mapError] at houtcome
  | error error =>
    cases hfetch' : fetchRoundRobinSource (P.withJson parseJson decodeStrings hdecode) source attempt'.exchange with
    | ok price' => simp [hfetch, hfetch', Except.mapError] at houtcome
    | error error' =>
      simp only [hfetch, hfetch', Except.mapError, Except.error.injEq] at houtcome
      have hhealth : error.healthError P = error'.healthError (P.withJson parseJson decodeStrings hdecode) := by
        rw [← error.healthError_withoutDiagnostic, houtcome]
        exact error'.healthError_withoutDiagnostic P
      simp only [publicObservation, Except.mapError, hhealth, houtcome]

lemma fetchSelectedSources_same {attempts attempts' : UpstreamSource → Attempt} (sources : List UpstreamSource)
    (h : ∀ source, (attempts source).Same P (P.withJson parseJson decodeStrings hdecode) source (attempts' source)) :
    (fetchSelectedSources P attempts sources).map publicObservation =
      (fetchSelectedSources (P.withJson parseJson decodeStrings hdecode) attempts' sources).map publicObservation := by
  unfold fetchSelectedSources
  rw [List.map_filterMap, List.map_filterMap]
  refine List.filterMap_congr fun source _ => ?_
  split
  · exact congrArg some (observeAttempt_same P parseJson decodeStrings hdecode (h source))
  · rfl

def failureOf (result : ProviderHealth × Except ProviderError StoredQuote) : Option ProviderError :=
  match result.2 with
  | .error error => some error
  | .ok _ => none

lemma failureOf_publicObservation (result : ProviderHealth × Except ProviderError StoredQuote) :
    failureOf (publicObservation result) = (failureOf result).map ProviderError.withoutDiagnostic := by
  obtain ⟨health, _ | _⟩ := result <;> rfl

lemma refreshBatch_snapshot (latest : Option SnapshotRecord) (plan : RefreshPlan)
    (attempts : UpstreamSource → Attempt) (nowUnix : ℤ) :
    (refreshBatch P latest plan attempts nowUnix).snapshot =
      let batch := refreshBatch P latest plan attempts nowUnix
      let sources := mergeSnapshotSources P latest batch.refreshed
      if batch.refreshed = [] then none
      else some ⟨nowUnix, sources, (summarizePrices sources).1, (summarizePrices sources).2,
        batch.failures.map (ProviderError.display P), some (refreshedSourceOf batch.refreshed)⟩ := rfl

lemma refreshBatch_same {attempts attempts' : UpstreamSource → Attempt} (latest : Option SnapshotRecord)
    (plan : RefreshPlan) (nowUnix : ℤ)
    (h : ∀ source, (attempts source).Same P (P.withJson parseJson decodeStrings hdecode) source (attempts' source)) :
    (refreshBatch P latest plan attempts nowUnix).Same
      (refreshBatch (P.withJson parseJson decodeStrings hdecode) latest plan attempts' nowUnix) := by
  have hresults := fetchSelectedSources_same P parseJson decodeStrings hdecode plan.sources h
  have hrefreshed : (refreshBatch P latest plan attempts nowUnix).refreshed =
      (refreshBatch (P.withJson parseJson decodeStrings hdecode) latest plan attempts' nowUnix).refreshed := by
    have hmap := congrArg (List.filterMap fun result => result.2.toOption) hresults
    simp only [List.filterMap_map, Function.comp_def, publicObservation, toOption_mapError] at hmap
    exact hmap
  have hfailures : (refreshBatch P latest plan attempts nowUnix).failures.map ProviderError.withoutDiagnostic =
      (refreshBatch (P.withJson parseJson decodeStrings hdecode) latest plan attempts' nowUnix).failures.map
        ProviderError.withoutDiagnostic := by
    have hmap := congrArg (List.filterMap failureOf) hresults
    simp only [List.filterMap_map, Function.comp_def, failureOf_publicObservation, ← List.map_filterMap] at hmap
    exact hmap
  refine ⟨hrefreshed, ?_, ?_, hfailures⟩
  · have hmap := congrArg (List.map Prod.fst) hresults
    simp only [List.map_map, Function.comp_def, publicObservation] at hmap
    exact hmap
  · rw [refreshBatch_snapshot, refreshBatch_snapshot]
    simp only [← hrefreshed]
    have hwarnings := map_display_eq (P := P) hfailures
    split
    · rfl
    · exact congrArg some (by rw [hwarnings]; rfl)

end Batches

open Tx

lemma openConnection_agree (path : DbPath) : Agree (openConnection path) (openConnection path) :=
  (agree_touch _ _).bind fun _ => agree_touch _ _

lemma writeSnapshot_agree (P : Platform) (snapshot : SnapshotRecord) :
    Agree (writeSnapshot P snapshot) (writeSnapshot P snapshot) := by
  unfold writeSnapshot
  split
  · exact agree_fail _ _
  · refine (agree_statement _ _ fun _ => rfl).bind fun _ => (agree_statement _ _ fun _ => rfl).bind fun id => ?_
    exact (agree_touch _ _).bind fun _ => agree_forM (fun quote => agree_statement _ _ fun _ => rfl) _

/-- `store_refresh_sync` does the same where the same statements are failed. -/
lemma storeRefresh_agree (P : Platform) (path : DbPath) (snapshot : Option SnapshotRecord)
    (health : List ProviderHealth) :
    Agree (storeRefresh P path snapshot health) (storeRefresh P path snapshot health) := by
  unfold storeRefresh
  refine (openConnection_agree path).bind fun _ => (agree_touch _ _).bind fun _ => ?_
  have hhealth : Agree (writeProviderHealth health) (writeProviderHealth health) :=
    agree_forM (fun record => agree_statement _ _ fun _ => rfl) _
  cases snapshot with
  | none => exact (agree_pure ()).bind fun _ => hhealth.bind fun _ => agree_touch _ _
  | some snapshot => exact (writeSnapshot_agree P snapshot).bind fun _ => hhealth.bind fun _ => agree_touch _ _

lemma readQuotes_agree (P : Platform) (parseJson : List UInt8 → Except JsonError Json)
    {decodeStrings : String → Except JsonError (List String)}
    (hdecode : ∀ text, (decodeStrings text).toOption = (P.decodeStrings text).toOption)
    (latest : Option SnapshotRow) :
    Agree (readQuotes P latest) (readQuotes (P.withJson parseJson decodeStrings hdecode) latest) := by
  cases latest with
  | none => exact agree_pure _
  | some row =>
    have htext := hdecode row.warningsJson
    simp only [readQuotes, Platform.withJson]
    cases hold : P.decodeStrings row.warningsJson with
    | error error =>
      cases hnew : decodeStrings row.warningsJson with
      | error error' => exact agree_fail _ _
      | ok warnings => simp [hold, hnew, Except.toOption] at htext
    | ok warnings =>
      cases hnew : decodeStrings row.warningsJson with
      | error error => simp [hold, hnew, Except.toOption] at htext
      | ok warnings' =>
        rw [hold, hnew] at htext
        obtain rfl := Option.some.inj htext
        exact (agree_touch _ _).bind fun _ => (agree_query _ _ _).bind fun _ => (agree_query _ _ _).bind fun _ =>
          agree_pure _

lemma loadPriceState_agree (P : Platform) (parseJson : List UInt8 → Except JsonError Json)
    {decodeStrings : String → Except JsonError (List String)}
    (hdecode : ∀ text, (decodeStrings text).toOption = (P.decodeStrings text).toOption) :
    Agree (loadPriceState P) (loadPriceState (P.withJson parseJson decodeStrings hdecode)) := by
  have hhealth : Agree readProviderHealth readProviderHealth :=
    (agree_touch _ _).bind fun _ => (agree_query _ _ _).bind fun _ => agree_query _ _ _
  have hfinish : Agree finishRead finishRead :=
    hhealth.bind fun _ => (agree_touch _ _).bind fun _ => agree_pure _
  exact (agree_touch _ _).bind fun _ => (agree_touch _ _).bind fun _ => (agree_query _ _ _).bind fun latest =>
    (readQuotes_agree P parseJson hdecode latest).bind fun _ => hfinish.bind fun _ => agree_pure _

end BitcoinPriceTracker

import BitcoinPriceTracker.Model.Presence

namespace BitcoinPriceTracker

/-- An accepted presence update. -/
structure Heartbeat where
  session : String
  active : Bool
  seen : ℕ
  deriving DecidableEq

/-- The most recent accepted update of a session; updates are listed most recent first. -/
def latestOf (accepted : List Heartbeat) (session : String) : Option Heartbeat :=
  accepted.find? fun beat => beat.session = session

/-- The sessions whose most recent accepted update is an active heartbeat that has not expired. -/
def live (accepted : List Heartbeat) (now : ℕ) : Finset String :=
  (accepted.map Heartbeat.session).toFinset.filter fun session =>
    (latestOf accepted session).any fun beat => beat.active && now - beat.seen ≤ viewerTtl

structure IdealRegistry where
  accepted : List Heartbeat
  /-- The number of accepted active updates that found no live session. -/
  activations : ℕ

def IdealRegistry.init : IdealRegistry := ⟨[], 0⟩

def IdealRegistry.update (maxViewers : ℕ) (payload : PresencePayload) (now : ℕ) (registry : IdealRegistry) :
    Except ℕ ℕ × IdealRegistry :=
  let current := live registry.accepted now
  if payload.active ∧ payload.sessionId ∉ current ∧ maxViewers ≤ current.card then
    (.error current.card, registry)
  else
    let accepted := ⟨payload.sessionId, payload.active, now⟩ :: registry.accepted
    (.ok (live accepted now).card,
      ⟨accepted, registry.activations + if payload.active ∧ current = ∅ then 1 else 0⟩)

lemma IdealRegistry.update_rejected {maxViewers : ℕ} {payload : PresencePayload} {now : ℕ}
    {registry : IdealRegistry} (h : payload.active ∧ payload.sessionId ∉ live registry.accepted now ∧
      maxViewers ≤ (live registry.accepted now).card) :
    registry.update maxViewers payload now = (.error (live registry.accepted now).card, registry) :=
  if_pos h

lemma IdealRegistry.update_accepted {maxViewers : ℕ} {payload : PresencePayload} {now : ℕ}
    {registry : IdealRegistry} (h : ¬(payload.active ∧ payload.sessionId ∉ live registry.accepted now ∧
      maxViewers ≤ (live registry.accepted now).card)) :
    registry.update maxViewers payload now =
      (.ok (live (⟨payload.sessionId, payload.active, now⟩ :: registry.accepted) now).card,
        ⟨⟨payload.sessionId, payload.active, now⟩ :: registry.accepted, registry.activations +
          if payload.active ∧ live registry.accepted now = ∅ then 1 else 0⟩) :=
  if_neg h

/-- The abstract registry, with the inputs and the actions of the viewers map. -/
def idealMachine (maxViewers : ℕ) : Machine (IdealRegistry × ℕ) RegistryInput RegistryAction where
  step
    | (registry, last), .update payload now =>
      if last ≤ now then
        let (result, registry') := registry.update maxViewers payload now
        some ((registry', now), .updated payload now result)
      else none
    | (registry, last), .count now =>
      if last ≤ now then some ((registry, now), .counted now (live registry.accepted now).card)
      else none

lemma latestOf_session {accepted : List Heartbeat} {session : String} {beat : Heartbeat}
    (h : latestOf accepted session = some beat) : beat ∈ accepted ∧ beat.session = session :=
  ⟨List.mem_of_find?_eq_some h, by simpa using List.find?_some h⟩

lemma latestOf_cons (beat : Heartbeat) (accepted : List Heartbeat) (session : String) :
    latestOf (beat :: accepted) session =
      if beat.session = session then some beat else latestOf accepted session := by
  simp only [latestOf, List.find?_cons]
  split <;> simp_all

lemma mem_live {accepted : List Heartbeat} {now : ℕ} {session : String} :
    session ∈ live accepted now ↔
      ∃ seen, latestOf accepted session = some ⟨session, true, seen⟩ ∧ now - seen ≤ viewerTtl := by
  simp only [live, Finset.mem_filter, List.mem_toFinset, List.mem_map, Option.any_eq_true,
    Bool.and_eq_true, decide_eq_true_eq]
  constructor
  · rintro ⟨_, ⟨s, active, seen⟩, hbeat, hactive, hage⟩
    obtain rfl : s = session := (latestOf_session hbeat).2
    obtain rfl : active = true := hactive
    exact ⟨seen, hbeat, hage⟩
  · rintro ⟨seen, hbeat, hage⟩
    exact ⟨⟨_, (latestOf_session hbeat).1, rfl⟩, _, hbeat, rfl, hage⟩

lemma live_antitone (accepted : List Heartbeat) {now later : ℕ} (h : now ≤ later) :
    live accepted later ⊆ live accepted now := by
  intro session hmem
  obtain ⟨seen, hbeat, hage⟩ := mem_live.mp hmem
  exact mem_live.mpr ⟨seen, hbeat, by omega⟩

lemma live_cons_active (accepted : List Heartbeat) (session : String) (now : ℕ) :
    live (⟨session, true, now⟩ :: accepted) now = insert session (live accepted now) := by
  ext other
  rw [Finset.mem_insert, mem_live, mem_live, latestOf_cons]
  by_cases h : session = other
  · subst h
    simp
  · simp [h, Ne.symm h]

lemma live_cons_inactive (accepted : List Heartbeat) (session : String) (now : ℕ) :
    live (⟨session, false, now⟩ :: accepted) now = (live accepted now).erase session := by
  ext other
  rw [Finset.mem_erase, mem_live, mem_live, latestOf_cons]
  by_cases h : session = other
  · subst h
    simp
  · simp [h, Ne.symm h]

/-- The map holds exactly the live sessions, with the instants of their heartbeats. -/
def Tracks (viewers : Viewers) (accepted : List Heartbeat) (now : ℕ) : Prop :=
  ∀ session seen, viewers.get? session = some (session, seen) ↔
    latestOf accepted session = some ⟨session, true, seen⟩ ∧ now - seen ≤ viewerTtl

lemma Tracks.prune {viewers : Viewers} {accepted : List Heartbeat} {last now : ℕ}
    (h : Tracks viewers accepted last) (hle : last ≤ now) :
    Tracks (pruneInactiveViewers viewers now) accepted now := by
  intro session seen
  rw [pruneInactiveViewers, Keyed.get?_filter, Option.filter_eq_some_iff, h session seen,
    decide_eq_true_eq]
  constructor
  · rintro ⟨⟨hbeat, _⟩, hage⟩
    exact ⟨hbeat, hage⟩
  · rintro ⟨hbeat, hage⟩
    exact ⟨⟨hbeat, by omega⟩, hage⟩

lemma Tracks.contains {viewers : Viewers} {accepted : List Heartbeat} {now : ℕ}
    (h : Tracks viewers accepted now) (session : String) :
    viewers.contains session = true ↔ session ∈ live accepted now := by
  rw [Keyed.contains_iff, mem_live]
  constructor
  · rintro ⟨⟨s, seen⟩, hmem, rfl⟩
    exact ⟨seen, (h s seen).mp (Keyed.get?_eq_some_iff.mpr ⟨hmem, rfl⟩)⟩
  · rintro ⟨seen, hlive⟩
    exact ⟨_, Keyed.get?_eq_some_iff.mp ((h session seen).mpr hlive)⟩

lemma Tracks.length {viewers : Viewers} {accepted : List Heartbeat} {now : ℕ}
    (h : Tracks viewers accepted now) : viewers.length = (live accepted now).card := by
  have hset : (viewers.items.map Prod.fst).toFinset = live accepted now := by
    ext session
    rw [← h.contains, Keyed.contains_iff, List.mem_toFinset, List.mem_map]
  rw [← hset, List.toFinset_card_of_nodup viewers.distinct, List.length_map, Keyed.length]

lemma Tracks.put {viewers : Viewers} {accepted : List Heartbeat} {now : ℕ}
    (h : Tracks viewers accepted now) (session : String) :
    Tracks (viewers.put (session, now)) (⟨session, true, now⟩ :: accepted) now := by
  intro other seen
  rw [Keyed.get?_put, latestOf_cons]
  by_cases hs : other = session
  · subst hs
    simp only [if_true, Option.some.injEq, Prod.mk.injEq, true_and, Heartbeat.mk.injEq]
    constructor
    · rintro rfl
      exact ⟨rfl, by simp⟩
    · exact fun hat => hat.1
  · rw [if_neg hs, if_neg (Ne.symm hs)]
    exact h other seen

lemma Tracks.remove {viewers : Viewers} {accepted : List Heartbeat} {now : ℕ}
    (h : Tracks viewers accepted now) (session : String) :
    Tracks (viewers.remove session) (⟨session, false, now⟩ :: accepted) now := by
  intro other seen
  rw [Keyed.get?_remove, latestOf_cons]
  by_cases hs : other = session
  · subst hs
    simp
  · rw [if_neg hs, if_neg (Ne.symm hs)]
    exact h other seen

/-- The states that a run of the map and the ideal run with the same actions are in. -/
def Simulates (registry : Registry × ℕ) (ideal : IdealRegistry × ℕ) : Prop :=
  registry.2 = ideal.2 ∧ registry.1.fullRefreshGeneration = ideal.1.activations % 2 ^ 64 ∧
    Tracks registry.1.viewers ideal.1.accepted ideal.2

/-- One update answers as the ideal one does and keeps the simulation. -/
lemma applyPresenceUpdate_spec (maxViewers : ℕ) (payload : PresencePayload) {now last : ℕ}
    {registry : Registry} {ideal : IdealRegistry} (hle : last ≤ now)
    (hgen : registry.fullRefreshGeneration = ideal.activations % 2 ^ 64)
    (htracks : Tracks registry.viewers ideal.accepted last) :
    (applyPresenceUpdate maxViewers payload now registry).1 = (ideal.update maxViewers payload now).1 ∧
      (applyPresenceUpdate maxViewers payload now registry).2.fullRefreshGeneration =
        (ideal.update maxViewers payload now).2.activations % 2 ^ 64 ∧
      Tracks (applyPresenceUpdate maxViewers payload now registry).2.viewers
        (ideal.update maxViewers payload now).2.accepted now := by
  obtain ⟨session, active, includePrice⟩ := payload
  have hpruned := htracks.prune hle
  have hlength := hpruned.length
  have hcontains : (pruneInactiveViewers registry.viewers now).contains session =
      decide (session ∈ live ideal.accepted now) := by
    rw [Bool.eq_iff_iff, hpruned.contains, decide_eq_true_eq]
  have hempty : live ideal.accepted now = ∅ ↔
      (pruneInactiveViewers registry.viewers now).length = 0 := by
    rw [hlength, Finset.card_eq_zero]
  cases active with
  | true =>
    have hput := hpruned.put session
    have hne : ((pruneInactiveViewers registry.viewers now).put (session, now)).length ≠ 0 := by
      simp [Keyed.length, Keyed.put]
    unfold applyPresenceUpdate IdealRegistry.update
    simp only [hcontains, hempty, ← hlength, Bool.true_and, Bool.and_eq_true, Bool.not_eq_true',
      decide_eq_false_iff_not, decide_eq_true_eq, true_and, if_true, hne, ne_eq, not_false_eq_true,
      and_true]
    split
    · exact ⟨rfl, hgen, hpruned⟩
    · refine ⟨by rw [hput.length], ?_, hput⟩
      dsimp only
      split
      · rw [hgen, Nat.mod_add_mod]
      · rw [hgen, Nat.add_zero]
  | false =>
    have hremove := hpruned.remove session
    unfold applyPresenceUpdate IdealRegistry.update
    simp only [Bool.false_and, Bool.false_eq_true, if_false, false_and, Nat.add_zero]
    exact ⟨by rw [hremove.length], hgen, hremove⟩

lemma simulates_init : Simulates (Registry.init, 0) (IdealRegistry.init, 0) := by
  refine ⟨rfl, rfl, ?_⟩
  intro session seen
  simp [Registry.init, IdealRegistry.init, latestOf]

lemma update_lockstep (maxViewers : ℕ) (payload : PresencePayload) {now : ℕ}
    {state : Registry × ℕ} {ideal : IdealRegistry × ℕ} (hsim : Simulates state ideal)
    (hle : state.2 ≤ now) :
    (registryMachine maxViewers).step state (.update payload now) =
        some (((applyPresenceUpdate maxViewers payload now state.1).2, now),
          .updated payload now (ideal.1.update maxViewers payload now).1) ∧
      (idealMachine maxViewers).step ideal (.update payload now) =
        some (((ideal.1.update maxViewers payload now).2, now),
          .updated payload now (ideal.1.update maxViewers payload now).1) ∧
      Simulates ((applyPresenceUpdate maxViewers payload now state.1).2, now)
        ((ideal.1.update maxViewers payload now).2, now) := by
  obtain ⟨registry, last⟩ := state
  obtain ⟨ideal, idealLast⟩ := ideal
  obtain ⟨hlast, hgen, htracks⟩ := hsim
  dsimp only at hlast hgen htracks hle ⊢
  subst hlast
  obtain ⟨hresult, hgen', htracks'⟩ := applyPresenceUpdate_spec maxViewers payload hle hgen htracks
  refine ⟨?_, ?_, rfl, hgen', htracks'⟩
  · simp [registryMachine, hle, hresult]
  · simp [idealMachine, hle]

/-- Every run of the viewers map is a run of the ideal registry with the same actions. -/
theorem registryMachine_refines (maxViewers : ℕ) {history : List RegistryAction} {state : Registry × ℕ}
    (h : (registryMachine maxViewers).Run (Registry.init, 0) history state) :
    ∃ ideal, (idealMachine maxViewers).Run (IdealRegistry.init, 0) history ideal ∧
      Simulates state ideal := by
  have hrefines := h.refines (N := idealMachine maxViewers) (IdealRegistry.init, 0) some (fun _ => Simulates)
    simulates_init
    (by
      rintro _ ⟨registry, last⟩ i ⟨registry', last'⟩ a ⟨ideal, idealLast⟩ _ hsim hs
      have hlast : last = idealLast := hsim.1
      cases i with
      | update payload now =>
        by_cases hle : last ≤ now
        · obtain ⟨hstep, hideal, hsim'⟩ := update_lockstep maxViewers payload hsim hle
          rw [hstep, Option.some.injEq, Prod.mk.injEq] at hs
          obtain ⟨hstate, rfl⟩ := hs
          exact ⟨.update payload now, _, hideal, hstate ▸ hsim'⟩
        · simp [registryMachine, hle] at hs
      | count now =>
        by_cases hle : last ≤ now
        · have hpruned := hsim.2.2.prune (hlast ▸ hle)
          simp only [registryMachine, hle, if_true, Option.some.injEq, Prod.mk.injEq] at hs
          obtain ⟨⟨rfl, rfl⟩, rfl⟩ := hs
          refine ⟨.count now, (ideal, now), ?_, rfl, hsim.2.1, hpruned⟩
          simp [idealMachine, ← hlast, hle, activeViewerCount, hpruned.length]
        · simp [registryMachine, hle] at hs)
  simpa using hrefines

/-- The updates that were accepted, most recent first. -/
def acceptedBeats (history : List RegistryAction) : List Heartbeat :=
  history.filterMap fun
    | .updated payload now (.ok _) => some ⟨payload.sessionId, payload.active, now⟩
    | _ => none

/-- The number of accepted active updates that found no live session. -/
def activations : List RegistryAction → ℕ
  | [] => 0
  | .updated payload now (.ok _) :: older =>
    activations older + if payload.active ∧ live (acceptedBeats older) now = ∅ then 1 else 0
  | _ :: older => activations older

lemma activations_le_cons (a : RegistryAction) (older : List RegistryAction) :
    activations older ≤ activations (a :: older) := by
  rcases a with ⟨payload, now, _ | _⟩ | _
  · exact le_rfl
  · exact Nat.le_add_right _ _
  · exact le_rfl

lemma activations_mono (newer older : List RegistryAction) : activations older ≤ activations (newer ++ older) := by
  induction newer with
  | nil => exact le_rfl
  | cons a newer ih => exact ih.trans (activations_le_cons a _)

lemma ideal_run_state (maxViewers : ℕ) {history : List RegistryAction} {state : IdealRegistry × ℕ}
    (h : (idealMachine maxViewers).Run (IdealRegistry.init, 0) history state) :
    state.1 = ⟨acceptedBeats history, activations history⟩ := by
  refine h.invariant (P := fun history s => s.1 = ⟨acceptedBeats history, activations history⟩) rfl ?_
  rintro history ⟨registry, last⟩ i ⟨registry', last'⟩ a _ ih hs
  obtain rfl : registry = ⟨acceptedBeats history, activations history⟩ := ih
  cases i with
  | update payload now =>
    simp only [idealMachine] at hs
    split at hs
    · obtain ⟨hstate, rfl⟩ := Prod.mk.inj (Option.some.inj hs)
      obtain ⟨rfl, rfl⟩ := Prod.mk.inj hstate
      let registry : IdealRegistry := ⟨acceptedBeats history, activations history⟩
      by_cases hrejected : payload.active ∧ payload.sessionId ∉ live registry.accepted now ∧
          maxViewers ≤ (live registry.accepted now).card
      · rw [registry.update_rejected hrejected]
        rfl
      · rw [registry.update_accepted hrejected]
        rfl
    · simp at hs
  | count now =>
    simp only [idealMachine] at hs
    split at hs
    · obtain ⟨hstate, rfl⟩ := Prod.mk.inj (Option.some.inj hs)
      obtain ⟨rfl, rfl⟩ := Prod.mk.inj hstate
      rfl
    · simp at hs

lemma ideal_card_le (maxViewers : ℕ) {history : List RegistryAction} {state : IdealRegistry × ℕ}
    (h : (idealMachine maxViewers).Run (IdealRegistry.init, 0) history state) :
    (live state.1.accepted state.2).card ≤ maxViewers := by
  refine h.invariant (P := fun _ s => (live s.1.accepted s.2).card ≤ maxViewers)
    (by simp [IdealRegistry.init, live]) ?_
  rintro _ ⟨registry, last⟩ i ⟨registry', last'⟩ a _ ih hs
  cases i with
  | update payload now =>
    simp only [idealMachine] at hs
    split at hs
    · next hle =>
      simp only [Option.some.injEq, Prod.mk.injEq] at hs
      obtain ⟨⟨rfl, rfl⟩, _⟩ := hs
      have hcard := (Finset.card_le_card (live_antitone registry.accepted hle)).trans ih
      obtain ⟨session, active, includePrice⟩ := payload
      by_cases hfull : active ∧ session ∉ live registry.accepted now ∧
          maxViewers ≤ (live registry.accepted now).card
      · rw [IdealRegistry.update_rejected hfull]
        exact hcard
      · rw [IdealRegistry.update_accepted hfull]
        dsimp only
        cases active with
        | true =>
          rw [live_cons_active]
          by_cases hmem : session ∈ live registry.accepted now
          · rwa [Finset.insert_eq_of_mem hmem]
          · rw [Finset.card_insert_of_notMem hmem]
            have hroom : ¬maxViewers ≤ (live registry.accepted now).card := fun h =>
              hfull ⟨rfl, hmem, h⟩
            omega
        | false =>
          rw [live_cons_inactive]
          exact (Finset.card_le_card (Finset.erase_subset _ _)).trans hcard
    · simp at hs
  | count now =>
    simp only [idealMachine] at hs
    split at hs
    · next hle =>
      simp only [Option.some.injEq, Prod.mk.injEq] at hs
      obtain ⟨⟨rfl, rfl⟩, _⟩ := hs
      exact (Finset.card_le_card (live_antitone registry.accepted hle)).trans ih
    · simp at hs

/-- The inputs of the updates of a history, without the counts. -/
def updatesOf (history : List RegistryAction) : List (PresencePayload × ℕ) :=
  history.filterMap fun
    | .updated payload now _ => some (payload, now)
    | .counted _ _ => none

def RegistryAction.isUpdate : RegistryAction → Bool
  | .updated _ _ _ => true
  | .counted _ _ => false

/-- The ideal answers to a list of updates, most recent first. -/
def idealReplay (maxViewers : ℕ) : List (PresencePayload × ℕ) → IdealRegistry × List RegistryAction
  | [] => (.init, [])
  | (payload, now) :: older =>
    let (registry, answers) := idealReplay maxViewers older
    let (result, registry') := registry.update maxViewers payload now
    (registry', .updated payload now result :: answers)

/-- The counts of an ideal run have no part in its state or in the answers to its updates. -/
lemma ideal_run_replay (maxViewers : ℕ) {history : List RegistryAction} {state : IdealRegistry × ℕ}
    (h : (idealMachine maxViewers).Run (IdealRegistry.init, 0) history state) :
    (state.1, history.filter RegistryAction.isUpdate) = idealReplay maxViewers (updatesOf history) := by
  refine h.invariant (P := fun history s =>
    (s.1, history.filter RegistryAction.isUpdate) = idealReplay maxViewers (updatesOf history)) rfl ?_
  rintro history ⟨registry, last⟩ i ⟨registry', last'⟩ a _ ih hs
  cases i with
  | update payload now =>
    simp only [idealMachine] at hs
    split at hs
    · simp only [Option.some.injEq, Prod.mk.injEq] at hs
      obtain ⟨⟨rfl, rfl⟩, rfl⟩ := hs
      have hups : updatesOf (.updated payload now (registry.update maxViewers payload now).1 :: history) =
          (payload, now) :: updatesOf history := rfl
      rw [hups, idealReplay, ← ih]
      rfl
    · simp at hs
  | count now =>
    simp only [idealMachine] at hs
    split at hs
    · simp only [Option.some.injEq, Prod.mk.injEq] at hs
      obtain ⟨⟨rfl, rfl⟩, rfl⟩ := hs
      exact ih
    · simp at hs

lemma applyPresenceUpdate_error {maxViewers : ℕ} {payload : PresencePayload} {now n : ℕ}
    {registry : Registry} (h : (applyPresenceUpdate maxViewers payload now registry).1 = .error n) :
    applyPresenceUpdate maxViewers payload now registry =
      (.error (activeViewerCount now registry).1, (activeViewerCount now registry).2) := by
  unfold applyPresenceUpdate at h ⊢
  dsimp only at h ⊢
  split at h
  · next hfull =>
    rw [if_pos hfull]
    rfl
  · simp at h

/-- The viewers map refines the ideal registry. Along every run: the ideal registry answers
the same, the generation counts its activations modulo 2^64, and there are never more live
sessions than admitted viewers; an update is rejected exactly when it is active, its session
is not live and the registry is full, and leaves what a count would leave; and the runs with
the same updates, whatever their counts, have the same answers and the same generation. -/
theorem viewer_registry_law (maxViewers : ℕ) {history : List RegistryAction} {state : Registry × ℕ}
    (h : (registryMachine maxViewers).Run (Registry.init, 0) history state) :
    (∃ ideal, (idealMachine maxViewers).Run (IdealRegistry.init, 0) history ideal ∧
      state.1.fullRefreshGeneration = ideal.1.activations % 2 ^ 64 ∧
      ∀ now, state.2 ≤ now →
        (live ideal.1.accepted now).card ≤ maxViewers ∧
        (activeViewerCount now state.1).1 = (live ideal.1.accepted now).card ∧
        ∀ payload,
          ((∃ n, (applyPresenceUpdate maxViewers payload now state.1).1 = .error n) ↔
            payload.active ∧ payload.sessionId ∉ live ideal.1.accepted now ∧
              maxViewers ≤ (live ideal.1.accepted now).card) ∧
          ∀ n, (applyPresenceUpdate maxViewers payload now state.1).1 = .error n →
            applyPresenceUpdate maxViewers payload now state.1 =
              (.error (live ideal.1.accepted now).card, (activeViewerCount now state.1).2)) ∧
    ∀ history' state', (registryMachine maxViewers).Run (Registry.init, 0) history' state' →
      updatesOf history' = updatesOf history →
      history'.filter RegistryAction.isUpdate = history.filter RegistryAction.isUpdate ∧
        state'.1.fullRefreshGeneration = state.1.fullRefreshGeneration := by
  obtain ⟨ideal, hideal, hsim⟩ := registryMachine_refines maxViewers h
  constructor
  · refine ⟨ideal, hideal, hsim.2.1, fun now hle => ?_⟩
    have hlength : (activeViewerCount now state.1).1 = (live ideal.1.accepted now).card :=
      (hsim.2.2.prune (hsim.1 ▸ hle)).length
    have hbound := Finset.card_le_card (live_antitone ideal.1.accepted (hsim.1 ▸ hle))
    refine ⟨hbound.trans (ideal_card_le maxViewers hideal), hlength, fun payload => ⟨?_, ?_⟩⟩
    · rw [(applyPresenceUpdate_spec maxViewers payload (hsim.1 ▸ hle) hsim.2.1 hsim.2.2).1]
      by_cases hfull : payload.active ∧ payload.sessionId ∉ live ideal.1.accepted now ∧
          maxViewers ≤ (live ideal.1.accepted now).card
      · simp [IdealRegistry.update_rejected hfull, hfull]
      · simp only [IdealRegistry.update_accepted hfull, hfull, reduceCtorEq, exists_false]
    · intro n hn
      rw [applyPresenceUpdate_error hn, hlength]
  · intro history' state' h' hups
    obtain ⟨ideal', hideal', hsim'⟩ := registryMachine_refines maxViewers h'
    have hreplay := ideal_run_replay maxViewers hideal
    have hreplay' := ideal_run_replay maxViewers hideal'
    rw [hups, ← hreplay, Prod.mk.injEq] at hreplay'
    refine ⟨hreplay'.2, ?_⟩
    rw [hsim'.2.1, hsim.2.1, hreplay'.1]

/-- One viewer is admitted and counted, and a second one is rejected. -/
theorem viewer_registry_law_full :
    (registryMachine 1).Run (Registry.init, 0)
        [.updated ⟨"b", true, false⟩ 2 (.error 1), .counted 1 1, .updated ⟨"a", true, false⟩ 0 (.ok 1)]
        (⟨⟨[("a", 0)], by decide⟩, 1⟩, 2) ∧
      ∃ ideal : IdealRegistry, 1 = ideal.activations % 2 ^ 64 ∧ (live ideal.accepted 2).card ≤ 1 := by
  have hrun : (registryMachine 1).Run (Registry.init, 0)
      [.updated ⟨"b", true, false⟩ 2 (.error 1), .counted 1 1, .updated ⟨"a", true, false⟩ 0 (.ok 1)]
      (⟨⟨[("a", 0)], by decide⟩, 1⟩, 2) :=
    Machine.run_of_exec [.update ⟨"a", true, false⟩ 0, .count 1, .update ⟨"b", true, false⟩ 2] rfl
  obtain ⟨⟨ideal, _, hgen, hlaw⟩, _⟩ := viewer_registry_law 1 hrun
  exact ⟨hrun, ideal.1, hgen, (hlaw 2 le_rfl).1⟩

/-- A viewer that comes and goes `n` times activates the registry `n` times. -/
lemma revisits_run (n : ℕ) :
    ∃ history state ideal, (registryMachine 1).Run (Registry.init, 0) history state ∧
      (idealMachine 1).Run (IdealRegistry.init, 0) history ideal ∧ Simulates state ideal ∧
      ideal.1.activations = n ∧ live ideal.1.accepted state.2 = ∅ := by
  induction n with
  | zero => exact ⟨[], _, _, .init, .init, simulates_init, rfl, by simp [IdealRegistry.init, live]⟩
  | succ n ih =>
    obtain ⟨history, state, ideal, hrun, hideal, hsim, hcount, hempty⟩ := ih
    obtain ⟨hjoin, hjoin', hsim₁⟩ := update_lockstep 1 ⟨"a", true, false⟩ hsim le_rfl
    obtain ⟨hleave, hleave', hsim₂⟩ := update_lockstep 1 ⟨"a", false, false⟩ hsim₁ le_rfl
    refine ⟨_, _, _, (hrun.next hjoin).next hleave, (hideal.next hjoin').next hleave', hsim₂, ?_, ?_⟩
    · simp [IdealRegistry.update, hempty, hcount]
    · simp [IdealRegistry.update, hempty, live_cons_inactive, live_cons_active]

/-- The generation is not the number of activations once there are 2^64 of them. -/
theorem generation_wraps :
    ¬ ∀ (maxViewers : ℕ) (history : List RegistryAction) (state : Registry × ℕ) (ideal : IdealRegistry × ℕ),
      1 ≤ maxViewers → (registryMachine maxViewers).Run (Registry.init, 0) history state →
      (idealMachine maxViewers).Run (IdealRegistry.init, 0) history ideal →
      state.1.fullRefreshGeneration = ideal.1.activations := by
  intro h
  obtain ⟨history, state, ideal, hrun, hideal, hsim, hcount, _⟩ := revisits_run (2 ^ 64)
  have hequal := h 1 history state ideal le_rfl hrun hideal
  rw [hsim.2.1, hcount] at hequal
  norm_num at hequal

end BitcoinPriceTracker

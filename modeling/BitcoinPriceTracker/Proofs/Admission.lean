import BitcoinPriceTracker.Proofs.CleanShutdown
import BitcoinPriceTracker.Proofs.HandlerSteps

namespace BitcoinPriceTracker

variable {P : Platform} {path : DbPath} {maxViewers : ℕ} {config : ServerConfig}

section Tracker

variable {t t' : Tracker} {b : TrackerAction} {input : TrackerInput}

/-- The handler of a connection where the process goes from `t` to `t'`: a request that is handled after the step was
handled before it. -/
structure Tracker.Moves (t t' : Tracker) (connection : ℕ) : Prop where
  next : t'.nextConnection = t.nextConnection
  alive : (t.connections connection).isSome
  timed : (t'.connections connection).any Tracker.timed = true → (t.connections connection).any Tracker.timed = true
  others : ∀ other, other ≠ connection → t'.connections other = t.connections other

lemma tracker_moves (h : (trackerMachine P path maxViewers).step t input = some (t', b))
    (hinput : input.admits = false) :
    (input.connection = none ∧ t'.nextConnection = t.nextConnection ∧ t'.connections = t.connections) ∨
      ∃ connection, input.connection = some connection ∧ t.Moves t' connection := by
  cases connection_step h with
  | accepted haccept => simp [haccept, TrackerInput.admits] at hinput
  | kept _ _ hnone hconnections hnext => exact .inl ⟨hnone, hnext, hconnections⟩
  | @moved connection old new hold hs hconnections hnext =>
    have hboth : input.connection = some connection ∧ (new.any Tracker.timed = true → Tracker.timed old = true) := by
      cases hs with
      | requested | refused => simp [TrackerInput.admits] at hinput
      | answered | closed | expired => simp [TrackerInput.connection, Tracker.timed]
      | _ => exact ⟨rfl, fun _ => rfl⟩
    exact .inr ⟨connection, hboth.1, hnext, by simp [hold],
      fun htimed => by simpa [hold] using hboth.2 (by simpa [hconnections] using htimed),
      fun other hother => by simp [hconnections, hother]⟩

lemma tracker_accept (h : (trackerMachine P path maxViewers).step t .accept = some (t', b)) :
    t.phase = .accepting ∧
      t' = { t with nextConnection := t.nextConnection + 1 }.setConnection t.nextConnection (some .waiting) ∧
      b = .accepted t.nextConnection := by
  cases connection_step h with
  | accepted _ hb hphase ht => exact ⟨hphase, ht, hb⟩
  | kept _ haccept => exact absurd rfl haccept
  | moved _ hs => cases hs

lemma tracker_request {connection : ℕ} {request : Request}
    (h : (trackerMachine P path maxViewers).step t (.request connection request) = some (t', b)) :
    t.connections connection = some .waiting ∧ t'.nextConnection = t.nextConnection ∧
      (t'.connections connection).any Tracker.timed = true ∧
      ∀ other, other ≠ connection → t'.connections other = t.connections other := by
  cases connection_step h with
  | accepted hinput => simp at hinput
  | kept _ _ hinput => simp [TrackerInput.connection] at hinput
  | moved hold hs hconnections hnext =>
    cases hs
    refine ⟨hold, hnext, ?_, fun other hother => by simp [hconnections, hother]⟩
    cases request <;> simp [hconnections, Request.handler, Tracker.timed]

lemma tracker_refuse {connection : ℕ} {busy : Bool}
    (h : (trackerMachine P path maxViewers).step t (.refuse connection busy) = some (t', b)) :
    t.connections connection = some .waiting ∧
      t' = t.setConnection connection (some (.answering (.refused busy))) := by
  simp only [trackerMachine] at h
  split at h
  · next hold =>
    cases h
    exact ⟨hold, rfl⟩
  · simp at h

end Tracker

@[simp] lemma Gate.allow_slots (gate : Gate) (now : ℕ) : (gate.allow now).2.slots = gate.slots := by
  unfold Gate.allow
  split <;> rfl

variable {limits limits' : Route → Gate} {target : String} {now capacity : ℕ}

lemma limitRequests_ok (capacity : ℕ) (h : limitRequests limits target now = (.ok (), limits')) :
    ∃ gate, (gateMachine capacity).step (limits (routeOf target)) (.arrive now) = some (gate, .admitted now) ∧
      gate.slots + 1 = (limits (routeOf target)).slots ∧ limits' = Function.update limits (routeOf target) gate := by
  simp only [limitRequests] at h
  split at h
  · simp at h
  · next hallowed =>
    split at h
    · simp at h
    · next hslots =>
      refine ⟨_, by simp only [gateMachine, if_neg hallowed, if_neg hslots], ?_, (Prod.mk.inj h).2.symm⟩
      simp only [Gate.allow_slots] at hslots ⊢
      omega

lemma limitRequests_error (capacity : ℕ) {refusal : Refusal}
    (h : limitRequests limits target now = (.error refusal, limits')) :
    ∃ gate, (gateMachine capacity).step (limits (routeOf target)) (.arrive now) =
        some (gate, if refusal.status = 503 then .busy now else .limited now) ∧
      gate.slots = (limits (routeOf target)).slots ∧ limits' = Function.update limits (routeOf target) gate ∧
      Answer.refused (refusal.status = 503) = Answer.error refusal.status refusal.error := by
  simp only [limitRequests] at h
  split at h
  · next hlimited =>
    cases h
    exact ⟨_, by simp only [gateMachine, if_pos hlimited]; rfl, Gate.allow_slots _ _, rfl, rfl⟩
  · next hallowed =>
    split at h
    · next hslots =>
      cases h
      exact ⟨_, by simp only [gateMachine, if_neg hallowed, if_pos hslots]; rfl, Gate.allow_slots _ _, rfl, rfl⟩
    · simp at h

/-- What the process does behind its permits. -/
inductive AdmissionStep (P : Platform) (path : DbPath) (config : ServerConfig) (s : Admission) :
    AdmissionAction → Admission → Prop
  | dropped {loopback : Bool} (hphase : s.tracker.phase = .accepting) (hfree : s.free loopback = 0) :
    AdmissionStep P path config s ⟨none, none, some (loopback, .refused)⟩ s
  | accepted {loopback : Bool} {t : Tracker} {b : TrackerAction} (hfree : s.free loopback ≠ 0)
      (hs : (trackerMachine P path config.maxViewers).step s.tracker .accept = some (t, b)) :
    AdmissionStep P path config s (s.accept loopback (t, b)).2 (s.accept loopback (t, b)).1
  | admitted {connection sampled : ℕ} {target : String} {request : Request} {limits : Route → Gate} {t : Tracker}
      {b : TrackerAction} (hlimits : limitRequests s.limits target sampled = (.ok (), limits))
      (hs : (trackerMachine P path config.maxViewers).step s.tracker (.request connection request) = some (t, b)) :
    AdmissionStep P path config s ⟨some b, some (routeOf target, .admitted sampled), none⟩
      { s with tracker := t, limits, held := Function.update s.held connection (some (routeOf target)) }
  | refused {connection sampled : ℕ} {target : String} {refusal : Refusal} {limits : Route → Gate} {t : Tracker}
      {b : TrackerAction} (hlimits : limitRequests s.limits target sampled = (.error refusal, limits))
      (hs : (trackerMachine P path config.maxViewers).step s.tracker
        (.refuse connection (refusal.status = 503)) = some (t, b)) :
    AdmissionStep P path config s
      ⟨some b, some (routeOf target, if refusal.status = 503 then .busy sampled else .limited sampled), none⟩
      { s with tracker := t, limits }
  | ran {input : TrackerInput} {t : Tracker} {b : TrackerAction}
      (hs : (trackerMachine P path config.maxViewers).step s.tracker input = some (t, b))
      (hnext : t.nextConnection = s.tracker.nextConnection) (hsame : t.connections = s.tracker.connections) :
    AdmissionStep P path config s ⟨some b, none, none⟩ { s with tracker := t }
  | released {input : TrackerInput} {connection : ℕ} {t : Tracker} {b : TrackerAction}
      (hs : (trackerMachine P path config.maxViewers).step s.tracker input = some (t, b))
      (hmoves : s.tracker.Moves t connection) :
    AdmissionStep P path config s (s.release connection (t, b)).2 (s.release connection (t, b)).1

variable {s s' : Admission} {a : AdmissionAction}

lemma admission_step {input : AdmissionInput}
    (h : (admissionMachine P path config).step s input = some (s', a)) : AdmissionStep P path config s a s' := by
  cases input with
  | connect loopback =>
    simp only [admissionMachine] at h
    split at h
    · simp at h
    · next hphase =>
      split at h
      · next hfree =>
        cases h
        exact .dropped (not_not.mp hphase) hfree
      · next hfree =>
        obtain ⟨⟨t, b⟩, hs, heq⟩ := Option.map_eq_some_iff.mp h
        cases heq
        exact .accepted hfree hs
  | request connection target sampled request =>
    simp only [admissionMachine] at h
    split at h
    · simp only [Admission.handle] at h
      split at h
      · next limits hlimits =>
        obtain ⟨⟨t, b⟩, hs, heq⟩ := Option.map_eq_some_iff.mp h
        cases heq
        exact .admitted hlimits hs
      · next refusal limits hlimits =>
        obtain ⟨⟨t, b⟩, hs, heq⟩ := Option.map_eq_some_iff.mp h
        cases heq
        exact .refused hlimits hs
    · simp at h
  | run input =>
    simp only [admissionMachine] at h
    split at h
    · simp at h
    · next hinput =>
      obtain ⟨⟨t, b⟩, hs, heq⟩ := Option.map_eq_some_iff.mp h
      rcases tracker_moves hs (Bool.eq_false_iff.mpr hinput) with ⟨hnone, hnext, hsame⟩ | ⟨connection, hsome, hmoves⟩
      · rw [hnone] at heq
        cases heq
        exact .ran hs hnext hsame
      · rw [hsome] at heq
        cases heq
        exact .released hs hmoves

/-- The requests of a group that hold one of its permits. -/
def Admission.inUse (s : Admission) (route : Route) : ℕ :=
  ((Finset.range s.tracker.nextConnection).filter fun connection => s.held connection = some route).card

/-- The connections of a pool whose tasks are alive. -/
def Admission.alive (s : Admission) (loopback : Bool) : ℕ :=
  ((Finset.range s.tracker.nextConnection).filter fun connection =>
    (s.tracker.connections connection).isSome ∧ s.loopback connection = loopback).card

/-- Every permit that is out has one holder: a request that is being handled, or a connection that is alive. -/
structure Conserved (config : ServerConfig) (s : Admission) : Prop where
  fresh : ∀ connection, s.tracker.nextConnection ≤ connection → s.tracker.connections connection = none
  held : ∀ connection, (s.held connection).isSome = (s.tracker.connections connection).any Tracker.timed
  slots : ∀ route, (s.limits route).slots + s.inUse route = slotCount config.toRuntimeConfig route
  free : ∀ loopback, s.free loopback + s.alive loopback = poolSize config loopback

lemma Conserved.lt_next (h : Conserved config s) {connection : ℕ}
    (halive : (s.tracker.connections connection).isSome) : connection < s.tracker.nextConnection := by
  by_contra hge
  simp [h.fresh connection (not_lt.mp hge)] at halive

lemma Conserved.init (config : ServerConfig) (db : Database) (start : ℕ) :
    Conserved config (.init config db start) where
  fresh _ _ := rfl
  held _ := rfl
  slots route := by cases route <;> simp [Admission.init, requestLimits, Gate.new, Admission.inUse, slotCount]
  free loopback := by simp [Admission.init, Admission.alive, Tracker.init]

lemma Conserved.accepted (h : Conserved config s) {loopback : Bool} {t : Tracker} {b : TrackerAction}
    (hfree : s.free loopback ≠ 0) (hs : (trackerMachine P path maxViewers).step s.tracker .accept = some (t, b)) :
    Conserved config (s.accept loopback (t, b)).1 := by
  obtain ⟨_, rfl, rfl⟩ := tracker_accept hs
  have hnone := h.fresh s.tracker.nextConnection le_rfl
  have hheld : s.held s.tracker.nextConnection = none := by
    simpa [hnone] using h.held s.tracker.nextConnection
  refine ⟨fun connection hge => ?_, fun connection => ?_, fun route => ?_, fun other => ?_⟩
  · have hlt : s.tracker.nextConnection < connection := hge
    simpa [Admission.accept, Tracker.setConnection, hlt.ne'] using h.fresh connection hlt.le
  · by_cases hid : connection = s.tracker.nextConnection
    · subst hid
      simp [Admission.accept, Tracker.setConnection, Tracker.timed, hheld]
    · simpa [Admission.accept, Tracker.setConnection, hid] using h.held connection
  · have hcount : (s.accept loopback
        ({ s.tracker with nextConnection := s.tracker.nextConnection + 1 }.setConnection s.tracker.nextConnection
          (some .waiting), .accepted s.tracker.nextConnection)).1.inUse route = s.inUse route := by
      refine (card_filter_succ (p := fun connection => s.held connection = some route) fun _ _ => Iff.rfl).trans ?_
      simp [hheld, Admission.inUse]
    rw [hcount]
    exact h.slots route
  · have hbefore := h.free other
    have hcount : (s.accept loopback
        ({ s.tracker with nextConnection := s.tracker.nextConnection + 1 }.setConnection s.tracker.nextConnection
          (some .waiting), .accepted s.tracker.nextConnection)).1.alive other =
          s.alive other + if loopback = other then 1 else 0 := by
      refine (card_filter_succ (p := fun connection =>
        (s.tracker.connections connection).isSome ∧ s.loopback connection = other) fun i hi => ?_).trans ?_
      · simp [Admission.accept, Tracker.setConnection, hi.ne]
      · simp [Admission.accept, Tracker.setConnection, Admission.alive]
    rw [hcount]
    by_cases hother : loopback = other
    · subst hother
      simp only [Admission.accept, Function.update_self, if_pos]
      omega
    · simpa [Admission.accept, Ne.symm hother, hother] using hbefore

lemma inUse_change {s : Admission} (s' : Admission) {connection : ℕ}
    (hnext : s'.tracker.nextConnection = s.tracker.nextConnection)
    (hlt : connection < s.tracker.nextConnection)
    (hothers : ∀ other, other ≠ connection → s'.held other = s.held other) (route : Route) :
    s.inUse route + (if s'.held connection = some route then 1 else 0) =
      s'.inUse route + if s.held connection = some route then 1 else 0 := by
  unfold Admission.inUse
  rw [hnext]
  exact card_filter_change (p := fun other => s.held other = some route) (q := fun other => s'.held other = some route)
    hlt fun other hother => by rw [hothers other hother]

lemma alive_change {s : Admission} (s' : Admission) {connection : ℕ}
    (hnext : s'.tracker.nextConnection = s.tracker.nextConnection)
    (hlt : connection < s.tracker.nextConnection) (hloopback : s'.loopback = s.loopback)
    (hothers : ∀ other, other ≠ connection →
      (s'.tracker.connections other).isSome = (s.tracker.connections other).isSome) (loopback : Bool) :
    s.alive loopback +
        (if (s'.tracker.connections connection).isSome ∧ s.loopback connection = loopback then 1 else 0) =
      s'.alive loopback +
        if (s.tracker.connections connection).isSome ∧ s.loopback connection = loopback then 1 else 0 := by
  unfold Admission.alive
  rw [hnext, hloopback]
  exact card_filter_change
    (p := fun other => (s.tracker.connections other).isSome ∧ s.loopback other = loopback)
    (q := fun other => (s'.tracker.connections other).isSome ∧ s.loopback other = loopback)
    hlt fun other hother => by rw [hothers other hother]

lemma Conserved.keep (h : Conserved config s) {t : Tracker} {limits : Route → Gate}
    (hnext : t.nextConnection = s.tracker.nextConnection)
    (halive : ∀ connection, (t.connections connection).isSome = (s.tracker.connections connection).isSome)
    (htimed : ∀ connection,
      (t.connections connection).any Tracker.timed = (s.tracker.connections connection).any Tracker.timed)
    (hslots : ∀ route, (limits route).slots = (s.limits route).slots) :
    Conserved config { s with tracker := t, limits } where
  fresh connection hge := by
    have hnone := h.fresh connection (hnext ▸ hge)
    have hsome := halive connection
    rw [hnone] at hsome
    simpa using hsome
  held connection := (h.held connection).trans (htimed connection).symm
  slots route := by
    have hbefore := h.slots route
    simpa [Admission.inUse, hnext, hslots] using hbefore
  free loopback := by
    have hbefore := h.free loopback
    simpa [Admission.alive, hnext, halive] using hbefore

lemma Conserved.admitted (h : Conserved config s) {connection sampled : ℕ} {target : String} {request : Request}
    {limits : Route → Gate} {t : Tracker} {b : TrackerAction}
    (hlimits : limitRequests s.limits target sampled = (.ok (), limits))
    (hs : (trackerMachine P path maxViewers).step s.tracker (.request connection request) = some (t, b)) :
    Conserved config
      { s with tracker := t, limits, held := Function.update s.held connection (some (routeOf target)) } := by
  obtain ⟨hold, hnext, htimed, hothers⟩ := tracker_request hs
  obtain ⟨gate, _, hgate, rfl⟩ := limitRequests_ok 0 hlimits
  have hlt : connection < s.tracker.nextConnection := h.lt_next (by simp [hold])
  have hheld : s.held connection = none := by
    simpa [hold, Tracker.timed] using h.held connection
  obtain ⟨handler, hhandler, _⟩ := (Option.any_eq_true _ _).mp htimed
  refine ⟨fun other hge => ?_, fun other => ?_, fun route => ?_, fun loopback => ?_⟩
  · have hne : other ≠ connection := by
      rintro rfl
      exact absurd (hnext ▸ hge) (not_le.mpr hlt)
    exact (hothers other hne).trans (h.fresh other (hnext ▸ hge))
  · by_cases hid : other = connection
    · subst hid
      simp [htimed]
    · simpa [hid, hothers other hid] using h.held other
  · have hbefore := h.slots route
    have hchange := inUse_change
      { s with
        tracker := t, limits := Function.update s.limits (routeOf target) gate,
        held := Function.update s.held connection (some (routeOf target)) }
      hnext hlt (fun other hother => by simp [hother]) route
    by_cases hroute : route = routeOf target
    · subst hroute
      simp only [Function.update_self, hheld, reduceCtorEq, if_true, if_false] at hchange ⊢
      omega
    · simp only [Function.update_self, Option.some.injEq, Ne.symm hroute, hheld, reduceCtorEq, if_false] at hchange
      simp only [Function.update_of_ne hroute]
      omega
  · have hbefore := h.free loopback
    have hchange := alive_change
      { s with
        tracker := t, limits := Function.update s.limits (routeOf target) gate,
        held := Function.update s.held connection (some (routeOf target)) }
      hnext hlt rfl (fun other hother => by simp [hothers other hother]) loopback
    simp only [hhandler, hold, Option.isSome_some, true_and, Nat.add_right_cancel_iff] at hchange
    rw [← hchange]
    exact hbefore

lemma Conserved.released (h : Conserved config s) {connection : ℕ} {t : Tracker} {b : TrackerAction}
    (hmoves : s.tracker.Moves t connection) : Conserved config (s.release connection (t, b)).1 := by
  have hlt := h.lt_next hmoves.alive
  refine ⟨fun other hge => ?_, fun other => ?_, fun route => ?_, fun loopback => ?_⟩
  · have hge' : s.tracker.nextConnection ≤ other := hmoves.next ▸ hge
    exact (hmoves.others other (by omega)).trans (h.fresh other hge')
  · by_cases hid : other = connection
    · subst hid
      by_cases htimed : (t.connections other).any Tracker.timed = true
      · simpa [Admission.release, htimed] using (h.held other).trans (hmoves.timed htimed)
      · simp [Admission.release, htimed]
    · have hheld := h.held other
      rw [← hmoves.others other hid] at hheld
      by_cases htimed : (t.connections connection).any Tracker.timed = true
      · simpa [Admission.release, htimed] using hheld
      · simpa [Admission.release, htimed, hid] using hheld
  · have hbefore := h.slots route
    have hchange := inUse_change (s.release connection (t, b)).1 hmoves.next hlt
      (fun other hother => by
        unfold Admission.release
        dsimp only
        split
        · rfl
        · exact Function.update_of_ne hother _ _) route
    by_cases htimed : (t.connections connection).any Tracker.timed = true
    · simp only [Admission.release, htimed, if_true, reduceCtorEq, if_false] at hchange ⊢
      omega
    · simp only [Admission.release, htimed, if_false, Function.update_self, reduceCtorEq] at hchange ⊢
      by_cases hroute : s.held connection = some route
      · simp only [hroute, if_true] at hchange ⊢
        omega
      · simp only [hroute, if_false] at hchange ⊢
        omega
  · have hbefore := h.free loopback
    have hchange := alive_change (s.release connection (t, b)).1 hmoves.next hlt rfl
      (fun other hother => congrArg Option.isSome (hmoves.others other hother)) loopback
    cases hhandler : t.connections connection with
    | some handler =>
      simp only [Admission.release, hhandler, hmoves.alive, Option.isNone_some, Option.isSome_some, true_and,
        Bool.false_eq_true, if_false, reduceCtorEq] at hchange ⊢
      omega
    | none =>
      simp only [Admission.release, hhandler, hmoves.alive, Option.isNone_none, Option.isSome_none, Bool.false_eq_true,
        false_and, if_false, true_and, if_true, Option.some.injEq] at hchange ⊢
      by_cases hloopback : s.loopback connection = loopback
      · simp only [hloopback, if_true] at hchange ⊢
        omega
      · simp only [hloopback, if_false] at hchange ⊢
        omega

theorem Conserved.step (h : Conserved config s) (hs : AdmissionStep P path config s a s') : Conserved config s' := by
  cases hs with
  | dropped => exact h
  | accepted hfree hs => exact h.accepted hfree hs
  | admitted hlimits hs => exact h.admitted hlimits hs
  | @refused connection sampled target refusal limits t b hlimits hs =>
    obtain ⟨hold, rfl⟩ := tracker_refuse hs
    obtain ⟨gate, _, hgate, rfl, _⟩ := limitRequests_error 0 hlimits
    refine h.keep rfl (fun other => ?_) (fun other => ?_) fun route => ?_
    · by_cases hid : other = connection
      · simp [Tracker.setConnection, hid, hold]
      · simp [Tracker.setConnection, hid]
    · by_cases hid : other = connection
      · simp [Tracker.setConnection, hid, hold, Tracker.timed]
      · simp [Tracker.setConnection, hid]
    · by_cases hroute : route = routeOf target
      · subst hroute
        simpa using hgate
      · simp [hroute]
  | ran hs hnext hsame => exact h.keep hnext (fun _ => by rw [hsame]) (fun _ => by rw [hsame]) fun _ => rfl
  | released hs hmoves => exact h.released hmoves

/-- The event of a step at one gate. -/
def AdmissionAction.atGate (route : Route) (a : AdmissionAction) : Option GateAction :=
  a.gate.bind fun event => if event.1 = route then some event.2 else none

/-- The event of a step at one pool. -/
def AdmissionAction.atPool (loopback : Bool) (a : AdmissionAction) : Option Permits.Action :=
  a.pool.bind fun event => if event.1 = loopback then some event.2 else none

section Runs

variable {db : Database} {start : ℕ} {history : List AdmissionAction}

theorem Conserved.run (h : (admissionMachine P path config).Run (.init config db start) history s) :
    Conserved config s :=
  h.invariant (P := fun _ s => Conserved config s) (.init config db start) fun _ _ _ _ _ _ ih hs =>
    ih.step (admission_step hs)

lemma Conserved.inUse_pos (h : Conserved config s) {connection : ℕ} {route : Route}
    (hheld : s.held connection = some route) : 0 < s.inUse route := by
  have halive : (s.tracker.connections connection).isSome := by
    have htimed := h.held connection
    rw [hheld] at htimed
    obtain ⟨handler, hhandler, _⟩ := (Option.any_eq_true _ _).mp htimed.symm
    simp [hhandler]
  exact Finset.card_pos.mpr ⟨connection, Finset.mem_filter.mpr ⟨Finset.mem_range.mpr (h.lt_next halive), hheld⟩⟩

lemma Conserved.alive_pos (h : Conserved config s) {connection : ℕ}
    (halive : (s.tracker.connections connection).isSome) : 0 < s.alive (s.loopback connection) :=
  Finset.card_pos.mpr ⟨connection, Finset.mem_filter.mpr ⟨Finset.mem_range.mpr (h.lt_next halive), halive, rfl⟩⟩

lemma AdmissionStep.gate (hs : AdmissionStep P path config s a s') (h : Conserved config s) (route : Route) :
    (a.atGate route = none ∧ s'.limits route = s.limits route) ∨
      ∃ event input, a.atGate route = some event ∧
        (gateMachine (slotCount config.toRuntimeConfig route)).step (s.limits route) input =
          some (s'.limits route, event) := by
  cases hs with
  | dropped | accepted | ran => exact .inl ⟨rfl, rfl⟩
  | @admitted _ _ target _ _ _ _ hlimits hs =>
    obtain ⟨gate, hgate, _, rfl⟩ := limitRequests_ok (slotCount config.toRuntimeConfig route) hlimits
    by_cases hroute : routeOf target = route
    · subst hroute
      exact .inr ⟨_, _, if_pos rfl, by simpa using hgate⟩
    · exact .inl ⟨by simp [AdmissionAction.atGate, hroute], by simp [Ne.symm hroute]⟩
  | @refused _ _ target _ _ _ _ hlimits hs =>
    obtain ⟨gate, hgate, _, rfl, _⟩ := limitRequests_error (slotCount config.toRuntimeConfig route) hlimits
    by_cases hroute : routeOf target = route
    · subst hroute
      exact .inr ⟨_, _, if_pos rfl, by simpa using hgate⟩
    · exact .inl ⟨by simp [AdmissionAction.atGate, hroute], by simp [Ne.symm hroute]⟩
  | @released _ connection t b hs hmoves =>
    by_cases htimed : (t.connections connection).any Tracker.timed = true
    · exact .inl ⟨by simp [Admission.release, AdmissionAction.atGate, htimed], by simp [Admission.release, htimed]⟩
    · by_cases hheld : s.held connection = some route
      · have hslots := h.slots route
        have hpos := h.inUse_pos hheld
        refine .inr ⟨.left, .leave, by simp [Admission.release, AdmissionAction.atGate, htimed, hheld], ?_⟩
        simp [gateMachine, Admission.release, htimed, hheld, show (s.limits route).slots <
          slotCount config.toRuntimeConfig route by omega]
      · refine .inl ⟨?_, by simp [Admission.release, htimed, hheld]⟩
        cases hother : s.held connection with
        | none => simp [Admission.release, AdmissionAction.atGate, htimed, hother]
        | some other =>
          have hne : other ≠ route := by simpa [hother] using hheld
          simp [Admission.release, AdmissionAction.atGate, htimed, hother, hne]

lemma AdmissionStep.pool (hs : AdmissionStep P path config s a s') (h : Conserved config s) (loopback : Bool) :
    (a.atPool loopback = none ∧ s'.free loopback = s.free loopback) ∨
      ∃ event input, a.atPool loopback = some event ∧
        (Permits.machine (poolSize config loopback)).step (s.free loopback) input =
          some (s'.free loopback, event) := by
  cases hs with
  | ran | admitted | refused => exact .inl ⟨rfl, rfl⟩
  | @dropped other _ hfree =>
    by_cases hother : other = loopback
    · subst hother
      exact .inr ⟨.refused, .take, by simp [AdmissionAction.atPool], by simp [Permits.machine, hfree]⟩
    · exact .inl ⟨by simp [AdmissionAction.atPool, hother], rfl⟩
  | @accepted other _ _ hfree hs =>
    by_cases hother : other = loopback
    · subst hother
      exact .inr ⟨.taken, .take, by simp [Admission.accept, AdmissionAction.atPool],
        by simp [Admission.accept, Permits.machine, hfree]⟩
    · exact .inl ⟨by simp [Admission.accept, AdmissionAction.atPool, hother],
        by simp [Admission.accept, Ne.symm hother]⟩
  | @released _ connection t b hs hmoves =>
    cases hhandler : t.connections connection with
    | some handler =>
      exact .inl ⟨by simp [Admission.release, AdmissionAction.atPool, hhandler],
        by simp [Admission.release, hhandler]⟩
    | none =>
      by_cases hother : s.loopback connection = loopback
      · have hfree := h.free loopback
        have hpos := h.alive_pos hmoves.alive
        rw [hother] at hpos
        refine .inr ⟨.given, .give, by simp [Admission.release, AdmissionAction.atPool, hhandler, hother], ?_⟩
        simp [Permits.machine, Admission.release, hhandler, hother, show s.free loopback < poolSize config loopback by
          omega]
      · exact .inl ⟨by simp [Admission.release, AdmissionAction.atPool, hhandler, hother],
          by simp [Admission.release, hhandler, hother]⟩

lemma AdmissionStep.tracker (hs : AdmissionStep P path config s a s') :
    (a.tracker = none ∧ s'.tracker = s.tracker) ∨
      ∃ b input, a.tracker = some b ∧
        (trackerMachine P path config.maxViewers).step s.tracker input = some (s'.tracker, b) := by
  cases hs with
  | dropped => exact .inl ⟨rfl, rfl⟩
  | accepted _ hs | admitted _ hs | refused _ hs | ran hs | released hs => exact .inr ⟨_, _, rfl, hs⟩

/-- What happens behind the permits is a run of the process without them. -/
theorem admission_refines (h : (admissionMachine P path config).Run (.init config db start) history s) :
    (trackerMachine P path config.maxViewers).Run (.init db start) (history.filterMap AdmissionAction.tracker)
      s.tracker := by
  obtain ⟨_, hrun, rfl⟩ := h.refines (N := trackerMachine P path config.maxViewers) (.init db start)
    AdmissionAction.tracker (fun _ s t => s.tracker = t) rfl
    (by
      rintro older s input s' a _ _ rfl hs
      rcases (admission_step hs).tracker with ⟨hnone, hsame⟩ | ⟨b, i, hsome, htracker⟩
      · rw [hnone]
        exact hsame
      · rw [hsome]
        exact ⟨i, _, htracker, rfl⟩)
  exact hrun

/-- The permits only hold steps back: what happens behind them is a run of the process without them. Once the drain of
a shutdown is over, every permit is back. -/
theorem drained_permit_law (P : Platform) (path : DbPath) (config : ServerConfig) {db : Database} {start : ℕ}
    {history : List AdmissionAction} {s : Admission}
    (h : (admissionMachine P path config).Run (.init config db start) history s) :
    (trackerMachine P path config.maxViewers).Run (.init db start) (history.filterMap AdmissionAction.tracker)
        s.tracker ∧
      (s.tracker.phase = .locking ∨ s.tracker.phase = .returned →
        (∀ route, (s.limits route).slots = slotCount config.toRuntimeConfig route) ∧
          ∀ loopback, s.free loopback = poolSize config loopback) := by
  have hrun := admission_refines h
  refine ⟨hrun, fun hphase => ?_⟩
  have hquiet := (Connected.run hrun).quiet hphase
  have hconserved := Conserved.run h
  refine ⟨fun route => ?_, fun loopback => ?_⟩
  · have hidle : s.inUse route = 0 := by
      refine Finset.card_eq_zero.mpr (Finset.filter_eq_empty_iff.mpr fun connection _ hheld => ?_)
      have htimed := hconserved.held connection
      simp [hheld, hquiet connection] at htimed
    have hslots := hconserved.slots route
    omega
  · have hidle : s.alive loopback = 0 :=
      Finset.card_eq_zero.mpr (Finset.filter_eq_empty_iff.mpr fun connection _ halive => by
        simp [hquiet connection] at halive)
    have hfree := hconserved.free loopback
    omega

/-- A connection that is open at the shutdown has given its permit back when the drain is over. -/
theorem drained_permit_law_open_connection :
    ∃ history s, (admissionMachine .plain ⟨none, "tracker.db"⟩ ⟨⟨1, 1, 1⟩, 1, 25⟩).Run
        (.init ⟨⟨1, 1, 1⟩, 1, 25⟩ (.current .empty seededHealth) 0) history s ∧
      s.tracker.phase = .locking ∧ s.free false = 1 := by
  obtain ⟨history, s, hrun, hphase⟩ :
      ∃ history s, (admissionMachine .plain ⟨none, "tracker.db"⟩ ⟨⟨1, 1, 1⟩, 1, 25⟩).Run
          (.init ⟨⟨1, 1, 1⟩, 1, 25⟩ (.current .empty seededHealth) 0) history s ∧ s.tracker.phase = .locking :=
    ⟨_, _, Machine.run_of_exec [.connect false, .run .shutdown, .run (.close 0), .run .drained] rfl, rfl⟩
  exact ⟨history, s, hrun, hphase, ((drained_permit_law .plain _ _ hrun).2 (.inl hphase)).2 false⟩

end Runs

end BitcoinPriceTracker

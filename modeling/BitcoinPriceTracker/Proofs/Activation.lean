import BitcoinPriceTracker.Proofs.RefreshSchedule
import BitcoinPriceTracker.Proofs.ServerViews

namespace BitcoinPriceTracker

variable {P : Platform} {path : DbPath} {maxViewers : ℕ} {s s' : Server} {a : ServerAction}
  {history : List ServerAction}

/-- An accepted active heartbeat that found no live session. -/
def Activates (a : ServerAction) (before : List ServerAction) : Prop :=
  ∃ payload now viewers, a = .presence payload now (.ok viewers) ∧ payload.active = true ∧
    live (beatsOf before) now = ∅

lemma activationsOf_activates (h : Activates a history) : activationsOf (a :: history) = activationsOf history + 1 := by
  obtain ⟨payload, now, viewers, rfl, hactive, hempty⟩ := h
  exact congrArg (activationsOf history + ·) (if_pos ⟨hactive, hempty⟩)

lemma activationsOf_other (h : ¬Activates a history) : activationsOf (a :: history) = activationsOf history := by
  cases a with
  | presence payload now result =>
    cases result with
    | error n => rfl
    | ok viewers =>
      have hnot : ¬(payload.active = true ∧ live (beatsOf history) now = ∅) :=
        fun hboth => h ⟨payload, now, viewers, rfl, hboth⟩
      exact congrArg (activationsOf history + ·) (if_neg hnot)
  | _ => rfl

lemma activationsOf_le_append (newer older : List ServerAction) :
    activationsOf older ≤ activationsOf (newer ++ older) := by
  unfold activationsOf
  rw [List.filterMap_append]
  exact activations_mono _ _

lemma activationsOf_le_cons (a : ServerAction) (older : List ServerAction) :
    activationsOf older ≤ activationsOf (a :: older) :=
  activationsOf_le_append [a] older

lemma activationsOf_append {newer older : List ServerAction}
    (h : ∀ later b earlier, newer = later ++ b :: earlier → ¬Activates b (earlier ++ older)) :
    activationsOf (newer ++ older) = activationsOf older := by
  induction newer with
  | nil => rfl
  | cons b newer ih =>
    rw [List.cons_append, activationsOf_other (h [] b newer rfl)]
    exact ih fun later c earlier heq => h (b :: later) c earlier (by rw [heq]; rfl)

/-- Of two prefixes of a run, the one with an activation at its end has counted it if and only if it
is not older. -/
lemma lt_activationsOf_iff {earlier before : List ServerAction} (ha : Activates a before)
    (hearlier : earlier <:+ history) (hbefore : a :: before <:+ history) :
    activationsOf before < activationsOf earlier ↔ a :: before <:+ earlier := by
  constructor
  · intro hlt
    rcases List.suffix_or_suffix_of_suffix hearlier hbefore with hshort | hlong
    · rcases List.suffix_cons_iff.mp hshort with rfl | ⟨newer, rfl⟩
      · exact List.suffix_rfl
      · exact absurd (activationsOf_le_append newer earlier) (by omega)
    · exact hlong
  · rintro ⟨newer, rfl⟩
    have := activationsOf_le_append newer (a :: before)
    have := activationsOf_activates ha
    omega

/-- The plan of a full batch that is completed. -/
def ServerAction.fullBatch : ServerAction → Option RefreshPlan
  | completed _ plan _ _ _ => if plan.fullRefresh then some plan else none
  | _ => none

lemma completedGeneration_step (hs : ServerStep P path maxViewers s a s') :
    s'.coordinator.completedGeneration =
      (a.fullBatch.map RefreshPlan.generation).getD s.coordinator.completedGeneration := by
  cases hs with
  | beginUnwound hread hbegin => rw [RefreshCoordinator.begin_unwound hbegin]; rfl
  | refused hread hbegin => rw [RefreshCoordinator.begin_refused hbegin]; rfl
  | granted hread hbegin =>
    obtain ⟨_, _, _, rfl⟩ := RefreshCoordinator.begin_granted hbegin
    exact (RefreshCoordinator.dispatch_spec _ _ _).2.2.1
  | completed htask hpoint hcomplete =>
    refine (RefreshCoordinator.complete_generation hcomplete).trans ?_
    simp only [ServerAction.fullBatch]
    split <;> rfl
  | completionUnwound htask hpoint hcomplete => exact RefreshCoordinator.complete_unwound_generation hcomplete
  | _ => rfl

lemma ReadStep.beginning {id generation : ℕ} {seen : ReadData} {old : Option ReadPoint}
    (hs : ReadStep s id old a (some (.beginning seen generation))) :
    (old = some (.beginning seen generation) ∧ a.reader ≠ some id) ∨
      (old = some (.generating seen) ∧ a = .generationLoaded id generation ∧
        generation = s.registry.fullRefreshGeneration) := by
  generalize hnew : some (ReadPoint.beginning seen generation) = new at hs
  cases hs with
  | other ha => exact .inl ⟨rfl, ha⟩
  | generationLoaded =>
    obtain ⟨rfl, rfl⟩ := ReadPoint.beginning.inj (Option.some.inj hnew)
    exact .inr ⟨rfl, rfl, rfl⟩
  | @decided later =>
    have hdecision : s.decision id later ≠ .beginning seen generation := by
      unfold Server.decision
      dsimp only
      repeat' split
      all_goals simp
    exact absurd (Option.some.inj hnew).symm hdecision
  | _ => simp at hnew

/-- The count that a read begins with is the one at its last look at the viewers map. -/
def ReadPoint.Counted (history : List ServerAction) (id : ℕ) : ReadPoint → Prop
  | beginning _ generation => ∃ middle earlier, history = middle ++ .generationLoaded id generation :: earlier ∧
      generation = activationsOf earlier % 2 ^ 64 ∧ ∀ b ∈ middle, b.reader ≠ some id
  | _ => True

lemma reads_counted {db : Database} {start : ℕ}
    (h : (serverMachine P path maxViewers).Run (.init db start) history s) :
    ∀ id point, s.reads id = some point → point.Counted history id := by
  refine h.invariant (P := fun history s => ∀ id point, s.reads id = some point → point.Counted history id)
    (fun id point hread => by simp [Server.init] at hread) ?_
  intro history s i s' a hrun ih hs id point hread
  have hlife := read_life (Exclusive.run hrun) (server_step hs) id
  have hcount := (registry_counts hrun).1
  rw [hread] at hlife
  cases point with
  | beginning seen generation =>
    rcases hlife.beginning with ⟨hold, ha⟩ | ⟨_, rfl, rfl⟩
    · obtain ⟨middle, earlier, rfl, hgeneration, hmiddle⟩ := ih id _ hold
      exact ⟨a :: middle, earlier, rfl, hgeneration, List.forall_mem_cons.mpr ⟨ha, hmiddle⟩⟩
    · exact ⟨[], history, rfl, hcount, by simp⟩
  | _ => trivial

/-- Where the completed generation stands among the activations. -/
structure Pending (history : List ServerAction) (s : Server) : Prop where
  completed : s.coordinator.completedGeneration ≤ activationsOf history
  begins : ∀ id seen generation, s.reads id = some (.beginning seen generation) →
    s.coordinator.completedGeneration ≤ generation ∧ generation ≤ activationsOf history
  plans : ∀ plan, s.outstanding = some plan →
    s.coordinator.completedGeneration ≤ plan.generation ∧ plan.generation ≤ activationsOf history
  batches : ∀ b ∈ history, ∀ plan, b.fullBatch = some plan → plan.generation ≤ s.coordinator.completedGeneration
  source : s.coordinator.completedGeneration = 0 ∨
    ∃ b ∈ history, ∃ plan, b.fullBatch = some plan ∧ plan.generation = s.coordinator.completedGeneration

lemma fullBatch_step (h : Exclusive s) (hs : ServerStep P path maxViewers s a s') {plan : RefreshPlan}
    (ha : a.fullBatch = some plan) : s.outstanding = some plan ∧ ∃ task, s.owner = some (.task task) := by
  have hflight := (flight_step h hs).outstanding
  cases hs with
  | @completed id task batch stored nowUnix c htask =>
    simp only [ServerAction.fullBatch, Option.ite_none_right_eq_some, Option.some.injEq] at ha
    exact ⟨ha.2 ▸ hflight.1, id, h.tasks _ _ htask⟩
  | _ => simp [ServerAction.fullBatch] at ha

lemma Pending.step (h : Pending history s) (hexclusive : Exclusive s) (hs : ServerStep P path maxViewers s a s')
    (hcount : s.registry.fullRefreshGeneration = activationsOf history) : Pending (a :: history) s' := by
  have hgeneration := completedGeneration_step hs
  have hmono := activationsOf_le_cons a history
  have hflight := (flight_step hexclusive hs).outstanding
  cases hfull : a.fullBatch with
  | some plan =>
    rw [hfull] at hgeneration
    obtain ⟨houtstanding, task, howner⟩ := fullBatch_step hexclusive hs hfull
    obtain ⟨hlower, hupper⟩ := h.plans plan houtstanding
    have hidle : s'.outstanding = none := by
      cases a with
      | completed => exact hflight.2
      | _ => simp [ServerAction.fullBatch] at hfull
    refine ⟨hgeneration ▸ hupper.trans hmono, fun id seen generation hread => ?_, fun plan' hplan => ?_,
      fun b hb plan' hplan => ?_, .inr ⟨a, List.mem_cons_self, plan, hfull, hgeneration.symm⟩⟩
    · -- A read that is about to begin would hold the guard that the task has.
      have hlife := read_life hexclusive hs id
      rw [hread] at hlife
      rcases hlife.beginning with ⟨hold, _⟩ | ⟨hold, _⟩
      all_goals
        have hreader := hexclusive.planning id _ hold rfl
        rw [howner] at hreader
        cases hreader
    · simp [hidle] at hplan
    · rw [hgeneration]
      rcases List.mem_cons.mp hb with rfl | hb
      · obtain rfl := Option.some.inj (hfull.symm.trans hplan)
        exact le_rfl
      · exact (h.batches b hb plan' hplan).trans hlower
  | none =>
    rw [hfull] at hgeneration
    replace hgeneration : s'.coordinator.completedGeneration = s.coordinator.completedGeneration := hgeneration
    refine ⟨hgeneration ▸ h.completed.trans hmono, fun id seen generation hread => ?_, fun plan hplan => ?_,
      fun b hb plan hplan => ?_, ?_⟩
    · have hlife := read_life hexclusive hs id
      rw [hread] at hlife
      rw [hgeneration]
      rcases hlife.beginning with ⟨hold, _⟩ | ⟨_, _, rfl⟩
      · obtain ⟨hlower, hupper⟩ := h.begins id seen generation hold
        exact ⟨hlower, hupper.trans hmono⟩
      · rw [hcount]
        exact ⟨h.completed, hmono⟩
    · rw [hgeneration]
      by_cases hsame : s'.outstanding = s.outstanding
      · obtain ⟨hlower, hupper⟩ := h.plans plan (hsame ▸ hplan)
        exact ⟨hlower, hupper.trans hmono⟩
      · -- The only step after which another plan is outstanding grants it.
        cases hs with
        | @granted id generation seen plan' c hread hbegin =>
          obtain rfl := Option.some.inj (hflight.2.symm.trans hplan)
          obtain ⟨_, rfl, _⟩ := RefreshCoordinator.begin_granted hbegin
          obtain ⟨hlower, hupper⟩ := h.begins id seen generation hread
          exact ⟨hlower, hupper.trans hmono⟩
        | stoppingSeen | noViewers | completed | completionUnwound => simp [Server.outstanding, hflight.2] at hplan
        | _ => exact absurd hflight hsame
    · rw [hgeneration]
      rcases List.mem_cons.mp hb with rfl | hb
      · simp [hfull] at hplan
      · exact h.batches b hb plan hplan
    · rw [hgeneration]
      refine h.source.imp_right ?_
      rintro ⟨b, hb, hplan⟩
      exact ⟨b, List.mem_cons_of_mem _ hb, hplan⟩

theorem Pending.run {db : Database} {start : ℕ}
    (h : (serverMachine P path maxViewers).Run (.init db start) history s)
    (hwrap : activationsOf history < 2 ^ 64) : Pending history s := by
  refine h.invariant (P := fun history s => activationsOf history < 2 ^ 64 → Pending history s)
    (fun _ => ⟨Nat.zero_le _, ?_, ?_, ?_, .inl rfl⟩) ?_ hwrap
  · simp [Server.init]
  · simp [Server.outstanding, Server.flight, Server.held, Server.init]
  · simp
  · intro history s i s' a hrun ih hs hwrap
    have hbefore := (activationsOf_le_cons a history).trans_lt hwrap
    refine (ih hbefore).step (Exclusive.run hrun) (server_step hs) ?_
    rw [(registry_counts hrun).1, Nat.mod_eq_of_lt hbefore]

lemma outstanding_granted {db : Database} {start : ℕ}
    (h : (serverMachine P path maxViewers).Run (.init db start) history s) :
    ∀ plan, s.outstanding = some plan → ∃ id now, .granted id plan now ∈ history := by
  refine h.invariant
    (P := fun history s => ∀ plan, s.outstanding = some plan → ∃ id now, .granted id plan now ∈ history)
    (by simp [Server.outstanding, Server.flight, Server.held, Server.init]) ?_
  intro history s i s' a hrun ih hs plan hplan
  have hflight := (flight_step (Exclusive.run hrun) (server_step hs)).outstanding
  by_cases hsame : s'.outstanding = s.outstanding
  · obtain ⟨id, now, hgranted⟩ := ih plan (hsame ▸ hplan)
    exact ⟨id, now, List.mem_cons_of_mem _ hgranted⟩
  · cases a with
    | granted id plan' now =>
      obtain rfl := Option.some.inj (hflight.2.symm.trans hplan)
      exact ⟨id, now, List.mem_cons_self⟩
    | stoppingSeen | noViewers | completed | completionUnwound => simp [Server.outstanding, hflight.2] at hplan
    | _ => exact absurd hflight hsame

/-- The generation of the plan counts the activation that has `before` behind it. -/
def RefreshPlan.Counts (plan : RefreshPlan) (before : List ServerAction) : Prop :=
  activationsOf before < plan.generation

/-- A full batch whose plan counts that activation is completed. -/
def Served (history before : List ServerAction) : Prop :=
  ∃ b ∈ history, ∃ full, b.fullBatch = some full ∧ full.Counts before

lemma granted_step {id now : ℕ} {plan : RefreshPlan} (hs : ServerStep P path maxViewers s (.granted id plan now) s') :
    (∃ seen, s.reads id = some (.beginning seen plan.generation)) ∧
      if plan.generation = s.coordinator.completedGeneration then ∃ source, plan.sources = [source]
      else plan.fullRefresh = true ∧ ∀ source, source ∈ plan.sources ↔ DeadlinePassed s.coordinator source now := by
  cases hs with
  | @granted _ generation seen _ c hread hbegin =>
    obtain ⟨hopen, hplan, _⟩ := RefreshCoordinator.begin_granted hbegin
    obtain rfl : plan.generation = generation := by
      rw [hplan]
      rfl
    have hadmits := (begin_admits P.range s.coordinator hopen plan.generation).2 plan c hbegin
    refine ⟨⟨seen, hread⟩, ?_⟩
    split
    · next hordinary =>
      rw [if_pos hordinary] at hadmits
      obtain ⟨source, hsources, _⟩ := hadmits
      exact ⟨source, hsources⟩
    · next hfull =>
      rw [if_neg hfull] at hadmits
      refine ⟨?_, hadmits⟩
      rw [hplan]
      exact decide_eq_true hfull

/-- A step of any run with fewer than 2^64 activations. A granted plan has the generation that its own read
loaded, which counts the activations before that load. A plan that counts an activation is full and holds
exactly the providers whose deadline has passed, unless a full batch that counts it too is completed; from
then on, without a newer activation, plans hold one provider. Completed plans have been granted, and
refused and abandoned ones leave the coordinator alone. -/
theorem activation_law (P : Platform) (path : DbPath) (maxViewers : ℕ) {db : Database} {start : ℕ}
    {older : List ServerAction} {s s' : Server} {i : ServerInput} {a : ServerAction}
    (h : (serverMachine P path maxViewers).Run (.init db start) older s) (hwrap : activationsOf older < 2 ^ 64)
    (hs : (serverMachine P path maxViewers).step s i = some (s', a)) :
    (∀ id plan now, a = .granted id plan now →
      ∃ middle earlier, older = middle ++ .generationLoaded id plan.generation :: earlier ∧
        (∀ b ∈ middle, b.reader ≠ some id) ∧
        ∀ between b before, older = between ++ b :: before → Activates b before →
          (plan.Counts before ↔ b :: before <:+ earlier) ∧
          (plan.Counts before → ¬Served older before →
            plan.fullRefresh = true ∧ ∀ source, source ∈ plan.sources ↔ DeadlinePassed s.coordinator source now) ∧
          (Served older before →
            (∀ later c rest, between = later ++ c :: rest → ¬Activates c (rest ++ b :: before)) →
            ∃ source, plan.sources = [source])) ∧
    (∀ task plan failures now nowUnix, a = .completed task plan failures now nowUnix →
      ∃ id grantedAt, .granted id plan grantedAt ∈ older) ∧
    (∀ id reason now generation, a = .refused id reason now generation → s'.coordinator = s.coordinator) ∧
    ∀ task now plan, a = .stoppingSeen task plan ∨ a = .noViewers task now plan → s'.coordinator = s.coordinator := by
  have hstep := server_step hs
  refine ⟨?_, ?_, ?_, ?_⟩
  · rintro id plan now rfl
    have hpending := Pending.run h hwrap
    obtain ⟨⟨seen, hread⟩, hsources⟩ := granted_step hstep
    obtain ⟨middle, earlier, holder, hgeneration, hmiddle⟩ := reads_counted h id _ hread
    obtain ⟨hlower, hupper⟩ := hpending.begins id seen _ hread
    have hearlier : earlier <:+ older := ⟨middle ++ [.generationLoaded id plan.generation], by simp [holder]⟩
    obtain ⟨newer, hnewer⟩ := hearlier
    have hle := activationsOf_le_append newer earlier
    rw [hnewer] at hle
    rw [Nat.mod_eq_of_lt (hle.trans_lt hwrap)] at hgeneration
    refine ⟨middle, earlier, holder, hmiddle, fun between b before hbetween hactivates => ⟨?_, ?_, ?_⟩⟩
    · unfold RefreshPlan.Counts
      rw [hgeneration]
      exact lt_activationsOf_iff hactivates ⟨newer, hnewer⟩ ⟨between, hbetween.symm⟩
    · intro hcounts hunserved
      have hne : plan.generation ≠ s.coordinator.completedGeneration := by
        unfold RefreshPlan.Counts at hcounts
        rcases hpending.source with hzero | ⟨c, hc, full, hfull, hcompleted⟩
        · omega
        · intro heq
          exact hunserved ⟨c, hc, full, hfull, by unfold RefreshPlan.Counts; omega⟩
      rwa [if_neg hne] at hsources
    · rintro ⟨c, hc, full, hfull, hcounts⟩ hnone
      have hbatch := hpending.batches c hc full hfull
      have hcount : activationsOf older = activationsOf before + 1 := by
        rw [hbetween, activationsOf_append hnone, activationsOf_activates hactivates]
      unfold RefreshPlan.Counts at hcounts
      rwa [if_pos (by omega)] at hsources
  · rintro task plan failures now nowUnix rfl
    exact outstanding_granted h plan (flight_step (Exclusive.run h) hstep).outstanding.1
  · rintro id reason now generation rfl
    cases hstep with
    | refused hread hbegin => exact RefreshCoordinator.begin_refused hbegin
  · rintro task now plan (rfl | rfl)
    all_goals
      cases hstep
      rfl

/-- The cycle of a first viewer, and a second read whose `begin` comes after another activation. -/
def lateBegin : List ServerInput :=
  oneRefresh (fun _ => ⟨1000, .error ⟨true, "operation timed out"⟩, 1005⟩) ++
    [.advance (Duration.fromSecs 10), .read, .load 2 [], .count 2 1010, .copyReport 2, .decide 2,
      .loadGeneration 2, .presence ⟨"a", false, true⟩, .presence ⟨"a", true, true⟩]

/-- An activation between the load of the generation and `begin` does not make that plan a full one. -/
theorem activation_between_load_and_begin :
    ¬∀ (P : Platform) (path : DbPath) (maxViewers : ℕ) (db : Database) (start : ℕ) (older : List ServerAction)
      (s s' : Server) (i : ServerInput) (id now : ℕ) (plan : RefreshPlan),
      (serverMachine P path maxViewers).Run (.init db start) older s → activationsOf older < 2 ^ 64 →
      (serverMachine P path maxViewers).step s i = some (s', .granted id plan now) →
      ∀ between b before, older = between ++ b :: before → Activates b before → ¬Served older before →
        plan.fullRefresh = true := by
  intro hall
  obtain ⟨before, s, s', plan, hrun, hgranted, hordinary, hcount, hempty, hbatches⟩ :
      ∃ before s s' plan, (serverMachine .plain ⟨none, "tracker.db"⟩ 1).Run (.init (.current .empty seededHealth) 0)
          (.presence ⟨"a", true, true⟩ (Duration.fromSecs 10) (.ok 1) :: before) s ∧
        (serverMachine .plain ⟨none, "tracker.db"⟩ 1).step s (.begin 2) =
          some (s', .granted 2 plan (Duration.fromSecs 10)) ∧
        plan.fullRefresh = false ∧ activationsOf before = 1 ∧ live (beatsOf before) (Duration.fromSecs 10) = ∅ ∧
        before.all fun b => b.fullBatch.all fun full => full.generation ≤ 1 :=
    ⟨_, _, _, _, Machine.run_of_exec lateBegin rfl, rfl, rfl, rfl, rfl, rfl⟩
  have hactivates : Activates (.presence ⟨"a", true, true⟩ (Duration.fromSecs 10) (.ok 1)) before :=
    ⟨_, _, _, rfl, rfl, hempty⟩
  have hfull := hall .plain _ 1 _ 0 _ s s' _ 2 _ plan hrun
    (by rw [activationsOf_activates hactivates, hcount]; norm_num) hgranted [] _ before rfl hactivates ?_
  · simp [hordinary] at hfull
  · rintro ⟨b, hb, full, hfull, hcounts⟩
    unfold RefreshPlan.Counts at hcounts
    rcases List.mem_cons.mp hb with rfl | hb
    · simp [ServerAction.fullBatch] at hfull
    · have hle := List.all_eq_true.mp hbatches b hb
      rw [hfull, Option.all_some, decide_eq_true_eq] at hle
      omega

/-- The plan that a step grants to a read. -/
def ServerAction.plan : ServerAction → Option (ℕ × RefreshPlan × ℕ)
  | granted id plan now => some (id, plan, now)
  | _ => none

lemma ServerAction.eq_granted {id now : ℕ} {plan : RefreshPlan} (h : a.plan = some (id, plan, now)) :
    a = .granted id plan now := by
  unfold ServerAction.plan at h
  split at h
  · obtain ⟨rfl, rfl, rfl⟩ := by simpa using h
    rfl
  · simp at h

/-- The server at the activation of its first viewer. -/
def activated : Server := ((Server.init (.current storedTables seededHealth) 0).updatePresence 1 ⟨"a", true, true⟩).1

/-- What the first viewer's reads do before the two calls of `begin`. -/
def firstRead : List ServerInput := ((oneRefresh (someProviders "50000.5" 1000)).drop 1).take 6

def secondRead : List ServerInput :=
  (oneRefresh (someProviders "50000.5" 1000)).drop 1 ++ (nextRefresh (someProviders "51000.5" 1015) []).take 8

/-- The first viewer's activation makes the first plan a full one. Once its batch, with two successes, is completed the
next plan has one provider. -/
theorem activation_law_first :
    ∃ older s s' plan later t t' plan',
      (serverMachine .plain ⟨none, "tracker.db"⟩ 1).Run (.init (.current storedTables seededHealth) 0) older s ∧
      (serverMachine .plain ⟨none, "tracker.db"⟩ 1).step s (.begin 0) = some (s', .granted 0 plan 0) ∧
      plan.fullRefresh = true ∧ (∀ source, source ∈ plan.sources ↔ DeadlinePassed s.coordinator source 0) ∧
      (serverMachine .plain ⟨none, "tracker.db"⟩ 1).Run (.init (.current storedTables seededHealth) 0) later t ∧
      (serverMachine .plain ⟨none, "tracker.db"⟩ 1).step t (.begin 2) =
        some (t', .granted 2 plan' (Duration.fromSecs 10)) ∧
      later.any ServerAction.refreshes = true ∧ ∃ source, plan'.sources = [source] := by
  have hstart : (serverMachine .plain ⟨none, "tracker.db"⟩ 1).Run (.init (.current storedTables seededHealth) 0)
      [.presence ⟨"a", true, true⟩ 0 (.ok 1)] activated :=
    Machine.run_of_exec [.presence ⟨"a", true, true⟩] rfl
  have hactivates : Activates (.presence ⟨"a", true, true⟩ 0 (.ok 1)) [] := ⟨_, _, _, rfl, rfl, rfl⟩
  have hfirst : ((serverMachine .plain ⟨none, "tracker.db"⟩ 1).exec [] activated firstRead).any (fun r =>
      (r.1 ++ [.presence ⟨"a", true, true⟩ 0 (.ok 1)]).all (fun b => b.fullBatch = none) &&
      activationsOf (r.1 ++ [.presence ⟨"a", true, true⟩ 0 (.ok 1)]) = 1 &&
      ((serverMachine .plain ⟨none, "tracker.db"⟩ 1).step r.2 (.begin 0)).any fun g =>
        g.2.plan = some (0, ⟨UpstreamSource.all, true, 1⟩, 0)) = true := by
    decide +kernel
  have hsecond : ((serverMachine .plain ⟨none, "tracker.db"⟩ 1).exec [] activated secondRead).any (fun r =>
      r.1.any (fun b => b.fullBatch = some ⟨UpstreamSource.all, true, 1⟩) && r.1.any ServerAction.refreshes &&
      activationsOf (r.1 ++ [.presence ⟨"a", true, true⟩ 0 (.ok 1)]) = 1 &&
      ((serverMachine .plain ⟨none, "tracker.db"⟩ 1).step r.2 (.begin 2)).any fun g =>
        g.2.plan = some (2, ⟨[.coinGecko], false, 1⟩, Duration.fromSecs 10)) = true := by
    decide +kernel
  obtain ⟨⟨newer, s⟩, hexec, hshown⟩ := (Option.any_eq_true _ _).mp hfirst
  simp only [Bool.and_eq_true, decide_eq_true_eq] at hshown
  obtain ⟨⟨hbatches, hcount⟩, hgranted⟩ := hshown
  obtain ⟨⟨s', a⟩, hs, hplan⟩ := (Option.any_eq_true _ _).mp hgranted
  obtain rfl := ServerAction.eq_granted (of_decide_eq_true hplan)
  obtain ⟨⟨later, t⟩, hexec', hshown'⟩ := (Option.any_eq_true _ _).mp hsecond
  simp only [Bool.and_eq_true, decide_eq_true_eq] at hshown'
  obtain ⟨⟨⟨hfull, hrefreshes⟩, hcount'⟩, hgranted'⟩ := hshown'
  obtain ⟨⟨t', a'⟩, ht, hplan'⟩ := (Option.any_eq_true _ _).mp hgranted'
  obtain rfl := ServerAction.eq_granted (of_decide_eq_true hplan')
  have hrun := hstart.trans (Machine.run_of_exec _ hexec)
  have hrun' := hstart.trans (Machine.run_of_exec _ hexec')
  obtain ⟨_, _, _, _, hlaw⟩ := (activation_law .plain _ 1 hrun (by rw [hcount]; norm_num) hs).1 _ _ _ rfl
  obtain ⟨_, _, _, _, hlaw'⟩ := (activation_law .plain _ 1 hrun' (by rw [hcount']; norm_num) ht).1 _ _ _ rfl
  have hunserved : ¬Served (newer ++ [.presence ⟨"a", true, true⟩ 0 (.ok 1)]) [] := by
    rintro ⟨b, hb, full, hcompleted, _⟩
    have hnone := of_decide_eq_true (List.all_eq_true.mp hbatches b hb)
    rw [hnone] at hcompleted
    cases hcompleted
  have hserved : Served (later ++ [.presence ⟨"a", true, true⟩ 0 (.ok 1)]) [] := by
    obtain ⟨b, hb, hcompleted⟩ := List.any_eq_true.mp hfull
    exact ⟨b, List.mem_append_left _ hb, _, of_decide_eq_true hcompleted, Nat.zero_lt_one⟩
  obtain ⟨hall, hdue⟩ := (hlaw newer _ [] rfl hactivates).2.1 Nat.zero_lt_one hunserved
  refine ⟨_, s, s', _, _, t, t', _, hrun, hs, hall, hdue, hrun', ht, ?_,
    (hlaw' later _ [] rfl hactivates).2.2 hserved ?_⟩
  · rw [List.any_append, hrefreshes, Bool.true_or]
  · rintro newest c rest rfl hagain
    have hmore := activationsOf_activates hagain
    have hone := activationsOf_le_append rest [.presence ⟨"a", true, true⟩ 0 (.ok 1)]
    have hle := activationsOf_le_append newest (c :: (rest ++ [.presence ⟨"a", true, true⟩ 0 (.ok 1)]))
    rw [activationsOf_activates hactivates] at hone
    simp only [List.append_assoc, List.cons_append] at hcount'
    omega

end BitcoinPriceTracker

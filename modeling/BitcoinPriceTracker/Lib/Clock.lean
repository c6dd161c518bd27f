import BitcoinPriceTracker.Lib.Machine

/-- The timers of a machine: the next number, and the number and the delay of the timer that an input rings. -/
structure Alarms (σ ι : Type*) where
  nextId : σ → ℕ
  rings : σ → ι → Option (ℕ × ℚ)

/-- A state with the time of the last input and the times at which the timers were armed. -/
structure Clocked (σ : Type*) where
  state : σ
  now : ℚ
  armedAt : ℕ → ℚ

/-- The clock shows `time` when the machine starts. -/
def Clocked.start {σ : Type*} (state : σ) (time : ℚ) : Clocked σ := ⟨state, time, fun _ => time⟩

namespace Alarms

variable {σ ι α : Type*}

/-- The times after an input at `time`: it has armed the timers with the numbers that are used from now on. -/
def arm (A : Alarms σ ι) (s : Clocked σ) (time : ℚ) (id : ℕ) : ℚ := if id < A.nextId s.state then s.armedAt id else time

/-- The machine under the clock. -/
def clocked (A : Alarms σ ι) (M : Machine σ ι α) : Machine (Clocked σ) (ι × ℚ) α where
  step s i :=
    if s.now ≤ i.2 && (A.rings s.state i.1).all fun alarm => s.armedAt alarm.1 + alarm.2 ≤ i.2 then
      (M.step s.state i.1).map fun r => (⟨r.1, i.2, A.arm s i.2⟩, r.2)
    else none

variable {A : Alarms σ ι} {M : Machine σ ι α}

lemma clocked_step {s s' : Clocked σ} {i : ι × ℚ} {a : α} (h : (A.clocked M).step s i = some (s', a)) :
    s.now ≤ i.2 ∧ (∀ alarm, A.rings s.state i.1 = some alarm → s.armedAt alarm.1 + alarm.2 ≤ i.2) ∧
      M.step s.state i.1 = some (s'.state, a) ∧ s'.now = i.2 ∧ s'.armedAt = A.arm s i.2 := by
  unfold clocked at h
  dsimp only at h
  split at h
  · next hopen =>
    obtain ⟨hnow, hrings⟩ := Bool.and_eq_true_iff.mp hopen
    obtain ⟨⟨after, b⟩, hstep, heq⟩ := Option.map_eq_some_iff.mp h
    obtain ⟨rfl, rfl⟩ := Prod.mk.inj heq
    refine ⟨of_decide_eq_true hnow, fun alarm halarm => ?_, hstep, rfl, rfl⟩
    simpa [halarm] using hrings
  · contradiction

lemma arm_of_lt {s : Clocked σ} {id : ℕ} (h : id < A.nextId s.state) (time : ℚ) : A.arm s time id = s.armedAt id :=
  if_pos h

lemma arm_nextId (s : Clocked σ) (time : ℚ) : A.arm s time (A.nextId s.state) = time := if_neg (lt_irrefl _)

/-- No event of a run is later than its last one. -/
theorem run_times {start : Clocked σ} {trace : List (Clocked σ × (ι × ℚ) × α)} {s : Clocked σ}
    (h : (A.clocked M).traced.Run start trace s) : ∀ entry ∈ trace, entry.2.1.2 ≤ s.now := by
  refine h.invariant (P := fun trace s => ∀ entry ∈ trace, entry.2.1.2 ≤ s.now) (by simp) ?_
  intro trace s i s' entry _ htimes hs
  obtain ⟨a, hstep, rfl⟩ := Machine.traced_step.mp hs
  obtain ⟨hnow, _, _, hlast, _⟩ := clocked_step hstep
  rw [hlast]
  exact List.forall_mem_cons.mpr ⟨le_rfl, fun entry hentry => (htimes entry hentry).trans hnow⟩

/-- What the clock adds to an event is forgotten. -/
def forget (entry : Clocked σ × (ι × ℚ) × α) : σ × ι × α := (entry.1.state, entry.2.1.1, entry.2.2)

/-- A run under the clock is a run of the machine. -/
theorem run_forget {start : Clocked σ} {trace : List (Clocked σ × (ι × ℚ) × α)} {s : Clocked σ}
    (h : (A.clocked M).traced.Run start trace s) : M.traced.Run start.state (trace.map forget) s.state := by
  induction h with
  | init => exact .init
  | next _ hs ih =>
    obtain ⟨a, hstep, rfl⟩ := Machine.traced_step.mp hs
    exact ih.next (Machine.traced_step.mpr ⟨a, (clocked_step hstep).2.2.1, rfl⟩)

end Alarms

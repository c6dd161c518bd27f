import BitcoinPriceTracker.Lib.Machine

/-- The numbers and generations of a component. -/
structure Requests (σ α : Type*) where
  nextId : σ → ℕ
  generation : σ → ℕ
  /-- The number and the owner of each outstanding request. -/
  outstanding : σ → List (ℕ × ℕ)
  sent : α → Option ℕ
  stopped : α → Prop

namespace Requests

variable {σ ι α : Type*}

/-- What a step does to the requests and the counters. -/
structure Counts (R : Requests σ α) (s : σ) (a : α) (s' : σ) : Prop where
  generation : R.generation s ≤ R.generation s'
  stopped : R.stopped a → R.generation s < R.generation s'
  nextId : R.nextId s ≤ R.nextId s'
  sent : ∀ id, R.sent a = some id → id = R.nextId s ∧ id < R.nextId s'
  outstanding : ∀ request ∈ R.outstanding s', request ∈ R.outstanding s ∨
    R.sent a = some request.1 ∧ request.2 ≤ R.generation s'

lemma Counts.quiet {R : Requests σ α} {s s' : σ} {a : α} (hsent : R.sent a = none) (hstopped : ¬R.stopped a)
    (hgeneration : R.generation s ≤ R.generation s') (hnextId : R.nextId s ≤ R.nextId s')
    (houtstanding : ∀ request ∈ R.outstanding s', request ∈ R.outstanding s) : R.Counts s a s' :=
  ⟨hgeneration, fun hstop => absurd hstop hstopped, hnextId, by simp [hsent],
    fun request hrequest => .inl (houtstanding request hrequest)⟩

lemma Counts.later {R : Requests σ α} {s base s' : σ} {a : α} (h : R.Counts base a s')
    (hgeneration : R.generation s ≤ R.generation base) (hnextId : R.nextId base = R.nextId s)
    (houtstanding : R.outstanding base = R.outstanding s) : R.Counts s a s' where
  generation := hgeneration.trans h.generation
  stopped hstop := hgeneration.trans_lt (h.stopped hstop)
  nextId := hnextId ▸ h.nextId
  sent := hnextId ▸ h.sent
  outstanding := houtstanding ▸ h.outstanding

/-- The numbers of the requests that were sent are used up, and a request from before a stop has an owner that is
over. -/
structure Dated (R : Requests σ α) (trace : List (σ × ι × α)) (s : σ) : Prop where
  owner : ∀ request ∈ R.outstanding s, request.2 ≤ R.generation s
  lt : ∀ request ∈ R.outstanding s, request.1 < R.nextId s
  used : ∀ entry ∈ trace, ∀ id, R.sent entry.2.2 = some id → id < R.nextId s
  late : ∀ request ∈ R.outstanding s, ∀ newer first older, trace = newer ++ first :: older →
    R.sent first.2.2 = some request.1 → (∃ entry ∈ newer, R.stopped entry.2.2) → request.2 < R.generation s

variable {R : Requests σ α}

lemma Dated.step {trace : List (σ × ι × α)} {s s' : σ} {i : ι} {a : α} (h : R.Dated trace s) (hs : R.Counts s a s') :
    R.Dated ((s, i, a) :: trace) s' := by
  refine ⟨fun request hrequest => ?_, fun request hrequest => ?_, ?_,
    fun request hrequest newer first older hsplit hfirst hstopped => ?_⟩
  · rcases hs.outstanding request hrequest with hold | ⟨_, howner⟩
    · exact (h.owner request hold).trans hs.generation
    · exact howner
  · rcases hs.outstanding request hrequest with hold | ⟨hsent, _⟩
    · exact (h.lt request hold).trans_le hs.nextId
    · exact (hs.sent request.1 hsent).2
  · rw [List.forall_mem_cons]
    exact ⟨fun id hid => (hs.sent id hid).2, fun entry hentry id hid => (h.used entry hentry id hid).trans_le hs.nextId⟩
  cases newer with
  | nil => simp at hstopped
  | cons entry newer =>
    obtain ⟨rfl, rfl⟩ := List.cons_eq_cons.mp hsplit
    rcases hs.outstanding request hrequest with hold | ⟨hsent, _⟩
    · obtain ⟨between, hbetween, hstop⟩ := hstopped
      rcases List.mem_cons.mp hbetween with rfl | hearlier
      · exact (h.owner request hold).trans_lt (hs.stopped hstop)
      · exact (h.late request hold newer first older rfl hfirst ⟨between, hearlier, hstop⟩).trans_le hs.generation
    · -- The number of the new request was not used before.
      have hused := h.used first (by simp) request.1 hfirst
      have hfresh := (hs.sent request.1 hsent).1
      omega

theorem Dated.run {M : Machine σ ι α} {start : σ} (hstart : R.outstanding start = [])
    (hstep : ∀ s i s' a, M.step s i = some (s', a) → R.Counts s a s') {trace : List (σ × ι × α)} {s : σ}
    (h : M.traced.Run start trace s) : R.Dated trace s := by
  refine h.invariant (P := fun trace s => R.Dated trace s) ?_ fun trace s i s' entry _ hdated hs => ?_
  · exact ⟨by simp [hstart], by simp [hstart], by simp, by simp [hstart]⟩
  · obtain ⟨a, hmoved, rfl⟩ := Machine.traced_step.mp hs
    exact hdated.step (hstep s i s' a hmoved)

end Requests

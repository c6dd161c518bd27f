import BitcoinPriceTracker.Lib.Machine

/-- The potential of finitely many parts: the weights of those that are there among the first `n`. -/
def total {α : Type*} (weight : α → ℕ) (n : ℕ) (parts : ℕ → Option α) : ℕ :=
  ∑ i ∈ Finset.range n, (parts i).elim 0 weight

section Total

variable {α : Type*} (weight : α → ℕ) (parts : ℕ → Option α) {n i : ℕ}

lemma total_update (hi : i < n) (new : Option α) :
    total weight n (Function.update parts i new) + (parts i).elim 0 weight =
      total weight n parts + new.elim 0 weight := by
  have hmem : i ∈ Finset.range n := Finset.mem_range.mpr hi
  have hrest : ∑ j ∈ (Finset.range n).erase i, (Function.update parts i new j).elim 0 weight =
      ∑ j ∈ (Finset.range n).erase i, (parts j).elim 0 weight := by
    apply Finset.sum_congr rfl
    intro j hj
    rw [Function.update_of_ne (Finset.ne_of_mem_erase hj)]
  unfold total
  rw [← Finset.sum_erase_add _ _ hmem, ← Finset.sum_erase_add _ (fun j => (parts j).elim 0 weight) hmem, hrest,
    Function.update_self]
  omega

lemma total_append (n : ℕ) (new : Option α) :
    total weight (n + 1) (Function.update parts n new) = total weight n parts + new.elim 0 weight := by
  unfold total
  rw [Finset.sum_range_succ, Function.update_self]
  congr 1
  apply Finset.sum_congr rfl
  intro j hj
  rw [Function.update_of_ne (Finset.mem_range.mp hj).ne]

variable {parts} in
lemma total_succ (hnone : parts n = none) : total weight (n + 1) parts = total weight n parts := by
  simp [total, Finset.sum_range_succ, hnone]

end Total

namespace Machine

variable {σ ι α : Type*} {M : Machine σ ι α} {start s : σ}

/-- The steps of a run that count are paid by the potential at its start and by the income on the way. -/
theorem Run.countP_le (counts : ι → Bool) (potential income : σ → ℕ)
    (hstep : ∀ trace s i s' a, M.traced.Run start trace s → M.step s i = some (s', a) →
      (counts i).toNat + potential s' + income s ≤ potential s + income s')
    {trace : List (σ × ι × α)} (h : M.traced.Run start trace s) :
    trace.countP (fun entry => counts entry.2.1) + potential s + income start ≤ potential start + income s := by
  refine h.invariant (P := fun trace s => trace.countP (fun entry => counts entry.2.1) + potential s + income start ≤
    potential start + income s) (by simp) ?_
  intro trace s i s' entry hrun ih hs
  obtain ⟨a, hM, rfl⟩ := traced_step.mp hs
  have hpaid := hstep trace s i s' a hrun hM
  rw [List.countP_cons]
  cases hcounts : counts i with
  | true =>
    simp only [hcounts, Bool.toNat_true, if_true] at hpaid ⊢
    omega
  | false =>
    simp only [hcounts, Bool.toNat_false, Bool.false_eq_true, if_false] at hpaid ⊢
    omega

lemma exec_append (M : Machine σ ι α) : ∀ (inputs : List ι) (history : List α) (s : σ),
    M.exec history s inputs = (M.exec [] s inputs).map fun r => (r.1 ++ history, r.2)
  | [], history, s => by simp [exec]
  | i :: rest, history, s => by
    simp only [exec]
    cases M.step s i with
    | none => rfl
    | some r =>
      simp only [Option.bind_some]
      rw [exec_append M rest (r.2 :: history), exec_append M rest [r.2], Option.map_map]
      congr 1
      funext later
      simp

/-- A final state is reached by steps that are allowed where they are taken. -/
theorem exists_exec {allowed : σ → ι → Prop} {final : σ → Prop} (good : σ → Prop) (potential : σ → ℕ)
    (hstep : ∀ s, good s → ¬final s →
      ∃ i s' a, allowed s i ∧ M.step s i = some (s', a) ∧ good s' ∧ potential s' < potential s) :
    ∀ (s : σ), good s → ∃ inputs trace s', M.traced.exec [] s inputs = some (trace, s') ∧ final s' ∧
      ∀ entry ∈ trace, allowed entry.1 entry.2.1 := by
  intro s
  induction hn : potential s using Nat.strong_induction_on generalizing s with
  | h n ih =>
    intro hgood
    by_cases hfinal : final s
    · exact ⟨[], [], s, rfl, hfinal, by simp⟩
    · obtain ⟨i, s', a, hallowed, hs, hgood', hlower⟩ := hstep s hgood hfinal
      obtain ⟨inputs, trace, last, hexec, hlast, hall⟩ := ih _ (hn ▸ hlower) s' rfl hgood'
      have htraced : M.traced.step s i = some (s', (s, i, a)) := traced_step.mpr ⟨a, hs, rfl⟩
      refine ⟨i :: inputs, trace ++ [(s, i, a)], last, ?_, hlast, ?_⟩
      · rw [exec, htraced, Option.bind_some, exec_append, hexec]
        rfl
      · intro entry hentry
        rcases List.mem_append.mp hentry with hentry | hentry
        · exact hall entry hentry
        · rw [List.mem_singleton.mp hentry]
          exact hallowed

end Machine

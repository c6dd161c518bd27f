import Mathlib.Tactic

/-!
# Machines and their runs

A machine answers an enabled input with its next state and one action. A run keeps the
actions most recent first, so that the latest event of some kind is the first one found.
The rules here turn what one step preserves into what a whole run preserves, and one
matched step into a refinement between the runs of two machines.
-/

/-- `step s i` is `none` where the input `i` is not enabled in `s`. -/
structure Machine (σ ι α : Type*) where
  step : σ → ι → Option (σ × α)

namespace Machine

variable {σ ι α τ κ β : Type*}

/-- The states reached from `start`, with the actions on the way, most recent first. -/
inductive Run (M : Machine σ ι α) (start : σ) : List α → σ → Prop
  | init : Run M start [] start
  | next {history : List α} {s s' : σ} {i : ι} {a : α} :
      Run M start history s → M.step s i = some (s', a) → Run M start (a :: history) s'

section Runs

variable {M : Machine σ ι α} {start : σ}

/-- What holds at the start and is preserved by every step holds along every run. -/
theorem Run.invariant {P : List α → σ → Prop} (hinit : P [] start)
    (hstep : ∀ history s i s' a, M.Run start history s → P history s → M.step s i = some (s', a) →
      P (a :: history) s') {history : List α} {s : σ} (h : M.Run start history s) : P history s := by
  induction h with
  | init => exact hinit
  | next hrun hs ih => exact hstep _ _ _ _ _ hrun ih hs

lemma Run.last {a : α} {history : List α} {s' : σ} (h : M.Run start (a :: history) s') :
    ∃ s i, M.Run start history s ∧ M.step s i = some (s', a) := by
  cases h with
  | next hrun hs => exact ⟨_, _, hrun, hs⟩

theorem Run.trans {middle s : σ} {older newer : List α} (h₁ : M.Run start older middle)
    (h₂ : M.Run middle newer s) : M.Run start (newer ++ older) s := by
  induction h₂ with
  | init => exact h₁
  | next _ hs ih => exact ih.next hs

/-- A run passes through a state at each of its events. -/
theorem Run.split {older : List α} {s : σ} :
    ∀ {newer : List α}, M.Run start (newer ++ older) s →
      ∃ middle, M.Run start older middle ∧ M.Run middle newer s
  | [], h => ⟨s, h, .init⟩
  | _ :: _, h => by
    obtain ⟨s', i, hrun, hs⟩ := h.last
    obtain ⟨middle, h₁, h₂⟩ := hrun.split
    exact ⟨middle, h₁, h₂.next hs⟩

lemma Run.event {older newer : List α} {a : α} {s : σ} (h : M.Run start (newer ++ a :: older) s) :
    ∃ before i after, M.Run start older before ∧ M.step before i = some (after, a) ∧
      M.Run after newer s := by
  obtain ⟨after, h₁, h₂⟩ := h.split
  obtain ⟨before, i, hrun, hs⟩ := h₁.last
  exact ⟨before, i, after, hrun, hs, h₂⟩

end Runs

/-- The machine whose actions also keep the state before the step and its input. -/
def traced (M : Machine σ ι α) : Machine σ ι (σ × ι × α) where
  step s i := (M.step s i).map fun r => (r.1, s, i, r.2)

lemma traced_step {M : Machine σ ι α} {s s' : σ} {i : ι} {entry : σ × ι × α} :
    M.traced.step s i = some (s', entry) ↔ ∃ a, M.step s i = some (s', a) ∧ entry = (s, i, a) := by
  simp only [traced, Option.map_eq_some_iff, Prod.mk.injEq]
  constructor
  · rintro ⟨⟨after, a⟩, hs, rfl, rfl⟩
    exact ⟨a, hs, rfl⟩
  · rintro ⟨a, hs, rfl⟩
    exact ⟨(s', a), hs, rfl, rfl⟩

lemma Run.untraced {M : Machine σ ι α} {start s : σ} {trace : List (σ × ι × α)} (h : M.traced.Run start trace s) :
    M.Run start (trace.map fun entry => entry.2.2) s := by
  induction h with
  | init => exact .init
  | next _ hs ih =>
    obtain ⟨a, hstep, rfl⟩ := traced_step.mp hs
    exact ih.next hstep

/-- Runs a machine on a list of inputs; `none` as soon as one of them is not enabled. -/
def exec (M : Machine σ ι α) : List α → σ → List ι → Option (List α × σ)
  | history, s, [] => some (history, s)
  | history, s, i :: rest => (M.step s i).bind fun r => M.exec (r.2 :: history) r.1 rest

lemma run_of_exec_from {M : Machine σ ι α} {start : σ} :
    ∀ (inputs : List ι) {history : List α} {s : σ} {r : List α × σ}, M.Run start history s →
      M.exec history s inputs = some r → M.Run start r.1 r.2
  | [], history, s, r, hrun, h => by
    simp only [exec, Option.some.injEq] at h
    subst h
    exact hrun
  | i :: rest, history, s, r, hrun, h => by
    simp only [exec, Option.bind_eq_some_iff] at h
    obtain ⟨⟨s', a⟩, hs, hrest⟩ := h
    exact run_of_exec_from rest (hrun.next hs) hrest

theorem run_of_exec {M : Machine σ ι α} {start s : σ} {history : List α} (inputs : List ι)
    (h : M.exec [] start inputs = some (history, s)) : M.Run start history s :=
  run_of_exec_from inputs .init h

/-- Refinement: where each step of `M` is either invisible to `N` or matched by a step of
`N` with the observed action, every run of `M` is observed as a run of `N`. -/
theorem Run.refines {M : Machine σ ι α} {N : Machine τ κ β} {start : σ} (start' : τ)
    (observe : α → Option β) (R : List α → σ → τ → Prop) (hinit : R [] start start')
    (hstep : ∀ history s i s' a t, M.Run start history s → R history s t → M.step s i = some (s', a) →
      match observe a with
      | none => R (a :: history) s' t
      | some b => ∃ j t', N.step t j = some (t', b) ∧ R (a :: history) s' t')
    {history : List α} {s : σ} (h : M.Run start history s) :
    ∃ t, N.Run start' (history.filterMap observe) t ∧ R history s t := by
  induction h with
  | init => exact ⟨start', .init, hinit⟩
  | @next history s s' i a hrun hs ih =>
    obtain ⟨t, hN, hR⟩ := ih
    have hmatch := hstep _ _ _ _ _ _ hrun hR hs
    cases hobs : observe a with
    | none =>
      rw [hobs] at hmatch
      exact ⟨t, by rwa [List.filterMap_cons_none hobs], hmatch⟩
    | some b =>
      rw [hobs] at hmatch
      obtain ⟨j, t', hN', hR'⟩ := hmatch
      exact ⟨t', by rw [List.filterMap_cons_some hobs]; exact hN.next hN', hR'⟩

/-- Two runs side by side: where steps on related states and inputs are both disabled, or both enabled
with related results, so are runs on related lists of inputs. -/
theorem exec_related {M : Machine σ ι α} {N : Machine τ κ β} {R : σ → τ → Prop} {I : ι → κ → Prop}
    {O : α → β → Prop}
    (hstep : ∀ s t i j, R s t → I i j →
      Option.Rel (fun r r' => R r.1 r'.1 ∧ O r.2 r'.2) (M.step s i) (N.step t j))
    {inputs : List ι} {inputs' : List κ} (hinputs : List.Forall₂ I inputs inputs') {history : List α}
    {history' : List β} {s : σ} {t : τ} (hhistory : List.Forall₂ O history history') (hst : R s t) :
    Option.Rel (fun r r' => List.Forall₂ O r.1 r'.1 ∧ R r.2 r'.2) (M.exec history s inputs)
      (N.exec history' t inputs') := by
  induction hinputs generalizing history history' s t with
  | nil => exact .some ⟨hhistory, hst⟩
  | @cons i j inputs inputs' hij _ ih =>
    have hrel := hstep s t i j hst hij
    unfold exec
    generalize M.step s i = r at hrel
    generalize N.step t j = r' at hrel
    cases hrel with
    | none => exact .none
    | some hboth => exact ih (.cons hboth.2 hhistory) hboth.1

end Machine

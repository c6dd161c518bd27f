import BitcoinPriceTracker.Proofs.RequestBudget

namespace BitcoinPriceTracker

/-- The calls admitted from call `j` on, before call `n`. -/
def admittedBetween (answers : List Bool) (j n : ℕ) : ℕ := ((answers.take n).drop j).count true

@[simp] lemma admittedBetween_self (answers : List Bool) (n : ℕ) : admittedBetween answers n n = 0 := by
  simp [admittedBetween]

lemma admittedBetween_cons (answer : Bool) (answers : List Bool) (n : ℕ) :
    admittedBetween (answer :: answers) 0 (n + 1) = admittedBetween answers 0 n + if answer then 1 else 0 := by
  cases answer <;> simp [admittedBetween]

namespace Gate

lemma calls_cons (gate : Gate) (now : ℕ) (rest : List ℕ) :
    (gate.calls (now :: rest)).1 = (gate.allow now).1 :: ((gate.allow now).2.calls rest).1 := rfl

lemma allow_iff (gate : Gate) (now : ℕ) : (gate.allow now).1 = true ↔ 1 ≤ gate.refilled now := by
  unfold allow
  split
  · next h => simpa using h
  · next h => simpa using h

/-- The tokens that a call leaves cover `x` more calls when both the tokens before and the capacity cover them and
the call itself. -/
lemma tokens_left_iff (gate : Gate) (now : ℕ) (x y : ℚ) :
    x + 1 ≤ (gate.allow now).2.bucket.tokens + y ↔
      x + (if (gate.allow now).1 then 1 else 0) + 1 ≤
          gate.bucket.tokens + asSecsF64 (now - gate.bucket.updated) * gate.rate + y ∧
        x + (if (gate.allow now).1 then 1 else 0) + 1 ≤ gate.rate + y := by
  have hspent := gate.allow_tokens now
  have hroom : x + (if (gate.allow now).1 then 1 else 0) + 1 - y ≤ gate.refilled now ↔
      x + (if (gate.allow now).1 then 1 else 0) + 1 - y ≤
          gate.bucket.tokens + asSecsF64 (now - gate.bucket.updated) * gate.rate ∧
        x + (if (gate.allow now).1 then 1 else 0) + 1 - y ≤ gate.rate := le_min_iff
  rw [← hspent] at hroom
  constructor
  · intro h
    obtain ⟨htokens, hrate⟩ := hroom.mp (by linarith)
    exact ⟨by linarith, by linarith⟩
  · rintro ⟨htokens, hrate⟩
    linarith [hroom.mpr ⟨by linarith, by linarith⟩]

/-- Call `n` is admitted when the tokens that the gate starts with cover all the calls up to it, and every
window that ends with it has room. -/
lemma answer_iff (gate : Gate) {instants : List ℕ} (hsorted : (gate.bucket.updated :: instants).Pairwise (· ≤ ·))
    {n : ℕ} (hn : n < instants.length) :
    (gate.calls instants).1[n]? = some true ↔
      (admittedBetween (gate.calls instants).1 0 n : ℚ) + 1 ≤
          gate.bucket.tokens + gate.rate * asSecsF64 (instants[n] - gate.bucket.updated) ∧
        ∀ (j : ℕ) (hj : j ≤ n), (admittedBetween (gate.calls instants).1 j n : ℚ) + 1 ≤
          gate.rate * (1 + asSecsF64 (instants[n] - instants[j])) := by
  induction instants generalizing gate n with
  | nil => simp at hn
  | cons now rest ih =>
    obtain ⟨hfirst, hrest⟩ := List.pairwise_cons.mp hsorted
    have hnow : gate.bucket.updated ≤ now := hfirst now List.mem_cons_self
    rw [calls_cons]
    cases n with
    | zero =>
      have hwindow : gate.rate * (1 + asSecsF64 (now - now)) = (gate.rate : ℚ) := by simp [asSecsF64]
      simp only [List.getElem?_cons_zero, Option.some.injEq, allow_iff, refilled, le_min_iff, admittedBetween_self,
        List.getElem_cons_zero, nonpos_iff_eq_zero]
      constructor
      · rintro ⟨htokens, hrate⟩
        refine ⟨by push_cast; linarith, fun j hj => ?_⟩
        subst hj
        simp only [admittedBetween_self, List.getElem_cons_zero, hwindow]
        push_cast
        linarith
      · rintro ⟨htokens, hwindows⟩
        have hzero := hwindows 0 rfl
        simp only [admittedBetween_self, List.getElem_cons_zero, hwindow] at hzero
        push_cast at htokens hzero
        exact ⟨by linarith, by linarith⟩
    | succ n =>
      have hn' : n < rest.length := by simpa using hn
      have hlater : now ≤ rest[n] := (List.pairwise_cons.mp hrest).1 _ (List.getElem_mem hn')
      have hsplit : asSecsF64 (rest[n] - gate.bucket.updated) =
          asSecsF64 (now - gate.bucket.updated) + asSecsF64 (rest[n] - now) := by
        rw [← asSecsF64_add]
        congr 1
        omega
      have htail := ih (gate.allow now).2 (by simpa using hrest) hn'
      rw [allow_rate, allow_updated] at htail
      rw [List.getElem?_cons_succ, htail]
      simp only [List.getElem_cons_succ, admittedBetween_cons, hsplit]
      have hgate : ∀ x y z : ℚ, x + gate.rate * (y + z) = x + y * gate.rate + gate.rate * z := fun _ _ _ => by ring
      have hwindow : ∀ y : ℚ, gate.rate + gate.rate * y = gate.rate * (1 + y) := fun _ => by ring
      rw [gate.tokens_left_iff, hgate, hwindow]
      push_cast
      constructor
      · rintro ⟨⟨hgate, hwindow⟩, hwindows⟩
        refine ⟨hgate, fun j hj => ?_⟩
        cases j with
        | zero =>
          rw [admittedBetween_cons]
          push_cast
          exact hwindow
        | succ j => exact hwindows j (by omega)
      · rintro ⟨hgate, hwindows⟩
        have hzero := hwindows 0 (by omega)
        rw [admittedBetween_cons] at hzero
        push_cast at hzero
        exact ⟨⟨hgate, hzero⟩, fun j hj => hwindows (j + 1) (by omega)⟩

lemma new_calls (rate concurrency start now : ℕ) (rest : List ℕ) :
    (new rate concurrency start).calls (now :: rest) = (new rate concurrency now).calls (now :: rest) := by
  have hfull : ∀ start, (new rate concurrency start).refilled now = rate := fun start =>
    min_eq_right (le_add_of_nonneg_right (mul_nonneg (asSecsF64_nonneg _) (Nat.cast_nonneg _)))
  have hallow : (new rate concurrency start).allow now = (new rate concurrency now).allow now := by
    unfold allow
    rw [hfull, hfull]
    rfl
  unfold calls
  rw [hallow]

lemma spaced_allow {gate : Gate} (htokens : 0 ≤ gate.bucket.tokens) (hrate : 1 ≤ gate.rate) {now : ℕ}
    (h : 1 ≤ asSecsF64 (now - gate.bucket.updated) * gate.rate) : (gate.allow now).1 = true := by
  rw [allow_iff]
  exact le_min (by linarith) (by exact_mod_cast hrate)

lemma spaced_answer {gate : Gate} (htokens : 0 ≤ gate.bucket.tokens) (hrate : 1 ≤ gate.rate) {instants : List ℕ} {n : ℕ}
    (hn : n + 1 < instants.length) (h : 1 ≤ asSecsF64 (instants[n + 1] - instants[n]) * gate.rate) :
    (gate.calls instants).1[n + 1]? = some true := by
  induction instants generalizing gate n with
  | nil => simp at hn
  | cons now rest ih =>
    have hleft := allow_tokens_nonneg htokens now
    rw [calls_cons, List.getElem?_cons_succ]
    cases n with
    | zero =>
      cases rest with
      | nil => simp at hn
      | cons later rest =>
        rw [calls_cons, List.getElem?_cons_zero, spaced_allow hleft (by rwa [allow_rate])]
        simpa using h
    | succ n =>
      have hn' : n + 1 < rest.length := by simpa using hn
      exact ih hleft (by rwa [allow_rate]) hn' (by simpa using h)

/-- A refused call leaves to the next call what it would have found without it. -/
lemma allow_after_refused {gate : Gate} {now later : ℕ} (hup : gate.bucket.updated ≤ now) (hlater : now ≤ later)
    (h : (gate.allow now).1 = false) : (gate.allow now).2.allow later = gate.allow later := by
  have hlow : gate.refilled now < 1 := by
    by_contra hge
    simp [allow, hge] at h
  have hleft : (gate.allow now).2 = { gate with bucket := ⟨gate.refilled now, now⟩ } := by simp [allow, hlow]
  have hsplit : asSecsF64 (later - gate.bucket.updated) =
      asSecsF64 (now - gate.bucket.updated) + asSecsF64 (later - now) := by
    rw [← asSecsF64_add]
    congr 1
    omega
  have hgrow : 0 ≤ asSecsF64 (later - now) * gate.rate := mul_nonneg (asSecsF64_nonneg _) (Nat.cast_nonneg _)
  have hrefilled : (gate.allow now).2.refilled later = gate.refilled later := by
    rw [hleft]
    simp only [refilled, hsplit, min_add]
    rw [min_assoc, min_eq_right (le_add_of_nonneg_right hgrow), add_mul, add_assoc]
  unfold allow at hrefilled ⊢
  simp only [hlow, if_true] at hrefilled ⊢
  rw [hrefilled]

lemma calls_append (gate : Gate) (before after : List ℕ) :
    (gate.calls (before ++ after)).1 = (gate.calls before).1 ++ ((gate.calls before).2.calls after).1 := by
  induction before generalizing gate with
  | nil => rfl
  | cons now rest ih =>
    rw [List.cons_append, calls_cons, calls_cons, ih]
    rfl

@[simp] lemma calls_length (gate : Gate) (instants : List ℕ) : (gate.calls instants).1.length = instants.length := by
  induction instants generalizing gate with
  | nil => rfl
  | cons now rest ih => rw [calls_cons, List.length_cons, ih, List.length_cons]

lemma calls_updated {gate : Gate} {instants : List ℕ} {now : ℕ} (hup : gate.bucket.updated ≤ now)
    (h : ∀ instant ∈ instants, instant ≤ now) : (gate.calls instants).2.bucket.updated ≤ now := by
  induction instants generalizing gate with
  | nil => exact hup
  | cons instant rest ih =>
    have hnext : (gate.allow instant).2.bucket.updated ≤ now := by
      rw [allow_updated]
      exact h instant List.mem_cons_self
    exact ih hnext fun later hmem => h later (List.mem_cons_of_mem _ hmem)

lemma calls_after_refused {gate : Gate} {now : ℕ} {after : List ℕ} (hup : gate.bucket.updated ≤ now)
    (hafter : ∀ later ∈ after, now ≤ later) (h : (gate.allow now).1 = false) :
    ((gate.allow now).2.calls after).1 = (gate.calls after).1 := by
  cases after with
  | nil => rfl
  | cons later rest =>
    rw [calls_cons, calls_cons, allow_after_refused hup (hafter later List.mem_cons_self) h]

lemma calls_without_refused {gate : Gate} (before after : List ℕ) {now : ℕ}
    (hsorted : (gate.bucket.updated :: (before ++ now :: after)).Pairwise (· ≤ ·))
    (h : (gate.calls (before ++ now :: after)).1[before.length]? = some false) :
    (gate.calls (before ++ now :: after)).1.eraseIdx before.length = (gate.calls (before ++ after)).1 := by
  obtain ⟨hfirst, hrest⟩ := List.pairwise_cons.mp hsorted
  obtain ⟨-, htail, hbefore⟩ := List.pairwise_append.mp hrest
  have hup : (gate.calls before).2.bucket.updated ≤ now :=
    calls_updated (hfirst now (by simp)) fun instant hmem => hbefore instant hmem now List.mem_cons_self
  rw [calls_append, calls_cons] at h ⊢
  rw [List.getElem?_append_right (by simp), calls_length, Nat.sub_self, List.getElem?_cons_zero] at h
  rw [List.eraseIdx_append_of_length_le (by simp), calls_length, Nat.sub_self, List.eraseIdx_zero, List.tail_cons,
    calls_after_refused hup (List.pairwise_cons.mp htail).1 (Option.some.inj h), calls_append]

/-- Call `n` is admitted exactly when every window of calls that ends with it has room. So the first call and every
call that comes the time of a token after the one before are admitted, and no answer changes when a refused call is
left out. -/
theorem token_bucket_exact (rate concurrency start : ℕ) (hrate : 1 ≤ rate) {instants : List ℕ}
    (hsorted : instants.Pairwise (· ≤ ·)) :
    let answers := ((new rate concurrency start).calls instants).1
    (∀ (n : ℕ) (hn : n < instants.length), answers[n]? = some true ↔
      ∀ (j : ℕ) (hj : j ≤ n),
        (admittedBetween answers j n : ℚ) + 1 ≤ rate * (1 + asSecsF64 (instants[n] - instants[j]))) ∧
    (∀ (n : ℕ) (hn : n < instants.length),
      n = 0 ∨ 1 ≤ asSecsF64 (instants[n] - instants[n - 1]) * rate → answers[n]? = some true) ∧
    ∀ before now after, instants = before ++ now :: after → answers[before.length]? = some false →
      answers.eraseIdx before.length = ((new rate concurrency start).calls (before ++ after)).1 := by
  cases instants with
  | nil => simp
  | cons first rest =>
    intro answers
    have hfirst : answers = ((new rate concurrency first).calls (first :: rest)).1 := by
      rw [← new_calls rate concurrency start first rest]
    have hadmitted : answers[0]? = some true := by
      rw [hfirst, calls_cons, List.getElem?_cons_zero, Option.some.injEq, allow_iff]
      exact le_min (by simpa [new, asSecsF64] using hrate) (by exact_mod_cast hrate)
    have hstart : ((new rate concurrency first).bucket.updated :: first :: rest).Pairwise (· ≤ ·) := by
      refine List.pairwise_cons.mpr ⟨fun instant hmem => ?_, hsorted⟩
      rcases List.mem_cons.mp hmem with rfl | hmem
      · exact le_rfl
      · exact (List.pairwise_cons.mp hsorted).1 instant hmem
    refine ⟨fun n hn => ?_, fun n hn hspaced => ?_, fun before now after happend hrefused => ?_⟩
    · have hanswer := answer_iff (new rate concurrency first) hstart hn
      rw [← hfirst] at hanswer
      rw [hanswer]
      -- A new gate holds what the window from the first call on may use.
      refine ⟨And.right, fun hwindows => ⟨?_, hwindows⟩⟩
      have hwhole := hwindows 0 n.zero_le
      simp only [List.getElem_cons_zero] at hwhole
      change _ ≤ (rate : ℚ) + rate * asSecsF64 (_ - first)
      linarith
    · cases n with
      | zero => exact hadmitted
      | succ n =>
        rcases hspaced with hzero | hspaced
        · omega
        · have hfull : 0 ≤ (new rate concurrency start).bucket.tokens := Nat.cast_nonneg rate
          exact spaced_answer hfull hrate hn hspaced
    · cases before with
      | nil => simp [hadmitted] at hrefused
      | cons earlier before =>
        obtain ⟨rfl, rfl⟩ := List.cons_eq_cons.mp happend
        rw [hfirst] at hrefused ⊢
        rw [List.cons_append, new_calls rate concurrency start]
        exact calls_without_refused (first :: before) after hstart hrefused

theorem token_bucket_exact_burst :
    ((new 1 1 0).calls [0, 0, 1000000000]).1[2]? = some true ∧
      ((new 1 1 0).calls [0, 0, 1000000000]).1.eraseIdx 1 = ((new 1 1 0).calls [0, 1000000000]).1 := by
  have hanswers : ((new 1 1 0).calls [0, 0, 1000000000]).1 = [true, false, true] := by
    norm_num [calls, allow, refilled, new, asSecsF64]
  have hsorted : ([0, 0, 1000000000] : List ℕ).Pairwise (· ≤ ·) := by simp
  have hlaw := token_bucket_exact 1 1 0 le_rfl hsorted
  exact ⟨hlaw.2.1 2 (by simp) (.inr (by norm_num [asSecsF64])), hlaw.2.2 [0] 0 [1000000000] rfl (by simp [hanswers])⟩

end Gate

end BitcoinPriceTracker

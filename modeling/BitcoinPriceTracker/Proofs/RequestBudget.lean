import BitcoinPriceTracker.Model.Limits

/-!
# The request budget

What a bucket admits is paid for by its tokens and by the time credited to it. Every call
overwrites the instant up to which time was credited, so the credited time is the time that
passed exactly when no call is later than the one before it while that one was itself
behind an earlier call. Then a bucket with `rate` tokens admits at most `rate` requests and
`rate` more for each second.
-/

namespace BitcoinPriceTracker

/-- The largest instant passed so far, starting from `start`. -/
def latest (start : ℕ) (instants : List ℕ) : ℕ := instants.foldl max start

/-- Every call that is later than the previous one comes when the previous one was the
largest so far. -/
def CreditsOnce (previous largest : ℕ) : List ℕ → Prop
  | [] => True
  | now :: rest => (now ≤ previous ∨ previous = largest) ∧ CreditsOnce now (max largest now) rest

lemma CreditsOnce.take {previous largest : ℕ} {instants : List ℕ}
    (h : CreditsOnce previous largest instants) (n : ℕ) :
    CreditsOnce previous largest (instants.take n) := by
  induction instants generalizing previous largest n with
  | nil => simpa using h
  | cons now rest ih =>
    cases n with
    | zero => trivial
    | succ n => exact ⟨h.1, ih h.2 n⟩

lemma le_latest (start : ℕ) (instants : List ℕ) : start ≤ latest start instants := by
  induction instants generalizing start with
  | nil => exact le_rfl
  | cons now rest ih => exact (le_max_left start now).trans (ih _)

lemma asSecsF64_nonneg (d : ℕ) : 0 ≤ asSecsF64 d := by
  unfold asSecsF64
  positivity

lemma asSecsF64_add (c d : ℕ) : asSecsF64 (c + d) = asSecsF64 c + asSecsF64 d := by
  simp only [asSecsF64]
  push_cast
  ring

namespace Gate

/-- The time that a sequence of calls credits to the bucket. -/
def credited (gate : Gate) : List ℕ → ℕ
  | [] => 0
  | now :: rest => now - gate.bucket.updated + (gate.allow now).2.credited rest

@[simp] lemma allow_rate (gate : Gate) (now : ℕ) : (gate.allow now).2.rate = gate.rate := by
  unfold allow
  split <;> rfl

@[simp] lemma allow_updated (gate : Gate) (now : ℕ) :
    (gate.allow now).2.bucket.updated = now := by
  unfold allow
  split <;> rfl

lemma allow_tokens (gate : Gate) (now : ℕ) :
    (gate.allow now).2.bucket.tokens + (if (gate.allow now).1 then 1 else 0) = gate.refilled now := by
  unfold allow
  split <;> simp

lemma allow_tokens_nonneg {gate : Gate} (h : 0 ≤ gate.bucket.tokens) (now : ℕ) :
    0 ≤ (gate.allow now).2.bucket.tokens := by
  have hrefilled : 0 ≤ gate.refilled now := by
    have := asSecsF64_nonneg (now - gate.bucket.updated)
    unfold refilled
    positivity
  unfold allow
  split
  · exact hrefilled
  · next hge => simpa using hge

lemma admitted_cons (gate : Gate) (now : ℕ) (rest : List ℕ) :
    gate.admitted (now :: rest) =
      (gate.allow now).2.admitted rest + if (gate.allow now).1 then 1 else 0 := by
  simp only [admitted, calls]
  cases (gate.allow now).1 <;> simp

/-- What is admitted is paid for by the tokens and the credited time, whatever the order of
the instants. -/
lemma admitted_le_credited (gate : Gate) (htokens : 0 ≤ gate.bucket.tokens) (instants : List ℕ) :
    (gate.admitted instants : ℚ) ≤
      gate.bucket.tokens + gate.rate * asSecsF64 (gate.credited instants) := by
  induction instants generalizing gate with
  | nil => simpa [admitted, calls, credited, asSecsF64] using htokens
  | cons now rest ih =>
    have hrefill : gate.refilled now ≤
        gate.bucket.tokens + asSecsF64 (now - gate.bucket.updated) * gate.rate := min_le_left _ _
    have hspent := gate.allow_tokens now
    have htail := ih (gate.allow now).2 (allow_tokens_nonneg htokens now)
    rw [allow_rate] at htail
    rw [admitted_cons, credited, asSecsF64_add]
    push_cast
    linarith

/-- At least the time that passes beyond the largest instant is credited, and no more
exactly when every interval is credited once. -/
lemma credited_spec (gate : Gate) (largest : ℕ) (instants : List ℕ)
    (hup : gate.bucket.updated ≤ largest) :
    latest largest instants - largest ≤ gate.credited instants ∧
      (gate.credited instants = latest largest instants - largest ↔
        CreditsOnce gate.bucket.updated largest instants) := by
  induction instants generalizing gate largest with
  | nil => simp [credited, latest, CreditsOnce]
  | cons now rest ih =>
    obtain ⟨hle, heq⟩ := ih (gate.allow now).2 (max largest now) (by simp)
    rw [allow_updated] at heq
    have hlatest : latest largest (now :: rest) = latest (max largest now) rest := rfl
    have hgrow := le_latest (max largest now) rest
    rw [hlatest, credited, CreditsOnce, ← heq]
    constructor <;> omega

/-- In every sequence of calls, in the order in which they obtain the bucket, the credited
time is the time that passed exactly when the instants credit every interval once, and
then the calls admitted up to any point fit in the budget. -/
theorem admitted_le_budget (rate concurrency : ℕ) (start : ℕ) (instants : List ℕ) :
    ((Gate.new rate concurrency start).credited instants = latest start instants - start ↔
        CreditsOnce start start instants) ∧
      (CreditsOnce start start instants → ∀ n,
        ((Gate.new rate concurrency start).admitted (instants.take n) : ℚ) ≤
          rate * (1 + asSecsF64 (latest start (instants.take n) - start))) := by
  refine ⟨((Gate.new rate concurrency start).credited_spec start instants le_rfl).2, ?_⟩
  intro h n
  have hcredit := ((Gate.new rate concurrency start).credited_spec start (instants.take n) le_rfl).2.mpr (h.take n)
  have hpaid := admitted_le_credited (Gate.new rate concurrency start) (by simp [Gate.new])
    (instants.take n)
  rw [hcredit] at hpaid
  simp only [Gate.new] at hpaid ⊢
  linarith

theorem admitted_le_budget_late_call :
    CreditsOnce 0 0 [0, 2000000000, 1000000000] ∧
      ((Gate.new 1 1 0).admitted ([0, 2000000000, 1000000000].take 3) : ℚ) ≤
        (1 : ℕ) * (1 + asSecsF64 (latest 0 ([0, 2000000000, 1000000000].take 3) - 0)) :=
  have h : CreditsOnce 0 0 [0, 2000000000, 1000000000] := by simp [CreditsOnce]
  ⟨h, (admitted_le_budget 1 1 0 _).2 h 3⟩

/-- A late call lets the second before it be credited again: with one request a second,
three of the calls at 0 s, 1 s, 0 s and 1 s are admitted. -/
theorem admitted_exceeds_budget :
    ¬ ∀ (rate concurrency : ℕ) (start : ℕ) (instants : List ℕ), 1 ≤ rate →
      (∀ now ∈ instants, start ≤ now) →
      ((Gate.new rate concurrency start).admitted instants : ℚ) ≤
        rate * (1 + asSecsF64 (latest start instants - start)) := by
  intro h
  have hfail := h 1 1 0 [0, 1000000000, 0, 1000000000] le_rfl (by simp)
  norm_num [admitted, calls, allow, refilled, Gate.new, asSecsF64, latest] at hfail

end Gate

end BitcoinPriceTracker

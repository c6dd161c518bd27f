import BitcoinPriceTracker.Lib.RunningMean
import BitcoinPriceTracker.Model.Dashboard
import BitcoinPriceTracker.Model.Freshness

namespace BitcoinPriceTracker

lemma advanceAverage_finite (average : ℚ) (index : ℕ) (prices : List ℚ) :
    advanceAverage (.finite average) index (prices.map .finite) =
      .finite (RunningMean.advance average index prices) := by
  induction prices generalizing average index with
  | nil => rfl
  | cons price rest ih =>
    have hstep : (F64.finite average).add (((F64.finite price).sub (.finite average)).divLen (index + 1)) =
        .finite (average + (price - average) / (index + 1)) := by
      simp [F64.sub, F64.neg, F64.add, F64.divLen, sub_eq_add_neg]
    rw [List.map_cons, advanceAverage, hstep, ih, RunningMean.advance]

lemma averageOf_mean {prices : List ℚ} (hne : prices ≠ []) :
    averageOf (prices.map .finite) = some (.finite (RunningMean.mean prices)) := by
  obtain ⟨first, rest, rfl⟩ := List.exists_cons_of_ne_nil hne
  have hloop := RunningMean.advance_mean (List.cons_ne_nil first []) rest
  rw [RunningMean.mean_singleton] at hloop
  rw [List.map_cons, averageOf, advanceAverage_finite]
  exact congrArg (fun mean => some (F64.finite mean)) hloop

lemma shownMean_loop (average : ℚ) (index : ℕ) (prices : List ℚ) :
    (prices.zipIdx (index + 1)).foldl
      (fun mean (price, index) =>
        if index = 0 then some price else mean.map fun mean => mean + (price - mean) / (index + 1))
      (some average) = some (RunningMean.advance average (index + 1) prices) := by
  induction prices generalizing average index with
  | nil => rfl
  | cons price rest ih =>
    rw [List.zipIdx_cons, List.foldl_cons, RunningMean.advance]
    simp only [Nat.add_eq_zero_iff, one_ne_zero, and_false, if_false, Option.map_some]
    exact ih _ _

lemma shownMean_mean {prices : List ℚ} (hne : prices ≠ []) : shownMean prices = some (RunningMean.mean prices) := by
  obtain ⟨first, rest, rfl⟩ := List.exists_cons_of_ne_nil hne
  have hloop := RunningMean.advance_mean (List.cons_ne_nil first []) rest
  rw [RunningMean.mean_singleton] at hloop
  rw [shownMean, List.zipIdx_cons, List.foldl_cons]
  exact (shownMean_loop first 0 rest).trans (congrArg some hloop)

lemma averageOf_finite (prices : List ℚ) : averageOf (prices.map .finite) = (shownMean prices).map F64.finite := by
  by_cases hne : prices = []
  · rw [hne]
    rfl
  · rw [averageOf_mean hne, shownMean_mean hne]
    rfl

lemma spreadOf_finite (prices : List ℚ) :
    ((averageOf (prices.map .finite)).map fun _ => spreadOf (prices.map .finite)) =
      (shownSpread prices).map F64.finite := by
  cases prices with
  | nil => rfl
  | cons price prices => exact congrArg some (spreadOf_cons price prices)

lemma spreadOf_extremes {prices : List ℚ} {low high : ℚ} (hlow : low ∈ prices) (hhigh : high ∈ prices)
    (hbounds : ∀ price ∈ prices, low ≤ price ∧ price ≤ high) :
    spreadOf (prices.map .finite) = .finite (high - low) := by
  obtain ⟨first, rest, rfl⟩ := List.exists_cons_of_ne_nil (List.ne_nil_of_mem hlow)
  have hmax : (first :: rest).max? = some high :=
    List.max?_eq_some_iff.mpr ⟨hhigh, fun price hprice => (hbounds price hprice).2⟩
  have hmin : (first :: rest).min? = some low :=
    List.min?_eq_some_iff.mpr ⟨hlow, fun price hprice => (hbounds price hprice).1⟩
  rw [List.max?_cons', Option.some.injEq] at hmax
  rw [List.min?_cons', Option.some.injEq] at hmin
  rw [spreadOf_cons, hmax, hmin]

lemma exists_extremes {prices : List ℚ} (hne : prices ≠ []) :
    ∃ low ∈ prices, ∃ high ∈ prices, ∀ price ∈ prices, low ≤ price ∧ price ≤ high := by
  obtain ⟨first, rest, rfl⟩ := List.exists_cons_of_ne_nil hne
  have hmin : (first :: rest).min? = some (rest.foldl min first) := List.min?_cons'
  have hmax : (first :: rest).max? = some (rest.foldl max first) := List.max?_cons'
  obtain ⟨hlow, hleast⟩ := List.min?_eq_some_iff.mp hmin
  obtain ⟨hhigh, hgreatest⟩ := List.max?_eq_some_iff.mp hmax
  exact ⟨_, hlow, _, hhigh, fun price hprice => ⟨hleast price hprice, hgreatest price hprice⟩⟩

/-- Where the loop over the prices stands after `seen`, with `rest` before it. -/
structure MeanStep (prices seen rest : List ℚ) (average : ℚ) : Prop where
  reached : averageOf (prices.map .finite) = some (advanceAverage (.finite average) seen.length (rest.map .finite))
  prefixMean : averageOf (seen.map .finite) = some (.finite average)
  bounds : ∀ low high, (∀ price ∈ seen, low ≤ price ∧ price ≤ high) → low ≤ average ∧ average ≤ high
  difference : ∀ price later, rest = price :: later → ∀ high, (∀ other ∈ seen ++ [price], other ≤ high) →
    |price - average| < high ∧ |(price - average) / (seen.length + 1)| < high

lemma meanStep {prices seen rest : List ℚ} (hpos : ∀ price ∈ prices, 0 < price) (hsplit : prices = seen ++ rest)
    (hseen : seen ≠ []) : MeanStep prices seen rest (RunningMean.mean seen) where
  reached := by
    rw [averageOf_mean (by simp [hsplit, hseen]), advanceAverage_finite, RunningMean.advance_mean hseen, hsplit]
  prefixMean := averageOf_mean hseen
  bounds low high hbounds :=
    ⟨RunningMean.le_mean hseen fun price hprice => (hbounds price hprice).1,
      RunningMean.mean_le hseen fun price hprice => (hbounds price hprice).2⟩
  difference price later hrest high hhigh := by
    have hprices : ∀ other ∈ seen ++ [price], other ∈ prices := by
      intro other hother
      rw [hsplit, hrest, List.append_cons]
      exact List.mem_append_left _ hother
    have hdifference := RunningMean.abs_sub_mean_lt hseen (fun other hother => hpos other (hprices other hother)) hhigh
    refine ⟨hdifference, ?_⟩
    have hlength : (1 : ℚ) ≤ seen.length + 1 := by linarith [(Nat.cast_nonneg seen.length : (0 : ℚ) ≤ seen.length)]
    rw [abs_div, abs_of_pos (zero_lt_one.trans_le hlength)]
    exact (div_le_self (abs_nonneg _) hlength).trans_lt hdifference

/-- Of any positive prices both loops compute the arithmetic mean. The averages on the way are within the prices seen
so far, and the differences are smaller than the largest of them. The mean does not depend on the order, and the
spread is the difference of the extreme prices. -/
theorem incremental_mean_law {prices : List ℚ} (hne : prices ≠ []) (hpos : ∀ price ∈ prices, 0 < price) :
    averageOf (prices.map .finite) = some (.finite (prices.sum / prices.length)) ∧
    (∀ seen rest, prices = seen ++ rest → seen ≠ [] → ∃ average, MeanStep prices seen rest average) ∧
    (∀ other : List ℚ, other.Perm prices → averageOf (other.map .finite) = averageOf (prices.map .finite) ∧
      spreadOf (other.map .finite) = spreadOf (prices.map .finite)) ∧
    (∃ low ∈ prices, ∃ high ∈ prices, (∀ price ∈ prices, low ≤ price ∧ price ≤ high) ∧
      spreadOf (prices.map .finite) = .finite (high - low)) ∧
    (shownMean prices).map F64.finite = averageOf (prices.map .finite) ∧
    (shownSpread prices).map F64.finite = some (spreadOf (prices.map .finite)) := by
  obtain ⟨low, hlow, high, hhigh, hbounds⟩ := exists_extremes hne
  have hspread := spreadOf_extremes hlow hhigh hbounds
  refine ⟨averageOf_mean hne, fun seen rest hsplit hseen => ⟨_, meanStep hpos hsplit hseen⟩,
    fun other hperm => ⟨?_, ?_⟩, ⟨low, hlow, high, hhigh, hbounds, hspread⟩, (averageOf_finite prices).symm, ?_⟩
  · have hother : other ≠ [] := fun hnil => hne (by simpa [hnil] using hperm.symm)
    rw [averageOf_mean hother, averageOf_mean hne, RunningMean.mean_perm hperm]
  · rw [hspread, spreadOf_extremes (hperm.mem_iff.mpr hlow) (hperm.mem_iff.mpr hhigh)
      fun price hprice => hbounds price (hperm.mem_iff.mp hprice)]
  · rw [← spreadOf_finite, averageOf_mean hne]
    rfl

/-- Three prices, and the loop after two of them. -/
theorem incremental_mean_law_three :
    averageOf ([3, 5, 1].map .finite) = some (.finite 3) ∧ ∃ average, MeanStep [3, 5, 1] [3, 5] [1] average := by
  have hpos : ∀ price ∈ ([3, 5, 1] : List ℚ), 0 < price := by
    intro price hprice
    fin_cases hprice <;> norm_num
  have hlaw := incremental_mean_law (by simp) hpos
  refine ⟨hlaw.1.trans ?_, hlaw.2.1 [3, 5] [1] rfl (by simp)⟩
  norm_num

end BitcoinPriceTracker

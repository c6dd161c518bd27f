import Mathlib.Tactic

namespace RunningMean

variable {K : Type*} [Field K]

/-- The loop over the values after the first `count` ones, whose mean is `current`. -/
def advance (current : K) (count : ℕ) : List K → K
  | [] => current
  | value :: rest => advance (current + (value - current) / (count + 1)) (count + 1) rest

def mean (values : List K) : K := values.sum / values.length

lemma mean_singleton (value : K) : mean [value] = value := by simp [mean]

lemma mean_perm {values other : List K} (h : other.Perm values) : mean other = mean values := by
  rw [mean, mean, h.sum_eq, h.length_eq]

section Loop

variable [CharZero K]

lemma mean_concat {seen : List K} (hseen : seen ≠ []) (value : K) :
    mean (seen ++ [value]) = mean seen + (value - mean seen) / (seen.length + 1) := by
  have hlength : (seen.length : K) ≠ 0 := by exact_mod_cast (List.length_pos_iff.mpr hseen).ne'
  have hnext : (seen.length : K) + 1 ≠ 0 := by exact_mod_cast Nat.succ_ne_zero seen.length
  simp only [mean, List.sum_append, List.sum_singleton, List.length_append, List.length_singleton, Nat.cast_add,
    Nat.cast_one]
  field_simp
  ring

theorem advance_mean {seen : List K} (hseen : seen ≠ []) (rest : List K) :
    advance (mean seen) seen.length rest = mean (seen ++ rest) := by
  induction rest generalizing seen with
  | nil => simp [advance]
  | cons value rest ih =>
    have hnext : (seen ++ [value]).length = seen.length + 1 := by simp
    have happend : seen ++ value :: rest = (seen ++ [value]) ++ rest := by simp
    rw [advance, ← mean_concat hseen, ← hnext, ih (by simp), happend]

end Loop

section Bounds

variable [LinearOrder K] [IsStrictOrderedRing K] {values : List K}

lemma le_mean (hvalues : values ≠ []) {low : K} (hlow : ∀ value ∈ values, low ≤ value) : low ≤ mean values := by
  have hlength : (0 : K) < values.length := by exact_mod_cast List.length_pos_iff.mpr hvalues
  have hsum := List.card_nsmul_le_sum values low hlow
  rw [nsmul_eq_mul] at hsum
  rw [mean, le_div_iff₀ hlength]
  linarith

lemma mean_le (hvalues : values ≠ []) {high : K} (hhigh : ∀ value ∈ values, value ≤ high) : mean values ≤ high := by
  have hlength : (0 : K) < values.length := by exact_mod_cast List.length_pos_iff.mpr hvalues
  have hsum := List.sum_le_card_nsmul values high hhigh
  rw [nsmul_eq_mul] at hsum
  rw [mean, div_le_iff₀ hlength]
  linarith

lemma mean_pos (hvalues : values ≠ []) (hpos : ∀ value ∈ values, 0 < value) : 0 < mean values := by
  have hlength : (0 : K) < values.length := by exact_mod_cast List.length_pos_iff.mpr hvalues
  exact div_pos (List.sum_pos values hpos hvalues) hlength

/-- Two positive numbers differ by less than the larger one. -/
theorem abs_sub_mean_lt (hvalues : values ≠ []) {value high : K} (hpos : ∀ other ∈ values ++ [value], 0 < other)
    (hhigh : ∀ other ∈ values ++ [value], other ≤ high) : |value - mean values| < high := by
  have hmean_pos := mean_pos hvalues fun other hother => hpos other (List.mem_append_left _ hother)
  have hmean_le := mean_le hvalues fun other hother => hhigh other (List.mem_append_left _ hother)
  have hvalue_pos := hpos value (by simp)
  have hvalue_le := hhigh value (by simp)
  rw [abs_lt]
  constructor
  · linarith
  · linarith

end Bounds

end RunningMean

import BitcoinPriceTracker.Lib.Machine

namespace Permits

inductive Input
  | take
  | give
  deriving DecidableEq

inductive Action
  | taken
  | refused
  | given
  deriving DecidableEq

def Action.input : Action → Input
  | taken | refused => .take
  | given => .give

/-- The state is the number of permits left of `capacity`. -/
def machine (capacity : ℕ) : Machine ℕ Input Action where
  step left
    | .take => some (if left = 0 then (left, .refused) else (left - 1, .taken))
    | .give => if left < capacity then some (left + 1, .given) else none

variable {capacity left : ℕ}

end Permits

lemma card_filter_change {n c : ℕ} (hc : c < n) {p q : ℕ → Prop} [DecidablePred p] [DecidablePred q]
    (h : ∀ i, i ≠ c → (p i ↔ q i)) :
    ((Finset.range n).filter p).card + (if q c then 1 else 0) =
      ((Finset.range n).filter q).card + (if p c then 1 else 0) := by
  have hmem : c ∈ Finset.range n := Finset.mem_range.mpr hc
  have hrest : ∑ i ∈ (Finset.range n).erase c, (if p i then 1 else 0) =
      ∑ i ∈ (Finset.range n).erase c, (if q i then 1 else 0) :=
    Finset.sum_congr rfl fun i hi => by simp only [h i (Finset.ne_of_mem_erase hi)]
  rw [Finset.card_filter, Finset.card_filter, ← Finset.add_sum_erase _ _ hmem, ← Finset.add_sum_erase _ _ hmem, hrest]
  ring

lemma card_filter_succ {n : ℕ} {p q : ℕ → Prop} [DecidablePred p] [DecidablePred q]
    (h : ∀ i, i < n → (p i ↔ q i)) :
    ((Finset.range (n + 1)).filter q).card = ((Finset.range n).filter p).card + if q n then 1 else 0 := by
  have hrest : ∑ i ∈ Finset.range n, (if q i then 1 else 0) = ∑ i ∈ Finset.range n, (if p i then 1 else 0) :=
    Finset.sum_congr rfl fun i hi => by simp only [h i (Finset.mem_range.mp hi)]
  rw [Finset.card_filter, Finset.card_filter, Finset.sum_range_succ, hrest]

import Mathlib.Tactic

namespace Retention

variable {α : Type*} (weak strong : α → Bool)

/-- What is kept of a log. -/
def keep : List α → Option α
  | [] => none
  | a :: older => if weak a && (keep older).any strong then keep older else some a

variable {weak strong} {log newer older : List α} {a : α}

/-- What is kept has only weak values after it, and those only where it is strong. -/
theorem keep_eq_some (h : keep weak strong log = some a) :
    ∃ newer older, log = newer ++ a :: older ∧ (∀ b ∈ newer, weak b = true) ∧ (newer ≠ [] → strong a = true) := by
  induction log with
  | nil => simp [keep] at h
  | cons b rest ih =>
    simp only [keep] at h
    split at h
    · next hweak =>
      obtain ⟨hb, hstrong⟩ := Bool.and_eq_true_iff.mp hweak
      obtain ⟨newer, older, rfl, hnewer, _⟩ := ih h
      rw [h] at hstrong
      exact ⟨b :: newer, older, rfl, List.forall_mem_cons.mpr ⟨hb, hnewer⟩, fun _ => hstrong⟩
    · obtain rfl := Option.some.inj h
      exact ⟨[], rest, rfl, by simp, by simp⟩

/-- Where every value is weak or strong, what is kept stays strong once it is. -/
theorem keep_strong (h : ∀ b ∈ newer, weak b = true ∨ strong b = true)
    (hstrong : (keep weak strong older).any strong = true) : (keep weak strong (newer ++ older)).any strong = true := by
  induction newer with
  | nil => exact hstrong
  | cons b rest ih =>
    obtain ⟨hb, hrest⟩ := List.forall_mem_cons.mp h
    rw [List.cons_append, keep]
    split
    · exact ih hrest
    · next hkept =>
      rw [ih hrest, Bool.and_true] at hkept
      simpa [hkept] using hb

end Retention

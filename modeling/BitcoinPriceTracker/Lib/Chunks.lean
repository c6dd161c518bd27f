import Mathlib.Tactic

namespace Chunks

variable {α ε : Type*}

/-- The loop from a buffer on. `fits` sees the lengths of the buffer and of the next chunk. -/
def collect (fits : ℕ → ℕ → Bool) (error : ε) : List α → List (List α) → Except ε (List α)
  | buffer, [] => .ok buffer
  | buffer, chunk :: rest =>
    if fits buffer.length chunk.length then collect fits error (buffer ++ chunk) rest else .error error

/-- The test admits what keeps the limit, from every buffer that keeps it. -/
def Keeps (limit : ℕ) (fits : ℕ → ℕ → Bool) : Prop :=
  ∀ held size, held ≤ limit → (fits held size = true ↔ held + size ≤ limit)

section Collect

variable {fits : ℕ → ℕ → Bool} {limit : ℕ} (error : ε)

theorem collect_eq (h : Keeps limit fits) (chunks : List (List α)) {buffer : List α} (hbuffer : buffer.length ≤ limit) :
    collect fits error buffer chunks =
      if (buffer ++ chunks.flatten).length ≤ limit then .ok (buffer ++ chunks.flatten) else .error error := by
  induction chunks generalizing buffer with
  | nil => simp [collect, hbuffer]
  | cons chunk rest ih =>
    rw [collect]
    by_cases hfits : buffer.length + chunk.length ≤ limit
    · have hnext : (buffer ++ chunk).length ≤ limit := by simpa using hfits
      rw [if_pos ((h _ _ hbuffer).mpr hfits), ih hnext, List.flatten_cons, List.append_assoc]
    · have hover : ¬(buffer ++ (chunk :: rest).flatten).length ≤ limit := by
        simp only [List.flatten_cons, List.length_append]
        omega
      rw [if_neg (fun hadmitted => hfits ((h _ _ hbuffer).mp hadmitted)), if_neg hover]

/-- What the loop has collected is within the limit. -/
theorem length_le_of_collect (h : Keeps limit fits) {chunks : List (List α)} {buffer collected : List α}
    (hbuffer : buffer.length ≤ limit) (hcollected : collect fits error buffer chunks = .ok collected) :
    collected = buffer ++ chunks.flatten ∧ collected.length ≤ limit := by
  rw [collect_eq error h chunks hbuffer] at hcollected
  split at hcollected
  · next hlimit =>
    obtain rfl := Except.ok.inj hcollected
    exact ⟨rfl, hlimit⟩
  · simp at hcollected

/-- The loop goes on from what it has collected. -/
theorem collect_append (earlier later : List (List α)) {buffer collected : List α}
    (h : collect fits error buffer earlier = .ok collected) :
    collect fits error buffer (earlier ++ later) = collect fits error collected later := by
  induction earlier generalizing buffer with
  | nil =>
    obtain rfl := Except.ok.inj h
    rfl
  | cons chunk rest ih =>
    rw [collect] at h
    split at h
    · next hfits =>
      rw [List.cons_append, collect, if_pos hfits]
      exact ih h
    · simp at h

end Collect

end Chunks

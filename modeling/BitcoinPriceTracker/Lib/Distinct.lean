import Mathlib.Tactic

variable {α κ : Type*} [DecidableEq κ]

/-- The first element of each key, in the order of the list. -/
def distinctBy (key : α → κ) : List α → List α
  | [] => []
  | a :: rest => a :: (distinctBy key rest).filter fun b => key b ≠ key a

variable {key : α → κ}

theorem distinctBy_pairwise (key : α → κ) (l : List α) : (distinctBy key l).Pairwise fun a b => key a ≠ key b := by
  induction l with
  | nil => exact .nil
  | cons a rest ih =>
    refine .cons (fun b hb => ?_) (ih.filter _)
    have hne := List.of_mem_filter hb
    exact Ne.symm (of_decide_eq_true hne)

/-- A scan that keeps what it has not met, in the middle of its way. -/
theorem filter_distinctBy_cons (met : List α) (a : α) (rest : List α) :
    (distinctBy key (a :: rest)).filter (fun b => !met.any fun e => key e = key b) =
      if met.any fun e => key e = key a then (distinctBy key rest).filter fun b => !met.any fun e => key e = key b
      else a :: (distinctBy key rest).filter fun b => !(met ++ [a]).any fun e => key e = key b := by
  rw [distinctBy, List.filter_cons, List.filter_filter]
  cases h : met.any fun e => decide (key e = key a) with
  | true =>
    obtain ⟨e, he, hkey⟩ := List.any_eq_true.mp h
    have hkey : key e = key a := of_decide_eq_true hkey
    simp only [Bool.not_true, Bool.false_eq_true, if_false, if_true]
    apply List.filter_congr
    intro b _
    -- What has the key of `a` is met already.
    by_cases hb : key b = key a
    · have hmet : (met.any fun e => decide (key e = key b)) = true :=
        List.any_eq_true.mpr ⟨e, he, decide_eq_true (hkey.trans hb.symm)⟩
      simp [hmet]
    · simp [hb]
  | false =>
    simp only [Bool.not_false, if_true, Bool.false_eq_true, if_false]
    congr 1
    apply List.filter_congr
    intro b _
    rw [List.any_append, List.any_cons, List.any_nil, Bool.or_false, Bool.not_or]
    simp only [eq_comm (a := key a), ne_eq, decide_not]

import Mathlib.Tactic

/-!
# Transactions with faults

A transaction is a sequence of statements on a store. The environment may fail any of
them; the list of faults says what it does to the statements still to come. A fault
can only turn success into failure, never change what a success computes: every
transaction carries the proof. `atomically` is the transaction as its caller sees it,
committed or rolled back.
-/

/-- What happens to the coming statements: `some e` fails one with the text `e`. Past
the end of the list no statement is failed. -/
abbrev Faults := List (Option String)

structure Tx (σ α : Type) where
  run : Faults → σ → Except String (α × Faults × σ)
  faultless : ∀ {F : Faults} {s : σ} {a : α} {F' : Faults} {s' : σ},
    run F s = .ok (a, F', s') → run [] s = .ok (a, [], s')

namespace Tx

variable {σ α β : Type}

protected def pure (a : α) : Tx σ α where
  run F s := .ok (a, F, s)
  faultless h := by simp_all

protected def bind (x : Tx σ α) (f : α → Tx σ β) : Tx σ β where
  run F s :=
    match x.run F s with
    | .error e => .error e
    | .ok (a, F', s') => (f a).run F' s'
  faultless {F s b F' s'} h := by
    cases hx : x.run F s with
    | error e => simp [hx] at h
    | ok r =>
      obtain ⟨a, F₁, s₁⟩ := r
      simp only [hx] at h
      simp only [x.faultless hx, (f a).faultless h]

instance : Monad (Tx σ) where
  pure := Tx.pure
  bind := Tx.bind

/-- Stops with an error of the program itself, before any further statement. -/
def fail (e : String) : Tx σ α where
  run _ _ := .error e
  faultless h := by simp at h

/-- One statement. Its own errors and the faults are both reported after `context`. -/
def statement (context : String) (body : σ → Except String (α × σ)) : Tx σ α where
  run F s :=
    match F with
    | some e :: _ => .error (context ++ e)
    | _ =>
      match body s with
      | .error e => .error (context ++ e)
      | .ok (a, s') => .ok (a, F.tail, s')
  faultless {F s a F' s'} h := by
    rcases F with _ | ⟨_ | e, F⟩
    · cases hb : body s <;> simp_all
    · cases hb : body s <;> simp_all
    · simp at h

/-- What a transaction computes where nothing is failed from outside. -/
def eval (x : Tx σ α) (s : σ) : Except String (α × σ) :=
  match x.run [] s with
  | .error e => .error e
  | .ok (a, _, s') => .ok (a, s')

lemma eval_of_run {x : Tx σ α} {F F' : Faults} {s s' : σ} {a : α}
    (h : x.run F s = .ok (a, F', s')) : x.eval s = .ok (a, s') := by
  simp [eval, x.faultless h]

@[simp] lemma eval_pure (a : α) (s : σ) : (pure a : Tx σ α).eval s = .ok (a, s) := rfl

@[simp] lemma eval_bind (x : Tx σ α) (f : α → Tx σ β) (s : σ) :
    (x >>= f).eval s =
      match x.eval s with
      | .error e => .error e
      | .ok (a, s') => (f a).eval s' := by
  change eval (Tx.bind x f) s = _
  cases hx : x.run [] s with
  | error e => simp [eval, Tx.bind, hx]
  | ok r =>
    obtain ⟨a, F', s'⟩ := r
    have hx' := x.faultless hx
    simp [eval, Tx.bind, hx']

@[simp] lemma eval_fail (e : String) (s : σ) : (fail e : Tx σ α).eval s = .error e := rfl

@[simp] lemma eval_statement (context : String) (body : σ → Except String (α × σ)) (s : σ) :
    (statement context body).eval s =
      match body s with
      | .error e => .error (context ++ e)
      | .ok r => .ok r := by
  unfold eval statement
  cases hb : body s <;> simp [hb]

/-- A loop fails where one of its elements does, at whatever state the earlier ones reach. -/
lemma eval_forM_error {xs : List β} {f : β → Tx σ Unit} {bad : β} {s : σ} (hbad : bad ∈ xs)
    (h : ∀ s, ∃ e, (f bad).eval s = .error e) : ∃ e, (forM xs f).eval s = .error e := by
  induction xs generalizing s with
  | nil => simp at hbad
  | cons x xs ih =>
    rw [List.forM_cons, eval_bind]
    cases hx : (f x).eval s with
    | error e => exact ⟨e, rfl⟩
    | ok r =>
      rcases List.mem_cons.mp hbad with rfl | hmem
      · obtain ⟨e, he⟩ := h s
        simp [he] at hx
      · exact ih hmem

/-- A statement that does not change the store, such as `BEGIN`, `COMMIT` or a setting. -/
def touch (context : String) : Tx σ Unit := statement context fun s => .ok (⟨⟩, s)

@[simp] lemma eval_touch (context : String) (s : σ) :
    (touch context : Tx σ Unit).eval s = .ok (⟨⟩, s) := by
  simp [touch]

/-- A statement that only reads. -/
def query (context : String) (read : σ → Except String α) : Tx σ α :=
  statement context fun s => (read s).map (·, s)

@[simp] lemma eval_query (context : String) (read : σ → Except String α) (s : σ) :
    (query context read).eval s =
      match read s with
      | .error e => .error (context ++ e)
      | .ok a => .ok (a, s) := by
  cases h : read s <;> simp [query, h, Except.map]

/-- The transaction as its caller sees it: the store changes as a whole or not at all. -/
def atomically (x : Tx σ α) (F : Faults) (s : σ) : Except String α × σ :=
  match x.run F s with
  | .error e => (.error e, s)
  | .ok (a, _, s') => (.ok a, s')

/-- Either everything is as before, or everything happened as without faults. -/
theorem atomically_cases (x : Tx σ α) (F : Faults) (s : σ) :
    (∃ e, x.atomically F s = (.error e, s)) ∨
      ∃ a s', x.eval s = .ok (a, s') ∧ x.atomically F s = (.ok a, s') := by
  unfold atomically
  cases hrun : x.run F s with
  | error e => exact .inl ⟨e, rfl⟩
  | ok r => exact .inr ⟨r.1, r.2.2, eval_of_run hrun, rfl⟩

lemma atomically_ok {x : Tx σ α} {F : Faults} {s : σ} {a : α}
    (h : (x.atomically F s).1 = .ok a) : x.eval s = .ok (a, (x.atomically F s).2) := by
  rcases x.atomically_cases F s with ⟨_, he⟩ | ⟨b, s', heval, hok⟩
  · simp [he] at h
  · simp only [hok, Except.ok.injEq] at h ⊢
    rw [heval, h]

/-- Without faults the caller sees what the statements compute. -/
lemma atomically_nil (x : Tx σ α) (s : σ) :
    x.atomically [] s =
      match x.eval s with
      | .error e => (.error e, s)
      | .ok (a, s') => (.ok a, s') := by
  unfold atomically eval
  cases hx : x.run [] s <;> rfl

/-- The same statements are failed, with any texts. -/
def SameFaults (F G : Faults) : Prop := F.map Option.isSome = G.map Option.isSome

def SameOutcome : Except String (α × Faults × σ) → Except String (α × Faults × σ) → Prop
  | .ok (a, F, s), .ok (b, G, t) => a = b ∧ SameFaults F G ∧ s = t
  | .error _, .error _ => True
  | _, _ => False

def Agree (x y : Tx σ α) : Prop := ∀ F G s, SameFaults F G → SameOutcome (x.run F s) (y.run G s)

lemma agree_pure (a : α) : Agree (pure a : Tx σ α) (pure a) := fun _ _ _ hF => ⟨rfl, hF, rfl⟩

lemma agree_fail (e e' : String) : Agree (fail e : Tx σ α) (fail e') := fun _ _ _ _ => trivial

lemma Agree.bind {x y : Tx σ α} {f g : α → Tx σ β} (hxy : Agree x y) (hfg : ∀ a, Agree (f a) (g a)) :
    Agree (x >>= f) (y >>= g) := by
  intro F G s hF
  change SameOutcome
    (match x.run F s with
      | .error e => .error e
      | .ok (a, F', s') => (f a).run F' s')
    (match y.run G s with
      | .error e => .error e
      | .ok (a, G', t') => (g a).run G' t')
  have hrun := hxy F G s hF
  cases hx : x.run F s with
  | error e =>
    cases hy : y.run G s with
    | error e' => trivial
    | ok r => simp [hx, hy, SameOutcome] at hrun
  | ok r =>
    cases hy : y.run G s with
    | error e' => simp [hx, hy, SameOutcome] at hrun
    | ok r' =>
      obtain ⟨a, F', s'⟩ := r
      obtain ⟨b, G', t'⟩ := r'
      rw [hx, hy] at hrun
      obtain ⟨rfl, hF', rfl⟩ := hrun
      exact hfg a F' G' s' hF'

lemma agree_statement (context context' : String) {body body' : σ → Except String (α × σ)}
    (h : ∀ s, (body s).toOption = (body' s).toOption) : Agree (statement context body) (statement context' body') := by
  intro F G s hF
  have hbody := h s
  have htail : SameFaults F.tail G.tail := by
    unfold SameFaults at hF ⊢
    rw [List.map_tail, hF, List.map_tail]
  have hresult : SameOutcome
      (match body s with
        | .error e => .error (context ++ e)
        | .ok (a, s') => .ok (a, F.tail, s'))
      (match body' s with
        | .error e => .error (context' ++ e)
        | .ok (a, s') => .ok (a, G.tail, s')) := by
    cases hx : body s with
    | error e =>
      cases hy : body' s with
      | error e' => trivial
      | ok r => simp [hx, hy, Except.toOption] at hbody
    | ok r =>
      cases hy : body' s with
      | error e' => simp [hx, hy, Except.toOption] at hbody
      | ok r' =>
        rw [hx, hy] at hbody
        obtain rfl := Option.some.inj hbody
        exact ⟨rfl, htail, rfl⟩
  unfold SameFaults at hF
  unfold statement
  rcases F with _ | ⟨_ | e, F⟩
  · obtain rfl : G = [] := by simpa using hF.symm
    exact hresult
  · rcases G with _ | ⟨_ | e', G⟩
    · simp at hF
    · exact hresult
    · simp at hF
  · rcases G with _ | ⟨_ | e', G⟩
    · simp at hF
    · simp at hF
    · trivial

lemma agree_touch (context context' : String) : Agree (touch context : Tx σ Unit) (touch context') :=
  agree_statement _ _ fun _ => rfl

lemma agree_query (context context' : String) (read : σ → Except String α) :
    Agree (query context read) (query context' read) :=
  agree_statement _ _ fun _ => rfl

lemma agree_forM {f g : β → Tx σ Unit} (h : ∀ x, Agree (f x) (g x)) (xs : List β) :
    Agree (forM xs f) (forM xs g) := by
  induction xs with
  | nil => exact agree_pure _
  | cons x xs ih =>
    rw [List.forM_cons, List.forM_cons]
    exact (h x).bind fun _ => ih

/-- The caller sees the same result, up to the text of an error, and the same store. -/
theorem Agree.atomically {x y : Tx σ α} (h : Agree x y) {F G : Faults} (hF : SameFaults F G) (s : σ) :
    (x.atomically F s).1.toOption = (y.atomically G s).1.toOption ∧ (x.atomically F s).2 = (y.atomically G s).2 := by
  have hrun := h F G s hF
  unfold Tx.atomically
  cases hx : x.run F s with
  | error e =>
    cases hy : y.run G s with
    | error e' => exact ⟨rfl, rfl⟩
    | ok r => simp [hx, hy, SameOutcome] at hrun
  | ok r =>
    cases hy : y.run G s with
    | error e' => simp [hx, hy, SameOutcome] at hrun
    | ok r' =>
      rw [hx, hy] at hrun
      obtain ⟨a, F', s'⟩ := r
      obtain ⟨b, G', t'⟩ := r'
      obtain ⟨rfl, _, rfl⟩ := hrun
      exact ⟨rfl, rfl⟩

end Tx

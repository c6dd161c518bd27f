import BitcoinPriceTracker.Lib.Keyed

/-!
# Tables with issued row ids and a foreign key

`AutoTable` is a table whose integer primary key is issued by the table and never reused.
`Linked` is a parent and a child table of this kind with a foreign key that cascades
deletions. Both carry their integrity as fields, so that every operation keeps it.
-/

/-- A table with an autoincremented primary key: `sequence` is the largest id ever issued. -/
structure AutoTable (ρ : Type*) (id : ρ → ℤ) extends Keyed ρ id where
  sequence : ℤ
  issued : ∀ row ∈ items, id row ≤ sequence

namespace AutoTable

variable {ρ τ : Type*} {id : ρ → ℤ}

def empty : AutoTable ρ id where
  toKeyed := .empty
  sequence := 0
  issued := by simp

def nextId (t : AutoTable ρ id) : ℤ := t.sequence + 1

lemma id_ne_nextId (t : AutoTable ρ id) {row : ρ} (h : row ∈ t.items) : id row ≠ t.nextId := by
  have := t.issued row h
  unfold nextId
  omega

def deleteWhere (p : ρ → Bool) (t : AutoTable ρ id) : AutoTable ρ id where
  toKeyed := t.toKeyed.filter fun row => !p row
  sequence := t.sequence
  issued row h := t.issued row (List.mem_of_mem_filter h)

/-- Inserts the row that `make` builds from the issued id. -/
def insert (t : AutoTable ρ id) (make : ℤ → ρ) (hid : ∀ n, id (make n) = n) : AutoTable ρ id where
  items := t.items ++ [make t.nextId]
  distinct := by
    rw [List.map_append, List.map_singleton, List.nodup_append, hid]
    refine ⟨t.distinct, List.nodup_singleton _, ?_⟩
    intro k hk j hj
    obtain ⟨row, hrow, rfl⟩ := List.mem_map.mp hk
    rw [List.mem_singleton.mp hj]
    exact t.id_ne_nextId hrow
  sequence := t.nextId
  issued row h := by
    rcases List.mem_append.mp h with h | h
    · have := t.issued row h
      unfold nextId
      omega
    · rw [List.mem_singleton.mp h, hid]

/-- Rewrites every row in place: `UPDATE` without a condition, or a new column. -/
def mapRows {id' : τ → ℤ} (f : ρ → τ) (hf : ∀ row, id' (f row) = id row) (t : AutoTable ρ id) :
    AutoTable τ id' where
  toKeyed := t.toKeyed.map f hf
  sequence := t.sequence
  issued row h := by
    obtain ⟨r, hr, rfl⟩ := List.mem_map.mp h
    rw [hf]
    exact t.issued r hr

lemma ext_items {t u : AutoTable ρ id} (hitems : t.items = u.items) (hsequence : t.sequence = u.sequence) :
    t = u := by
  obtain ⟨⟨items, _⟩, sequence, _⟩ := t
  obtain ⟨⟨items', _⟩, sequence', _⟩ := u
  cases hitems
  cases hsequence
  rfl

@[simp] lemma items_empty : (empty : AutoTable ρ id).items = [] := rfl

@[simp] lemma items_deleteWhere (p : ρ → Bool) (t : AutoTable ρ id) :
    (t.deleteWhere p).items = t.items.filter fun row => !p row := rfl

@[simp] lemma items_insert (t : AutoTable ρ id) (make : ℤ → ρ) (hid : ∀ n, id (make n) = n) :
    (t.insert make hid).items = t.items ++ [make t.nextId] := rfl

@[simp] lemma items_mapRows {id' : τ → ℤ} (f : ρ → τ) (hf : ∀ row, id' (f row) = id row)
    (t : AutoTable ρ id) : (mapRows f hf t : AutoTable τ id').items = t.items.map f := rfl

end AutoTable

/-- A child table whose `parent` column references the ids of a parent table. -/
structure Linked {ρ τ : Type*} (id : ρ → ℤ) (childId parent : τ → ℤ) where
  parents : AutoTable ρ id
  children : AutoTable τ childId
  references : ∀ child ∈ children.items, ∃ row ∈ parents.items, id row = parent child

namespace Linked

variable {ρ ρ' τ τ' : Type*} {id : ρ → ℤ} {id' : ρ' → ℤ} {childId parent : τ → ℤ}
  {childId' parent' : τ' → ℤ}

def empty : Linked id childId parent where
  parents := .empty
  children := .empty
  references := by simp

/-- Deletes parents, and the children that reference them. -/
def deleteParents (p : ρ → Bool) (t : Linked id childId parent) : Linked id childId parent where
  parents := t.parents.deleteWhere p
  children := t.children.deleteWhere fun child =>
    t.parents.items.any fun row => p row && id row = parent child
  references child h := by
    simp only [AutoTable.items_deleteWhere, List.mem_filter, Bool.not_eq_true'] at h ⊢
    obtain ⟨row, hrow, heq⟩ := t.references child h.1
    refine ⟨row, ⟨hrow, ?_⟩, heq⟩
    have hkept := List.any_eq_false.mp h.2 row hrow
    simpa [heq] using hkept

def insertParent (t : Linked id childId parent) (make : ℤ → ρ) (hid : ∀ n, id (make n) = n) :
    Linked id childId parent where
  parents := t.parents.insert make hid
  children := t.children
  references child h := by
    obtain ⟨row, hrow, heq⟩ := t.references child h
    exact ⟨row, List.mem_append_left _ hrow, heq⟩

/-- Inserts a child of the parent `key`; `none` where there is no such parent. -/
def insertChild (t : Linked id childId parent) (key : ℤ) (make : ℤ → τ)
    (hid : ∀ n, childId (make n) = n) (hparent : ∀ n, parent (make n) = key) :
    Option (Linked id childId parent) :=
  if h : t.parents.contains key = true then
    some
      { parents := t.parents
        children := t.children.insert make hid
        references := by
          intro child hc
          rcases List.mem_append.mp hc with hc | hc
          · exact t.references child hc
          · rw [List.mem_singleton.mp hc, hparent]
            exact Keyed.contains_iff.mp h }
  else none

lemma insertChild_spec (t : Linked id childId parent) (key : ℤ) (make : ℤ → τ)
    (hid : ∀ n, childId (make n) = n) (hparent : ∀ n, parent (make n) = key)
    (h : t.parents.contains key = true) :
    ∃ t', t.insertChild key make hid hparent = some t' ∧ t'.parents = t.parents ∧
      t'.children = t.children.insert make hid := by
  rw [insertChild, dif_pos h]
  exact ⟨_, rfl, rfl, rfl⟩

/-- Rewrites all rows of both tables, keeping the ids and the references. -/
def mapRows (f : ρ → ρ') (hf : ∀ row, id' (f row) = id row) (g : τ → τ')
    (hg : ∀ child, childId' (g child) = childId child)
    (hparent : ∀ child, parent' (g child) = parent child) (t : Linked id childId parent) :
    Linked id' childId' parent' where
  parents := t.parents.mapRows f hf
  children := t.children.mapRows g hg
  references child h := by
    obtain ⟨c, hc, rfl⟩ := List.mem_map.mp h
    obtain ⟨row, hrow, heq⟩ := t.references c hc
    exact ⟨f row, List.mem_map_of_mem hrow, by rw [hf, hparent, heq]⟩

@[simp] lemma parents_empty : (empty : Linked id childId parent).parents = .empty := rfl

@[simp] lemma children_empty : (empty : Linked id childId parent).children = .empty := rfl

lemma deleteParents_all (t : Linked id childId parent) :
    (t.deleteParents fun _ => true).parents.items = [] ∧
      (t.deleteParents fun _ => true).children.items = [] := by
  refine ⟨by simp [deleteParents], ?_⟩
  simp only [deleteParents, AutoTable.items_deleteWhere, List.filter_eq_nil_iff]
  intro child hchild
  obtain ⟨row, hrow, heq⟩ := t.references child hchild
  simp only [Bool.true_and, Bool.not_eq_true', Bool.not_eq_false, List.any_eq_true, decide_eq_true_eq]
  exact ⟨row, hrow, heq⟩

lemma deleteParents_none (t : Linked id childId parent) {p : ρ → Bool}
    (h : ∀ row ∈ t.parents.items, p row = false) : t.deleteParents p = t := by
  have hparents : t.parents.deleteWhere p = t.parents := by
    refine AutoTable.ext_items ?_ rfl
    simpa [List.filter_eq_self] using h
  have hchildren : t.children.deleteWhere (fun child =>
      t.parents.items.any fun row => p row && id row = parent child) = t.children := by
    refine AutoTable.ext_items ?_ rfl
    simp only [AutoTable.items_deleteWhere, List.filter_eq_self, Bool.not_eq_true', List.any_eq_false,
      Bool.and_eq_true, decide_eq_true_eq, not_and]
    intro child _ row hrow hp
    simp [h row hrow] at hp
  cases t
  simp only [deleteParents] at hparents hchildren ⊢
  simp only [hparents, hchildren]

lemma children_deleteParents_of_kept (t : Linked id childId parent) {p : ρ → Bool} {row : ρ}
    (hrow : row ∈ t.parents.items) (hp : p row = false) :
    (t.deleteParents p).children.items.filter (fun child => parent child = id row) =
      t.children.items.filter fun child => parent child = id row := by
  simp only [deleteParents, AutoTable.items_deleteWhere, List.filter_filter]
  apply List.filter_congr
  intro child _
  by_cases hc : parent child = id row
  · have hnone : (t.parents.items.any fun other => p other && id other = parent child) = false := by
      rw [List.any_eq_false]
      intro other hother hcon
      simp only [Bool.and_eq_true, decide_eq_true_eq] at hcon
      have hsame := t.parents.eq_of_key_eq hother hrow (hcon.2.trans hc)
      rw [hsame, hp] at hcon
      exact absurd hcon.1 (by simp)
    rw [hnone]
    simp
  · simp [hc]

end Linked

import Mathlib.Tactic
import Mathlib.Data.List.Nodup

/-- A finite collection in which the key of an item is a function of the item and no two items have the same key: a
hash map, or a table with a primary key. The order of the items has no meaning. -/
structure Keyed (α : Type*) {κ : Type*} (key : α → κ) where
  items : List α
  distinct : (items.map key).Nodup

namespace Keyed

variable {α β κ : Type*} {key : α → κ}

def empty : Keyed α key := ⟨[], List.nodup_nil⟩

def length (m : Keyed α key) : ℕ := m.items.length

/-- Keeps the items that satisfy `p`. -/
def filter (p : α → Bool) (m : Keyed α key) : Keyed α key :=
  ⟨m.items.filter p, m.distinct.sublist (List.filter_sublist.map key)⟩

lemma eq_of_key_eq (m : Keyed α key) {a b : α} (ha : a ∈ m.items) (hb : b ∈ m.items)
    (h : key a = key b) : a = b :=
  List.inj_on_of_nodup_map m.distinct ha hb h

@[simp] lemma items_empty : (empty : Keyed α key).items = [] := rfl

@[simp] lemma items_filter (p : α → Bool) (m : Keyed α key) :
    (m.filter p).items = m.items.filter p := rfl

lemma filter_filter (p q : α → Bool) (m : Keyed α key) :
    (m.filter q).filter p = m.filter fun a => p a && q a := by
  simp [filter, List.filter_filter]

/-- A map of the items that keeps their keys. -/
def map {key' : β → κ} (f : α → β) (hf : ∀ a, key' (f a) = key a) (m : Keyed α key) : Keyed β key' where
  items := m.items.map f
  distinct := by
    have h : key' ∘ f = key := funext hf
    rw [List.map_map, h]
    exact m.distinct

variable [DecidableEq κ]

/-- The item with key `k`. -/
def get? (m : Keyed α key) (k : κ) : Option α := m.items.find? fun a => key a = k

def contains (m : Keyed α key) (k : κ) : Bool := m.items.any fun a => key a = k

def remove (m : Keyed α key) (k : κ) : Keyed α key := m.filter fun a => key a ≠ k

/-- Adds an item, in the place of the one with its key if there is one. -/
def put (m : Keyed α key) (a : α) : Keyed α key where
  items := a :: m.items.filter fun b => key b ≠ key a
  distinct := by
    rw [List.map_cons, List.nodup_cons]
    refine ⟨?_, m.distinct.sublist (List.filter_sublist.map key)⟩
    simp only [List.mem_map, List.mem_filter, not_exists, not_and]
    rintro b ⟨_, hb⟩ heq
    exact absurd heq (by simpa using hb)

@[simp] lemma items_remove (m : Keyed α key) (k : κ) :
    (m.remove k).items = m.items.filter fun a => key a ≠ k := rfl

lemma get?_eq_some_iff {m : Keyed α key} {k : κ} {a : α} :
    m.get? k = some a ↔ a ∈ m.items ∧ key a = k := by
  constructor
  · intro h
    exact ⟨List.mem_of_find?_eq_some h, by simpa using List.find?_some h⟩
  · rintro ⟨ha, rfl⟩
    cases h : m.get? (key a) with
    | none => simpa using List.find?_eq_none.mp h a ha
    | some b =>
      have hb : key b = key a := by simpa using List.find?_some h
      rw [m.eq_of_key_eq (List.mem_of_find?_eq_some h) ha hb]

lemma contains_iff {m : Keyed α key} {k : κ} : m.contains k = true ↔ ∃ a ∈ m.items, key a = k := by
  simp [contains]

lemma filter_key_eq (m : Keyed α key) (k : κ) :
    m.items.filter (fun a => key a = k) = (m.get? k).toList := by
  have hget : m.get? k = (m.items.filter fun a => key a = k).head? :=
    List.head?_filter.symm
  have hnodup : ((m.items.filter fun a => key a = k).map key).Nodup :=
    m.distinct.sublist (List.filter_sublist.map key)
  rw [hget]
  cases hfilter : m.items.filter fun a => key a = k with
  | nil => rfl
  | cons a rest =>
    have hkey : ∀ b ∈ a :: rest, key b = k := by
      intro b hb
      rw [← hfilter, List.mem_filter] at hb
      simpa using hb.2
    cases rest with
    | nil => rfl
    | cons b rest =>
      rw [hfilter] at hnodup
      simp [hkey a, hkey b] at hnodup

lemma filter_key_and (m : Keyed α key) (k : κ) (p : α → Bool) :
    m.items.filter (fun a => key a = k && p a) = ((m.get? k).filter p).toList := by
  rw [Option.toList_filter, ← m.filter_key_eq, List.filter_filter]
  exact List.filter_congr fun a _ => Bool.and_comm _ _

lemma contains_eq_isSome (m : Keyed α key) (k : κ) : m.contains k = (m.get? k).isSome := by
  rw [Bool.eq_iff_iff, contains_iff, Option.isSome_iff_exists]
  simp [get?_eq_some_iff]

@[simp] lemma get?_empty (k : κ) : (empty : Keyed α key).get? k = none := rfl

lemma mem_put {m : Keyed α key} {a b : α} :
    b ∈ (m.put a).items ↔ b = a ∨ b ∈ m.items ∧ key b ≠ key a := by
  simp [put]

@[simp] lemma get?_put_self (m : Keyed α key) (a : α) : (m.put a).get? (key a) = some a :=
  get?_eq_some_iff.mpr ⟨mem_put.mpr (.inl rfl), rfl⟩

lemma get?_put_of_ne (m : Keyed α key) {a : α} {k : κ} (h : k ≠ key a) :
    (m.put a).get? k = m.get? k := by
  ext b
  simp only [get?_eq_some_iff, mem_put]
  constructor
  · rintro ⟨rfl | ⟨hb, _⟩, rfl⟩
    · exact absurd rfl h
    · exact ⟨hb, rfl⟩
  · rintro ⟨hb, rfl⟩
    exact ⟨.inr ⟨hb, h⟩, rfl⟩

lemma get?_put (m : Keyed α key) (a : α) (k : κ) :
    (m.put a).get? k = if k = key a then some a else m.get? k := by
  split
  · next h => rw [h, get?_put_self]
  · next h => exact get?_put_of_ne m h

lemma get?_foldl_put (items : List α) (m : Keyed α key) (k : κ) :
    (items.foldl put m).get? k = (items.reverse.find? fun a => key a = k).or (m.get? k) := by
  induction items generalizing m with
  | nil => simp
  | cons a items ih =>
    rw [List.foldl_cons, ih, List.reverse_cons, List.find?_append, get?_put, Option.or_assoc]
    congr 1
    by_cases h : k = key a
    · simp [h]
    · simp [h, Ne.symm h]

lemma get?_remove (m : Keyed α key) (j k : κ) :
    (m.remove j).get? k = if k = j then none else m.get? k := by
  ext b
  simp only [get?_eq_some_iff, items_remove, List.mem_filter]
  split
  · next h => simp [h]
  · next h =>
    rw [get?_eq_some_iff]
    constructor
    · rintro ⟨⟨hb, _⟩, hk⟩
      exact ⟨hb, hk⟩
    · rintro ⟨hb, rfl⟩
      exact ⟨⟨hb, by simpa using h⟩, rfl⟩

lemma get?_filter (m : Keyed α key) (p : α → Bool) (k : κ) :
    (m.filter p).get? k = (m.get? k).filter p := by
  ext b
  simp only [get?_eq_some_iff, items_filter, List.mem_filter, Option.filter_eq_some_iff]
  tauto

/-- Two collections with the same look-ups have the same items. -/
lemma perm_of_get?_eq {m n : Keyed α key} (h : ∀ k, m.get? k = n.get? k) : m.items.Perm n.items := by
  refine (List.perm_ext_iff_of_nodup m.distinct.of_map n.distinct.of_map).mpr fun a => ?_
  have hm := @get?_eq_some_iff _ _ key _ m (key a) a
  have hn := @get?_eq_some_iff _ _ key _ n (key a) a
  rw [h] at hm
  simpa using hm.symm.trans hn

lemma cons_remove_perm {m : Keyed α key} {k : κ} {a : α} (h : m.get? k = some a) :
    (a :: (m.remove k).items).Perm m.items := by
  obtain ⟨_, rfl⟩ := get?_eq_some_iff.mp h
  refine perm_of_get?_eq (m := m.put a) fun j => ?_
  rw [get?_put]
  split
  · next hj => rw [hj, h]
  · rfl

omit [DecidableEq κ] in
lemma eq_of_sorted {le : κ → κ → Prop} (hanti : ∀ {j k}, le j k → le k j → j = k) {items items' : List α}
    (hdistinct : (items.map key).Nodup) (hsorted : items.Pairwise fun a b => le (key a) (key b))
    (hsorted' : items'.Pairwise fun a b => le (key a) (key b)) (hperm : items.Perm items') : items = items' :=
  hperm.eq_of_pairwise (fun _ _ ha hb hab hba =>
    List.inj_on_of_nodup_map hdistinct ha (hperm.mem_iff.mpr hb) (hanti hab hba)) hsorted hsorted'

end Keyed

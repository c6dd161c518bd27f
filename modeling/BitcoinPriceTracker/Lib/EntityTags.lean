import Mathlib.Tactic

namespace EntityTags

def comma : UInt8 := 44

def asterisk : UInt8 := 42

def quote : UInt8 := 34

/-- A space or a horizontal tab. -/
def IsBlank (byte : UInt8) : Prop := byte = 32 ∨ byte = 9

/-- Visible ASCII except the double quote. -/
def IsTagByte (byte : UInt8) : Prop := 33 ≤ byte ∧ byte < 127 ∧ byte ≠ quote

instance (byte : UInt8) : Decidable (IsTagByte byte) := inferInstanceAs (Decidable (_ ∧ _))

structure EntityTag where
  weak : Bool
  value : List UInt8
  admitted : ∀ byte ∈ value, IsTagByte byte

/-- `W/` where the tag is weak. -/
def EntityTag.mark (tag : EntityTag) : List UInt8 := if tag.weak then [87, 47] else []

def EntityTag.text (tag : EntityTag) : List UInt8 := tag.mark ++ quote :: (tag.value ++ [quote])

lemma IsTagByte.visible {byte : UInt8} (h : IsTagByte byte) : 33 ≤ byte ∧ byte < 127 := ⟨h.1, h.2.1⟩

lemma EntityTag.mark_eq (tag : EntityTag) : tag.mark = [87, 47] ∨ tag.mark = [] := by
  unfold mark
  cases tag.weak
  · exact .inr rfl
  · exact .inl rfl

lemma EntityTag.not_mem_mark (tag : EntityTag) : comma ∉ tag.mark ∧ quote ∉ tag.mark := by
  rcases tag.mark_eq with hmark | hmark <;> rw [hmark] <;> decide

lemma EntityTag.visible (tag : EntityTag) : ∀ byte ∈ tag.text, 33 ≤ byte ∧ byte < 127 := by
  intro byte hbyte
  have hquote : 33 ≤ quote ∧ quote < 127 := by decide
  rcases List.mem_append.mp hbyte with hmark | hquoted
  · rcases tag.mark_eq with heq | heq
    · rw [heq] at hmark
      simp only [List.mem_cons, List.not_mem_nil, or_false] at hmark
      rcases hmark with rfl | rfl <;> decide
    · simp [heq] at hmark
  · rcases List.mem_cons.mp hquoted with rfl | hrest
    · exact hquote
    · rcases List.mem_append.mp hrest with hvalue | hlast
      · exact (tag.admitted byte hvalue).visible
      · exact List.mem_singleton.mp hlast ▸ hquote

lemma not_isBlank_of_visible {byte : UInt8} (h : 33 ≤ byte ∧ byte < 127) : ¬IsBlank byte := by
  rintro (rfl | rfl)
  · exact absurd h (by decide)
  · exact absurd h (by decide)

/-- A place of a list. -/
structure Element where
  leading : List UInt8
  tag : Option EntityTag
  trailing : List UInt8
  leading_blank : ∀ byte ∈ leading, IsBlank byte
  trailing_blank : ∀ byte ∈ trailing, IsBlank byte

def Element.text (element : Element) : List UInt8 :=
  element.leading ++ (element.tag.elim [] EntityTag.text ++ element.trailing)

lemma Element.byte_cases (element : Element) {byte : UInt8} (h : byte ∈ element.text) :
    IsBlank byte ∨ 33 ≤ byte ∧ byte < 127 := by
  rcases List.mem_append.mp h with hleading | hrest
  · exact .inl (element.leading_blank byte hleading)
  rcases List.mem_append.mp hrest with htag | htrailing
  · cases hsome : element.tag with
    | none => simp [hsome] at htag
    | some tag =>
      rw [hsome] at htag
      exact .inr (tag.visible byte htag)
  · exact .inl (element.trailing_blank byte htrailing)

inductive Condition
  | any
  | tags (elements : List Element)

namespace Condition

def text : Condition → List UInt8
  | any => [asterisk]
  | tags elements => [comma].intercalate (elements.map Element.text)

/-- The condition names the current tag, by the weak comparison. -/
def Names (current : EntityTag) : Condition → Prop
  | any => True
  | tags elements => ∃ element ∈ elements, ∃ tag, element.tag = some tag ∧ tag.value = current.value

/-- A tag of the list has an asterisk alone between two commas. -/
def HasLoneAsterisk : Condition → Prop
  | any => False
  | tags elements => ∃ element ∈ elements, ∃ tag, element.tag = some tag ∧ [comma, asterisk, comma] <:+: tag.value

end Condition

lemma splitOn_intercalate {texts : List (List UInt8)} (hne : texts ≠ []) :
    ([comma].intercalate texts).splitOn comma = texts.flatMap fun text => text.splitOn comma := by
  induction texts with
  | nil => exact absurd rfl hne
  | cons text rest ih =>
    cases rest with
    | nil => simp
    | cons next rest =>
      rw [List.intercalate_cons_cons, List.append_assoc, List.singleton_append, List.splitOn_append_cons_self,
        ih (by simp)]
      rfl

lemma mem_intercalate {texts : List (List UInt8)} {text : List UInt8} (hmem : text ∈ texts) {byte : UInt8}
    (hbyte : byte ∈ text) : byte ∈ [comma].intercalate texts := by
  induction texts with
  | nil => simp at hmem
  | cons first rest ih =>
    cases rest with
    | nil => simp_all
    | cons next rest =>
      rw [List.intercalate_cons_cons, List.mem_append, List.mem_append]
      rcases List.mem_cons.mp hmem with rfl | hrest
      · exact .inl (.inl hbyte)
      · exact .inr (ih hrest)

lemma of_mem_intercalate {texts : List (List UInt8)} {byte : UInt8} (h : byte ∈ [comma].intercalate texts) :
    byte = comma ∨ ∃ text ∈ texts, byte ∈ text := by
  induction texts with
  | nil => simp at h
  | cons first rest ih =>
    cases rest with
    | nil => exact .inr ⟨first, List.mem_cons_self, by simpa using h⟩
    | cons next rest =>
      rw [List.intercalate_cons_cons, List.mem_append, List.mem_append, List.mem_singleton] at h
      rcases h with (hfirst | hcomma) | hrest
      · exact .inr ⟨first, List.mem_cons_self, hfirst⟩
      · exact .inl hcomma
      · exact (ih hrest).imp_right fun ⟨text, hmem, hbyte⟩ => ⟨text, List.mem_cons_of_mem _ hmem, hbyte⟩

lemma loneAsterisk_append {first rest : List UInt8} (hfirst : comma ∉ first) :
    [comma, asterisk, comma] <:+: first ++ comma :: rest ↔ [comma, asterisk, comma] <:+: comma :: rest := by
  induction first with
  | nil => rfl
  | cons byte first ih =>
    obtain ⟨hbyte, htail⟩ := List.ne_and_not_mem_of_not_mem_cons hfirst
    rw [List.cons_append, List.infix_cons_iff, ih htail]
    simp [hbyte]

lemma loneAsterisk_cons {first rest : List UInt8} (hfirst : comma ∉ first) :
    [comma, asterisk, comma] <:+: comma :: (first ++ comma :: rest) ↔
      first = [asterisk] ∨ [comma, asterisk, comma] <:+: comma :: rest := by
  rw [List.infix_cons_iff, loneAsterisk_append hfirst]
  refine or_congr_left ?_
  rw [List.cons_prefix_cons]
  constructor
  · rintro ⟨-, hhead⟩
    match first, hfirst, hhead with
    | [], _, hhead => simp [asterisk, comma] at hhead
    | [byte], _, hhead => simp_all
    | byte :: next :: first, hfirst, hhead => simp_all
  · rintro rfl
    simp

end EntityTags

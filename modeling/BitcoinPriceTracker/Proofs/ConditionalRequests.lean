import BitcoinPriceTracker.Lib.EntityTags
import BitcoinPriceTracker.Model.Assets

namespace BitcoinPriceTracker

open EntityTags

lemma trimAscii_pad {leading core trailing : List UInt8} (hleading : ∀ byte ∈ leading, IsBlank byte)
    (htrailing : ∀ byte ∈ trailing, IsBlank byte) (hcore : ∀ byte ∈ core, ¬IsBlank byte) :
    trimAscii (leading ++ (core ++ trailing)) = core := by
  have hblank : ∀ byte : UInt8, IsBlank byte ↔ (byte.toNat = 32 || byte.toNat = 9) = true := by
    intro byte
    simp [IsBlank, ← UInt8.toNat_inj]
  have hdrop : ∀ padding rest : List UInt8, (∀ byte ∈ padding, IsBlank byte) →
      (padding ++ rest).dropWhile (fun byte => byte.toNat = 32 || byte.toNat = 9) =
        rest.dropWhile fun byte => byte.toNat = 32 || byte.toNat = 9 :=
    fun padding rest h => List.dropWhile_append_of_pos fun byte hbyte => (hblank byte).mp (h byte hbyte)
  have hkeep : ∀ bytes rest : List UInt8, bytes ≠ [] → (∀ byte ∈ bytes, ¬IsBlank byte) →
      (bytes ++ rest).dropWhile (fun byte => byte.toNat = 32 || byte.toNat = 9) = bytes ++ rest := by
    intro bytes rest hne h
    obtain ⟨first, more, rfl⟩ := List.exists_cons_of_ne_nil hne
    exact List.dropWhile_cons_of_neg fun hfirst => h first (by simp) ((hblank first).mpr hfirst)
  unfold trimAscii
  dsimp only
  rw [hdrop leading _ hleading]
  by_cases hne : core = []
  · subst hne
    have hall := hdrop trailing [] htrailing
    rw [List.append_nil] at hall
    rw [List.nil_append, hall]
    rfl
  · have hreversed : ∀ byte ∈ core.reverse, ¬IsBlank byte := fun byte hbyte => hcore byte (List.mem_reverse.mp hbyte)
    have hnext := hkeep core.reverse [] (by simpa using hne) hreversed
    rw [List.append_nil] at hnext
    rw [hkeep core trailing hne hcore, List.reverse_append,
      hdrop _ _ fun byte hbyte => htrailing byte (List.mem_reverse.mp hbyte), hnext, List.reverse_reverse]

lemma count_dropWhile {p : UInt8 → Bool} {byte : UInt8} (h : p byte = false) (bytes : List UInt8) :
    (bytes.dropWhile p).count byte = bytes.count byte := by
  induction bytes with
  | nil => rfl
  | cons first rest ih =>
    cases hfirst : p first with
    | false => rw [List.dropWhile_cons_of_neg (by simp [hfirst])]
    | true =>
      have hne : first ≠ byte := fun heq => by simp [heq, h] at hfirst
      rw [List.dropWhile_cons_of_pos hfirst, ih, List.count_cons_of_ne hne]

lemma not_mem_blank {padding : List UInt8} (h : ∀ byte ∈ padding, IsBlank byte) :
    comma ∉ padding ∧ quote ∉ padding :=
  ⟨fun hmem => by simpa [IsBlank, comma] using h comma hmem, fun hmem => by simpa [IsBlank, quote] using h quote hmem⟩

lemma count_quote_stripped (part : List UInt8) :
    ((stripWeak (trimAscii part)).getD (trimAscii part)).count quote = part.count quote := by
  have htrim : (trimAscii part).count quote = part.count quote := by
    unfold trimAscii
    dsimp only
    rw [List.count_reverse, count_dropWhile (by decide), List.count_reverse, count_dropWhile (by decide)]
  rw [← htrim]
  generalize trimAscii part = tag
  unfold stripWeak
  split <;> simp [quote]

lemma any_part_of_plain_tag {current leading trailing : List UInt8} (hleading : ∀ byte ∈ leading, IsBlank byte)
    (htrailing : ∀ byte ∈ trailing, IsBlank byte) {tag : EntityTag} (hcomma : comma ∉ tag.value) :
    (∃ part ∈ (leading ++ (tag.text ++ trailing)).splitOn comma, tagMatches current part = true) ↔
      quote :: (tag.value ++ [quote]) = current := by
  have hnone : comma ∉ leading ++ (tag.text ++ trailing) := by
    have hne : comma ≠ quote := by decide
    simp only [EntityTag.text, List.mem_append, List.mem_cons, List.not_mem_nil, or_false, not_or]
    exact ⟨(not_mem_blank hleading).1, ⟨tag.not_mem_mark.1, hne, hcomma, hne⟩, (not_mem_blank htrailing).1⟩
  have htrim : trimAscii (leading ++ (tag.text ++ trailing)) = tag.text :=
    trimAscii_pad hleading htrailing fun byte hbyte => not_isBlank_of_visible (tag.visible byte hbyte)
  have hstrip : (stripWeak tag.text).getD tag.text = quote :: (tag.value ++ [quote]) := by
    rcases tag.mark_eq with hmark | hmark <;> rw [EntityTag.text, hmark] <;> rfl
  have hasterisk : tag.text ≠ [42] := by
    rcases tag.mark_eq with hmark | hmark <;> simp [EntityTag.text, hmark, quote]
  simp only [List.splitOn_eq_singleton hnone, List.mem_singleton, exists_eq_left, tagMatches, htrim, hstrip, hasterisk,
    decide_false, Bool.false_or, decide_eq_true_eq]

section Parts

variable {current : List UInt8} (hcurrent : current.count quote = 2)

include hcurrent

lemma tagMatches_one_quote {part : List UInt8} (h : part.count quote = 1) : tagMatches current part = false := by
  have hcount := count_quote_stripped part
  rw [h] at hcount
  unfold tagMatches
  simp only [Bool.or_eq_false_iff, decide_eq_false_iff_not]
  constructor
  · intro hasterisk
    rw [hasterisk] at hcount
    simp [stripWeak, quote] at hcount
  · rintro hsame
    rw [hsame] at hcount
    omega

lemma tagMatches_no_quote {part : List UInt8} (h : quote ∉ part) (hvisible : ∀ byte ∈ part, ¬IsBlank byte) :
    tagMatches current part = true ↔ part = [asterisk] := by
  have hcount := count_quote_stripped part
  rw [List.count_eq_zero_of_not_mem h] at hcount
  have hpad : trimAscii ([] ++ (part ++ [])) = part := trimAscii_pad (by simp) (by simp) hvisible
  have htrim : trimAscii part = part := by simpa using hpad
  rw [htrim] at hcount
  unfold tagMatches
  rw [htrim]
  simp only [Bool.or_eq_true, decide_eq_true_eq, asterisk]
  refine or_iff_left fun hsame => ?_
  rw [hsame] at hcount
  omega

lemma any_later_part {value : List UInt8} (hvalue : ∀ byte ∈ value, IsTagByte byte) {trailing : List UInt8}
    (htrailing : ∀ byte ∈ trailing, IsBlank byte) :
    (∃ part ∈ (value ++ quote :: trailing).splitOn comma, tagMatches current part = true) ↔
      [comma, asterisk, comma] <:+: comma :: value := by
  have hquoted : quote ∉ value := fun hmem => (hvalue quote hmem).2.2 rfl
  have hpadding := not_mem_blank htrailing
  by_cases hcomma : comma ∈ value
  · obtain ⟨first, rest, rfl, hfirst⟩ := List.eq_append_cons_of_mem hcomma
    have hlength : rest.length < (first ++ comma :: rest).length := by
      simp only [List.length_append, List.length_cons]
      omega
    have hrest : ∀ byte ∈ rest, IsTagByte byte := fun byte hbyte => hvalue byte (by simp [hbyte])
    have hvisible : ∀ byte ∈ first, ¬IsBlank byte :=
      fun byte hbyte => not_isBlank_of_visible (hvalue byte (by simp [hbyte])).visible
    have hmiddle : tagMatches current first = true ↔ first = [asterisk] :=
      tagMatches_no_quote hcurrent (fun hmem => hquoted (by simp [hmem])) hvisible
    have hlater := any_later_part hrest htrailing
    rw [List.append_assoc, List.cons_append, List.splitOn_append_cons_self_of_not_mem hfirst, loneAsterisk_cons hfirst,
      ← hlater, List.exists_mem_cons_iff, hmiddle]
  · have hnone : comma ∉ value ++ quote :: trailing := by
      rw [List.mem_append, List.mem_cons]
      rintro (hmem | heq | hmem)
      · exact hcomma hmem
      · exact absurd heq (by decide)
      · exact hpadding.1 hmem
    have hone : (value ++ quote :: trailing).count quote = 1 := by
      rw [List.count_append, List.count_cons_self, List.count_eq_zero_of_not_mem hquoted,
        List.count_eq_zero_of_not_mem hpadding.2]
    rw [List.splitOn_eq_singleton hnone]
    simp only [List.mem_singleton, exists_eq_left, tagMatches_one_quote hcurrent hone, Bool.false_eq_true, false_iff]
    intro hlone
    have hcount : 2 ≤ (comma :: value).count comma := hlone.sublist.count_le comma
    rw [List.count_cons_self, List.count_eq_zero_of_not_mem hcomma] at hcount
    omega
termination_by value.length

lemma any_part_of_tag_with_comma {leading trailing : List UInt8} (hleading : ∀ byte ∈ leading, IsBlank byte)
    (htrailing : ∀ byte ∈ trailing, IsBlank byte) {tag : EntityTag} (hcomma : comma ∈ tag.value) :
    (∃ part ∈ (leading ++ (tag.text ++ trailing)).splitOn comma, tagMatches current part = true) ↔
      [comma, asterisk, comma] <:+: tag.value := by
  obtain ⟨first, rest, hvalue, hfirst⟩ := List.eq_append_cons_of_mem hcomma
  have hbytes : ∀ byte ∈ first ++ comma :: rest, IsTagByte byte := hvalue ▸ tag.admitted
  have hquoted : quote ∉ first := fun hmem => (hbytes quote (by simp [hmem])).2.2 rfl
  have hsplit : leading ++ (tag.text ++ trailing) =
      (leading ++ (tag.mark ++ quote :: first)) ++ comma :: (rest ++ quote :: trailing) := by
    simp [EntityTag.text, hvalue]
  have hopening : comma ∉ leading ++ (tag.mark ++ quote :: first) := by
    have hne : comma ≠ quote := by decide
    simp only [List.mem_append, List.mem_cons, not_or]
    exact ⟨(not_mem_blank hleading).1, tag.not_mem_mark.1, hne, hfirst⟩
  have hone : (leading ++ (tag.mark ++ quote :: first)).count quote = 1 := by
    rw [List.count_append, List.count_append, List.count_cons_self, List.count_eq_zero_of_not_mem tag.not_mem_mark.2,
      List.count_eq_zero_of_not_mem (not_mem_blank hleading).2, List.count_eq_zero_of_not_mem hquoted]
  have hrest : ∀ byte ∈ rest, IsTagByte byte := fun byte hbyte => hbytes byte (by simp [hbyte])
  have hlater := any_later_part hcurrent hrest htrailing
  rw [hsplit, List.splitOn_append_cons_self_of_not_mem hopening, hvalue, loneAsterisk_append hfirst, ← hlater,
    List.exists_mem_cons_iff, tagMatches_one_quote hcurrent hone]
  simp

lemma any_part_of_blank {leading trailing : List UInt8} (hleading : ∀ byte ∈ leading, IsBlank byte)
    (htrailing : ∀ byte ∈ trailing, IsBlank byte) :
    ¬∃ part ∈ (leading ++ ([] ++ trailing)).splitOn comma, tagMatches current part = true := by
  have hnone : comma ∉ leading ++ ([] ++ trailing) := by
    simp [(not_mem_blank hleading).1, (not_mem_blank htrailing).1]
  have htrim : trimAscii (leading ++ ([] ++ trailing)) = [] := trimAscii_pad hleading htrailing (by simp)
  have hempty : current ≠ [] := fun hnil => by simp [hnil] at hcurrent
  simp only [List.splitOn_eq_singleton hnone, List.mem_singleton, exists_eq_left, tagMatches, htrim]
  simp [stripWeak, hempty.symm]

/-- A place of a list matches by its tag or by a lone asterisk in it. -/
lemma any_part_of_element (hplain : comma ∉ current) (element : Element) :
    (∃ part ∈ element.text.splitOn comma, tagMatches current part = true) ↔
      ∃ tag, element.tag = some tag ∧
        (quote :: (tag.value ++ [quote]) = current ∨ [comma, asterisk, comma] <:+: tag.value) := by
  obtain ⟨leading, tag, trailing, hleading, htrailing⟩ := element
  cases tag with
  | none => simpa [Element.text] using any_part_of_blank hcurrent hleading htrailing
  | some tag =>
    simp only [Element.text, Option.elim_some, Option.some.injEq, exists_eq_left']
    by_cases hcomma : comma ∈ tag.value
    · have hother : quote :: (tag.value ++ [quote]) ≠ current := by
        rintro rfl
        exact hplain (by simp [hcomma])
      rw [any_part_of_tag_with_comma hcurrent hleading htrailing hcomma, or_iff_right hother]
    · have hlone : ¬[comma, asterisk, comma] <:+: tag.value := fun h => hcomma (h.subset (by simp))
      rw [any_part_of_plain_tag hleading htrailing hcomma, or_iff_left hlone]

end Parts

lemma hexDigit_admitted : ∀ value < 16, IsTagByte (hexDigit value) ∧ hexDigit value ≠ comma := by decide

lemma hex16_admitted (hash : UInt64) : ∀ byte ∈ hex16 hash, IsTagByte byte ∧ byte ≠ comma := by
  intro byte hbyte
  obtain ⟨place, -, rfl⟩ := List.mem_map.mp hbyte
  exact hexDigit_admitted _ (Nat.mod_lt _ (by norm_num))

/-- The entity-tag of an asset. -/
def currentTag (hash : UInt64) : EntityTag := ⟨true, hex16 hash, fun byte hbyte => (hex16_admitted hash byte hbyte).1⟩

/-- What the parts of a header are compared with. -/
def comparedTag (hash : UInt64) : List UInt8 := quote :: (hex16 hash ++ [quote])

lemma trimStartWeak_etagOf (hash : UInt64) : trimStartWeak (etagOf hash) = comparedTag hash := rfl

lemma comparedTag_quotes (hash : UInt64) : (comparedTag hash).count quote = 2 := by
  have hquoted : quote ∉ hex16 hash := fun hmem => (hex16_admitted hash quote hmem).1.2.2 rfl
  rw [comparedTag, List.count_cons_self, List.count_append, List.count_eq_zero_of_not_mem hquoted]
  rfl

lemma comparedTag_plain (hash : UInt64) : comma ∉ comparedTag hash := by
  have hcomma : comma ∉ hex16 hash := fun hmem => (hex16_admitted hash comma hmem).2 rfl
  have hne : comma ≠ quote := by decide
  simp only [comparedTag, List.mem_cons, List.mem_append, List.not_mem_nil, or_false, not_or]
  exact ⟨hne, hcomma, hne⟩

lemma condition_visible (condition : Condition) : ∀ byte ∈ condition.text, isVisibleAscii byte = true := by
  have hvisible : ∀ byte : UInt8, 33 ≤ byte ∧ byte < 127 → isVisibleAscii byte = true := by
    rintro byte ⟨hlow, hhigh⟩
    rw [UInt8.le_iff_toNat_le] at hlow
    rw [UInt8.lt_iff_toNat_lt] at hhigh
    simp [isVisibleAscii] at hlow hhigh ⊢
    omega
  have hblank : ∀ byte : UInt8, IsBlank byte → isVisibleAscii byte = true := by
    rintro byte (rfl | rfl) <;> decide
  cases condition with
  | any => decide +kernel
  | tags elements =>
    intro byte hbyte
    rcases of_mem_intercalate hbyte with rfl | ⟨text, hmem, hin⟩
    · decide
    · obtain ⟨element, -, rfl⟩ := List.mem_map.mp hmem
      exact (element.byte_cases hin).elim (hblank byte) (hvisible byte)

lemma any_valueMatches {current : List UInt8} (hcurrent : current ≠ []) {values : List (List UInt8)}
    (hvisible : ∀ byte ∈ [comma].intercalate values, isVisibleAscii byte = true) :
    values.any (valueMatches current) = true ↔
      ∃ part ∈ ([comma].intercalate values).splitOn comma, tagMatches current part = true := by
  by_cases hne : values = []
  · subst hne
    have hnone : tagMatches current [] = false := by
      simp [tagMatches, trimAscii, stripWeak, hcurrent.symm]
    simp [hnone]
  · have hvalue : ∀ value ∈ values, value.all isVisibleAscii = true := fun value hmem =>
      List.all_eq_true.mpr fun byte hbyte => hvisible byte (mem_intercalate hmem hbyte)
    rw [splitOn_intercalate hne, List.any_eq_true]
    simp only [valueMatches, Bool.and_eq_true, List.any_eq_true, List.mem_flatMap]
    constructor
    · rintro ⟨value, hmem, -, part, hpart, hmatches⟩
      exact ⟨part, ⟨value, hmem, hpart⟩, hmatches⟩
    · rintro ⟨part, ⟨value, hmem, hpart⟩, hmatches⟩
      exact ⟨value, hmem, hvalue value hmem, part, hpart, hmatches⟩

lemma any_part_of_condition (hash : UInt64) (condition : Condition) :
    (∃ part ∈ condition.text.splitOn comma, tagMatches (comparedTag hash) part = true) ↔
      condition.Names (currentTag hash) ∨ condition.HasLoneAsterisk := by
  have hsame : ∀ value : List UInt8, quote :: (value ++ [quote]) = comparedTag hash ↔ value = hex16 hash := by
    intro value
    rw [comparedTag, List.cons_inj_right, List.append_left_inj]
  cases condition with
  | any =>
    have hasterisk : tagMatches (comparedTag hash) [asterisk] = true := by
      simp [tagMatches, trimAscii, asterisk]
    simp only [Condition.Names, Condition.text, true_or, iff_true]
    exact ⟨[asterisk], by decide, hasterisk⟩
  | tags elements =>
    by_cases hne : elements = []
    · have hnone : tagMatches (comparedTag hash) [] = false := rfl
      subst hne
      simp [Condition.text, Condition.Names, Condition.HasLoneAsterisk, hnone]
    have hpart := any_part_of_element (comparedTag_quotes hash) (comparedTag_plain hash)
    simp only [Condition.text, splitOn_intercalate (List.map_eq_nil_iff.not.mpr hne), List.mem_flatMap, List.mem_map]
    constructor
    · rintro ⟨part, ⟨text, ⟨element, hmem, rfl⟩, hin⟩, hmatches⟩
      obtain ⟨tag, htag, hsame' | hlone⟩ := (hpart element).mp ⟨part, hin, hmatches⟩
      · exact .inl ⟨element, hmem, tag, htag, (hsame tag.value).mp hsame'⟩
      · exact .inr ⟨element, hmem, tag, htag, hlone⟩
    · have hfound : ∀ element ∈ elements, ∀ tag, element.tag = some tag →
          (quote :: (tag.value ++ [quote]) = comparedTag hash ∨ [comma, asterisk, comma] <:+: tag.value) →
          ∃ part, (∃ text, (∃ element, element ∈ elements ∧ element.text = text) ∧ part ∈ text.splitOn comma) ∧
            tagMatches (comparedTag hash) part = true := by
        intro element hmem tag htag hcase
        obtain ⟨part, hin, hmatches⟩ := (hpart element).mpr ⟨tag, htag, hcase⟩
        exact ⟨part, ⟨element.text, ⟨element, hmem, rfl⟩, hin⟩, hmatches⟩
      rintro (⟨element, hmem, tag, htag, hvalue⟩ | ⟨element, hmem, tag, htag, hlone⟩)
      · exact hfound element hmem tag htag (.inl ((hsame tag.value).mpr hvalue))
      · exact hfound element hmem tag htag (.inr hlone)

/-- The answer is an empty 304 where the header names the current tag, and the whole asset otherwise. -/
def Revalidates (response : AssetResponse) (named : Prop) (body contentType : String) : Prop :=
  (response.status = 304 ↔ named) ∧ (named → response.body = "") ∧
    (¬named → response = ⟨200, some contentType, body, response.etag⟩)

/-- For a header that is an asterisk or a list of entity-tags, in any number of lines, the answer follows the header
exactly when the header names the current tag or no tag in it has an asterisk alone between two commas. -/
theorem conditional_request_iff (hash : String → UInt64) (body contentType : String) (condition : Condition)
    {ifNoneMatch : List (List UInt8)} (h : [comma].intercalate ifNoneMatch = condition.text) :
    Revalidates (embeddedAsset hash ifNoneMatch body contentType) (condition.Names (currentTag (hash body))) body
        contentType ↔
      condition.Names (currentTag (hash body)) ∨ ¬condition.HasLoneAsterisk := by
  have hmatches : ifNoneMatch.any (valueMatches (trimStartWeak (etagOf (hash body)))) = true ↔
      condition.Names (currentTag (hash body)) ∨ condition.HasLoneAsterisk := by
    have hne : comparedTag (hash body) ≠ [] := List.cons_ne_nil _ _
    rw [trimStartWeak_etagOf, any_valueMatches hne (h ▸ condition_visible condition), h, any_part_of_condition]
  by_cases hmatch : condition.Names (currentTag (hash body)) ∨ condition.HasLoneAsterisk
  · have hanswer : embeddedAsset hash ifNoneMatch body contentType = ⟨304, none, "", etagOf (hash body)⟩ :=
      if_pos (hmatches.mpr hmatch)
    rw [hanswer]
    simp only [Revalidates, true_iff, implies_true, true_and]
    constructor
    · rintro ⟨hnamed, -⟩
      exact .inl hnamed
    · rintro (hnamed | hnone)
      · exact ⟨hnamed, fun hother => absurd hnamed hother⟩
      · have hnamed := hmatch.resolve_right hnone
        exact ⟨hnamed, fun hother => absurd hnamed hother⟩
  · have hanswer : embeddedAsset hash ifNoneMatch body contentType =
        ⟨200, some contentType, body, etagOf (hash body)⟩ :=
      if_neg fun hany => hmatch (hmatches.mp hany)
    rw [not_or] at hmatch
    rw [hanswer]
    refine ⟨fun _ => .inr hmatch.2, fun _ => ⟨⟨by simp, fun hnamed => absurd hnamed hmatch.1⟩,
      fun hnamed => absurd hnamed hmatch.1, fun _ => rfl⟩⟩

/-- A list of two tags in two lines, the second of which is the current one. -/
theorem conditional_request_iff_second_line :
    Revalidates (embeddedAsset (fun _ => 7) [[34, 97, 44, 98, 34], [32] ++ etagOf 7] "text" "text/css") True "text"
      "text/css" := by
  let first : EntityTag := ⟨false, [97, 44, 98], by decide +kernel⟩
  let condition : Condition :=
    .tags [⟨[], some first, [], by simp, by simp⟩, ⟨[32], some (currentTag 7), [], by simp [IsBlank], by simp⟩]
  have hjoined : [comma].intercalate [[34, 97, 44, 98, 34], [32] ++ etagOf 7] = condition.text := by decide +kernel
  have hnamed : condition.Names (currentTag 7) :=
    ⟨_, List.mem_cons_of_mem _ List.mem_cons_self, currentTag 7, rfl, rfl⟩
  have hlaw := (conditional_request_iff (fun _ => 7) "text" "text/css" condition hjoined).mpr (.inl hnamed)
  rwa [eq_true hnamed] at hlaw

/-- `"a,*,b"` is one tag. It is not the current one, and the answer is an empty 304. -/
theorem conditional_request_fails : ¬∀ (hash : String → UInt64) (body contentType : String) (condition : Condition)
    (ifNoneMatch : List (List UInt8)), [comma].intercalate ifNoneMatch = condition.text →
      Revalidates (embeddedAsset hash ifNoneMatch body contentType) (condition.Names (currentTag (hash body))) body
        contentType := by
  intro h
  let tag : EntityTag := ⟨false, [97, 44, 42, 44, 98], by decide +kernel⟩
  let condition : Condition := .tags [⟨[], some tag, [], by simp, by simp⟩]
  have hrevalidates := h (fun _ => 7) "text" "text/css" condition [[34, 97, 44, 42, 44, 98, 34]]
    (by decide +kernel)
  obtain ⟨element, hmem, named, htag, hvalue⟩ := hrevalidates.1.mp (by decide +kernel)
  obtain rfl := List.mem_singleton.mp hmem
  obtain rfl : tag = named := Option.some.inj htag
  exact absurd hvalue (by decide)

end BitcoinPriceTracker

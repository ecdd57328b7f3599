import FluentShapes.Locale
import FluentShapes.Proofs.Readability
import Mathlib

/-!
# Tags that are read back

Reading a tag leaves a locale in normal form (`Normal`): every part in the case that its kind is
written in, and the variants in increasing order, each once.  Printing such a locale and reading the
tag finds the same parts again, and each of them is taken for what it was, with one exception.  Four
letters right behind the language are a script, so a variant of four letters can only be told from
one by what stands in front of it.  Sorting can bring it to the front of the variants, and if there is
no region either, it is read as a script (`Normal.parse?_tag_iff`).
-/

namespace FluentShapes

universe u

/-- The pieces of a split are made of what was split, and none of them has a separator. -/
theorem mem_of_mem_splitOnP {α : Type u} {f : α → Bool} {s p : List α} (h : p ∈ s.splitOnP f)
    {x : α} (hx : x ∈ p) : x ∈ s ∧ f x = false := by
  induction s generalizing p with
  | nil =>
      obtain rfl : p = [] := by simpa using h
      cases hx
  | cons y s ih =>
      have hlater : ∀ {q}, q ∈ s.splitOnP f → x ∈ q → x ∈ y :: s ∧ f x = false := by
        intro q hq hxq
        obtain ⟨hmem, hsep⟩ := ih hq hxq
        exact ⟨List.mem_cons_of_mem y hmem, hsep⟩
      rw [List.splitOnP_cons_eq_if_modifyHead] at h
      split_ifs at h with hy
      · rcases List.mem_cons.mp h with rfl | h
        · cases hx
        · exact hlater h hx
      · -- The character joins the first of the later pieces.
        obtain ⟨q, qs, hqs⟩ := List.exists_cons_of_ne_nil (List.splitOnP_ne_nil f s)
        rw [hqs] at h hlater
        rw [List.modifyHead_cons] at h
        rcases List.mem_cons.mp h with rfl | h
        · rcases List.mem_cons.mp hx with rfl | hx
          · exact ⟨List.mem_cons_self, Bool.eq_false_iff.mpr hy⟩
          · exact hlater List.mem_cons_self hx
        · exact hlater (List.mem_cons_of_mem q h) hx

namespace Locale

/-! ## Letters -/

/-- Only letters are changed, and they stay letters. -/
structure ChangesCase (f : Char → Char) : Prop where
  isAlpha_eq : ∀ c, (f c).isAlpha = c.isAlpha
  eq_self : ∀ c, c.isAlpha = false → f c = c

theorem changesCase_toLower : ChangesCase Char.toLower := by
  refine ⟨Char.isAlpha_toLower_eq_isAlpha, fun c hc ↦ ?_⟩
  apply Char.toLower_eq_of_not_isUpper
  intro hupper
  simp [Char.isAlpha, hupper] at hc

theorem changesCase_toUpper : ChangesCase Char.toUpper := by
  refine ⟨Char.isAlpha_toUpper_eq_isAlpha, fun c hc ↦ ?_⟩
  apply Char.toUpper_eq_of_not_isLower
  intro hlower
  simp [Char.isAlpha, hlower] at hc

section Letters

variable {c : Char}

theorem isDigit_of_isAlpha (h : c.isAlpha = true) : c.isDigit = false := by
  simp only [Char.isAlpha, Char.isUpper, Char.isLower, Char.isDigit] at h ⊢
  grind

theorem ChangesCase.isDigit_eq {f : Char → Char} (hf : ChangesCase f) (c : Char) :
    (f c).isDigit = c.isDigit := by
  cases hc : c.isAlpha with
  | false => rw [hf.eq_self c hc]
  | true =>
      rw [isDigit_of_isAlpha hc]
      apply isDigit_of_isAlpha
      rw [hf.isAlpha_eq, hc]

/-- What is not a letter does not come from another character. -/
theorem ChangesCase.eq_iff {f : Char → Char} (hf : ChangesCase f) {x : Char}
    (hx : x.isAlpha = false) : f c = x ↔ c = x := by
  cases hc : c.isAlpha with
  | false => rw [hf.eq_self c hc]
  | true =>
      refine iff_of_false ?_ ?_
      · rintro rfl
        rw [hf.isAlpha_eq, hc] at hx
        cases hx
      · rintro rfl
        rw [hc] at hx
        cases hx

theorem toLower_ascii (h : 0 < c.toNat ∧ c.toNat < 128) :
    0 < c.toLower.toNat ∧ c.toLower.toNat < 128 := by
  cases hc : c.isAlpha with
  | false => rwa [changesCase_toLower.eq_self c hc]
  | true =>
      have hlower : c.toLower.isLower = true := by rw [Char.isLower_toLower_eq_isAlpha, hc]
      simp only [Char.isLower, ge_iff_le, Bool.and_eq_true, decide_eq_true_eq,
        UInt32.le_iff_toNat_le] at hlower
      exact ⟨Nat.lt_of_lt_of_le (by decide) hlower.1, Nat.lt_of_le_of_lt hlower.2 (by decide)⟩

theorem isSeparator_of_isAlphanum (h : c.isAlphanum = true) : isSeparator c = false := by
  rw [Bool.eq_false_iff]
  intro hc
  simp only [isSeparator, Bool.or_eq_true, decide_eq_true_eq] at hc
  rcases hc with rfl | rfl <;> cases h

end Letters

/-! ## Kinds of parts

Each kind of part is recognised again in the form that it is written in. -/

section Kinds

variable {p : Part} {s : String}

theorem toList_lower (p : Part) : (lower p).toList = p.map Char.toLower := String.toList_ofList

theorem lower_toList_lower (p : Part) : lower (lower p).toList = lower p := by
  simp [lower, Function.comp_def]

theorem language?_eq_some_iff :
    language? p = some s ↔
      (2 ≤ p.length ∧ p.length ≤ 8 ∧ p.length ≠ 4 ∧ ∀ c ∈ p, c.isAlpha = true) ∧ lower p = s := by
  simp [language?, and_assoc]

theorem language?_toList (h : language? p = some s) :
    language? s.toList = some s ∧ ∀ c ∈ s.toList, c.isAlphanum = true := by
  obtain ⟨hp, rfl⟩ := language?_eq_some_iff.mp h
  rw [language?_eq_some_iff, lower_toList_lower, toList_lower]
  simp_all [Char.isAlphanum]

theorem script?_isSome_iff (p : Part) :
    (script? p).isSome = true ↔ p.length = 4 ∧ ∀ c ∈ p, c.isAlpha = true := by
  rcases p with _ | ⟨a, _ | ⟨b, _ | ⟨c, _ | ⟨d, _ | ⟨e, r⟩⟩⟩⟩⟩
  all_goals simp [script?]

theorem script?_toList (h : script? p = some s) :
    script? s.toList = some s ∧ ∀ c ∈ s.toList, c.isAlphanum = true := by
  obtain ⟨hlength, halpha⟩ := (script?_isSome_iff p).mp (Option.isSome_of_eq_some h)
  obtain ⟨a, b, c, d, rfl⟩ := List.length_eq_four.mp hlength
  obtain rfl : String.ofList (a.toUpper :: [b, c, d].map Char.toLower) = s := by
    simpa [script?, halpha] using h
  simp_all [script?, Char.isAlphanum]

theorem region?_eq_some_iff :
    region? p = some s ↔
      (p.length = 2 ∧ (∀ c ∈ p, c.isAlpha = true) ∨ p.length = 3 ∧ ∀ c ∈ p, c.isDigit = true) ∧
        upper p = s := by
  simp [region?]

theorem region?_toList (h : region? p = some s) :
    region? s.toList = some s ∧ ∀ c ∈ s.toList, c.isAlphanum = true := by
  obtain ⟨hp, rfl⟩ := region?_eq_some_iff.mp h
  have htwice : upper (upper p).toList = upper p := by simp [upper, Function.comp_def]
  have htoList : (upper p).toList = p.map Char.toUpper := String.toList_ofList
  rw [region?_eq_some_iff, htwice, htoList]
  rcases hp with ⟨hlength, halpha⟩ | ⟨hlength, hdigit⟩
  · simp_all [Char.isAlphanum]
  · simp_all [Char.isAlphanum, changesCase_toUpper.isDigit_eq]

theorem isVariant_toList_lower (h : isVariant p = true) : isVariant (lower p).toList = true := by
  rw [toList_lower]
  rcases p with _ | ⟨a, _ | ⟨b, _ | ⟨c, _ | ⟨d, _ | ⟨e, r⟩⟩⟩⟩⟩
  all_goals simp_all [isVariant, Char.isAlphanum, changesCase_toLower.isDigit_eq, toLower_ascii]

theorem four_le_length_of_isVariant (h : isVariant p = true) : 4 ≤ p.length := by
  rcases p with _ | ⟨a, _ | ⟨b, _ | ⟨c, _ | ⟨d, _ | ⟨e, r⟩⟩⟩⟩⟩
  all_goals simp_all [isVariant]

/-- What is not a letter has no other case. -/
theorem mem_toList_lower_iff {x : Char} (hx : x.isAlpha = false) (p : Part) :
    x ∈ (lower p).toList ↔ x ∈ p := by
  simp [toList_lower, changesCase_toLower.eq_iff hx]

end Kinds

/-! ## Variants in order -/

section Order

variable {v w : String} {l : List String}

theorem mem_insertVariant : w ∈ insertVariant v l ↔ w = v ∨ w ∈ l := by
  induction l with
  | nil => simp [insertVariant]
  | cons u l ih =>
      rw [insertVariant]
      split_ifs with heq hlt
      · subst heq
        simp
      · exact List.mem_cons
      · rw [List.mem_cons, ih, List.mem_cons, or_left_comm]

theorem pairwise_insertVariant (h : l.Pairwise (· < ·)) (v : String) :
    (insertVariant v l).Pairwise (· < ·) := by
  induction l with
  | nil => exact List.pairwise_singleton _ v
  | cons u l ih =>
      obtain ⟨hu, hl⟩ := List.pairwise_cons.mp h
      rw [insertVariant]
      split_ifs with heq hlt
      · exact h
      · refine List.pairwise_cons.mpr ⟨fun w hw ↦ ?_, h⟩
        rcases List.mem_cons.mp hw with rfl | hw
        · exact hlt
        · exact String.lt_trans hlt (hu w hw)
      · refine List.pairwise_cons.mpr ⟨fun w hw ↦ ?_, ih hl⟩
        rcases mem_insertVariant.mp hw with rfl | hw
        · by_contra hle
          exact heq (String.lt_antisymm hlt hle)
        · exact hu w hw

theorem insertVariant_of_lt (h : ∀ w ∈ l, v < w) : insertVariant v l = v :: l := by
  cases l with
  | nil => rfl
  | cons u l =>
      have hu := h u List.mem_cons_self
      rw [insertVariant, if_neg (ne_of_lt hu), if_pos hu]

theorem mem_foldr_insertVariant : w ∈ l.foldr insertVariant [] ↔ w ∈ l := by
  induction l with
  | nil => rfl
  | cons u l ih => rw [List.foldr_cons, mem_insertVariant, ih, List.mem_cons]

theorem pairwise_foldr_insertVariant (l : List String) :
    (l.foldr insertVariant []).Pairwise (· < ·) := by
  induction l with
  | nil => exact .nil
  | cons u l ih => exact pairwise_insertVariant ih u

theorem foldr_insertVariant_of_pairwise (h : l.Pairwise (· < ·)) :
    l.foldr insertVariant [] = l := by
  induction l with
  | nil => rfl
  | cons u l ih =>
      obtain ⟨hu, hl⟩ := List.pairwise_cons.mp h
      rw [List.foldr_cons, ih hl, insertVariant_of_lt hu]

end Order

theorem variants?_eq_some_iff {parts : List Part} {vs : List String} :
    variants? parts = some vs ↔
      (∀ p ∈ parts, isVariant p = true) ∧ (parts.map lower).foldr insertVariant [] = vs := by
  simp [variants?]

theorem mem_of_variants? {parts : List Part} {vs : List String} (h : variants? parts = some vs)
    {v : String} (hv : v ∈ vs) : ∃ p ∈ parts, isVariant p = true ∧ lower p = v := by
  obtain ⟨hparts, rfl⟩ := variants?_eq_some_iff.mp h
  obtain ⟨p, hp, rfl⟩ := List.mem_map.mp (mem_foldr_insertVariant.mp hv)
  exact ⟨p, hp, hparts p hp, rfl⟩

/-- Variants that are in order already stay as they are. -/
theorem variants?_map_toList {parts : List Part} {vs : List String}
    (h : variants? parts = some vs) : variants? (vs.map String.toList) = some vs := by
  have hlower : (vs.map String.toList).map lower = vs := by
    rw [List.map_map]
    refine (List.map_congr_left fun v hv ↦ ?_).trans (List.map_id vs)
    obtain ⟨p, -, -, rfl⟩ := mem_of_variants? h hv
    exact lower_toList_lower p
  obtain ⟨hparts, hvs⟩ := variants?_eq_some_iff.mp h
  rw [variants?_eq_some_iff, hlower]
  constructor
  · simp only [List.mem_map]
    rintro _ ⟨v, hv, rfl⟩
    obtain ⟨p, -, hp, rfl⟩ := mem_of_variants? h hv
    exact isVariant_toList_lower hp
  · apply foldr_insertVariant_of_pairwise
    rw [← hvs]
    exact pairwise_foldr_insertVariant _

/-! ## Parts of a tag -/

theorem splitOnP_intercalate (part : String) (parts : List String)
    (h : ∀ p ∈ part :: parts, ∀ c ∈ p.toList, isSeparator c = false) :
    ("-".intercalate (part :: parts)).toList.splitOnP isSeparator =
      (part :: parts).map String.toList := by
  induction parts generalizing part with
  | nil =>
      rw [String.intercalate_singleton]
      exact List.splitOnP_eq_singleton (h part List.mem_cons_self)
  | cons part' parts ih =>
      rw [String.intercalate_cons_cons, String.append_assoc, String.toList_append,
        String.toList_append]
      calc
        _ = part.toList :: ("-".intercalate (part' :: parts)).toList.splitOnP isSeparator :=
          List.splitOnP_append_cons_of_forall_mem (h part List.mem_cons_self) '-' rfl _
        _ = _ := by
          rw [ih part' fun p hp ↦ h p (List.mem_cons_of_mem part hp)]
          rfl

theorem optional_mem {kind? : Part → Option String} {parts rest : List Part} {o : Option String}
    (h : optional kind? parts = (o, rest)) :
    (∀ s ∈ o, ∃ p ∈ parts, kind? p = some s) ∧ ∀ p ∈ rest, p ∈ parts := by
  cases parts with
  | nil =>
      cases h
      simp
  | cons p parts =>
      rw [optional] at h
      split at h
      · rename_i s hs
        cases h
        simpa using ⟨.inl hs, fun q hq ↦ .inr hq⟩
      · cases h
        simp

/-- A part that is there is taken off, and one that is not is not found in what comes next. -/
theorem optional_toList_append {kind? : Part → Option String} {o : Option String}
    {rest : List String} (hsome : ∀ s ∈ o, kind? s.toList = some s)
    (hnone : o = none → ∀ s ∈ rest.head?, kind? s.toList = none) :
    optional kind? ((o.toList ++ rest).map String.toList) = (o, rest.map String.toList) := by
  cases o with
  | some s => simp [optional, hsome s rfl]
  | none =>
      cases rest with
      | nil => rfl
      | cons s rest => simp [optional, hnone rfl s rfl]

theorem parse?_eq_some_iff {tag : String} {l : Locale} :
    parse? tag = some l ↔
      ∃ first parts rest rest', tag.toList.splitOnP isSeparator = first :: parts ∧
        language? first = some l.language ∧
        optional script? parts = (l.script, rest) ∧
        optional region? rest = (l.region, rest') ∧
        variants? rest' = some l.variants := by
  obtain ⟨language, script, region, variants⟩ := l
  unfold parse?
  cases tag.toList.splitOnP isSeparator with
  | nil => simp
  | cons first parts =>
      cases hscript : optional script? parts with
      | mk script' rest =>
          cases hregion : optional region? rest with
          | mk region' rest' =>
              simpa [Option.bind_eq_some_iff, hscript, hregion] using fun _ ↦ and_rotate

/-! ## Printing and reading -/

/-- Every part is in the form in which it is written. -/
structure Normal (l : Locale) : Prop where
  language_eq : language? l.language.toList = some l.language
  script_eq : ∀ s ∈ l.script, script? s.toList = some s
  region_eq : ∀ s ∈ l.region, region? s.toList = some s
  variants_eq : variants? (l.variants.map String.toList) = some l.variants
  variants_plain : ∀ v ∈ l.variants, ∀ c ∈ v.toList, isSeparator c = false

/-- Nothing stands between the language and a variant of four letters. -/
def VariantLikeScript (l : Locale) : Prop :=
  l.script = none ∧ l.region = none ∧
    ∃ v ∈ l.variants.head?, v.toList.length = 4 ∧ ∀ c ∈ v.toList, c.isAlpha = true

variable {tag : String} {l : Locale}

theorem ne_empty_of_parse? (h : parse? tag = some l) : tag ≠ "" := by
  rintro rfl
  cases h

/-- What a variant has besides letters stands in the tag, between two separators. -/
theorem mem_of_mem_variant (h : parse? tag = some l) {v : String} (hv : v ∈ l.variants) {x : Char}
    (hx : x.isAlpha = false) (hmem : x ∈ v.toList) : x ∈ tag.toList ∧ isSeparator x = false := by
  obtain ⟨first, parts, rest, rest', hsplit, -, hscript, hregion, hvariants⟩ :=
    parse?_eq_some_iff.mp h
  obtain ⟨p, hp, -, rfl⟩ := mem_of_variants? hvariants hv
  have hpart : p ∈ tag.toList.splitOnP isSeparator := by
    rw [hsplit]
    exact List.mem_cons_of_mem first ((optional_mem hscript).2 p ((optional_mem hregion).2 p hp))
  exact mem_of_mem_splitOnP hpart ((mem_toList_lower_iff hx p).mp hmem)

theorem normal_of_parse? (h : parse? tag = some l) : l.Normal := by
  obtain ⟨first, parts, rest, rest', hsplit, hlanguage, hscript, hregion, hvariants⟩ :=
    parse?_eq_some_iff.mp h
  refine ⟨(language?_toList hlanguage).1, fun s hs ↦ ?_, fun s hs ↦ ?_,
    variants?_map_toList hvariants, fun v hv c hc ↦ ?_⟩
  · obtain ⟨p, -, hp⟩ := (optional_mem hscript).1 s hs
    exact (script?_toList hp).1
  · obtain ⟨p, -, hp⟩ := (optional_mem hregion).1 s hs
    exact (region?_toList hp).1
  · cases hletter : c.isAlpha with
    | false => exact (mem_of_mem_variant h hv hletter hc).2
    | true => exact isSeparator_of_isAlphanum (by simp [Char.isAlphanum, hletter])

namespace Normal

variable (h : l.Normal)

include h

theorem isAlphanum_language : ∀ c ∈ l.language.toList, c.isAlphanum = true :=
  (language?_toList h.language_eq).2

theorem isAlphanum_script : ∀ s ∈ l.script, ∀ c ∈ s.toList, c.isAlphanum = true :=
  fun s hs ↦ (script?_toList (h.script_eq s hs)).2

theorem isAlphanum_region : ∀ s ∈ l.region, ∀ c ∈ s.toList, c.isAlphanum = true :=
  fun s hs ↦ (region?_toList (h.region_eq s hs)).2

theorem four_le_length {v : String} (hv : v ∈ l.variants) : 4 ≤ v.toList.length :=
  four_le_length_of_isVariant
    ((variants?_eq_some_iff.mp h.variants_eq).1 _ (List.mem_map_of_mem hv))

theorem splitOnP_tag :
    l.tag.toList.splitOnP isSeparator =
      l.language.toList ::
        (l.script.toList ++ (l.region.toList ++ l.variants)).map String.toList := by
  rw [tag, List.append_assoc, splitOnP_intercalate, List.map_cons]
  simp only [List.forall_mem_cons, List.forall_mem_append, Option.mem_toList]
  exact ⟨fun c hc ↦ isSeparator_of_isAlphanum (h.isAlphanum_language c hc),
    fun s hs c hc ↦ isSeparator_of_isAlphanum (h.isAlphanum_script s hs c hc),
    fun s hs c hc ↦ isSeparator_of_isAlphanum (h.isAlphanum_region s hs c hc), h.variants_plain⟩

/-- The tag of a locale has no character of another kind than its variants have. -/
theorem notMem_tag {x : Char} (hx : x.isAlphanum = false) (hne : x ≠ '-')
    (hvariants : ∀ v ∈ l.variants, x ∉ v.toList) : x ∉ l.tag.toList := by
  have hword : ∀ {s : String}, (∀ c ∈ s.toList, c.isAlphanum = true) → x ∉ s.toList := by
    intro s hs hmem
    rw [hs x hmem] at hx
    cases hx
  apply notMem_intercalate
  · simpa using hne
  · simp only [List.forall_mem_cons, List.forall_mem_append, Option.mem_toList]
    exact ⟨hword h.isAlphanum_language, ⟨fun s hs ↦ hword (h.isAlphanum_script s hs),
      fun s hs ↦ hword (h.isAlphanum_region s hs)⟩, hvariants⟩

/-- A region is too short for a script. -/
theorem script?_region {s : String} (hs : s ∈ l.region) : script? s.toList = none := by
  rw [← Option.not_isSome_iff_eq_none, script?_isSome_iff]
  rintro ⟨hlength, -⟩
  rcases (region?_eq_some_iff.mp (h.region_eq s hs)).1 with ⟨htwo, -⟩ | ⟨hthree, -⟩ <;> omega

/-- Variants are too long for a region. -/
theorem region?_variant {v : String} (hv : v ∈ l.variants) : region? v.toList = none := by
  have hlength := h.four_le_length hv
  rw [Option.eq_none_iff_forall_ne_some]
  intro s hs
  rcases (region?_eq_some_iff.mp hs).1 with ⟨htwo, -⟩ | ⟨hthree, -⟩ <;> omega

/-- The tag of a locale is read as this locale unless its first variant passes for a script. -/
theorem parse?_tag_iff : parse? l.tag = some l ↔ ¬ l.VariantLikeScript := by
  rw [parse?_eq_some_iff, h.splitOnP_tag]
  constructor
  · rintro ⟨first, parts, rest, rest', hsplit, -, hscript, -, -⟩ ⟨hnone, hregion, v, hv, hletters⟩
    obtain ⟨vs, hvs⟩ := List.head?_eq_some_iff.mp hv
    obtain ⟨s, hs⟩ := Option.isSome_iff_exists.mp ((script?_isSome_iff v.toList).mpr hletters)
    obtain ⟨-, rfl⟩ := List.cons.inj hsplit
    rw [hnone, hregion, hvs] at hscript
    simp [optional, hs] at hscript
  · intro hlike
    refine ⟨_, _, _, _, rfl, h.language_eq, optional_toList_append h.script_eq fun hnone s hs ↦ ?_,
      optional_toList_append h.region_eq fun _ v hv ↦ h.region?_variant (List.mem_of_mem_head? hv),
      h.variants_eq⟩
    -- Without a script, the region or else the first variant stands where a script is looked for.
    cases hregion : l.region with
    | some r =>
        obtain rfl : r = s := by simpa [hregion] using hs
        exact h.script?_region hregion
    | none =>
        rw [← Option.not_isSome_iff_eq_none, script?_isSome_iff]
        intro hletters
        refine hlike ⟨hnone, hregion, s, ?_, hletters⟩
        simpa [hregion] using hs

end Normal

end Locale

end FluentShapes
